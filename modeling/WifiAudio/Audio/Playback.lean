import WifiAudio.Audio.Poll
import WifiAudio.Audio.WavFile

/-!
# Playing a file

`audio_copy` with `poll_reader` set and a file as its source. What the loop reads is what the file
returns, and `on_done`, which the file calls once it has been read to its end, sets `dead`.
-/

namespace WifiAudio

structure Playback where
  poll : Poll
  source : RawSource

namespace Playback

/-- The steps of the loop, and what is done to the clients meanwhile. -/
inductive Action
  | halt
  | acquire
  | read
  | put
  | get
  | copy (act : AudioCopy.Action)

def Action.own : Action → Bool
  | .copy (.newClient _) => false
  | .copy (.play _) => false
  | .copy (.remove _) => false
  | _ => true

/-- The flag that `on_done` sets. -/
def dead (p : Playback) : Bool := 0 < p.source.doneCalls

/-- `Reader::create` asks the file how much can be read at once. -/
def new (e : Engine) (source : RawSource) (memory : ℕ → ℕ → UInt8) : Except Fault Playback := do
  return ⟨← Poll.new e source.maxReadBytes memory, source⟩

/-- The call of the encoder, with what it writes for the samples at hand. -/
def call (p : Playback) : AudioCopy.Action → AudioCopy.Action
  | .encode result out =>
      match p.poll.reader.consumer with
      | .holding block =>
          .encode result (p.poll.copy.engine.codec.encoded (p.poll.reader.data block.data) out)
      | .waiting => .encode result out
  | act => act

/-- A step of the loop, after the source has been read. -/
def polled (p : Playback) (a : Poll.Action) : Option (Except Fault Playback) :=
  (p.poll.exec a).map fun r => do return { p with poll := ← r }

/-- One step; a fault when it goes wrong, nothing when it is not its turn. -/
def exec (p : Playback) : Action → Option (Except Fault Playback)
  | .halt => if p.dead then p.polled .halt else none
  | .acquire => if p.dead then none else p.polled .acquire
  | .read =>
      match p.poll.reader.producer with
      | .filling _ content =>
          match p.source.read (p.poll.reader.todo content.length) with
          | .ok (bytes, source) => ({ p with source := source } : Playback).polled (.read bytes)
          | .error fault => some (.error fault)
      | _ => none
  | .put => p.polled .put
  | .get => p.polled .get
  | .copy act => p.polled (.copy (p.call act))

def Step (p : Playback) (a : Action) (p' : Playback) : Prop := p.exec a = some (.ok p')

end Playback

end WifiAudio
