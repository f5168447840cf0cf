import WifiAudio.Lib.Transition
import WifiAudio.Rtp.Engine

/-!
# The streaming loop

`audio_copy` of `utils.cpp`: each block of samples is encoded into a free packet buffer and sent.
Clients join and leave the playing list between any two of its steps.
-/

namespace WifiAudio

/-- A call of `codec->encode`: the sample count and the output size it passes, and the block whose
payload it writes. -/
structure EncodeCall where
  samples : ℕ
  block : ℕ
  obytes : ℕ
  deriving DecidableEq, Repr

/-- Where the loop is: before its next block of samples, with a buffer to encode into, or with
`bytes` encoded. -/
inductive Loop
  | head
  | encoding (block : ℕ)
  | sending (block bytes : ℕ)
  deriving DecidableEq, Repr

structure AudioCopy where
  engine : Engine
  loop : Loop

namespace AudioCopy

/-- A step of the loop or of another thread: a block of samples has been read; it is encoded, the
Opus encoder returning `result` and `written` being what the codec writes; the packet is sent; a
client is made, joins or leaves. -/
inductive Action
  | samples
  | encode (result : ℤ) (written : Bytes)
  | send (results : ℕ → ℤ)
  | newClient (socket : UdpSocket)
  | play (c : ℕ)
  | remove (c : ℕ)

def new (e : Engine) : AudioCopy := ⟨e, .head⟩

/-- The step up to the encoder: without clients, or without a free block, the samples are dropped. -/
def takeBlock (a : AudioCopy) : AudioCopy :=
  if a.engine.hasClients then
    match a.engine.getFree with
    | (some b, e) => ⟨e, .encoding b⟩
    | (none, e) => ⟨e, .head⟩
  else a

/-- The call made for block `b`. -/
def encodeCall (e : Engine) (b : ℕ) : Except Fault EncodeCall := do
  return ⟨← e.codec.samplesPerPacket, b, ← e.rxBytes⟩

/-- The call with what it does to the payload; the number of bytes it reports. -/
def encode (e : Engine) (b : ℕ) (result : ℤ) (written : Bytes) : Except Fault (ℕ × Engine) := do
  let call ← encodeCall e b
  let bytes ← e.codec.encode call.samples call.obytes result
  let e ← e.writeAudio b (written.take (e.codec.encodeWrites call.samples call.obytes))
  return (bytes, e)

/-- One step; a fault when it goes wrong, nothing when it is not its turn. -/
def exec (a : AudioCopy) : Action → Option (Except Fault AudioCopy)
  | .samples =>
      match a.loop with
      | .head => some (.ok a.takeBlock)
      | _ => none
  | .encode result written =>
      match a.loop with
      | .encoding b => some do
          let (bytes, e) ← encode a.engine b result written
          return ⟨e, .sending b bytes⟩
      | _ => none
  | .send results =>
      match a.loop with
      | .sending b bytes => some do
          let samples ← a.engine.codec.samplesPerPacket
          let e ← a.engine.send b bytes samples results
          return ⟨e, .head⟩
      | _ => none
  | .newClient socket => some (.ok { a with engine := (a.engine.newClient socket).2 })
  | .play c => some (.ok { a with engine := a.engine.play (some c) })
  | .remove c => some do
      let e ← a.engine.remove (some c)
      return { a with engine := e }

def Step (a : AudioCopy) (act : Action) (a' : AudioCopy) : Prop := a.exec act = some (.ok a')

end AudioCopy

end WifiAudio
