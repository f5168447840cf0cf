import WifiAudio.Audio.Copy
import WifiAudio.Audio.Reader

/-!
# The polled loop

`audio_copy` with `poll_reader` set: there is no reader thread. Every round of the loop fills a block
with `acquire`, takes it out of the queue with `read` and works on it. Clients come and go between any
two of its steps.
-/

namespace WifiAudio

namespace Poll

/-- Where the loop is: at its head, inside `acquire`, before `read`, at work on the block it has, or
left. -/
inductive Place
  | head
  | acquiring
  | reading
  | working
  | done
  deriving DecidableEq, Repr

end Poll

/-- The reader and the encoder of one thread. `ended` says that the source has returned no bytes,
which it then does for ever; `stream` is what it returned so far and `inputs` are the buffers that were
passed to `encode`. -/
structure Poll where
  reader : Reader
  copy : AudioCopy
  place : Poll.Place
  ended : Bool
  stream : Bytes
  inputs : List Bytes

namespace Poll

/-- A step of the loop, the last one being a step of its second half or of another thread. -/
inductive Action
  | halt
  | acquire
  | read (bytes : Bytes)
  | put
  | get
  | copy (act : AudioCopy.Action)

/-- `Reader::create` makes two blocks of the size the engine asks for. -/
def new (e : Engine) (maxRead : ℕ) (memory : ℕ → ℕ → UInt8) : Except Fault Poll := do
  return ⟨.new (← e.rxBytes) maxRead 2 memory, .new e, .head, false, [], []⟩

/-- The loop after a step of its second half: when that is through, or the samples were dropped, it is
back at its head. -/
def worked (p : Poll) (inputs : List Bytes) (copy : AudioCopy) : Poll :=
  if copy.loop = .head then
    { p with
      reader := { p.reader with consumer := .waiting }
      copy := copy
      place := .head
      inputs := inputs }
  else { p with copy := copy, inputs := inputs }

/-- A step of the second half; `inputs` are the buffers passed to `encode` with it. -/
def work (p : Poll) (act : AudioCopy.Action) (inputs : List Bytes) : Option (Except Fault Poll) :=
  if p.place = .working then
    (p.copy.exec act).map fun r => do return p.worked inputs (← r)
  else none

/-- One step; a fault when it goes wrong, nothing when it is not its turn. -/
def exec (p : Poll) : Action → Option (Except Fault Poll)
  | .halt => if p.place = .head then some (.ok { p with place := .done }) else none
  | .acquire =>
      if p.place = .head then
        (p.reader.exec .acquire).map fun r => .ok { p with reader := r, place := .acquiring }
      else none
  | .read bytes =>
      if p.place = .acquiring ∧ (p.ended → bytes = []) then
        (p.reader.exec (.read bytes)).map fun r => .ok { p with
          reader := r
          ended := p.ended || bytes.isEmpty
          stream := p.stream ++ bytes }
      else none
  | .put =>
      if p.place = .acquiring then
        (p.reader.exec .put).map fun r => .ok { p with
          reader := r
          place := if r.producer = .done then .done else .reading }
      else none
  | .get =>
      if p.place = .reading then
        (p.reader.exec .get).map fun r => .ok { p with reader := r, place := .working }
      else none
  | .copy (.encode result written) =>
      match p.reader.consumer with
      | .holding block => p.work (.encode result written) (p.inputs ++ [p.reader.data block.data])
      | .waiting => none
  | .copy .samples => p.work .samples p.inputs
  | .copy (.send results) => p.work (.send results) p.inputs
  | .copy act => (p.copy.exec act).map fun r => do return { p with copy := ← r }

def Step (p : Poll) (a : Action) (p' : Poll) : Prop := p.exec a = some (.ok p')

end Poll

end WifiAudio
