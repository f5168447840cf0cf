import WifiAudio.Lib.Transition
import WifiAudio.Lib.CString

/-!
# The reader and the encoder thread

`_Reader` of `utils.cpp` with its two threads. The reader thread runs `acquire` again and again: it
fills one of `numBlocks` buffers, taken in turn, with as many reads of the source as that needs, and
puts the block into a queue that waits when it is full. The encoder thread takes blocks from the
queue and works on each until it asks for the next one.
-/

namespace WifiAudio

namespace Reader

/-- `Reader::Block`: the buffer the data lies in and the number of bytes. `content` is what was read
from the source for this block; the code does not have it. -/
structure Block where
  data : ℕ
  bytes : ℕ
  content : Bytes
  deriving DecidableEq, Repr

/-- Where the reader thread is: before `acquire`, in its read loop, at the `put`, or done. -/
inductive Producer
  | idle
  | filling (buff : ℕ) (content : Bytes)
  | putting (block : Block)
  | done
  deriving DecidableEq, Repr

/-- Where the encoder thread is: in `read`, or at work on a block. -/
inductive Consumer
  | waiting
  | holding (block : Block)
  deriving DecidableEq, Repr

end Reader

open Reader in
/-- The reader: block size, read limit, the buffers and the index of the next one to fill, the
queue, and the two threads. -/
structure Reader where
  size : ℕ
  maxRead : ℕ
  numBlocks : ℕ
  idx : ℕ
  data : ℕ → Bytes
  queue : List Block
  producer : Producer
  consumer : Consumer

namespace Reader

/-- The steps of the two threads. `read` is one call of `src->read`, with the bytes it returns;
`halt` is the reader thread seeing `*dead`. -/
inductive Action
  | acquire
  | read (bytes : Bytes)
  | put
  | halt
  | release
  | get
  deriving DecidableEq, Repr

/-- The reader as it is made; `memory` is what `malloc` leaves in each of the buffers. -/
def new (size maxRead numBlocks : ℕ) (memory : ℕ → ℕ → UInt8) : Reader where
  size := size
  maxRead := maxRead
  numBlocks := numBlocks
  idx := 0
  data := fun buff => (List.range size).map (memory buff)
  queue := []
  producer := .idle
  consumer := .waiting

theorem length_data_new {size maxRead numBlocks : ℕ} {memory : ℕ → ℕ → UInt8} (buff : ℕ) :
    ((new size maxRead numBlocks memory).data buff).length = size :=
  (List.length_map _).trans List.length_range

/-- How many bytes the next read asks for, `total` being read already. -/
def todo (r : Reader) (total : ℕ) : ℕ := min (r.size - total) r.maxRead

/-- `bytes` written over the contents of a buffer from `total` on. -/
def overwrite (buffer : Bytes) (total : ℕ) (bytes : Bytes) : Bytes :=
  buffer.take total ++ bytes ++ buffer.drop (total + bytes.length)

/-- The block the loop ends with. -/
def filled (buff : ℕ) (content : Bytes) : Block := ⟨buff, content.length, content⟩

def startFill (r : Reader) (buff : ℕ) : Producer :=
  if 0 < r.size then .filling buff [] else .putting (filled buff [])

/-- The loop goes on while the block is not full and the last read returned something. -/
def continueFill (r : Reader) (buff : ℕ) (content bytes : Bytes) : Producer :=
  if bytes ≠ [] ∧ (content ++ bytes).length < r.size then .filling buff (content ++ bytes)
  else .putting (filled buff (content ++ bytes))

/-- One step of one thread; nothing when that thread cannot take it. -/
def exec (r : Reader) : Action → Option Reader
  | .acquire =>
      match r.producer with
      | .idle => some { r with
          producer := r.startFill r.idx
          idx := (r.idx + 1) % r.numBlocks }
      | _ => none
  | .read bytes =>
      match r.producer with
      | .filling buff content =>
          if bytes.length ≤ r.todo content.length then some { r with
            producer := r.continueFill buff content bytes
            data := Function.update r.data buff (overwrite (r.data buff) content.length bytes) }
          else none
      | _ => none
  | .put =>
      match r.producer with
      | .putting block =>
          if r.queue.length < r.numBlocks then some { r with
            producer := if block.bytes = 0 then .done else .idle
            queue := r.queue ++ [block] }
          else none
      | _ => none
  | .halt =>
      match r.producer with
      | .idle => some { r with producer := .done }
      | _ => none
  | .release =>
      match r.consumer with
      | .holding _ => some { r with consumer := .waiting }
      | .waiting => none
  | .get =>
      match r.consumer, r.queue with
      | .waiting, block :: rest => some { r with consumer := .holding block, queue := rest }
      | _, _ => none

def Step (r : Reader) (a : Action) (r' : Reader) : Prop := r.exec a = some r'

/-- The blocks the encoder thread still needs: the one it works on and those in the queue. -/
def outstanding (r : Reader) : List Block :=
  match r.consumer with
  | .waiting => r.queue
  | .holding block => block :: r.queue

end Reader

end WifiAudio
