import WifiAudio.Audio.Reader
import WifiAudio.Rtsp.Protocol

/-!
# Filling a block

`_Reader::acquire` of `utils.cpp` as one call, for any source: the reads of its loop and the block it
puts into the queue. `ESP32_I2S` of `i2s.cpp` is a source; its `read` asserts that no more is asked for
than it has promised to deliver at once.
-/

namespace WifiAudio

/-- `AudioSource`: `read` is given the bytes at `dest`, as many as it is asked for, and the index of the
read. It leaves other bytes there and returns how many of them it has read, at most as many as it was
asked for, as long as these are no more than `maxRead`. -/
structure AudioSource (maxRead : ℕ) (σ : Type) where
  read : σ → Bytes → ℤ → Except Fault (Bytes × ℕ × σ)
  returns : ∀ (s : σ) (dest : Bytes) (idx : ℤ), dest.length ≤ maxRead →
    ∃ data rd s', read s dest idx = .ok (data, rd, s') ∧ data.length = dest.length ∧ rd ≤ dest.length

namespace Esp32I2s

/-- `max_read_bytes`: the limit of the DMA buffer. -/
def maxReadBytes : ℕ := 4064

/-- The ASSERT of `read`. -/
def readAsserts (bytes : ℕ) : Bool := bytes ≤ maxReadBytes

/-- `i2s_channel_read`: it stores bytes at `dest` and reports how many, or an error. -/
structure Driver (σ : Type) where
  channelRead : σ → Bytes → Bytes × Option ℕ × σ
  stores : ∀ s dest, (channelRead s dest).1.length = dest.length
  reports : ∀ s dest n, (channelRead s dest).2.1 = some n → n ≤ dest.length

variable {σ : Type} (driver : Driver σ)

/-- An error is reported as no bytes. -/
def read (s : σ) (dest : Bytes) (_ : ℤ) : Except Fault (Bytes × ℕ × σ) :=
  if readAsserts dest.length then
    let (data, bytesRead, s) := driver.channelRead s dest
    .ok (data, bytesRead.getD 0, s)
  else .error .assertFailed

def source : AudioSource maxReadBytes σ where
  read := read driver
  returns s dest idx hdest := by
    refine ⟨_, _, _, if_pos (decide_eq_true hdest), driver.stores s dest, ?_⟩
    cases hread : (driver.channelRead s dest).2.1 with
    | none => exact Nat.zero_le _
    | some n => exact driver.reports s dest n hread

end Esp32I2s

namespace Reader

/-- A call of `src->read`: where in the buffer, how many bytes it asks for, its index, and the bytes
it has read. -/
structure ReadCall where
  start : ℕ
  asked : ℕ
  idx : ℤ
  bytes : Bytes
  deriving DecidableEq, Repr

/-- The buffer after the read loop, the bytes in it, the source, and the calls made. -/
structure Filled (σ : Type) where
  buff : Bytes
  total : ℕ
  source : σ
  calls : List ReadCall

variable {σ : Type}

/-- The read loop: `total` bytes are in the buffer, and `read` is the index of the next read. -/
def fill {maxRead : ℕ} (src : AudioSource maxRead σ) (size : ℕ) :
    ℕ → ℕ → ℤ → Bytes → σ → Except Fault (Filled σ)
  | fuel, total, read, buff, s =>
      if total < size then
        match fuel with
        | 0 => .error .diverges
        | fuel + 1 => do
            let todo := size - total
            let block := if todo > maxRead then maxRead else todo
            if buff.length < total + block then throw .outOfBounds
            let (data, rd, s) ← src.read s ((buff.drop total).take block) read
            let buff := overwrite buff total data
            let call : ReadCall := ⟨total, block, read, data.take rd⟩
            if rd = 0 then return ⟨buff, total + rd, s, [call]⟩
            let filled ← fill src size fuel (total + rd) (toInt (read + 1)) buff s
            return { filled with calls := call :: filled.calls }
      else .ok ⟨buff, total, s, []⟩

/-- What `acquire` leaves behind: its result, the reader and the source, and the calls made. -/
structure Acquired (σ : Type) where
  result : Bool
  reader : Reader
  source : σ
  calls : List ReadCall

/-- `acquire`, up to the waiting of `put` for room in the queue. -/
def acquire (r : Reader) (src : AudioSource r.maxRead σ) (fuel : ℕ) (s : σ) :
    Except Fault (Acquired σ) := do
  let filled ← fill src r.size fuel 0 0 (r.data r.idx) s
  let block : Block := ⟨r.idx, filled.total, filled.calls.flatMap ReadCall.bytes⟩
  return {
    result := filled.total ≠ 0
    reader := { r with
      idx := (r.idx + 1) % r.numBlocks
      data := Function.update r.data r.idx filled.buff
      queue := r.queue ++ [block] }
    source := filled.source
    calls := filled.calls }

end Reader

end WifiAudio
