import WifiAudio.Lib.FileStream
import WifiAudio.Lib.Transition
import WifiAudio.Audio.Codec

/-!
# WAV files

`wav_file.cpp`: sources that read a file and sinks that write one, each as raw bytes or behind the
header of a WAV file. The sizes in that header are left open when a file is begun and are filled in
when it is closed.
-/

namespace WifiAudio

/-- The number bytes in little-endian order stand for. -/
def littleEndian (bytes : Bytes) : ℕ := bytes.foldr (fun b v => b.toNat + 256 * v) 0

def le16 (v : UInt16) : Bytes := [v.toUInt8, (v >>> 8).toUInt8]

def le32 (v : UInt32) : Bytes :=
  [v.toUInt8, (v >>> 8).toUInt8, (v >>> 16).toUInt8, (v >>> 24).toUInt8]

structure WavFileHeader where
  riffChunk : Bytes
  chunkSize : UInt32
  fileFormat : Bytes
  formatChunk : Bytes
  formatSize : UInt32
  pcmFlags : UInt16
  channels : UInt16
  sampleRate : UInt32
  byteRate : UInt32
  blockAlign : UInt16
  bitDepth : UInt16
  dataChunk : Bytes
  dataSize : UInt32
  deriving DecidableEq, Repr

namespace WavFileHeader

/-- `sizeof(WavFileHeader)`. -/
def size : ℕ := 44

/-- The places of the fields that are filled in later. -/
def chunkSizeOffset : ℕ := 4
def dataSizeOffset : ℕ := 40

def field16 (m : Bytes) (offset : ℕ) : UInt16 := UInt16.ofNat (littleEndian ((m.drop offset).take 2))

def field32 (m : Bytes) (offset : ℕ) : UInt32 := UInt32.ofNat (littleEndian ((m.drop offset).take 4))

/-- The header at the start of `m`. -/
def ofBytes (m : Bytes) : WavFileHeader where
  riffChunk := m.take 4
  chunkSize := field32 m chunkSizeOffset
  fileFormat := (m.drop 8).take 4
  formatChunk := (m.drop 12).take 4
  formatSize := field32 m 16
  pcmFlags := field16 m 20
  channels := field16 m 22
  sampleRate := field32 m 24
  byteRate := field32 m 28
  blockAlign := field16 m 32
  bitDepth := field16 m 34
  dataChunk := (m.drop 36).take 4
  dataSize := field32 m dataSizeOffset

/-- The header in memory; the fields between the two sizes are grouped. -/
def toBytes (h : WavFileHeader) : Bytes :=
  h.riffChunk ++ le32 h.chunkSize ++ (h.fileFormat ++ h.formatChunk ++ le32 h.formatSize ++
    le16 h.pcmFlags ++ le16 h.channels ++ le32 h.sampleRate ++ le32 h.byteRate ++
    le16 h.blockAlign ++ le16 h.bitDepth ++ h.dataChunk) ++ le32 h.dataSize

/-- The header `WavSink::open` writes. -/
def initial : WavFileHeader where
  riffChunk := ascii "RIFF"
  chunkSize := 0
  fileFormat := ascii "WAVE"
  formatChunk := ascii "fmt "
  formatSize := 16
  pcmFlags := 1
  channels := 2
  sampleRate := 48000
  byteRate := 48000 * 2 * 2
  blockAlign := 4
  bitDepth := 16
  dataChunk := ascii "data"
  dataSize := 0

/-- The checks of `WavSource::open`. -/
def accepted (h : WavFileHeader) : Bool :=
  h.riffChunk = ascii "RIFF" ∧ h.fileFormat = ascii "WAVE" ∧ h.formatChunk = ascii "fmt " ∧
    h.dataChunk = ascii "data" ∧ h.formatSize = 16 ∧ h.channels = 2 ∧ h.sampleRate = 48000 ∧
    h.byteRate = 4 * 48000 ∧ h.pcmFlags = 1 ∧ h.bitDepth = 16

end WavFileHeader

/-! ### Sources -/

/-- What `stat` and `fopen` find at a path. -/
inductive PathEntry
  | missing
  | unreadable (size : ℕ)
  | file (contents : Bytes)

/-- A source; `doneCalls` counts the calls of `on_done`. -/
structure RawSource where
  size : ℕ
  file : Option (FileStream UInt8)
  onDone : Bool
  doneCalls : ℕ

namespace RawSource

def new : RawSource := ⟨0, none, false, 0⟩

def setOnDone (s : RawSource) (fn : Bool) : RawSource := { s with onDone := fn }

def «open» (s : RawSource) : PathEntry → Bool × RawSource
  | .missing => (false, s)
  | .unreadable size => (false, { s with size := toSize size, file := none })
  | .file contents =>
      (true, { s with size := toSize contents.length, file := some (.ofContents contents) })

def done (s : RawSource) : Bool := s.file.elim true FileStream.eof

def read (s : RawSource) (bytes : ℕ) : Except Fault (Bytes × RawSource) :=
  let s := if s.onDone && s.done then { s with doneCalls := s.doneCalls + 1 } else s
  match s.file with
  | none => .error .nullPointer
  | some file =>
      let (data, file) := file.read bytes
      .ok (data, { s with file := some file })

def maxReadBytes (s : RawSource) : ℕ := s.size

/-- Successive calls of `read`, with what each returned. -/
def reads (s : RawSource) : List ℕ → Except Fault (List Bytes × RawSource)
  | [] => .ok ([], s)
  | n :: ns => do
      let (data, s) ← s.read n
      let (rest, s) ← s.reads ns
      return (data :: rest, s)

end RawSource

/-- `WavSource::open`: the header is read and checked, and the file stays open behind it. -/
def WavSource.open (s : RawSource) (entry : PathEntry) : Bool × RawSource :=
  match s.open entry with
  | (false, s) => (false, s)
  | (true, s) =>
      match s.file with
      | none => (false, s)
      | some file =>
          let (header, file) := file.read WavFileHeader.size
          let s := { s with file := some file }
          if header.length < WavFileHeader.size then (false, s)
          else ((WavFileHeader.ofBytes header).accepted, s)

/-! ### Sinks -/

/-- A sink: the bytes counted by `write`, the open file, and the contents of the files that were
closed. -/
structure RawSink where
  written : ℕ
  file : Option (FileStream UInt8)
  files : List Bytes

namespace RawSink

def new : RawSink := ⟨0, none, []⟩

/-- `fopen` returns a file if `success` says so. -/
def «open» (s : RawSink) (success : Bool) : Bool × RawSink :=
  if success then (true, { s with file := some (.ofContents []) })
  else (false, { s with file := none })

/-- `write` of `data`, of which `fwrite` stores the first `stored` bytes. -/
def write (s : RawSink) (data : Bytes) (stored : ℕ) : Except Fault (Bool × RawSink) :=
  match s.file with
  | none => .error .nullPointer
  | some file =>
      let s := { s with file := some (file.write (data.take stored)) }
      if stored ≠ data.length then .ok (false, s)
      else .ok (true, { s with written := toSize (s.written + stored) })

def close (s : RawSink) : Bool × RawSink :=
  match s.file with
  | none => (true, s)
  | some file => (true, { s with file := none, files := s.files ++ [file.contents] })

end RawSink

/-! The calls of the C library that `WavSink` makes itself, all but those of `write`, succeed. -/

namespace WavSink

def «open» (s : RawSink) (success : Bool) : Bool × RawSink :=
  let s := (s.open success).2
  match s.file with
  | none => (false, s)
  | some file => (true, { s with file := some (file.write WavFileHeader.initial.toBytes) })

def writeHeader (file : FileStream UInt8) (offset : ℕ) (data : UInt32) : FileStream UInt8 :=
  (file.seek offset).write (le32 data)

def close (s : RawSink) : Bool × RawSink :=
  match s.file with
  | none => (true, s)
  | some file =>
      let chunkSize := UInt32.ofNat (s.written + WavFileHeader.size - 8)
      let dataSize := UInt32.ofNat s.written
      let file := writeHeader file WavFileHeader.chunkSizeOffset chunkSize
      let file := writeHeader file WavFileHeader.dataSizeOffset dataSize
      RawSink.close { s with file := some file.seekEnd }

/-- The destructor is that of `RawSink`, in which `close` is the one of `RawSink`. -/
def destroy (s : RawSink) : RawSink := (RawSink.close s).2

/-- A call of the object: `open`, with the result of `fopen`; `write`, of which some bytes are stored;
`close`. -/
inductive Call
  | «open» (success : Bool)
  | write (data : Bytes) (stored : Fin (data.length + 1))
  | close

/-- One call; nothing when it must not be made: `open` with a file open, `write` without one. -/
def exec (s : RawSink) : Call → Option RawSink
  | .open success => if s.file.isNone then some (WavSink.open s success).2 else none
  | .write data stored => (s.write data stored).toOption.map Prod.snd
  | .close => some (close s).2

def Step (s : RawSink) (call : Call) (s' : RawSink) : Prop := exec s call = some s'

end WavSink

end WifiAudio
