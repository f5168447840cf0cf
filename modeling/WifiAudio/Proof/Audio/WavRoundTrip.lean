import WifiAudio.Proof.Audio.WavSink
import WifiAudio.Proof.Audio.WavSource

/-!
# Reading back what was written

The file a sink leaves behind is a header, whatever sizes are filled into it, and the bytes of the
writes. A source accepts every such header and looks at no size in it, so it returns these bytes.
-/

namespace WifiAudio

open Except Transition

namespace WavFileHeader

variable {m : Bytes} {offset : ℕ}

theorem littleEndian_le16 (v : UInt16) : littleEndian (le16 v) = v.toNat := by
  have hlt := v.toNat_lt
  simp only [littleEndian, le16, List.foldr_cons, List.foldr_nil, UInt16.toNat_toUInt8,
    UInt16.toNat_shiftRight, Nat.shiftRight_eq_div_pow, UInt16.reduceToNat, Nat.reduceMod,
    Nat.reducePow]
  omega

theorem field16_eq {v : UInt16} (h : (m.drop offset).take 2 = le16 v) : field16 m offset = v := by
  rw [field16, h, littleEndian_le16]
  exact UInt16.ofNat_toNat

theorem field32_eq {v : UInt32} (h : (m.drop offset).take 4 = le32 v) : field32 m offset = v := by
  rw [field32, h, littleEndian_le32]
  exact UInt32.ofNat_toNat

theorem length_header (chunkSize dataSize : UInt32) : (file chunkSize dataSize []).length = size :=
  length_file chunkSize dataSize []

theorem file_append (chunkSize dataSize : UInt32) (data : Bytes) :
    file chunkSize dataSize data = file chunkSize dataSize [] ++ data := by
  simp only [file, List.append_assoc, List.append_nil]

/-- The checks of the source do not look at the sizes. -/
theorem accepted_file (chunkSize dataSize : UInt32) :
    (ofBytes (file chunkSize dataSize [])).accepted = true := by
  have hformatSize : field32 (file chunkSize dataSize []) 16 = 16 := field32_eq rfl
  have hpcmFlags : field16 (file chunkSize dataSize []) 20 = 1 := field16_eq rfl
  have hchannels : field16 (file chunkSize dataSize []) 22 = 2 := field16_eq rfl
  have hsampleRate : field32 (file chunkSize dataSize []) 24 = 48000 := field32_eq rfl
  have hbyteRate : field32 (file chunkSize dataSize []) 28 = 4 * 48000 := field32_eq rfl
  have hbitDepth : field16 (file chunkSize dataSize []) 34 = 16 := field16_eq rfl
  exact decide_eq_true ⟨rfl, rfl, rfl, rfl, hformatSize, hchannels, hsampleRate, hbyteRate, hpcmFlags,
    hbitDepth⟩

end WavFileHeader

namespace WavSink

open WavFileHeader

/-- The calls that write `pieces` into one file. -/
def recording (pieces : List Bytes) : List Call :=
  .open true :: (pieces.map fun data => .write data (Fin.last data.length)) ++ [.close]

/-- The open file has the initial header and `data`, and is written to at its end; `counted` bytes are
counted. -/
structure Holding (s : RawSink) (data : Bytes) (counted : ℕ) : Prop where
  file : ∃ eof, s.file = some ⟨file 0 0 data, 44 + data.length, eof⟩
  written : s.written % 2 ^ 32 = counted % 2 ^ 32

variable {s : RawSink} {data : Bytes} {counted : ℕ}

theorem Holding.write (h : Holding s data counted) (piece : Bytes) : ∃ s',
    Step s (.write piece (Fin.last piece.length)) s' ∧
      Holding s' (data ++ piece) (counted + piece.length) ∧ s'.files = s.files := by
  obtain ⟨⟨eof, hfile⟩, hcounted⟩ := h
  let s' := { s with
    file := some ⟨WavFileHeader.file 0 0 (data ++ piece), 44 + (data ++ piece).length, eof⟩
    written := toSize (s.written + piece.length) }
  have hwritten : s.write piece piece.length = .ok (true, s') := by
    simp only [RawSink.write, hfile, List.take_length, write_file, ne_eq, not_true_eq_false, if_false, s']
  have hstep : Step s (.write piece (Fin.last piece.length)) s' := by
    change (s.write piece piece.length).toOption.map Prod.snd = some s'
    rw [hwritten]
    rfl
  refine ⟨s', hstep, ⟨⟨eof, rfl⟩, ?_⟩, rfl⟩
  change toSize (s.written + piece.length) % 2 ^ 32 = _
  rw [toSize]
  omega

theorem Holding.writes (h : Holding s data counted) (pieces : List Bytes) : ∃ s',
    Run Step s (pieces.map fun piece => .write piece (Fin.last piece.length)) s' ∧
      Holding s' (data ++ pieces.flatten) (counted + pieces.flatten.length) ∧ s'.files = s.files := by
  induction pieces generalizing s data counted with
  | nil =>
      rw [List.flatten_nil, List.append_nil]
      exact ⟨s, .nil s, h, rfl⟩
  | cons piece pieces ih =>
      obtain ⟨s₁, hstep, hholding, hfiles⟩ := h.write piece
      obtain ⟨s', hrun, hholding', hfiles'⟩ := ih hholding
      rw [List.append_assoc, Nat.add_assoc, ← List.length_append] at hholding'
      exact ⟨s', .cons hstep hrun, hholding', hfiles'.trans hfiles⟩

theorem ofNat_congr {m n : ℕ} (h : m % 2 ^ 32 = n % 2 ^ 32) : UInt32.ofNat m = UInt32.ofNat n := by
  apply UInt32.toNat.inj
  rw [UInt32.toNat_ofNat', UInt32.toNat_ofNat']
  exact h

theorem Holding.close (h : Holding s data counted) : ∃ s', Step s .close s' ∧ s'.files =
    s.files ++ [WavFileHeader.file (UInt32.ofNat (counted + 36)) (UInt32.ofNat counted) data] := by
  obtain ⟨⟨eof, hfile⟩, hcounted⟩ := h
  have hstep : Step s .close (WavSink.close s).2 := rfl
  have hchunk : UInt32.ofNat (s.written + size - 8) = UInt32.ofNat (counted + 36) :=
    ofNat_congr (by rw [size]; omega)
  rw [close_file hfile, hchunk, ofNat_congr hcounted] at hstep
  exact ⟨_, hstep, rfl⟩

/-- A recording leaves one more file, with the pieces behind a header. -/
theorem recorded (hclosed : s.file = none) (pieces : List Bytes) : ∃ s', Run Step s (recording pieces) s' ∧
    s'.files = s.files ++ [file (UInt32.ofNat (s.written + pieces.flatten.length + 36))
      (UInt32.ofNat (s.written + pieces.flatten.length)) pieces.flatten] := by
  have hopen : Step s (.open true) (WavSink.open s true).2 := by
    rw [Step, exec, hclosed]
    rfl
  have hholding : Holding (WavSink.open s true).2 [] s.written := by
    rw [open_file]
    exact ⟨⟨false, rfl⟩, rfl⟩
  obtain ⟨s₁, hrun, hholding₁, hfiles₁⟩ := hholding.writes pieces
  obtain ⟨s', hclose, hfiles⟩ := hholding₁.close
  refine ⟨s', .cons hopen (hrun.append (.single hclose)), ?_⟩
  rw [hfiles, hfiles₁, open_file]
  rfl

end WavSink

namespace WavSource

open WavFileHeader

theorem open_file (src : RawSource) (chunkSize dataSize : UInt32) (data : Bytes) : ∃ src' stream,
    WavSource.open src (.file (file chunkSize dataSize data)) = (true, src') ∧
      src'.file = some stream ∧ stream.rest = data := by
  have hopen : ∃ src', WavSource.open src (.file (file chunkSize dataSize data)) = (true, src') := by
    have hheader : (file chunkSize dataSize data).take size = file chunkSize dataSize [] := by
      rw [file_append, ← length_header chunkSize dataSize, List.take_left]
    refine ⟨_, Prod.ext ?_ rfl⟩
    simp only [WavSource.open, RawSource.open, FileStream.read, FileStream.rest, FileStream.ofContents,
      List.drop_zero, hheader, length_header, lt_irrefl, if_false, accepted_file]
  obtain ⟨src', hopen⟩ := hopen
  have hopen' := hopen
  rw [file_append] at hopen'
  obtain ⟨stream, hfile, hrest⟩ := open_rest (length_header chunkSize dataSize) hopen'
  exact ⟨src', stream, hopen, hfile, hrest⟩

end WavSource

theorem RawSource.ReadsUpTo.flatten_eq_rest {src : RawSource} {stream : FileStream UInt8} {ns : List ℕ}
    {n : ℕ} {got : List Bytes} (h : src.ReadsUpTo ns n got) (hfile : src.file = some stream)
    (hn : 0 < n) : got.flatten = stream.rest := by
  rw [h.flatten hfile]
  obtain ⟨src₁, src₂, hreads, -, hlast⟩ := h
  obtain ⟨src₁', hreads', hfile₁⟩ := RawSource.reads_file hfile ns
  obtain ⟨-, rfl⟩ := Prod.mk.inj (Except.ok.inj (hreads.symm.trans hreads'))
  obtain ⟨src₂', hlast', -⟩ := RawSource.read_file hfile₁ n
  obtain ⟨hnothing, -⟩ := Prod.mk.inj (Except.ok.inj (hlast.symm.trans hlast'))
  have hrest : (stream.rest.drop ns.sum).take n = [] := by
    rw [← (stream.reads_flatten ns).2]
    exact hnothing.symm
  have hdone : stream.rest.drop ns.sum = [] := (List.take_eq_nil_iff.1 hrest).resolve_left (by omega)
  exact List.take_of_length_le (List.drop_eq_nil_iff.1 hdone)

/-- Bytes written in any pieces into one file are read back by reads of any sizes: these return as many
of the bytes as they ask for, and all of them up to the first read that returns nothing. The sizes in the
header are those of the sink's counter. -/
theorem written_read_back (sink : RawSink) (hclosed : sink.file = none) (src : RawSource)
    (pieces : List Bytes) : ∃ sink' contents src',
    Run WavSink.Step sink (WavSink.recording pieces) sink' ∧ sink'.files = sink.files ++ [contents] ∧
      (WavFileHeader.ofBytes contents).dataSize.toNat = (sink.written + pieces.flatten.length) % 2 ^ 32 ∧
      (WavFileHeader.ofBytes contents).chunkSize.toNat =
        (sink.written + pieces.flatten.length + 36) % 2 ^ 32 ∧
      WavSource.open src (.file contents) = (true, src') ∧
      (∀ ns, ∃ got src'', src'.reads ns = .ok (got, src'') ∧
        got.flatten = pieces.flatten.take ns.sum) ∧
      ∀ ns n got, 0 < n → src'.ReadsUpTo ns n got → got.flatten = pieces.flatten := by
  obtain ⟨sink', hrun, hfiles⟩ := WavSink.recorded hclosed pieces
  set dataSize := UInt32.ofNat (sink.written + pieces.flatten.length) with hdata
  set chunkSize := UInt32.ofNat (sink.written + pieces.flatten.length + 36) with hchunk
  obtain ⟨src', stream, hopen, hfile, hrest⟩ :=
    WavSource.open_file src chunkSize dataSize pieces.flatten
  refine ⟨sink', _, src', hrun, hfiles, ?_, ?_, hopen, ?_, ?_⟩
  · rw [WavFileHeader.dataSize_file, hdata, UInt32.toNat_ofNat']
  · rw [WavFileHeader.chunkSize_file, hchunk, UInt32.toNat_ofNat']
  · intro ns
    obtain ⟨src'', hreads, -⟩ := RawSource.reads_file hfile ns
    refine ⟨_, src'', hreads, ?_⟩
    rw [(stream.reads_flatten ns).1, hrest]
  · intro ns n got hn hreads
    rw [hreads.flatten_eq_rest hfile hn, hrest]

/-- Two pieces, the second file of a sink. -/
theorem written_read_back_two : ∃ sink' contents src',
    Run WavSink.Step ⟨3, none, [[1]]⟩ (WavSink.recording [[1, 2], [3, 4]]) sink' ∧
      sink'.files = [[1]] ++ [contents] ∧
      (WavFileHeader.ofBytes contents).dataSize.toNat = 7 ∧
      (WavFileHeader.ofBytes contents).chunkSize.toNat = 43 ∧
      WavSource.open .new (.file contents) = (true, src') ∧
      (∀ ns, ∃ got src'', src'.reads ns = .ok (got, src'') ∧
        got.flatten = [1, 2, 3, 4].take ns.sum) ∧
      ∀ ns n got, 0 < n → src'.ReadsUpTo ns n got → got.flatten = [1, 2, 3, 4] :=
  written_read_back ⟨3, none, [[1]]⟩ rfl .new [[1, 2], [3, 4]]

end WifiAudio
