import WifiAudio.Audio.WavFile
import WifiAudio.Lib.Except

/-!
# What is read from a WAV file

`WavSource::open` reads the header and checks it, but `read` is that of a raw file: it goes on to the end
of the file and knows nothing of the size of the data chunk. So the chunks that follow the data are
read as data.
-/

namespace WifiAudio

open Except

namespace RawSource

variable {s s' : RawSource} {file : FileStream UInt8}

theorem read_file (hfile : s.file = some file) (n : ℕ) : ∃ s', s.read n = .ok ((file.read n).1, s') ∧
    s'.file = some (file.read n).2 := by
  unfold read
  cases hdone : s.onDone && s.done <;> simp [hfile]

theorem reads_file (hfile : s.file = some file) (ns : List ℕ) :
    ∃ s', s.reads ns = .ok ((file.reads ns).1, s') ∧ s'.file = some (file.reads ns).2 := by
  induction ns generalizing s file with
  | nil => exact ⟨s, rfl, hfile⟩
  | cons n ns ih =>
      obtain ⟨s₁, hread, hfile₁⟩ := read_file hfile n
      obtain ⟨s₂, hreads, hfile₂⟩ := ih hfile₁
      refine ⟨s₂, ?_, hfile₂⟩
      rw [reads, hread, ok_bind]
      simp only [hreads, ok_bind]
      rfl

/-- Reads of the sizes `ns` return the bytes `got`, none of them nothing, and the next one, of `n` bytes,
returns nothing. -/
def ReadsUpTo (s : RawSource) (ns : List ℕ) (n : ℕ) (got : List Bytes) : Prop :=
  ∃ s' s'', s.reads ns = .ok (got, s') ∧ (∀ bytes ∈ got, bytes ≠ []) ∧ s'.read n = .ok ([], s'')

theorem ReadsUpTo.flatten {ns : List ℕ} {n : ℕ} {got : List Bytes} (h : s.ReadsUpTo ns n got)
    (hfile : s.file = some file) : got.flatten = file.rest.take ns.sum := by
  obtain ⟨s', s'', hreads, -, -⟩ := h
  obtain ⟨s₁, hreads', -⟩ := reads_file hfile ns
  obtain ⟨rfl, -⟩ := Prod.mk.inj (Except.ok.inj (hreads.symm.trans hreads'))
  exact (file.reads_flatten ns).1

end RawSource

namespace WavSource

variable {s src : RawSource} {header data chunks : Bytes}

/-- An open that succeeds leaves the file behind the header. -/
theorem open_rest (hheader : header.length = WavFileHeader.size)
    (hopen : WavSource.open s (.file (header ++ data)) = (true, src)) :
    ∃ file, src.file = some file ∧ file.rest = data := by
  simp only [WavSource.open, RawSource.open] at hopen
  split at hopen
  · cases congrArg Prod.fst hopen
  · obtain rfl := congrArg Prod.snd hopen
    refine ⟨_, rfl, ?_⟩
    rw [FileStream.rest_read]
    change (header ++ data).drop WavFileHeader.size = data
    rw [← hheader, List.drop_left]

/-- The first `k` bytes are the data: there are `k` of them, or there is nothing else. -/
theorem take_eq_data_iff {k : ℕ} :
    (data ++ chunks).take k = data ↔ chunks = [] ∧ data.length ≤ k ∨ k = data.length := by
  constructor
  · intro htake
    have hlength := congrArg List.length htake
    rw [List.length_take, List.length_append] at hlength
    by_cases hk : k = data.length
    · exact .inr hk
    · exact .inl ⟨List.eq_nil_of_length_eq_zero (by omega), by omega⟩
  · rintro (⟨rfl, hle⟩ | rfl)
    · rw [List.append_nil, List.take_of_length_le hle]
    · exact List.take_left

/-- A file is accepted: a header, as many bytes of data as that says, and whatever follows. The bytes
returned up to the first read that returns nothing are exactly the data if and only if nothing follows
and all the data was asked for, or just as much was asked for as there is data. -/
theorem reads_data_iff (s src : RawSource) (header data chunks : Bytes)
    (hheader : header.length = WavFileHeader.size)
    (hdata : data.length = (WavFileHeader.ofBytes header).dataSize.toNat)
    (hopen : WavSource.open s (.file (header ++ (data ++ chunks))) = (true, src))
    (ns : List ℕ) (n : ℕ) (got : List Bytes) (hreads : src.ReadsUpTo ns n got) :
    got.flatten = data ↔
      chunks = [] ∧ (WavFileHeader.ofBytes header).dataSize.toNat ≤ ns.sum ∨
        ns.sum = (WavFileHeader.ofBytes header).dataSize.toNat := by
  obtain ⟨file, hfile, hrest⟩ := open_rest hheader hopen
  rw [hreads.flatten hfile, hrest, take_eq_data_iff, hdata]

/-- The header of a file with four bytes of data. -/
def smallHeader : Bytes := { WavFileHeader.initial with chunkSize := 52, dataSize := 4 }.toBytes

/-- A chunk with a list of tags, here without any. -/
def listChunk : Bytes := ascii "LIST" ++ le32 4 ++ ascii "INFO"

/-- The chunk behind the data is returned with it. -/
theorem chunk_read_as_data : ∃ src, WavSource.open .new
      (.file (smallHeader ++ ([1, 2, 3, 4] ++ listChunk))) = (true, src) ∧
    src.ReadsUpTo [1440] 1440 [[1, 2, 3, 4] ++ listChunk] ∧
    (WavFileHeader.ofBytes smallHeader).dataSize = 4 ∧
    ([[1, 2, 3, 4] ++ listChunk] : List Bytes).flatten ≠ [1, 2, 3, 4] := by
  refine ⟨_, rfl, ⟨_, _, rfl, by decide +kernel, rfl⟩, by decide, ?_⟩
  decide

/-- A file that ends with its data. -/
theorem reads_data_small : ∃ src, WavSource.open .new
      (.file (smallHeader ++ ([1, 2, 3, 4] ++ []))) = (true, src) ∧
    src.ReadsUpTo [3, 3] 3 [[1, 2, 3], [4]] ∧
    ([[1, 2, 3], [4]] : List Bytes).flatten = [1, 2, 3, 4] := by
  have hfound : ∃ src, WavSource.open .new (.file (smallHeader ++ ([1, 2, 3, 4] ++ []))) = (true, src) ∧
      src.ReadsUpTo [3, 3] 3 [[1, 2, 3], [4]] :=
    ⟨_, rfl, _, _, rfl, by decide +kernel, rfl⟩
  obtain ⟨src, hopen, hreads⟩ := hfound
  exact ⟨src, hopen, hreads, (reads_data_iff .new src smallHeader [1, 2, 3, 4] [] rfl (by decide) hopen
    [3, 3] 3 _ hreads).2 (.inl ⟨rfl, by decide⟩)⟩

end WavSource

end WifiAudio
