import WifiAudio.Audio.WavFile
import WifiAudio.Lib.Except

/-!
# The sizes in the header of a WAV file

`WavSink::close` fills in the sizes from the number of bytes `write` has counted. That number is right
only for the first file of an object, since `open` does not start it again; it leaves out the bytes a
failed `write` has stored; and a file that is still open when the object is destroyed is closed by the
base class, which does not know of a header.
-/

namespace WifiAudio

open Except Transition

theorem littleEndian_le32 (v : UInt32) : littleEndian (le32 v) = v.toNat := by
  have hlt := v.toNat_lt
  simp only [littleEndian, le32, List.foldr_cons, List.foldr_nil, UInt32.toNat_toUInt8,
    UInt32.toNat_shiftRight, Nat.shiftRight_eq_div_pow, UInt32.reduceToNat, Nat.reduceMod,
    Nat.reducePow]
  omega

namespace WavFileHeader

theorem field32_le32 {front back : Bytes} {v : UInt32} {offset : ℕ} (hfront : front.length = offset) :
    field32 (front ++ le32 v ++ back) offset = v := by
  subst hfront
  rw [field32, List.append_assoc, List.drop_left]
  change UInt32.ofNat (littleEndian ((le32 v ++ back).take (le32 v).length)) = v
  rw [List.take_left, littleEndian_le32]
  exact UInt32.ofNat_toNat

/-- The part of the initial header between the two sizes. -/
def middle : Bytes :=
  ascii "WAVE" ++ ascii "fmt " ++ le32 16 ++ le16 1 ++ le16 2 ++ le32 48000 ++ le32 (48000 * 2 * 2) ++
    le16 4 ++ le16 16 ++ ascii "data"

/-- The file with the given sizes in its header. -/
def file (chunkSize dataSize : UInt32) (data : Bytes) : Bytes :=
  ascii "RIFF" ++ le32 chunkSize ++ (middle ++ le32 dataSize ++ data)

theorem file_eq (chunkSize dataSize : UInt32) (data : Bytes) : file chunkSize dataSize data =
    (ascii "RIFF" ++ le32 chunkSize ++ middle) ++ le32 dataSize ++ data := by
  simp only [file, List.append_assoc]

theorem length_file (chunkSize dataSize : UInt32) (data : Bytes) :
    (file chunkSize dataSize data).length = 44 + data.length := by
  simp only [file, List.length_append]
  change 4 + 4 + (32 + 4 + data.length) = _
  omega

theorem initial_file : initial.toBytes = file 0 0 [] := rfl

theorem chunkSize_file (chunkSize dataSize : UInt32) (data : Bytes) :
    (ofBytes (file chunkSize dataSize data)).chunkSize = chunkSize := by
  have hfront : (ascii "RIFF").length = chunkSizeOffset := rfl
  exact field32_le32 hfront

theorem dataSize_file (chunkSize dataSize : UInt32) (data : Bytes) :
    (ofBytes (file chunkSize dataSize data)).dataSize = dataSize := by
  have hfront : (ascii "RIFF" ++ le32 chunkSize ++ middle).length = dataSizeOffset := rfl
  rw [file_eq]
  exact field32_le32 hfront

end WavFileHeader

namespace WavSink

open WavFileHeader

/-- The sizes in the header are those of the file, if it has a header and they fit. -/
def Sized (contents : Bytes) : Prop :=
  44 ≤ contents.length → contents.length < 2 ^ 32 →
    (ofBytes contents).chunkSize.toNat = contents.length - 8 ∧
      (ofBytes contents).dataSize.toNat = contents.length - 44

/-! ### The calls of a life -/

/-- What the calls made for one file amount to: the bytes counted before it was opened, those of its
writes that succeeded, those that its other writes stored, and whether `close` was called. -/
structure Outcome where
  earlier : ℕ
  counted : ℕ
  failed : ℕ
  closed : Bool
  deriving DecidableEq, Repr

/-- The outcomes of the files closed so far, the bytes counted for them, and those counted for the
open file and stored there by failed writes. -/
structure Account where
  earlier : ℕ
  current : Option (ℕ × ℕ)
  outcomes : List Outcome

def Account.call (a : Account) : Call → Account
  | .open success => { a with current := if success then some (0, 0) else none }
  | .write data stored =>
      { a with current := a.current.map fun c =>
          if stored = data.length then (c.1 + stored, c.2) else (c.1, c.2 + stored) }
  | .close =>
      match a.current with
      | none => a
      | some (counted, failed) =>
          ⟨a.earlier + counted, none, a.outcomes ++ [⟨a.earlier, counted, failed, true⟩]⟩

/-- The outcomes when the object is destroyed. -/
def Account.final (a : Account) : List Outcome :=
  match a.current with
  | none => a.outcomes
  | some (counted, failed) => a.outcomes ++ [⟨a.earlier, counted, failed, false⟩]

/-- The outcomes of a life with the given calls. -/
def outcomes (calls : List Call) : List Outcome := (calls.foldl Account.call ⟨0, none, []⟩).final

/-- `close` was called, and what was counted before makes up for what was not counted. -/
def Outcome.Right (o : Outcome) : Prop :=
  44 + o.counted + o.failed < 2 ^ 32 → o.closed ∧ o.earlier % 2 ^ 32 = o.failed % 2 ^ 32

instance (o : Outcome) : Decidable o.Right := inferInstanceAs (Decidable (_ → _))

/-! ### One file -/

/-- The file as it is left by `close`. -/
theorem sized_closed {written earlier counted failed : ℕ} {data : Bytes}
    (hwritten : written = toSize (earlier + counted)) (hdata : data.length = counted + failed) :
    Sized (file (UInt32.ofNat (written + size - 8)) (UInt32.ofNat written) data) ↔
      Outcome.Right ⟨earlier, counted, failed, true⟩ := by
  subst hwritten
  simp only [Sized, Outcome.Right, chunkSize_file, dataSize_file, length_file, UInt32.toNat_ofNat',
    toSize, size, hdata]
  constructor
  · intro h hfits
    obtain ⟨-, hsize⟩ := h (by omega) (by omega)
    exact ⟨trivial, by omega⟩
  · intro h hle hlt
    obtain ⟨-, hearlier⟩ := h (by omega)
    omega

/-- The file as it is left by the destructor. -/
theorem sized_destroyed {earlier counted failed : ℕ} {data : Bytes}
    (hdata : data.length = counted + failed) :
    Sized (file 0 0 data) ↔ Outcome.Right ⟨earlier, counted, failed, false⟩ := by
  simp only [Sized, Outcome.Right, chunkSize_file, dataSize_file, length_file, hdata]
  constructor
  · intro h hfits
    obtain ⟨hchunk, -⟩ := h (by omega) (by omega)
    change 0 = _ at hchunk
    omega
  · intro h hle hlt
    obtain ⟨hclosed, -⟩ := h (by omega)
    cases hclosed

theorem writeHeader_chunkSize (dataSize v : UInt32) (data : Bytes) (pos : ℕ) (eof : Bool) :
    writeHeader ⟨file 0 dataSize data, pos, eof⟩ chunkSizeOffset v =
      ⟨file v dataSize data, 8, false⟩ := by
  have hlength : (le32 0).length = (le32 v).length := rfl
  exact FileStream.write_inside hlength false

theorem writeHeader_dataSize (chunkSize v : UInt32) (data : Bytes) (pos : ℕ) (eof : Bool) :
    writeHeader ⟨file chunkSize 0 data, pos, eof⟩ dataSizeOffset v =
      ⟨file chunkSize v data, 44, false⟩ := by
  have hlength : (le32 0).length = (le32 v).length := rfl
  rw [file_eq, file_eq]
  exact FileStream.write_inside hlength false

theorem write_file (old data : Bytes) (eof : Bool) :
    (FileStream.mk (file 0 0 old) (44 + old.length) eof).write data =
      ⟨file 0 0 (old ++ data), 44 + (old ++ data).length, eof⟩ := by
  have hend : 44 + old.length = (file 0 0 old).length := (length_file 0 0 old).symm
  rw [FileStream.write_end hend, List.length_append, length_file, List.length_append, Nat.add_assoc]
  simp only [file, List.append_assoc]

theorem open_file (s : RawSink) :
    WavSink.open s true = (true, { s with file := some ⟨file 0 0 [], 44, false⟩ }) := by
  change (true, { s with file := some ((FileStream.ofContents []).write initial.toBytes) }) = _
  rw [initial_file, FileStream.write_end rfl]
  rfl

theorem close_file {s : RawSink} {data : Bytes} {pos : ℕ} {eof : Bool}
    (hfile : s.file = some ⟨file 0 0 data, pos, eof⟩) : WavSink.close s =
      (true, { s with
        file := none
        files := s.files ++
          [file (UInt32.ofNat (s.written + size - 8)) (UInt32.ofNat s.written) data] }) := by
  rw [WavSink.close, hfile]
  simp only [writeHeader_chunkSize, writeHeader_dataSize]
  rfl

/-! ### A whole life -/

/-- The open file, if there is one, has the initial header and the bytes stored so far, and is written to
at its end. -/
def Holds (file : Option (FileStream UInt8)) : Option (ℕ × ℕ) → Prop
  | none => file = none
  | some (counted, failed) => ∃ data eof, data.length = counted + failed ∧
      file = some ⟨WavFileHeader.file 0 0 data, 44 + data.length, eof⟩

/-- The object after the calls of an account: its counter, the open file, and the closed ones, each with
the right sizes just in case its outcome is right. -/
structure Tracks (s : RawSink) (a : Account) : Prop where
  written : s.written = toSize (a.earlier + a.current.elim 0 Prod.fst)
  file : Holds s.file a.current
  files : List.Forall₂ (fun contents o => Sized contents ↔ o.Right) s.files a.outcomes

variable {s s' : RawSink} {a : Account}

theorem tracks_new : Tracks .new ⟨0, none, []⟩ := ⟨rfl, rfl, .nil⟩

theorem Tracks.open (h : Tracks s a) (hclosed : s.file = none) (success : Bool) :
    Tracks (WavSink.open s success).2 (a.call (.open success)) := by
  have hnone : a.current = none := by
    cases hcurrent : a.current with
    | none => rfl
    | some c =>
        have hfile := h.file
        rw [hcurrent] at hfile
        obtain ⟨data, eof, -, hsome⟩ := hfile
        cases hclosed.symm.trans hsome
  have hwritten := h.written
  rw [hnone] at hwritten
  cases success with
  | false => exact ⟨hwritten, rfl, h.files⟩
  | true =>
      rw [open_file]
      exact ⟨hwritten, ⟨[], false, rfl, rfl⟩, h.files⟩

theorem Tracks.write (h : Tracks s a) {data : Bytes} {stored : Fin (data.length + 1)} {ok : Bool}
    (hwrite : s.write data stored = .ok (ok, s')) : Tracks s' (a.call (.write data stored)) := by
  have hle : (stored : ℕ) ≤ data.length := Nat.le_of_lt_succ stored.2
  cases hcurrent : a.current with
  | none =>
      have hfile := h.file
      rw [hcurrent] at hfile
      rw [RawSink.write, (hfile : s.file = none)] at hwrite
      cases hwrite
  | some c =>
      obtain ⟨counted, failed⟩ := c
      obtain ⟨written, hfile, hfiles⟩ := h
      rw [hcurrent] at hfile written
      obtain ⟨old, eof, hlength, hsome⟩ := hfile
      have hstored : (old ++ data.take stored).length = counted + failed + stored := by
        rw [List.length_append, List.length_take, hlength]
        omega
      have hfile' := congrArg some (write_file old (data.take stored) eof)
      simp only [RawSink.write, hsome] at hwrite
      by_cases hall : (stored : ℕ) = data.length
      · rw [if_neg (not_not.2 hall)] at hwrite
        obtain ⟨-, rfl⟩ := Prod.mk.inj (Except.ok.inj hwrite)
        refine ⟨?_, ?_, hfiles⟩
        · simp only [Account.call, hcurrent, Option.map_some, if_pos hall, Option.elim_some]
          rw [written]
          simp only [Option.elim_some, toSize]
          omega
        · simp only [Account.call, hcurrent, Option.map_some, if_pos hall]
          exact ⟨_, eof, by omega, hfile'⟩
      · rw [if_pos hall] at hwrite
        obtain ⟨-, rfl⟩ := Prod.mk.inj (Except.ok.inj hwrite)
        refine ⟨?_, ?_, hfiles⟩
        · simp only [Account.call, hcurrent, Option.map_some, if_neg hall, Option.elim_some]
          exact written
        · simp only [Account.call, hcurrent, Option.map_some, if_neg hall]
          exact ⟨_, eof, by omega, hfile'⟩

theorem Tracks.close (h : Tracks s a) : Tracks (WavSink.close s).2 (a.call .close) := by
  cases hcurrent : a.current with
  | none =>
      have hfile := h.file
      rw [hcurrent] at hfile
      rw [WavSink.close, (hfile : s.file = none), Account.call, hcurrent]
      exact h
  | some c =>
      obtain ⟨counted, failed⟩ := c
      obtain ⟨written, hfile, hfiles⟩ := h
      rw [hcurrent] at hfile written
      obtain ⟨data, eof, hlength, hsome⟩ := hfile
      rw [close_file hsome, Account.call, hcurrent]
      refine ⟨?_, rfl, ?_⟩
      · exact written
      · exact List.rel_append hfiles (.cons (sized_closed written hlength) .nil)

theorem Tracks.step (h : Tracks s a) {call : Call} (hstep : Step s call s') :
    Tracks s' (a.call call) := by
  cases call with
  | «open» success =>
      simp only [Step, exec] at hstep
      split at hstep
      case isTrue hclosed =>
        obtain rfl := Option.some.inj hstep
        exact h.open (Option.isNone_iff_eq_none.1 hclosed) success
      case isFalse => cases hstep
  | write data stored =>
      cases hwrite : s.write data stored with
      | error f => simp [Step, exec, hwrite, Except.toOption] at hstep
      | ok r =>
          obtain ⟨ok, s₁⟩ := r
          obtain rfl : s₁ = s' := by simpa [Step, exec, hwrite, Except.toOption] using hstep
          exact h.write hwrite
  | close =>
      obtain rfl := Option.some.inj hstep
      exact h.close

theorem Tracks.destroy (h : Tracks s a) :
    List.Forall₂ (fun contents o => Sized contents ↔ o.Right) (destroy s).files a.final := by
  cases hcurrent : a.current with
  | none =>
      have hfile := h.file
      rw [hcurrent] at hfile
      rw [WavSink.destroy, RawSink.close, (hfile : s.file = none), Account.final, hcurrent]
      exact h.files
  | some c =>
      obtain ⟨counted, failed⟩ := c
      have hfile := h.file
      rw [hcurrent] at hfile
      obtain ⟨data, eof, hlength, hsome⟩ := hfile
      rw [WavSink.destroy, RawSink.close, hsome, Account.final, hcurrent]
      exact List.rel_append h.files (.cons (sized_destroyed hlength) .nil)

theorem tracks_run {calls : List Call} (hrun : Run Step s calls s') (h : Tracks s a) :
    Tracks s' (calls.foldl Account.call a) := by
  induction hrun generalizing a with
  | nil => exact h
  | cons hstep _ ih => exact ih (h.step hstep)

theorem forall₂_iff {α β : Type} {p : α → Prop} {q : β → Prop} {xs : List α} {ys : List β}
    (h : List.Forall₂ (fun x y => p x ↔ q y) xs ys) : (∀ x ∈ xs, p x) ↔ ∀ y ∈ ys, q y := by
  induction h with
  | nil => simp
  | cons hxy _ ih => rw [List.forall_mem_cons, List.forall_mem_cons, hxy, ih]

/-- In every life of a sink, from its calls to its destruction: all its files have the right sizes in
their headers if and only if for each whose length fits `close` was called, and the bytes counted for
the files before it are as many, modulo 2 ^ 32, as failed writes stored in it. -/
theorem files_sized_iff (calls : List Call) (s : RawSink) (hrun : Run Step .new calls s) :
    (∀ contents ∈ (destroy s).files, Sized contents) ↔ ∀ o ∈ outcomes calls, o.Right :=
  forall₂_iff (tracks_run hrun tracks_new).destroy

/-- Four bytes are written and the object is destroyed without `close`. -/
theorem destroyed_without_close : ∃ s contents,
    Run Step .new [.open true, .write [1, 2, 3, 4] 4] s ∧ contents ∈ (destroy s).files ∧
      contents.length = 48 ∧ (ofBytes contents).chunkSize = 0 ∧ (ofBytes contents).dataSize = 0 ∧
      ¬Sized contents := by
  refine ⟨_, file 0 0 [1, 2, 3, 4], .cons rfl (.cons rfl (.nil _)), List.mem_singleton_self _,
    rfl, by decide, by decide, ?_⟩
  intro hsized
  exact absurd (hsized (by decide) (by decide)).1 (by decide)

/-- One file, written in two writes and closed. -/
theorem files_sized_one : ∃ s,
    Run Step .new [.open true, .write [1, 2] 2, .write [3, 4] 2, .close] s ∧
      ∀ contents ∈ (destroy s).files, Sized contents := by
  have hrun : Run Step .new [.open true, .write [1, 2] 2, .write [3, 4] 2, .close] _ :=
    .cons rfl (.cons rfl (.cons rfl (.cons rfl (.nil _))))
  exact ⟨_, hrun, (files_sized_iff _ _ hrun).2 (by decide +kernel)⟩

end WavSink

end WifiAudio
