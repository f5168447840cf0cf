import Mathlib.Algebra.GroupWithZero.Nat
import Mathlib.Data.List.Basic

/-!
# Streams

A stream of the C library: what the file holds, the position of the next item and the end-of-file
indicator. Reading takes what lies behind the position; writing overwrites it, and makes the file
longer where it ends. The position never lies behind the end.
-/

structure FileStream (α : Type*) where
  contents : List α
  pos : ℕ
  eof : Bool

namespace FileStream

variable {α : Type*}

/-- A file opened at its start. -/
def ofContents (contents : List α) : FileStream α := ⟨contents, 0, false⟩

/-- What lies behind the position. -/
def rest (s : FileStream α) : List α := s.contents.drop s.pos

/-- `fread` of up to `n` items. -/
def read (s : FileStream α) (n : ℕ) : List α × FileStream α :=
  (s.rest.take n, { s with
    pos := s.pos + (s.rest.take n).length
    eof := s.eof || (s.rest.take n).length < n })

/-- `fwrite` of `data`. -/
def write (s : FileStream α) (data : List α) : FileStream α :=
  { s with
    contents := s.contents.take s.pos ++ data ++ s.contents.drop (s.pos + data.length)
    pos := s.pos + data.length }

/-- `fseek` from the start of the file. -/
def seek (s : FileStream α) (pos : ℕ) : FileStream α := { s with pos := pos, eof := false }

/-- `fseek` to the end of the file. -/
def seekEnd (s : FileStream α) : FileStream α := s.seek s.contents.length

/-- Successive reads. -/
def reads (s : FileStream α) : List ℕ → List (List α) × FileStream α
  | [] => ([], s)
  | n :: ns => ((s.read n).1 :: ((s.read n).2.reads ns).1, ((s.read n).2.reads ns).2)

/-! ### Reading -/

theorem rest_read (s : FileStream α) (n : ℕ) : (s.read n).2.rest = s.rest.drop n := by
  change s.contents.drop (s.pos + (s.rest.take n).length) = s.rest.drop n
  rw [← List.drop_drop, List.length_take]
  change s.rest.drop _ = _
  rcases Nat.le_total n s.rest.length with hle | hle
  · rw [Nat.min_eq_left hle]
  · rw [Nat.min_eq_right hle, List.drop_eq_nil_of_le (Nat.le_refl _), List.drop_eq_nil_of_le hle]

/-- Successive reads return what a single one would. -/
theorem reads_flatten (s : FileStream α) (ns : List ℕ) :
    (s.reads ns).1.flatten = s.rest.take ns.sum ∧ (s.reads ns).2.rest = s.rest.drop ns.sum := by
  induction ns generalizing s with
  | nil => exact ⟨List.take_zero.symm, rfl⟩
  | cons n ns ih =>
      obtain ⟨htaken, hleft⟩ := ih (s.read n).2
      rw [rest_read] at htaken hleft
      constructor
      · change (s.read n).1 ++ _ = _
        rw [htaken, List.sum_cons, List.take_add]
        rfl
      · change ((s.read n).2.reads ns).2.rest = _
        rw [hleft, List.drop_drop, List.sum_cons]

/-! ### Writing -/

theorem write_end {s : FileStream α} (hend : s.pos = s.contents.length) (data : List α) :
    s.write data = ⟨s.contents ++ data, (s.contents ++ data).length, s.eof⟩ := by
  simp only [write, hend, List.take_length, List.length_append]
  rw [List.drop_eq_nil_of_le (Nat.le_add_right _ _), List.append_nil]

theorem write_inside {front old back data : List α} (hlength : old.length = data.length)
    (eof : Bool) : (FileStream.mk (front ++ old ++ back) front.length eof).write data =
      ⟨front ++ data ++ back, front.length + data.length, eof⟩ := by
  simp only [write, List.append_assoc, List.take_left]
  rw [← hlength, ← List.drop_drop, List.drop_left, List.drop_left]

end FileStream
