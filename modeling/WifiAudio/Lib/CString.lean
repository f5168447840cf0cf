import WifiAudio.Lib.Except
import Mathlib.Algebra.Group.Int.Defs
import Mathlib.Algebra.Group.Nat.Defs
import Mathlib.Data.List.Basic
import Mathlib.Data.List.TakeWhile
import Mathlib.Data.List.Forall2

/-!
# Strings in memory

A block of memory is a list of bytes and a pointer is an index into it. A C string starts at its
pointer and runs to the next NUL byte. The functions below are the ones of `<string.h>` and
`<stdlib.h>`, on that memory: an access outside the block, or a null pointer where a string is
expected, is a fault, and the functions that write return the new memory.
-/

/-- The ways a run can go wrong: a null pointer used, an access outside a block of memory, a failed
assertion, a loop that does not end. -/
inductive Fault
  | nullPointer
  | outOfBounds
  | assertFailed
  | diverges
  deriving DecidableEq, Repr

abbrev Bytes := List UInt8

/-- The bytes of an ASCII literal. -/
def ascii (s : String) : Bytes := s.toList.map fun c => UInt8.ofNat c.toNat

namespace CString

def load (m : Bytes) (p : ℕ) : Except Fault UInt8 :=
  match m[p]? with
  | some b => .ok b
  | none => .error .outOfBounds

def store (m : Bytes) (p : ℕ) (b : UInt8) : Except Fault Bytes :=
  if p < m.length then .ok (m.set p b) else .error .outOfBounds

/-- The string at `p`, without its terminating NUL. -/
def string (m : Bytes) (p : ℕ) : Except Fault Bytes :=
  let s := (m.drop p).takeWhile (· ≠ 0)
  if p + s.length < m.length then .ok s else .error .outOfBounds

def strlen (m : Bytes) (p : ℕ) : Except Fault ℕ := do
  return (← string m p).length

/-- `strcmp` finds no difference between the string at `p` and `s`. -/
def strcmpEq (m : Bytes) (p : ℕ) (s : Bytes) : Except Fault Bool := do
  return (← string m p) == s

/-- `strncmp` over the length of `s` finds no difference at `p`: the bytes are compared one by one
up to the first difference. -/
def strncmpEq (m : Bytes) : ℕ → Bytes → Except Fault Bool
  | _, [] => .ok true
  | p, c :: cs => do
      let b ← load m p
      if b = c then strncmpEq m (p + 1) cs else return false

def toLower (b : UInt8) : UInt8 := if 65 ≤ b ∧ b ≤ 90 then b + 32 else b

/-- `strcasecmp` finds no difference between two strings. -/
def strcasecmpEq (s t : Bytes) : Bool := s.map toLower == t.map toLower

/-- `strncasecmp` over the length of `t` finds no difference between `s` and `t`. -/
def strncasecmpEq (t s : Bytes) : Bool := (t.map toLower).isPrefixOf (s.map toLower)

/-- Where `pat` first occurs in `s`. -/
def find (pat : Bytes) : Bytes → Option ℕ
  | [] => if pat.isEmpty then some 0 else none
  | c :: s => if pat.isPrefixOf (c :: s) then some 0 else (find pat s).map (· + 1)

/-- `strstr`: where `pat` first occurs in the string at `p`. -/
def strstr (m : Bytes) (p : ℕ) (pat : Bytes) : Except Fault (Option ℕ) := do
  return (find pat (← string m p)).map (p + ·)

/-- `strtok_r` with the one delimiter `d`: the token and what is left in `*save`. A null `s` goes on
from `save`; the delimiter behind the token is overwritten with NUL. -/
def strtok_r (m : Bytes) (s : Option ℕ) (d : UInt8) (save : Option ℕ) :
    Except Fault (Option ℕ × Option ℕ × Bytes) :=
  match s <|> save with
  | none => .error .nullPointer
  | some p => do
      let str ← string m p
      let skipped := (str.takeWhile (· == d)).length
      let token := ((str.drop skipped).takeWhile (· != d)).length
      let stop := p + skipped + token
      if token = 0 then
        return (none, some stop, m)
      else if skipped + token < str.length then
        return (some (p + skipped), some (stop + 1), m.set stop 0)
      else
        return (some (p + skipped), some stop, m)

def isSpace (b : UInt8) : Bool := b = 32 ∨ (9 ≤ b ∧ b ≤ 13)

/-- The value of a digit, of any base up to 36. -/
def digitValue (b : UInt8) : Option ℕ :=
  if 48 ≤ b ∧ b ≤ 57 then some (b.toNat - 48)
  else if 97 ≤ toLower b ∧ toLower b ≤ 122 then some ((toLower b).toNat - 87)
  else none

def isDigit (base : ℕ) (b : UInt8) : Bool :=
  match digitValue b with
  | some v => v < base
  | none => false

def digitsValue (base : ℕ) (s : Bytes) : ℕ :=
  s.foldl (fun v b => v * base + (digitValue b).getD 0) 0

/-- What base 0 stands for, and the length of the prefix that says so. -/
def detectBase (base : ℕ) (s : Bytes) : ℕ × ℕ :=
  if base = 0 then
    match s with
    | 48 :: x :: d :: _ => if toLower x = 120 ∧ isDigit 16 d then (16, 2) else (8, 0)
    | 48 :: _ => (8, 0)
    | _ => (10, 0)
  else (base, 0)

/-- `strtoll`: the value, held within 64 bits, and how many bytes of `s` were read. -/
def strtoll (s : Bytes) (base : ℕ) : ℤ × ℕ :=
  let spaces := (s.takeWhile isSpace).length
  let signed := s.drop spaces
  let negative := signed.head? = some 45
  let sign := if negative ∨ signed.head? = some 43 then 1 else 0
  let (base, skip) := detectBase base (signed.drop sign)
  let digits := (signed.drop (sign + skip)).takeWhile (isDigit base)
  if digits.isEmpty then (0, 0)
  else
    let value : ℤ := digitsValue base digits
    let value := if negative then max (-2 ^ 63) (-value) else min (2 ^ 63 - 1) value
    (value, spaces + sign + skip + digits.length)

/-! ### The string at the start of a block -/

/-- The bytes before the first NUL. -/
def text (m : Bytes) : Bytes := m.takeWhile (· ≠ 0)

theorem mem_text {m : Bytes} {b : UInt8} (h : b ∈ text m) : b ≠ 0 := by
  simpa using List.mem_takeWhile_imp h

theorem text_of_not_mem {m : Bytes} (h : 0 ∉ m) : text m = m :=
  List.takeWhile_eq_self_iff.2 fun _ hb => decide_eq_true fun h0 => h (h0 ▸ hb)

theorem text_append {m : Bytes} (h : 0 ∉ m) (m' : Bytes) : text (m ++ m') = m ++ text m' :=
  List.takeWhile_append_of_pos fun _ hb => decide_eq_true fun h0 => h (h0 ▸ hb)

theorem text_append_of_mem {m : Bytes} (h : 0 ∈ m) (m' : Bytes) : text (m ++ m') = text m := by
  induction m with
  | nil => exact absurd h List.not_mem_nil
  | cons b m ih =>
      by_cases hb : b = 0
      · simp [text, hb]
      · have hmem : 0 ∈ m := (List.mem_cons.1 h).resolve_left fun h0 => hb h0.symm
        have hcons : ∀ t : Bytes, text (b :: t) = b :: text t := fun t => by simp [text, hb]
        rw [List.cons_append, hcons, hcons, ih hmem]

theorem length_text_lt {m : Bytes} : (text m).length < m.length ↔ 0 ∈ m := by
  constructor
  · intro h
    by_contra h0
    rw [text_of_not_mem h0] at h
    exact lt_irrefl _ h
  · intro h
    have hstarts : text m <+: m := List.takeWhile_prefix _
    refine lt_of_le_of_ne hstarts.length_le ?_
    intro hlength
    have heq := hstarts.eq_of_length hlength
    exact mem_text (heq.symm ▸ h) rfl

theorem string_zero (m : Bytes) :
    string m 0 = if 0 ∈ m then .ok (text m) else .error .outOfBounds := by
  have hlt := @length_text_lt m
  by_cases h : 0 ∈ m
  · rw [if_pos h, string, List.drop_zero, Nat.zero_add]
    exact if_pos (hlt.2 h)
  · rw [if_neg h, string, List.drop_zero, Nat.zero_add]
    exact if_neg fun h' => h (hlt.1 h')

/-! ### Searching -/

variable {pat s t : Bytes} {k : ℕ}

theorem find_starts (h : find pat s = some k) : pat <+: s.drop k := by
  induction s generalizing k with
  | nil =>
      have hpat : pat = [] := by
        by_contra hne
        simp [find, hne] at h
      rw [hpat]
      exact List.nil_prefix
  | cons c s ih =>
      rw [find] at h
      split at h
      · obtain rfl := Option.some.inj h
        exact List.isPrefixOf_iff_prefix.1 ‹_›
      · obtain ⟨j, hj, rfl⟩ := Option.map_eq_some_iff.1 h
        exact ih hj

theorem find_length_le (h : find pat s = some k) (hpat : pat ≠ []) :
    k + pat.length ≤ s.length := by
  have hle := (find_starts h).length_le
  have hpos := List.length_pos_iff.2 hpat
  rw [List.length_drop] at hle
  omega

theorem find_eq_none (hpat : pat ≠ []) : find pat s = none ↔ ¬pat <:+: s := by
  induction s with
  | nil => simp [find, hpat]
  | cons c s ih =>
      rw [find, List.infix_cons_iff, ← List.isPrefixOf_iff_prefix]
      split
      · simp [*]
      · simp [*]

theorem find_isSome (hpat : pat ≠ []) : (find pat s).isSome ↔ pat <:+: s := by
  rw [← not_iff_not, ← find_eq_none hpat, Option.not_isSome_iff_eq_none]

theorem find_le (h : pat <+: s.drop k) : ∃ j, find pat s = some j ∧ j ≤ k := by
  induction s generalizing k with
  | nil =>
      rw [List.drop_nil] at h
      exact ⟨0, by rw [List.prefix_nil.1 h]; rfl, Nat.zero_le k⟩
  | cons c s ih =>
      rw [find]
      split
      · exact ⟨0, rfl, Nat.zero_le k⟩
      · cases k with
        | zero => exact absurd (List.isPrefixOf_iff_prefix.2 h) ‹_›
        | succ k =>
            obtain ⟨j, hj, hle⟩ := ih h
            exact ⟨j + 1, by rw [hj]; rfl, Nat.succ_le_succ hle⟩

theorem find_congr (h : ∀ j, pat <+: s.drop j ↔ pat <+: t.drop j) : find pat s = find pat t := by
  cases hs : find pat s with
  | some i =>
      obtain ⟨j, hj, hji⟩ := find_le ((h i).1 (find_starts hs))
      obtain ⟨i', hi', hij⟩ := find_le ((h j).2 (find_starts hj))
      obtain rfl := Option.some.inj (hs.symm.trans hi')
      rw [hj, Nat.le_antisymm hji hij]
  | none =>
      cases ht : find pat t with
      | none => rfl
      | some j =>
          obtain ⟨i, hi, -⟩ := find_le ((h j).2 (find_starts ht))
          cases hs.symm.trans hi

theorem find_append (hpat : pat ≠ []) (h : find pat s = some k) : find pat (s ++ t) = some k := by
  induction s generalizing k with
  | nil => simp [find, hpat] at h
  | cons c s ih =>
      rw [find] at h
      rw [List.cons_append, find]
      split at h
      · obtain rfl := Option.some.inj h
        have hstarts : pat <+: c :: (s ++ t) :=
          (List.isPrefixOf_iff_prefix.1 ‹_›).trans (List.prefix_append (c :: s) t)
        rw [if_pos (List.isPrefixOf_iff_prefix.2 hstarts)]
      · obtain ⟨j, hj, rfl⟩ := Option.map_eq_some_iff.1 h
        have hle := find_length_le hj hpat
        have hnot : ¬pat.isPrefixOf (c :: (s ++ t)) = true := by
          intro hstarts
          have hlong : pat.length ≤ (c :: s).length := by
            rw [List.length_cons]
            omega
          have hshort := List.prefix_of_prefix_length_le (List.isPrefixOf_iff_prefix.1 hstarts)
            (List.prefix_append (c :: s) t) hlong
          exact absurd (List.isPrefixOf_iff_prefix.2 hshort) ‹_›
        rw [if_neg hnot, ih hj]
        rfl

theorem find_take (hpat : pat ≠ []) {n : ℕ} (h : find pat s = some k) (hk : k + pat.length ≤ n) :
    find pat (s.take n) = some k := by
  have hstarts : pat <+: (s.take n).drop k := by
    rw [List.drop_take]
    exact List.prefix_take_iff.2 ⟨find_starts h, by omega⟩
  obtain ⟨j, hj, -⟩ := find_le hstarts
  have hfull := find_append (t := s.drop n) hpat hj
  rw [List.take_append_drop, h] at hfull
  rw [hj, hfull]

/-- A byte that does not occur in `pat` cuts every text it is searched in. -/
theorem infix_append_cons {b : UInt8} (hb : b ∉ pat) (h : pat <:+: s ++ b :: t) :
    pat <:+: s ∨ pat <:+: t := by
  obtain ⟨front, back, heq⟩ := h
  rw [List.append_assoc, List.append_eq_append_iff] at heq
  rcases heq with ⟨u, hs, hu⟩ | ⟨u, hs, hu⟩
  · rcases List.append_eq_append_iff.1 hu with ⟨v, rfl, -⟩ | ⟨v, rfl, hv⟩
    · exact .inl ⟨front, v, by rw [hs, List.append_assoc]⟩
    · cases v with
      | nil => exact .inl ⟨front, [], by simp [hs]⟩
      | cons d v =>
          obtain rfl := (List.cons.inj hv).1
          exact absurd (List.mem_append_right u List.mem_cons_self) hb
  · cases u with
    | nil =>
        cases pat with
        | nil => exact .inl List.nil_infix
        | cons d pat =>
            obtain rfl := (List.cons.inj hu).1
            exact absurd List.mem_cons_self hb
    | cons d u =>
        have ht : t = u ++ (pat ++ back) := (List.cons.inj hu).2
        exact .inr ⟨u, back, by rw [ht, List.append_assoc]⟩

/-! ### Tokenised memory

The tokenisers write nothing but NUL.
-/

/-- `m'` is `m` with some of its bytes overwritten with NUL. -/
def Scrubbed (m m' : Bytes) : Prop := List.Forall₂ (fun a b => b = a ∨ b = 0) m m'

theorem Scrubbed.refl (m : Bytes) : Scrubbed m m :=
  List.forall₂_same.2 fun _ _ => .inl rfl

theorem Scrubbed.trans {m m' m'' : Bytes} (h : Scrubbed m m') (h' : Scrubbed m' m'') :
    Scrubbed m m'' := by
  induction h generalizing m'' with
  | nil => exact h'
  | cons hb _ ih =>
      cases h' with
      | cons hb' htail =>
          refine .cons ?_ (ih htail)
          rcases hb' with rfl | rfl
          · exact hb
          · exact .inr rfl

theorem Scrubbed.length {m m' : Bytes} (h : Scrubbed m m') : m'.length = m.length :=
  (List.Forall₂.length_eq h).symm

variable {m m' : Bytes}

theorem Scrubbed.getElem?_zero (h : Scrubbed m m') {p : ℕ} (hp : m[p]? = some 0) :
    m'[p]? = some 0 := by
  induction h generalizing p with
  | nil => cases hp
  | cons hb _ ih =>
      cases p with
      | zero =>
          obtain rfl := Option.some.inj hp
          rcases hb with rfl | rfl <;> rfl
      | succ p => exact ih hp

theorem Scrubbed.starts (h : Scrubbed m m') (hpat : 0 ∉ pat) (hin : pat <+: m') : pat <+: m := by
  induction h generalizing pat with
  | nil => exact hin
  | cons hb _ ih =>
      cases pat with
      | nil => exact List.nil_prefix
      | cons d pat =>
          obtain ⟨rfl, htail⟩ := List.cons_prefix_cons.1 hin
          obtain ⟨hd, hpat⟩ := not_or.1 (mt List.mem_cons.2 hpat)
          rcases hb with rfl | rfl
          · exact List.cons_prefix_cons.2 ⟨rfl, ih hpat htail⟩
          · exact absurd rfl hd

/-- Overwriting with NUL makes no text appear. -/
theorem Scrubbed.occurs (h : Scrubbed m m') (hpat : 0 ∉ pat) (hin : pat <:+: m') : pat <:+: m := by
  induction h with
  | nil => exact hin
  | cons hb htail ih =>
      rcases List.infix_cons_iff.1 hin with hstarts | hin
      · exact (Scrubbed.starts (.cons hb htail) hpat hstarts).isInfix
      · exact List.infix_cons_iff.2 (.inr (ih hin))

theorem scrubbed_set (m : Bytes) (p : ℕ) : Scrubbed m (m.set p 0) := by
  induction m generalizing p with
  | nil => exact .nil
  | cons b m ih =>
      cases p with
      | zero => exact .cons (.inr rfl) (Scrubbed.refl m)
      | succ p => exact .cons (.inl rfl) (ih p)

end CString
