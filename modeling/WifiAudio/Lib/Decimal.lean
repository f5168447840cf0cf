import WifiAudio.Lib.CString

/-!
# Decimal numbers

`strtoll` reads back what the decimal text of a number says, in base 10 and in base 0: a decimal
text has no leading zero, so nothing in it announces another base. What comes behind the text must
not continue it.
-/

namespace CString

/-- The digits of a natural number. -/
def natDigits (n : ℕ) : Bytes := (Nat.toDigits 10 n).map fun c => UInt8.ofNat c.toNat

theorem ascii_toString_int (n : ℤ) :
    ascii (toString n) = if 0 ≤ n then natDigits n.toNat else 45 :: natDigits n.natAbs := by
  rw [ascii, Int.toString_eq_repr]
  cases n with
  | ofNat n => simp [Int.repr, natDigits]
  | negSucc n => simp [Int.repr, natDigits]

theorem natDigits_ne_nil (n : ℕ) : natDigits n ≠ [] := by
  simp [natDigits]

theorem mem_natDigits {n : ℕ} {b : UInt8} (hb : b ∈ natDigits n) : 48 ≤ b.toNat ∧ b.toNat ≤ 57 := by
  obtain ⟨c, hc, rfl⟩ := List.mem_map.1 hb
  have hdigit := Nat.isDigit_of_mem_toDigits (by decide) (by decide) hc
  simp only [Char.isDigit, Bool.and_eq_true, decide_eq_true_eq, ge_iff_le, UInt32.le_iff_toNat_le] at hdigit
  obtain ⟨hlow, hhigh⟩ := hdigit
  change 48 ≤ c.toNat at hlow
  change c.toNat ≤ 57 at hhigh
  rw [UInt8.toNat_ofNat']
  omega

theorem length_natDigits {n k : ℕ} (hk : 0 < k) (hn : n < 10 ^ k) : (natDigits n).length ≤ k := by
  rw [natDigits, List.length_map]
  exact (Nat.length_toDigits_le_iff (by decide) hk).2 hn

theorem mem_ascii_toString {v : ℤ} {b : UInt8} (hb : b ∈ ascii (toString v)) :
    b = 45 ∨ 48 ≤ b.toNat ∧ b.toNat ≤ 57 := by
  rw [ascii_toString_int] at hb
  split at hb
  · exact .inr (mem_natDigits hb)
  · exact (List.mem_cons.1 hb).imp_right mem_natDigits

variable {b : UInt8} {base n : ℕ} {rest : Bytes}

theorem digitValue_of_digit (hlow : 48 ≤ b.toNat) (hhigh : b.toNat ≤ 57) :
    digitValue b = some (b.toNat - 48) :=
  if_pos ⟨UInt8.le_iff_toNat_le.2 hlow, UInt8.le_iff_toNat_le.2 hhigh⟩

theorem isSpace_of_digit (hlow : 48 ≤ b.toNat) : isSpace b = false := by
  have hspace : b ≠ 32 := by
    rintro rfl
    exact absurd hlow (by decide)
  have hcontrol : ¬b ≤ 13 := by
    intro h
    have h13 : b.toNat ≤ 13 := UInt8.le_iff_toNat_le.1 h
    omega
  simp [isSpace, hspace, hcontrol]

theorem isDigit_of_digit (hlow : 48 ≤ b.toNat) (hhigh : b.toNat ≤ 57) (hbase : 10 ≤ base) :
    isDigit base b = true := by
  rw [isDigit, digitValue_of_digit hlow hhigh]
  exact decide_eq_true (by omega)

theorem isDigit_of_digitValue (h : digitValue b = none) : isDigit base b = false := by
  rw [isDigit, h]

theorem digitsValue_natDigits (n : ℕ) : digitsValue 10 (natDigits n) = n := by
  have hfold : ∀ (cs : List Char) (v : ℕ), (∀ c ∈ cs, UInt8.ofNat c.toNat ∈ natDigits n) →
      (∀ c ∈ cs, c.toNat ≤ 57) →
      (cs.map fun c => UInt8.ofNat c.toNat).foldl (fun v b => v * 10 + (digitValue b).getD 0) v =
        Nat.ofDigitChars 10 cs v := by
    intro cs
    induction cs with
    | nil => intro v _ _; rfl
    | cons c cs ih =>
        intro v hmem hle
        obtain ⟨hlow, hhigh⟩ := mem_natDigits (hmem c List.mem_cons_self)
        have hsmall := hle c List.mem_cons_self
        rw [List.map_cons, List.foldl_cons, Nat.ofDigitChars_cons, digitValue_of_digit hlow hhigh,
          ih _ (fun d hd => hmem d (List.mem_cons_of_mem _ hd))
            (fun d hd => hle d (List.mem_cons_of_mem _ hd))]
        have hbyte : (UInt8.ofNat c.toNat).toNat = c.toNat := by
          rw [UInt8.toNat_ofNat']
          omega
        have hzero : '0'.toNat = 48 := rfl
        rw [Option.getD_some, hbyte, hzero, Nat.mul_comm]
  rw [digitsValue, natDigits, hfold, Nat.ofDigitChars_ten_toDigits]
  · exact fun c hc => List.mem_map.2 ⟨c, hc, rfl⟩
  · intro c hc
    have hdigit := Nat.isDigit_of_mem_toDigits (by decide) (by decide) hc
    simp only [Char.isDigit, Bool.and_eq_true, decide_eq_true_eq, UInt32.le_iff_toNat_le] at hdigit
    exact hdigit.2

theorem head_natDigits (hn : n ≠ 0) : (natDigits n).head? ≠ some 48 := by
  induction n using Nat.strong_induction_on with
  | _ n ih =>
      rw [natDigits, Nat.toDigits_eq_if (by decide)]
      split
      case isTrue hlt =>
        have hall : ∀ d < 10, d ≠ 0 → UInt8.ofNat (Nat.digitChar d).toNat ≠ 48 := by decide
        simpa using hall n hlt hn
      case isFalse hge =>
        rw [List.map_append, List.head?_append]
        have hdiv := ih (n / 10) (by omega) (by omega)
        change (natDigits (n / 10)).head?.or _ ≠ _
        cases hhead : (natDigits (n / 10)).head? with
        | none => exact absurd (List.head?_eq_none_iff.1 hhead) (natDigits_ne_nil _)
        | some d =>
            rw [hhead] at hdiv
            simpa using hdiv

theorem takeWhile_natDigits (hrest : ∀ b ∈ rest.head?, digitValue b = none) :
    (natDigits n ++ rest).takeWhile (isDigit 10) = natDigits n := by
  rw [List.takeWhile_append_of_pos]
  · cases rest with
    | nil => simp
    | cons b rest =>
        rw [List.takeWhile_cons_of_neg, List.append_nil]
        rw [isDigit_of_digitValue (hrest b rfl)]
        exact Bool.false_ne_true
  · intro b hb
    obtain ⟨hlow, hhigh⟩ := mem_natDigits hb
    exact isDigit_of_digit hlow hhigh le_rfl

theorem takeWhile_zero (hrest : ∀ b ∈ rest.head?, digitValue b = none) :
    (natDigits 0 ++ rest).takeWhile (isDigit 8) = natDigits 0 := by
  have hzero : natDigits 0 = [48] := by decide
  rw [hzero, List.singleton_append, List.takeWhile_cons_of_pos (by decide)]
  cases rest with
  | nil => rfl
  | cons b rest =>
      rw [List.takeWhile_cons_of_neg]
      rw [isDigit_of_digitValue (hrest b rfl)]
      exact Bool.false_ne_true

/-- The digits of a number say base 10, or base 8 for zero alone. -/
theorem detectBase_natDigits (hbase : base = 0 ∨ base = 10)
    (hrest : ∀ b ∈ rest.head?, digitValue b = none) :
    detectBase base (natDigits n ++ rest) = (10, 0) ∨
      n = 0 ∧ detectBase base (natDigits n ++ rest) = (8, 0) := by
  rcases hbase with rfl | rfl
  · by_cases hn : n = 0
    · subst hn
      right
      refine ⟨rfl, ?_⟩
      have hzero : natDigits 0 = [48] := by decide
      unfold detectBase
      rw [hzero, if_pos rfl]
      cases rest with
      | nil => rfl
      | cons x rest =>
          have hx : toLower x ≠ 120 := by
            intro hx
            have hnone := hrest x rfl
            rw [digitValue, hx] at hnone
            split at hnone
            · cases hnone
            · cases hnone
          cases rest with
          | nil => rfl
          | cons d rest => simp [hx]
    · left
      have hhead := head_natDigits hn
      cases hdigits : natDigits n with
      | nil => exact absurd hdigits (natDigits_ne_nil n)
      | cons d digits =>
          rw [hdigits] at hhead
          have hd : d ≠ 48 := fun h => hhead (congrArg some h)
          unfold detectBase
          rw [if_pos rfl]
          simp [hd]
  · left
    rfl

theorem natDigits_append (n : ℕ) (rest : Bytes) :
    ∃ d s, natDigits n ++ rest = d :: s ∧ 48 ≤ d.toNat ∧ d.toNat ≤ 57 := by
  cases hdigits : natDigits n with
  | nil => exact absurd hdigits (natDigits_ne_nil n)
  | cons d digits =>
      exact ⟨d, digits ++ rest, rfl, mem_natDigits (hdigits ▸ List.mem_cons_self)⟩

/-- `strtoll` reads a decimal number back, whatever base it is left to find. -/
theorem strtoll_decimal {v : ℤ} (hbase : base = 0 ∨ base = 10) (hlow : -2 ^ 63 ≤ v)
    (hhigh : v < 2 ^ 63) (hrest : ∀ b ∈ rest.head?, digitValue b = none) :
    strtoll (ascii (toString v) ++ rest) base = (v, (ascii (toString v)).length) := by
  have hread : ∀ n : ℕ, ∃ found, detectBase base (natDigits n ++ rest) = (found, 0) ∧
      (natDigits n ++ rest).takeWhile (isDigit found) = natDigits n ∧
      digitsValue found (natDigits n) = n := by
    intro n
    rcases detectBase_natDigits (n := n) hbase hrest with hfound | ⟨rfl, hfound⟩
    · exact ⟨10, hfound, takeWhile_natDigits hrest, digitsValue_natDigits n⟩
    · exact ⟨8, hfound, takeWhile_zero hrest, by decide⟩
  have hempty : ∀ n : ℕ, (natDigits n).isEmpty = false := fun n => by
    simpa using natDigits_ne_nil n
  rw [ascii_toString_int, strtoll]
  by_cases hpos : 0 ≤ v
  · obtain ⟨d, s, hcons, hd⟩ := natDigits_append v.toNat rest
    have hhead : (natDigits v.toNat ++ rest).head? = some d := by
      rw [hcons]
      rfl
    have hspaces : (natDigits v.toNat ++ rest).takeWhile isSpace = [] := by
      rw [hcons, List.takeWhile_cons_of_neg]
      rw [isSpace_of_digit hd.1]
      exact Bool.false_ne_true
    have hminus : d ≠ 45 := by
      rintro rfl
      exact absurd hd.1 (by decide)
    have hplus : d ≠ 43 := by
      rintro rfl
      exact absurd hd.1 (by decide)
    obtain ⟨found, hfound, htake, hvalue⟩ := hread v.toNat
    rw [if_pos hpos, hspaces]
    simp only [List.length_nil, List.drop_zero, hhead, Option.some.injEq, hminus, hplus, or_self,
      if_false, hfound, Nat.zero_add, htake, hempty, hvalue, Bool.false_eq_true]
    rw [Int.toNat_of_nonneg hpos, Int.min_eq_right (by omega)]
  · have hspaces : (45 :: natDigits v.natAbs ++ rest).takeWhile isSpace = [] := by
      rw [List.cons_append, List.takeWhile_cons_of_neg (by decide)]
    obtain ⟨found, hfound, htake, hvalue⟩ := hread v.natAbs
    rw [if_neg hpos, hspaces]
    simp only [List.length_nil, List.drop_zero, List.cons_append, List.head?_cons, true_or,
       if_true, Nat.zero_add, List.drop_succ_cons, hfound, htake, hempty, hvalue,
      Bool.false_eq_true, if_false, Nat.add_zero, List.length_cons]
    rw [show -(v.natAbs : ℤ) = v by omega, Int.max_eq_right hlow, Nat.add_comm 1]

/-! ### Digits -/

/-- A text of decimal digits. -/
def Digits (w : Bytes) : Prop := w ≠ [] ∧ ∀ b ∈ w, 48 ≤ b.toNat ∧ b.toNat ≤ 57

theorem strtoll_digits {w : Bytes} (hw : Digits w) (hrest : ∀ b ∈ rest.head?, isDigit 10 b = false) :
    strtoll (w ++ rest) 10 = (min (2 ^ 63 - 1) (digitsValue 10 w : ℤ), w.length) := by
  obtain ⟨hne, hdigits⟩ := hw
  obtain ⟨d, w', rfl⟩ := List.exists_cons_of_ne_nil hne
  obtain ⟨hlow, hhigh⟩ := hdigits d List.mem_cons_self
  have hspaces : (d :: w' ++ rest).takeWhile isSpace = [] := by
    rw [List.cons_append, List.takeWhile_cons_of_neg]
    rw [isSpace_of_digit hlow]
    exact Bool.false_ne_true
  have hminus : d ≠ 45 := by
    rintro rfl
    exact absurd hlow (by decide)
  have hplus : d ≠ 43 := by
    rintro rfl
    exact absurd hlow (by decide)
  have hall : ∀ b ∈ d :: w', isDigit 10 b = true := fun b hb =>
    isDigit_of_digit (hdigits b hb).1 (hdigits b hb).2 le_rfl
  have htake : (d :: w' ++ rest).takeWhile (isDigit 10) = d :: w' := by
    rw [List.takeWhile_append_of_pos hall]
    cases rest with
    | nil => exact List.append_nil _
    | cons b rest =>
        rw [List.takeWhile_cons_of_neg, List.append_nil]
        rw [hrest b rfl]
        exact Bool.false_ne_true
  have hbase : detectBase 10 (d :: w' ++ rest) = (10, 0) := rfl
  rw [strtoll, hspaces]
  simp only [List.length_nil, List.drop_zero, List.cons_append, List.head?_cons, Option.some.injEq, hminus,
    hplus, or_self, if_false]
  rw [← List.cons_append, hbase]
  simp only [Nat.zero_add, List.drop_zero, htake, List.isEmpty_cons, Bool.false_eq_true, if_false]

end CString
