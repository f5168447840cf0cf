import WifiAudio.Lib.Token
import WifiAudio.Rtsp.Parser

/-!
# Splitting a request into lines

`getline` looks for a line end with something behind it, and what it leaves is at least one byte. It only
guards against nothing being left: with a single byte, the bound of its loop wraps around and it reads
behind the request. Whether that can happen is seen from how the request ends.
-/

namespace WifiAudio

open CString Except

namespace LineParser

variable {m left back line rest : Bytes} {lp : LineParser}

/-- `line` is the first line of `left`: `rest` lies behind its line end, which is the leftmost one with
anything behind it. -/
def FirstLine (left line rest : Bytes) : Prop :=
  left = line ++ crlf ++ rest ∧ rest ≠ [] ∧
    ∀ line' rest', left = line' ++ crlf ++ rest' → rest' ≠ [] → line.length ≤ line'.length

/-- A call that works on `left` returns its first line, a NUL behind it, and keeps the rest; or it
returns null and leaves the parser as it was, if there is none. -/
inductive Gets (m : Bytes) (lp : LineParser) (left : Bytes) :
    Option ℕ → LineParser → Bytes → Prop
  | line {line rest : Bytes} (hline : FirstLine left line rest) :
      Gets m lp left (some lp.data) ⟨lp.data + line.length + 2, rest.length⟩
        (m.set (lp.data + line.length) 0)
  | null (hnone : ∀ line rest, ¬FirstLine left line rest) : Gets m lp left none lp m

/-- `k` calls of `getline` complete, each as it should. -/
def Runs (m : Bytes) (lp : LineParser) : ℕ → Prop
  | 0 => True
  | k + 1 => ∃ line lp' m', getline m lp = .ok (line, lp', m') ∧
      Gets m lp ((m.drop lp.data).take lp.size) line lp' m' ∧ Runs m' lp' k

/-- A single byte is left when all lines are taken. -/
def OneLeft (left : Bytes) : Prop := left.length = 1 ∨ ∃ line b, left = line ++ crlf ++ [b]

/-! ### The first line -/

theorem firstLine_of_find {i : ℕ} (hfind : find crlf left = some i) (hlt : i + 2 < left.length) :
    FirstLine left (left.take i) (left.drop (i + 2)) := by
  obtain ⟨rest, hrest⟩ := find_starts hfind
  have hsplit : left = left.take i ++ crlf ++ left.drop (i + 2) := by
    have hdrop : left.drop (i + 2) = rest := by
      rw [← List.drop_drop, ← hrest]
      rfl
    rw [hdrop, List.append_assoc, hrest, List.take_append_drop]
  refine ⟨hsplit, List.ne_nil_of_length_pos (by rw [List.length_drop]; omega), ?_⟩
  intro line' rest' hleft _
  have hstarts : crlf <+: left.drop line'.length := by
    rw [hleft, List.append_assoc, List.drop_left]
    exact List.prefix_append _ _
  obtain ⟨j, hj, hle⟩ := find_le hstarts
  obtain rfl := Option.some.inj (hfind.symm.trans hj)
  rw [List.length_take]
  omega

theorem find_of_split (hleft : left = line ++ crlf ++ rest) (hrest : rest ≠ []) :
    ∃ i, find crlf left = some i ∧ i + 2 < left.length := by
  have hstarts : crlf <+: left.drop line.length := by
    rw [hleft, List.append_assoc, List.drop_left]
    exact List.prefix_append _ _
  obtain ⟨i, hi, hle⟩ := find_le hstarts
  have hpos := List.length_pos_iff.2 hrest
  have hlength : left.length = line.length + 2 + rest.length := by
    rw [hleft, List.length_append, List.length_append]
    rfl
  exact ⟨i, hi, by omega⟩

/-- Two line ends do not overlap, so what ends behind the first line ends behind the others too. -/
theorem FirstLine.oneLeft_iff (h : FirstLine left line rest) : OneLeft left ↔ OneLeft rest := by
  obtain ⟨rfl, hrest, hfirst⟩ := h
  constructor
  · rintro (hone | ⟨line', b, heq⟩)
    · have hlength : (line ++ crlf ++ rest).length = line.length + 2 + rest.length := by
        rw [List.length_append, List.length_append]
        rfl
      omega
    · have hle := hfirst line' [b] heq (List.cons_ne_nil b [])
      rw [List.append_assoc, List.append_assoc] at heq
      obtain ⟨u, rfl⟩ : line <+: line' := List.prefix_of_prefix_length_le
        (List.prefix_append line (crlf ++ rest)) (heq ▸ List.prefix_append line' (crlf ++ [b])) hle
      rw [List.append_assoc, List.append_cancel_left_eq] at heq
      cases u with
      | nil =>
          obtain rfl : rest = [b] := List.append_cancel_left heq
          exact .inl rfl
      | cons c u =>
          cases u with
          | nil => cases heq
          | cons d u =>
              refine .inr ⟨u, b, ?_⟩
              rw [List.append_assoc]
              exact (List.cons.inj (List.cons.inj heq).2).2
  · rintro (hone | ⟨line', b, rfl⟩)
    · obtain ⟨b, rfl⟩ := List.length_eq_one_iff.1 hone
      exact .inr ⟨line, b, rfl⟩
    · exact .inr ⟨line ++ crlf ++ line', b, by simp only [List.append_assoc]⟩

/-! ### One call -/

theorem strncmpEq_crlf {p : ℕ} (hdrop : m.drop p = left ++ back) (hlength : 2 ≤ left.length) :
    strncmpEq m p crlf = .ok (crlf.isPrefixOf left) := by
  have hcrlf : crlf.length = 2 := rfl
  rw [strncmpEq_eq (by rw [hdrop, List.length_append]; omega), hdrop,
    isPrefixOf_append (hcrlf ▸ hlength)]

theorem lineEnd_eq {data n i : ℕ} (hdrop : m.drop (data + i) = left ++ back)
    (hn : n + 2 ≤ left.length) :
    lineEnd m data n i = .ok ((find crlf left).bind fun j => if j < n then some (i + j) else none) := by
  induction n generalizing i left with
  | zero =>
      rw [lineEnd]
      cases find crlf left <;> simp
  | succ n ih =>
      cases left with
      | nil => exact absurd hn (by simp)
      | cons b left =>
          rw [List.length_cons] at hn
          rw [lineEnd, strncmpEq_crlf hdrop (by rw [List.length_cons]; omega), find]
          simp only [ok_bind]
          split
          · simp
          · have hnext : m.drop (data + (i + 1)) = left ++ back := by
              rw [← Nat.add_assoc, ← List.drop_drop, hdrop]
              rfl
            rw [ih hnext (by omega)]
            cases find crlf left with
            | none => rfl
            | some j =>
                simp only [Option.bind_some, Option.map_some, Nat.add_lt_add_iff_right]
                rw [show i + 1 + j = i + (j + 1) by omega]

theorem getline_null (hdrop : m.drop lp.data = left ++ back) (hsize : lp.size = left.length)
    (hone : left.length ≠ 1) (hnone : ∀ i, find crlf left = some i → left.length ≤ i + 2) :
    getline m lp = .ok (none, lp, m) := by
  rw [getline, hsize]
  by_cases hempty : left.length = 0
  · rw [if_pos hempty]
    rfl
  · have hend := lineEnd_eq (n := left.length - 2) (i := 0) hdrop (by omega)
    rw [if_neg hempty, sizeSub, if_pos (by omega), hend]
    cases hfind : find crlf left with
    | none => rfl
    | some i =>
        have hle := hnone i hfind
        rw [Option.bind_some, if_neg (by omega)]
        rfl

theorem getline_line {i : ℕ} (hdrop : m.drop lp.data = left ++ back) (hsize : lp.size = left.length)
    (hfind : find crlf left = some i) (hlt : i + 2 < left.length) :
    getline m lp =
      .ok (some lp.data, ⟨lp.data + i + 2, left.length - (i + 2)⟩, m.set (lp.data + i) 0) := by
  have hend := lineEnd_eq (n := left.length - 2) (i := 0) hdrop (by omega)
  have hin : lp.data + i < m.length := by
    have hlength := congrArg List.length hdrop
    rw [List.length_drop, List.length_append] at hlength
    omega
  rw [getline, hsize, if_neg (by omega), sizeSub, if_pos (by omega), hend, hfind, Option.bind_some,
    if_pos (by omega), Nat.zero_add]
  simp only [ok_bind, store, if_pos hin, sizeSub, if_pos hlt.le, pure_eq_ok]

theorem Gets.of_find {i : ℕ} (hfind : find crlf left = some i) (hlt : i + 2 < left.length) :
    Gets m lp left (some lp.data) ⟨lp.data + i + 2, left.length - (i + 2)⟩ (m.set (lp.data + i) 0) := by
  have hgets : Gets m lp left _ _ _ := .line (firstLine_of_find hfind hlt)
  rw [List.length_take, Nat.min_eq_left (by omega), List.length_drop] at hgets
  exact hgets

/-- Where more than one byte is left, or none, a call does as it should. -/
theorem getline_gets (hdrop : m.drop lp.data = left ++ back) (hsize : lp.size = left.length)
    (hone : left.length ≠ 1) :
    ∃ line lp' m', getline m lp = .ok (line, lp', m') ∧ Gets m lp left line lp' m' := by
  by_cases hfound : ∃ i, find crlf left = some i ∧ i + 2 < left.length
  · obtain ⟨i, hfind, hlt⟩ := hfound
    exact ⟨_, _, _, getline_line hdrop hsize hfind hlt, .of_find hfind hlt⟩
  · refine ⟨_, _, _, getline_null hdrop hsize hone ?_, .null ?_⟩
    · intro i hfind
      exact not_lt.1 fun hlt => hfound ⟨i, hfind, hlt⟩
    · rintro line rest ⟨hleft, hrest, -⟩
      exact hfound (find_of_split hleft hrest)

/-- With a single byte left at the end of the memory a call reads behind it. -/
theorem getline_one {b : UInt8} (hdrop : m.drop lp.data = [b]) (hsize : lp.size = 1) :
    getline m lp = .error .outOfBounds := by
  have hlast : m.length = lp.data + 1 := by
    have hlength := congrArg List.length hdrop
    rw [List.length_drop, List.length_singleton] at hlength
    omega
  have hbehind : load m (lp.data + 1) = .error .outOfBounds := by
    rw [load, List.getElem?_eq_none (by omega)]
  have hhere : load m lp.data = .ok b := by
    rw [load, ← Nat.add_zero lp.data, ← List.getElem?_drop, hdrop]
    rfl
  have hend : ∀ n, lineEnd m lp.data (n + 2) 0 = .error .outOfBounds := by
    intro n
    rw [lineEnd, Nat.add_zero, crlf, strncmpEq, hhere]
    simp only [ok_bind]
    split
    · rw [strncmpEq, hbehind]
      rfl
    · rw [lineEnd, Nat.zero_add, crlf, strncmpEq, hbehind]
      rfl
  have hwrap : sizeSub 1 2 = 2 ^ 32 - 3 + 2 := rfl
  rw [getline, hsize, hwrap, hend]
  rfl

theorem Gets.leaves {line' : Option ℕ} {lp' : LineParser} {m' : Bytes}
    (hdrop : m.drop lp.data = left ++ back) (hsize : lp.size = left.length)
    (h : Gets m lp left line' lp' m') : ∃ left', m'.drop lp'.data = left' ++ back ∧
      lp'.size = left'.length ∧ lp'.data + lp'.size = lp.data + lp.size ∧
      (OneLeft left ↔ OneLeft left') := by
  cases h with
  | null hnone => exact ⟨left, hdrop, hsize, rfl, Iff.rfl⟩
  | @line line rest hline =>
      refine ⟨rest, ?_, rfl, ?_, hline.oneLeft_iff⟩
      · rw [hline.1] at hdrop
        have hdrop' : m.drop lp.data = line ++ 13 :: (10 :: (rest ++ back)) := by
          rw [hdrop, List.append_assoc, List.append_assoc]
          rfl
        have hset := drop_set_length hdrop'
        rw [← List.drop_drop, ← List.drop_drop, hset, List.drop_left]
        rfl
      · have hlength := congrArg List.length hline.1
        rw [List.length_append, List.length_append] at hlength
        change left.length = line.length + 2 + rest.length at hlength
        simp only [hsize]
        omega

/-! ### Any number of calls -/

theorem runs_of_not_oneLeft (hdrop : m.drop lp.data = left ++ back) (hsize : lp.size = left.length)
    (hnot : ¬OneLeft left) (k : ℕ) : Runs m lp k := by
  induction k generalizing m lp left with
  | zero => trivial
  | succ k ih =>
      obtain ⟨line, lp', m', hcall, hgets⟩ := getline_gets hdrop hsize fun hone => hnot (.inl hone)
      obtain ⟨left', hdrop', hsize', -, hone⟩ := hgets.leaves hdrop hsize
      refine ⟨line, lp', m', hcall, ?_, ih hdrop' hsize' fun h => hnot (hone.2 h)⟩
      rw [hdrop, hsize, List.take_left]
      exact hgets

/-- With nothing behind the request, calls that go on for ever never come to a single byte. -/
theorem not_oneLeft_of_runs (hdrop : m.drop lp.data = left) (hsize : lp.size = left.length)
    (hruns : ∀ k, Runs m lp k) : ¬OneLeft left := by
  induction hn : left.length using Nat.strong_induction_on generalizing m lp left with
  | _ n ih =>
  rintro (hone | ⟨line, b, hsplit⟩)
  · obtain ⟨b, hb⟩ := List.length_eq_one_iff.1 hone
    obtain ⟨_, _, _, hcall, -⟩ := hruns 1
    rw [getline_one (hdrop.trans hb) (hsize.trans hone)] at hcall
    cases hcall
  · obtain ⟨i, hfind, hlt⟩ := find_of_split hsplit (List.cons_ne_nil b [])
    rw [← List.append_nil left] at hdrop
    have hcall := getline_line hdrop hsize hfind hlt
    have hgets : Gets m lp left _ _ _ := .of_find hfind hlt
    obtain ⟨left', hdrop', hsize', -, hone⟩ := hgets.leaves hdrop hsize
    rw [List.append_nil] at hdrop'
    have hruns' : ∀ k, Runs (m.set (lp.data + i) 0) ⟨lp.data + i + 2, left.length - (i + 2)⟩ k := by
      intro k
      obtain ⟨line', lp', m', hcall', -, hrest⟩ := hruns (k + 1)
      obtain ⟨-, rfl, rfl⟩ : line' = some lp.data ∧ lp' = ⟨lp.data + i + 2, left.length - (i + 2)⟩ ∧
          m' = m.set (lp.data + i) 0 := by simpa using hcall'.symm.trans hcall
      exact hrest
    simp only at hsize'
    exact ih left'.length (by omega) hdrop' hsize' hruns' rfl (hone.1 (.inr ⟨line, b, hsplit⟩))

theorem skipLeading_ends {fuel : ℕ} (hdrop : m.drop lp.data = left ++ back)
    (hsize : lp.size = left.length) (hfuel : left.length < fuel) :
    ∃ lp' m' left', skipLeading fuel m lp = .ok (lp', m') ∧ m'.drop lp'.data = left' ++ back ∧
      lp'.size = left'.length ∧ lp'.data + lp'.size = lp.data + lp.size ∧
      (OneLeft left ↔ OneLeft left') := by
  induction fuel generalizing m lp left with
  | zero => exact absurd hfuel (Nat.not_lt_zero _)
  | succ fuel ih =>
      obtain ⟨data, size⟩ := lp
      obtain rfl : size = left.length := hsize
      rw [skipLeading]
      by_cases hlong : left.length > 2
      · rw [if_pos hlong, strncmpEq_crlf hdrop hlong.le]
        simp only [ok_bind]
        by_cases hstarts : crlf.isPrefixOf left = true
        · have hfind : find crlf left = some 0 := by
            obtain ⟨i, hi, hle⟩ := find_le (k := 0) (List.isPrefixOf_iff_prefix.1 hstarts)
            rw [hi, Nat.le_zero.1 hle]
          have hgets : Gets m ⟨data, left.length⟩ left _ _ _ := .of_find hfind hlong
          obtain ⟨left₁, hdrop₁, hsize₁, hend₁, hone₁⟩ := hgets.leaves hdrop rfl
          have hshort : left₁.length < fuel := by
            simp only at hsize₁
            omega
          obtain ⟨lp', m', left', heq, hdrop', hsize', hend', hone'⟩ := ih hdrop₁ hsize₁ hshort
          rw [if_pos hstarts, getline_line hdrop rfl hfind hlong]
          exact ⟨lp', m', left', heq, hdrop', hsize', hend'.trans hend₁, hone₁.trans hone'⟩
        · rw [if_neg hstarts]
          exact ⟨_, m, left, rfl, hdrop, rfl, rfl, Iff.rfl⟩
      · rw [if_neg hlong]
        exact ⟨_, m, left, rfl, hdrop, rfl, rfl, Iff.rfl⟩

/-- The constructor leaves the request, or the request without an empty line at its start. -/
theorem new_ends (text back : Bytes) : ∃ lp m left, new (text ++ back) 0 text.length = .ok (lp, m) ∧
    m.drop lp.data = left ++ back ∧ lp.size = left.length ∧ lp.data + lp.size = text.length ∧
    (OneLeft text ↔ OneLeft left) := by
  have hdrop : (text ++ back).drop 0 = text ++ back := List.drop_zero
  have hends : ∃ lp m left, new (text ++ back) 0 text.length = .ok (lp, m) ∧
      m.drop lp.data = left ++ back ∧ lp.size = left.length ∧ lp.data + lp.size = 0 + text.length ∧
      (OneLeft text ↔ OneLeft left) := skipLeading_ends hdrop rfl (Nat.lt_succ_self _)
  rw [Nat.zero_add] at hends
  exact hends

theorem new_runs {text : Bytes} (htext : ¬OneLeft text) (back : Bytes) :
    ∃ lp m, new (text ++ back) 0 text.length = .ok (lp, m) ∧
      lp.data + lp.size = text.length ∧ ∀ k, Runs m lp k := by
  obtain ⟨lp, m, left, heq, hdrop, hsize, hend, hone⟩ := new_ends text back
  exact ⟨lp, m, heq, hend, runs_of_not_oneLeft hdrop hsize fun h => htext (hone.2 h)⟩

/-- For a request `text`, with any bytes behind it in memory: the constructor completes, and after it any
number of calls of `getline` does as it should, if and only if the request is not a single byte and does
not end with one byte behind a line end. -/
theorem lines_in_bounds_iff (text : Bytes) :
    (∀ back, ∃ lp m, new (text ++ back) 0 text.length = .ok (lp, m) ∧
      lp.data + lp.size = text.length ∧ ∀ k, Runs m lp k) ↔
    text.length ≠ 1 ∧ ∀ line b, text ≠ line ++ crlf ++ [b] := by
  have hnot : (text.length ≠ 1 ∧ ∀ line b, text ≠ line ++ crlf ++ [b]) ↔ ¬OneLeft text := by
    simp only [OneLeft, not_or, not_exists, ne_eq]
  rw [hnot]
  constructor
  · intro hright
    obtain ⟨lp, m, left, heq, hdrop, hsize, -, hone⟩ := new_ends text []
    obtain ⟨lp', m', heq', -, hruns⟩ := hright []
    obtain ⟨rfl, rfl⟩ := Prod.mk.inj (Except.ok.inj (heq.symm.trans heq'))
    rw [List.append_nil] at hdrop
    exact fun htext => not_oneLeft_of_runs hdrop hsize hruns (hone.1 htext)
  · exact new_runs

/-- A request of one byte, and one that leaves one byte behind its first line: `getline` reads behind the
request. -/
theorem getline_out_of_bounds :
    (∃ lp m, new (ascii "A") 0 1 = .ok (lp, m) ∧ getline m lp = .error .outOfBounds) ∧
    ∃ lp m line lp' m', new (ascii "A\r\nB") 0 4 = .ok (lp, m) ∧ getline m lp = .ok (line, lp', m') ∧
      lp'.size = 1 ∧ getline m' lp' = .error .outOfBounds :=
  ⟨⟨_, _, rfl, getline_one rfl rfl⟩, ⟨_, _, _, _, _, rfl, rfl, rfl, getline_one rfl rfl⟩⟩

end LineParser

end WifiAudio
