import WifiAudio.Lib.Token

/-!
# Regions of memory

A function that is given a string works inside a region when it looks at nothing and writes nothing
but the bytes from the string's start to its NUL. Whether it looks at other bytes shows in two runs on
memories that agree on the region (`Twin`): they give the same result. What it may write is `Kept`.
-/

namespace CString

/-- The bytes from `p` to the NUL at `e` are the same in both memories. -/
structure Twin (p e : ℕ) (m n : Bytes) : Prop where
  agree : ∀ i, p ≤ i → i ≤ e → n[i]? = m[i]?
  ends : m[e]? = some 0

/-- Only bytes from `p` on and in front of `e` have been written. -/
structure Kept (p e : ℕ) (m m' : Bytes) : Prop where
  length_eq : m'.length = m.length
  outside : ∀ i, i < p ∨ e ≤ i → m'[i]? = m[i]?

/-- What two runs leave behind: memories that agree again, each written inside the region only. -/
structure Twins (p e : ℕ) (m n m' n' : Bytes) : Prop where
  twin : Twin p e m' n'
  left : Kept p e m m'
  right : Kept p e n n'

variable {p e q : ℕ} {m n m' n' m'' n'' s : Bytes} {d : UInt8}

theorem Twin.refl (hends : m[e]? = some 0) : Twin p e m m := ⟨fun _ _ _ => rfl, hends⟩

theorem Kept.refl (m : Bytes) : Kept p e m m := ⟨rfl, fun _ _ => rfl⟩

theorem Kept.trans (h : Kept p e m m') (h' : Kept p e m' m'') : Kept p e m m'' := by
  refine ⟨h'.length_eq.trans h.length_eq, ?_⟩
  intro i hi
  exact (h'.outside i hi).trans (h.outside i hi)

theorem Kept.mono {p' e' : ℕ} (h : Kept p e m m') (hp : p' ≤ p) (he : e ≤ e') : Kept p' e' m m' := by
  refine ⟨h.length_eq, ?_⟩
  intro i hi
  exact h.outside i (by omega)

theorem Twin.twins (h : Twin p e m n) : Twins p e m n m n := ⟨h, Kept.refl m, Kept.refl n⟩

theorem Twins.trans (h : Twins p e m n m' n') (h' : Twins p e m' n' m'' n'') :
    Twins p e m n m'' n'' :=
  ⟨h'.twin, h.left.trans h'.left, h.right.trans h'.right⟩

theorem Kept.take (h : Kept p e m m') : m'.take p = m.take p := by
  apply List.ext_getElem?
  intro i
  rw [List.getElem?_take, List.getElem?_take]
  split
  · exact h.outside i (.inl ‹_›)
  · rfl

theorem Kept.drop (h : Kept p e m m') : m'.drop e = m.drop e := by
  apply List.ext_getElem?
  intro i
  rw [List.getElem?_drop, List.getElem?_drop]
  exact h.outside (e + i) (.inr (Nat.le_add_right e i))

/-! ### Reading -/

theorem Twin.in_bounds (h : Twin p e m n) : e < m.length := by
  obtain ⟨hlt, -⟩ := List.getElem?_eq_some_iff.1 h.ends
  exact hlt

theorem Twin.symm (h : Twin p e m n) (hpe : p ≤ e) : Twin p e n m :=
  ⟨fun i hp he => (h.agree i hp he).symm, (h.agree e hpe le_rfl).trans h.ends⟩

theorem Twin.load (h : Twin p e m n) (hp : p ≤ q) (hq : q ≤ e) :
    ∃ b, m[q]? = some b ∧ load m q = .ok b ∧ load n q = .ok b := by
  have hlt := h.in_bounds
  obtain ⟨b, hb⟩ : ∃ b, m[q]? = some b := ⟨_, List.getElem?_eq_getElem (by omega)⟩
  refine ⟨b, hb, ?_, ?_⟩
  · rw [CString.load, hb]
  · rw [CString.load, h.agree q hp hq, hb]

/-- A byte that is no NUL lies in front of the end. -/
theorem Twin.lt_of_ne (h : Twin p e m n) {b : UInt8} (hb : m[q]? = some b) (hne : b ≠ 0) (hq : q ≤ e) :
    q < e := by
  refine lt_of_le_of_ne hq ?_
  rintro rfl
  exact hne (Option.some.inj (hb.symm.trans h.ends))

theorem string_eq_ok_iff_prefix : string m q = .ok s ↔ 0 ∉ s ∧ s ++ [0] <+: m.drop q := by
  rw [string_eq_ok]
  refine and_congr_right fun _ => ?_
  constructor
  · rintro ⟨back, hback⟩
    exact ⟨back, by rw [hback]; simp⟩
  · rintro ⟨back, hback⟩
    exact ⟨back, by rw [← hback]; simp⟩

theorem Twin.string (h : Twin p e m n) (hp : p ≤ q) (hq : q ≤ e) :
    ∃ l, string m q = .ok l ∧ string n q = .ok l ∧ q + l.length ≤ e := by
  have hzero : 0 ∈ m.drop q := by
    apply List.mem_of_getElem? (i := e - q)
    rw [List.getElem?_drop, Nat.add_sub_cancel' hq, h.ends]
  have hfound := string_zero (m.drop q)
  rw [if_pos hzero] at hfound
  have hl : CString.string m q = .ok (text (m.drop q)) := by
    obtain ⟨hfree, back, hback⟩ := string_eq_ok.1 hfound
    exact string_eq_ok.2 ⟨hfree, back, by rw [← hback, List.drop_zero]⟩
  set l := text (m.drop q)
  have hle : l.length ≤ e - q := by
    apply string_length_le hl
    rw [Nat.add_sub_cancel' hq, h.ends]
  refine ⟨l, hl, ?_, by omega⟩
  obtain ⟨hfree, hstarts⟩ := string_eq_ok_iff_prefix.1 hl
  refine string_eq_ok_iff_prefix.2 ⟨hfree, ?_⟩
  rw [List.prefix_iff_getElem?] at hstarts ⊢
  intro i hi
  rw [← hstarts i hi, List.getElem?_drop, List.getElem?_drop]
  rw [List.length_append, List.length_singleton] at hi
  exact h.agree (q + i) (by omega) (by omega)

theorem string_of_agree (hstring : string m q = .ok s)
    (hagree : ∀ i, q ≤ i → i ≤ q + s.length → n[i]? = m[i]?) : CString.string n q = .ok s := by
  have htwin : Twin q (q + s.length) m n := ⟨hagree, string_ends hstring⟩
  obtain ⟨l, hm, hn, -⟩ := htwin.string le_rfl (Nat.le_add_right q _)
  obtain rfl := Except.ok.inj (hstring.symm.trans hm)
  exact hn

theorem Kept.string (h : Kept p e m m') (hstring : string m q = .ok s)
    (hout : q + s.length < p ∨ e ≤ q) : CString.string m' q = .ok s := by
  apply string_of_agree hstring
  intro i hlow hhigh
  exact h.outside i (by omega)

/-- A comparison stops at the NUL, and a match ends in front of it. -/
theorem Twin.strncmpEq (h : Twin p e m n) (hs : 0 ∉ s) (hp : p ≤ q) (hq : q ≤ e) :
    ∃ b, strncmpEq m q s = .ok b ∧ strncmpEq n q s = .ok b ∧ (b = true → q + s.length ≤ e) := by
  induction s generalizing q with
  | nil => exact ⟨true, rfl, rfl, fun _ => hq⟩
  | cons c s ih =>
      obtain ⟨hc, hs⟩ := not_or.1 (mt List.mem_cons.2 hs)
      obtain ⟨b, hb, hm, hn⟩ := h.load hp hq
      rw [CString.strncmpEq, CString.strncmpEq, hm, hn]
      simp only [Except.ok_bind]
      by_cases hbc : b = c
      · have hlt := h.lt_of_ne hb (fun h0 => hc (h0.symm.trans hbc)) hq
        obtain ⟨r, hr, hr', hle⟩ := ih hs (by omega) hlt
        rw [if_pos hbc, if_pos hbc]
        refine ⟨r, hr, hr', fun htrue => ?_⟩
        have := hle htrue
        rw [List.length_cons]
        omega
      · rw [if_neg hbc, if_neg hbc]
        exact ⟨false, rfl, rfl, fun hfalse => by cases hfalse⟩

theorem Twin.strcmpEq (h : Twin p e m n) (hp : p ≤ q) (hq : q ≤ e) (s : Bytes) :
    ∃ b, strcmpEq m q s = .ok b ∧ strcmpEq n q s = .ok b := by
  obtain ⟨l, hm, hn, -⟩ := h.string hp hq
  rw [CString.strcmpEq, CString.strcmpEq, hm, hn]
  exact ⟨_, rfl, rfl⟩

/-! ### Writing -/

theorem Kept.set (hp : p ≤ q) (hq : q < e) (b : UInt8) : Kept p e m (m.set q b) := by
  refine ⟨List.length_set, ?_⟩
  intro i hi
  rw [List.getElem?_set_ne]
  omega

theorem Twin.set (h : Twin p e m n) (hp : p ≤ q) (hq : q < e) (b : UInt8) :
    Twins p e m n (m.set q b) (n.set q b) := by
  have hlt := h.in_bounds
  have hlt' := (h.symm (hp.trans hq.le)).in_bounds
  refine ⟨⟨?_, ?_⟩, .set hp hq b, .set hp hq b⟩
  · intro i hpi hie
    by_cases hi : q = i
    · subst hi
      rw [List.getElem?_set_self (by omega), List.getElem?_set_self (by omega)]
    · rw [List.getElem?_set_ne hi, List.getElem?_set_ne hi]
      exact h.agree i hpi hie
  · rw [List.getElem?_set_ne (by omega)]
    exact h.ends

theorem Twin.store (h : Twin p e m n) (hp : p ≤ q) (hq : q < e) :
    store m q 0 = .ok (m.set q 0) ∧ store n q 0 = .ok (n.set q 0) := by
  have hlt := h.in_bounds
  have hlt' := (h.symm (hp.trans hq.le)).in_bounds
  exact ⟨if_pos (by omega), if_pos (by omega)⟩

theorem length_takeWhile_le (f : UInt8 → Bool) (l : Bytes) : (l.takeWhile f).length ≤ l.length :=
  (List.takeWhile_prefix f).length_le

/-- One call of `strtok_r` on a string of the region. A string that starts with no delimiter has its
first token at its start. -/
theorem Twin.strtok_r (h : Twin p e m n) {start save : Option ℕ} (hq : (start <|> save) = some q)
    (hp : p ≤ q) (he : q ≤ e) (d : UInt8) :
    ∃ tok stop m' n', strtok_r m start d save = .ok (tok, some stop, m') ∧
      strtok_r n start d save = .ok (tok, some stop, n') ∧ Twins p e m n m' n' ∧ q ≤ stop ∧
      stop ≤ e ∧ (∀ t, tok = some t → q ≤ t ∧ t < stop) ∧
      ∀ b, m[q]? = some b → b ≠ 0 → b ≠ d → tok = some q := by
  obtain ⟨l, hm, hn, hle⟩ := h.string hp he
  rw [CString.strtok_r, CString.strtok_r, hq]
  simp only [hm, hn, Except.ok_bind]
  set skipped := (l.takeWhile (· == d)).length with hskipped
  have hstop : skipped + ((l.drop skipped).takeWhile (· != d)).length ≤ l.length := by
    have hbound := length_takeWhile_le (· != d) (l.drop skipped)
    have hshort := length_takeWhile_le (· == d) l
    rw [List.length_drop] at hbound
    omega
  set token := ((l.drop skipped).takeWhile (· != d)).length with htoken
  have hstarts : ∀ b, m[q]? = some b → b ≠ 0 → b ≠ d → skipped = 0 ∧ token ≠ 0 := by
    intro b hb h0 hd
    obtain ⟨-, back, hdrop⟩ := string_eq_ok.1 hm
    have hhead : (l ++ 0 :: back)[0]? = some b := by rw [← hdrop, List.getElem?_drop, Nat.add_zero, hb]
    cases hl : l with
    | nil =>
        rw [hl] at hhead
        exact absurd (Option.some.inj hhead).symm h0
    | cons c rest =>
        rw [hl] at hhead
        obtain rfl := Option.some.inj hhead
        have hzero : skipped = 0 := by rw [hskipped, hl, List.takeWhile_cons_of_neg (by simpa using hd)]; rfl
        refine ⟨hzero, ?_⟩
        rw [htoken, hzero, hl, List.drop_zero, List.takeWhile_cons_of_pos (by simpa using hd)]
        simp
  by_cases hnone : token = 0
  · rw [if_pos hnone, if_pos hnone]
    refine ⟨none, _, m, n, rfl, rfl, h.twins, by omega, by omega, ?_, ?_⟩
    · intro t ht
      cases ht
    · intro b hb h0 hd
      exact absurd hnone (hstarts b hb h0 hd).2
  · rw [if_neg hnone, if_neg hnone]
    by_cases hmore : skipped + token < l.length
    · rw [if_pos hmore, if_pos hmore]
      refine ⟨_, _, _, _, rfl, rfl, h.set (by omega) (by omega) 0, by omega, by omega, ?_, ?_⟩
      · intro t ht
        obtain rfl := Option.some.inj ht
        omega
      · intro b hb h0 hd
        rw [(hstarts b hb h0 hd).1, Nat.add_zero]
    · rw [if_neg hmore, if_neg hmore]
      refine ⟨_, _, m, n, rfl, rfl, h.twins, by omega, by omega, ?_, ?_⟩
      · intro t ht
        obtain rfl := Option.some.inj ht
        omega
      · intro b hb h0 hd
        rw [(hstarts b hb h0 hd).1, Nat.add_zero]

/-- `strtok_r` has found the token `w` of the string `l` at `q`; it lies at `t`, and the next call goes
on at `stop` with what is left, `rest`. -/
structure Found (m : Bytes) (d : UInt8) (q : ℕ) (l : Bytes) (t stop : ℕ) (w rest m' : Bytes) :
    Prop where
  tokens_eq : tokens d l = w :: tokens d rest
  word : string m' t = .ok w
  behind : string m' stop = .ok rest
  stop_eq : stop + rest.length = q + l.length
  short : rest.length < l.length
  low : q ≤ t
  ends : t + w.length < stop ∨ t + w.length = q + l.length ∧ stop = q + l.length
  kept : Kept q (q + l.length) m m'
  starts : ∀ b, m[q]? = some b → b ≠ 0 → b ≠ d → t = q

theorem strtok_r_string {start save : Option ℕ} (hq : (start <|> save) = some q) (hd : d ≠ 0)
    (hstring : CString.string m q = .ok s) :
    (strtok_r m start d save = .ok (none, some (q + s.length), m) ∧ tokens d s = []) ∨
      ∃ t stop w rest m', strtok_r m start d save = .ok (some t, some stop, m') ∧
        Found m d q s t stop w rest m' := by
  obtain ⟨tok, stop, m', n', hcall, -, htwins, -, -, hlow, hfirst⟩ :=
    (Twin.refl (string_ends hstring)).strtok_r hq le_rfl (Nat.le_add_right q _) d
  have hsame : strtok_r m (some q) d none = strtok_r m start d save := by
    rw [CString.strtok_r, CString.strtok_r, hq]
    rfl
  obtain ⟨r, hr, htoken⟩ := strtok_r_first hd hstring
  obtain rfl := Except.ok.inj (hr.symm.trans (hsame.trans hcall))
  cases htoken with
  | none htokens => exact .inl ⟨hcall, htokens⟩
  | @some t _ w rest _ htokens hword hstarts hne hrest hstop hshort hframe =>
      refine .inr ⟨t, stop, w, rest, m', hcall, htokens, hword, hrest, hstop, hshort,
        (hlow t rfl).1, ?_, htwins.left, ?_⟩
      · have hle : w.length ≤ q + s.length - t := by
          apply string_length_le hword
          obtain ⟨-, hlt⟩ := hlow t rfl
          rw [Nat.add_sub_cancel' (by omega)]
          exact htwins.twin.ends
        by_cases hend : stop < q + s.length
        · exact .inl (strtok_r_behind hq hcall hstring hword hend)
        · obtain ⟨-, hlt⟩ := hlow t rfl
          omega
      · intro b hb h0 hne'
        exact Option.some.inj (hfirst b hb h0 hne')

/-! ### Numbers -/

theorem strtoll_length_le (s : Bytes) (base : ℕ) : (strtoll s base).2 ≤ s.length := by
  unfold strtoll
  extract_lets spaces signed negative sign
  obtain ⟨found, skip⟩ := detectBase base (signed.drop sign)
  simp only []
  set digits := (signed.drop (sign + skip)).takeWhile (isDigit found)
  split
  · exact Nat.zero_le _
  · have hsigned : signed.length = s.length - spaces := List.length_drop
    have hspaces : spaces ≤ s.length := length_takeWhile_le isSpace s
    have hdigits : digits.length ≤ (signed.drop (sign + skip)).length := length_takeWhile_le _ _
    have hpos : 0 < digits.length := List.length_pos_iff.2 (by simpa using ‹¬digits.isEmpty = true›)
    rw [List.length_drop] at hdigits
    change spaces + sign + skip + digits.length ≤ s.length
    omega

end CString
