import WifiAudio.Lib.CString

/-!
# Tokens

The tokens of a string are what is left of it between delimiters. `strtok_r` finds them one after
another: a call on the string at `p` returns its first token and a pointer to a string that has the
others, both ending where the string at `p` ended, and writes nothing behind that end.
-/

namespace CString

variable {m : Bytes} {p : ℕ} {d : UInt8} {l s t w : Bytes}

/-- The tokens of `s`, `d` being the delimiter. -/
def tokens (d : UInt8) (s : Bytes) : List Bytes := (s.splitOn d).filter (!·.isEmpty)

theorem tokens_cons_delimiter : tokens d (d :: s) = tokens d s := by
  rw [tokens, List.splitOn_cons_eq_if_modifyHead]
  simp [tokens]

theorem tokens_dropWhile : tokens d (s.dropWhile (· == d)) = tokens d s := by
  induction s with
  | nil => rfl
  | cons b s ih =>
      by_cases hb : b = d
      · subst hb
        rw [tokens_cons_delimiter, List.dropWhile_cons_of_pos (by simp), ih]
      · rw [List.dropWhile_cons_of_neg (by simpa using hb)]

theorem tokens_of_not_mem (hw : d ∉ w) (hne : w ≠ []) : tokens d w = [w] := by
  rw [tokens, List.splitOn_eq_singleton hw]
  simp [hne]

theorem splitOn_append (hw : d ∉ w) : (w ++ d :: s).splitOn d = w :: s.splitOn d := by
  have hfree : ∀ b ∈ w, (b == d) = false := fun b hb => by
    rw [beq_eq_false_iff_ne]
    rintro rfl
    exact hw hb
  exact List.splitOnP_append_cons_of_forall_mem hfree d (beq_self_eq_true d) s

theorem tokens_append (hw : d ∉ w) (hne : w ≠ []) : tokens d (w ++ d :: s) = w :: tokens d s := by
  rw [tokens, splitOn_append hw]
  simp [tokens, hne]

theorem head_dropWhile {α : Type} {f : α → Bool} {s t : List α} {b : α} (h : s.dropWhile f = b :: t) :
    f b = false := by
  have hhead := List.head?_dropWhile_not f s
  rwa [h] at hhead

/-! ### The string at a pointer -/

theorem string_eq_ok : string m p = .ok s ↔ 0 ∉ s ∧ ∃ back, m.drop p = s ++ 0 :: back := by
  have hsplit := List.takeWhile_append_dropWhile (p := (· ≠ 0)) (l := m.drop p)
  rw [string]
  constructor
  · intro h
    split at h
    · obtain rfl := Except.ok.inj h
      refine ⟨fun h0 => mem_text h0 rfl, ?_⟩
      cases hback : (m.drop p).dropWhile (· ≠ 0) with
      | nil =>
          rw [hback, List.append_nil] at hsplit
          have hlength := congrArg List.length hsplit
          rw [List.length_drop] at hlength
          omega
      | cons b back =>
          obtain rfl : b = 0 := by simpa using head_dropWhile hback
          exact ⟨back, by rw [← hback, hsplit]⟩
    · cases h
  · rintro ⟨hs, back, hdrop⟩
    have htext : (m.drop p).takeWhile (· ≠ 0) = s := by
      have h := text_append hs (0 :: back)
      rw [← hdrop] at h
      exact h.trans (List.append_nil s)
    have hlength := congrArg List.length hdrop
    rw [List.length_drop, List.length_append, List.length_cons] at hlength
    rw [htext]
    exact if_pos (by omega)

/-- In front of a NUL there is a string, up to the first NUL. -/
theorem string_text (hdrop : m.drop p = s ++ 0 :: t) : string m p = .ok (text s) := by
  have hsplit : text s ++ s.dropWhile (· ≠ 0) = s := List.takeWhile_append_dropWhile
  refine string_eq_ok.2 ⟨fun h0 => mem_text h0 rfl, ?_⟩
  rw [hdrop]
  cases hcase : s.dropWhile (· ≠ 0) with
  | nil =>
      rw [hcase, List.append_nil] at hsplit
      exact ⟨t, by rw [hsplit]⟩
  | cons b u =>
      obtain rfl : b = 0 := by simpa using head_dropWhile hcase
      rw [hcase] at hsplit
      refine ⟨u ++ 0 :: t, ?_⟩
      conv_lhs => rw [← hsplit]
      rw [List.append_assoc, List.cons_append]

theorem length_lt_of_string (hstring : string m p = .ok l) : l.length < m.length := by
  obtain ⟨-, rest, hdrop⟩ := string_eq_ok.1 hstring
  have hlength := congrArg List.length hdrop
  rw [List.length_drop, List.length_append, List.length_cons] at hlength
  omega

theorem string_ends (hstring : string m p = .ok l) : m[p + l.length]? = some 0 := by
  obtain ⟨-, back, hdrop⟩ := string_eq_ok.1 hstring
  rw [← List.getElem?_drop, hdrop, List.getElem?_append_right le_rfl, Nat.sub_self]
  rfl

theorem drop_add_length (hdrop : m.drop p = s ++ t) : m.drop (p + s.length) = t := by
  rw [← List.drop_drop, hdrop, List.drop_left]

theorem drop_set_length {b : UInt8} (hdrop : m.drop p = s ++ b :: t) :
    (m.set (p + s.length) 0).drop p = s ++ 0 :: t := by
  rw [List.drop_set, if_neg (by omega), Nat.add_sub_cancel_left, hdrop, List.set_append_right _ _ le_rfl,
    Nat.sub_self, List.set_cons_zero]

theorem isPrefixOf_append {u : Bytes} (hlength : s.length ≤ t.length) :
    s.isPrefixOf (t ++ u) = s.isPrefixOf t := by
  rw [Bool.eq_iff_iff, List.isPrefixOf_iff_prefix, List.isPrefixOf_iff_prefix]
  constructor
  · intro h
    exact List.prefix_of_prefix_length_le h (List.prefix_append t u) hlength
  · intro h
    exact h.trans (List.prefix_append t u)

theorem strncasecmpEq_of_starts {t w s : Bytes} (hw : w <+: s) (h : strncasecmpEq t w = true) :
    strncasecmpEq t s = true := by
  rw [strncasecmpEq, List.isPrefixOf_iff_prefix] at h ⊢
  exact h.trans (hw.map toLower)

theorem strncasecmpEq_other {b c : UInt8} {s t name : Bytes} (hstarts : strncasecmpEq (c :: t) name = true)
    (hbc : toLower b ≠ toLower c) : strncasecmpEq (b :: s) name = false := by
  rw [strncasecmpEq, List.isPrefixOf_iff_prefix] at hstarts
  rw [strncasecmpEq, Bool.eq_false_iff, ne_eq, List.isPrefixOf_iff_prefix]
  intro hstarts'
  obtain ⟨u, hu⟩ := hstarts
  obtain ⟨v, hv⟩ := hstarts'
  exact hbc (List.cons.inj (hv.trans hu.symm)).1

theorem not_mem_of_keyword {b : UInt8} {t name : Bytes} (hstarts : strncasecmpEq t name = true)
    (hlength : name.length = t.length) (hb : toLower b ∉ t.map toLower) : b ∉ name := by
  rw [strncasecmpEq, List.isPrefixOf_iff_prefix] at hstarts
  have hall : t.map toLower = name.map toLower := by
    apply hstarts.eq_of_length
    rw [List.length_map, List.length_map, hlength]
  intro hin
  rw [hall] at hb
  exact hb (List.mem_map_of_mem hin)

theorem strncmpEq_eq (hlength : s.length ≤ (m.drop p).length) :
    strncmpEq m p s = .ok (s.isPrefixOf (m.drop p)) := by
  induction s generalizing p with
  | nil => rfl
  | cons c s ih =>
      obtain ⟨b, hb⟩ : ∃ b, m[p]? = some b := by
        rw [List.length_cons, List.length_drop] at hlength
        exact ⟨_, List.getElem?_eq_getElem (by omega)⟩
      have hdrop : m.drop p = b :: m.drop (p + 1) := by
        obtain ⟨hp, rfl⟩ := List.getElem?_eq_some_iff.1 hb
        exact List.drop_eq_getElem_cons hp
      rw [hdrop, List.length_cons, List.length_cons] at hlength
      rw [strncmpEq, load, hb, hdrop, List.isPrefixOf_cons_cons]
      simp only [Except.ok_bind]
      by_cases hbc : b = c
      · rw [if_pos hbc, ih (by omega), hbc]
        simp
      · rw [if_neg hbc]
        simp [Ne.symm hbc]

/-! ### Inside a string -/

theorem string_drop (hstring : string m p = .ok l) {k : ℕ} (hk : k ≤ l.length) :
    string m (p + k) = .ok (l.drop k) := by
  obtain ⟨hl, back, hdrop⟩ := string_eq_ok.1 hstring
  refine string_eq_ok.2 ⟨fun h0 => hl (List.mem_of_mem_drop h0), back, ?_⟩
  rw [← List.drop_drop, hdrop, List.drop_append_of_le_length hk]

theorem load_string (hstring : string m p = .ok l) : load m p = .ok (l.headD 0) := by
  obtain ⟨-, back, hdrop⟩ := string_eq_ok.1 hstring
  have hget : m[p]? = (l ++ 0 :: back)[0]? := by rw [← hdrop, List.getElem?_drop, Nat.add_zero]
  rw [load, hget]
  cases l <;> rfl

theorem strncmpEq_string (hs : 0 ∉ s) (hstring : string m p = .ok l) :
    strncmpEq m p s = .ok (s.isPrefixOf l) := by
  induction s generalizing p l with
  | nil => rfl
  | cons c s ih =>
      obtain ⟨hc, hs⟩ := not_or.1 (mt List.mem_cons.2 hs)
      rw [strncmpEq, load_string hstring]
      simp only [Except.ok_bind]
      cases l with
      | nil =>
          rw [List.headD_nil, if_neg hc]
          rfl
      | cons b l =>
          have hnext : string m (p + 1) = .ok l :=
            string_drop hstring (show 1 ≤ (b :: l).length by simp)
          rw [List.headD_cons, ih hs hnext, List.isPrefixOf_cons_cons]
          by_cases hbc : b = c
          · simp [hbc]
          · rw [if_neg hbc]
            simp [Ne.symm hbc]

/-! ### One call of `strtok_r` -/

/-- The result of a call on the string `l` at `p`. -/
inductive Token (m : Bytes) (d : UInt8) (p : ℕ) (l : Bytes) : Option ℕ × Option ℕ × Bytes → Prop
  | none (htokens : tokens d l = []) (hrest : string m (p + l.length) = .ok []) :
      Token m d p l (none, some (p + l.length), m)
  | some {q stop : ℕ} {w t m' : Bytes} (htokens : tokens d l = w :: tokens d t)
      (hword : string m' q = .ok w) (hstarts : w <+: l.dropWhile (· == d)) (hne : w ≠ [])
      (hrest : string m' stop = .ok t) (hstop : stop + t.length = p + l.length)
      (hshort : t.length < l.length) (hframe : m'.drop (p + l.length) = m.drop (p + l.length)) :
      Token m d p l (some q, some stop, m')

private theorem strtok_r_token {start save : Option ℕ} (hp : (start <|> save) = some p)
    (hstring : string m p = .ok l) (hd : d ≠ 0) :
    ∃ r, strtok_r m start d save = .ok r ∧ Token m d p l r := by
  obtain ⟨hl, back, hdrop⟩ := string_eq_ok.1 hstring
  rw [strtok_r, hp]
  simp only [hstring, Except.ok_bind]
  -- the string is delimiters, the token and what comes behind it
  have hskip := List.takeWhile_append_dropWhile (p := (· == d)) (l := l)
  set skipped := l.takeWhile (· == d)
  set u := l.dropWhile (· == d) with hu
  have hrest : l.drop skipped.length = u := by
    conv_lhs => rw [← hskip]
    exact List.drop_left
  rw [hrest]
  have htoken := List.takeWhile_append_dropWhile (p := (· != d)) (l := u)
  set w := u.takeWhile (· != d) with hw
  set v := u.dropWhile (· != d) with hv
  have hwd : d ∉ w := fun h => by simpa using List.mem_takeWhile_imp h
  have htokens : tokens d l = tokens d (w ++ v) := by rw [htoken, hu, tokens_dropWhile]
  rw [← hskip, ← htoken, List.append_assoc, List.append_assoc] at hdrop
  have hlength : l.length = skipped.length + w.length + v.length := by
    rw [← hskip, ← htoken, List.length_append, List.length_append, Nat.add_assoc]
  have hmem : ∀ b ∈ w ++ v, b ≠ 0 := fun b hb h0 => by
    rw [htoken, h0] at hb
    exact hl (hskip ▸ List.mem_append_right skipped hb)
  have hw0 : 0 ∉ w := fun h => hmem 0 (List.mem_append_left v h) rfl
  have hv0 : 0 ∉ v := fun h => hmem 0 (List.mem_append_right w h) rfl
  have hdrop' := drop_add_length hdrop
  by_cases hempty : w = []
  · -- the token is empty only when nothing is left
    have hunil : u = [] := by
      cases hcase : u with
      | nil => rfl
      | cons b u' =>
          have hb := head_dropWhile (f := (· == d)) (hu.symm.trans hcase)
          rw [hw, hcase, List.takeWhile_cons_of_pos (by simpa using hb)] at hempty
          cases hempty
    have hvnil : v = [] := by rw [hv, hunil]; rfl
    rw [hempty, hvnil] at hlength htokens hdrop'
    have hend : p + skipped.length + 0 = p + l.length := by simp [hlength]
    refine ⟨(none, some (p + l.length), m), by simp [hempty, hend], .none htokens ?_⟩
    exact string_eq_ok.2 ⟨List.not_mem_nil, back, by rw [← hend]; exact hdrop'⟩
  · have hpos : w.length ≠ 0 := by simpa using hempty
    rw [if_neg hpos]
    have hstarts : w <+: u := List.takeWhile_prefix _
    cases hvcase : v with
    | nil =>
        rw [hvcase] at hlength htokens hdrop'
        have hend : p + skipped.length + w.length = p + l.length := by
          rw [hlength]
          simp [Nat.add_assoc]
        have hall := drop_add_length (s := w) (t := 0 :: back) hdrop'
        rw [hend] at hall
        refine ⟨_, if_neg (by rw [hlength]; simp), ?_⟩
        rw [hend]
        refine .some (t := []) ?_ (string_eq_ok.2 ⟨hw0, back, hdrop'⟩) hstarts hempty
          (string_eq_ok.2 ⟨List.not_mem_nil, back, hall⟩) rfl (by simp [hlength]; omega) rfl
        rw [htokens, List.append_nil, tokens_of_not_mem hwd hempty]
        rfl
    | cons b v' =>
        obtain rfl : b = d := by simpa using head_dropWhile (hv.symm.trans hvcase)
        rw [hvcase] at hlength htokens hdrop' hv0
        rw [List.length_cons] at hlength
        have hset : (m.set (p + skipped.length + w.length) 0).drop (p + skipped.length) =
            w ++ 0 :: (v' ++ 0 :: back) := drop_set_length hdrop'
        have hbehind := drop_add_length (s := w ++ [0]) (t := v' ++ 0 :: back)
          (by rw [hset, List.append_assoc]; rfl)
        rw [List.length_append, List.length_singleton, ← Nat.add_assoc] at hbehind
        refine ⟨_, if_pos (by omega), .some (t := v') ?_ (string_eq_ok.2 ⟨hw0, _, hset⟩) hstarts hempty
          (string_eq_ok.2 ⟨fun h => hv0 (List.mem_cons_of_mem _ h), back, hbehind⟩) (by omega)
          (by omega) ?_⟩
        · rw [htokens, tokens_append hwd hempty]
        · rw [List.drop_set, if_pos (by omega)]

theorem strtok_r_word {start save : Option ℕ} (hp : (start <|> save) = some p)
    (hstring : string m p = .ok (w ++ d :: s)) (hw : d ∉ w) (hne : w ≠ []) :
    strtok_r m start d save = .ok (some p, some (p + w.length + 1), m.set (p + w.length) 0) ∧
      string (m.set (p + w.length) 0) p = .ok w ∧
      string (m.set (p + w.length) 0) (p + w.length + 1) = .ok s := by
  obtain ⟨hfree, back, hdrop⟩ := string_eq_ok.1 hstring
  rw [List.append_assoc, List.cons_append] at hdrop
  have hset := drop_set_length hdrop
  have hbehind := drop_add_length (s := w ++ [0]) (t := s ++ 0 :: back)
    (by rw [hset, List.append_assoc]; rfl)
  rw [List.length_append, List.length_singleton, ← Nat.add_assoc] at hbehind
  refine ⟨?_, string_eq_ok.2 ⟨fun h0 => hfree (List.mem_append_left _ h0), _, hset⟩,
    string_eq_ok.2 ⟨fun h0 => hfree (List.mem_append_right w (List.mem_cons_of_mem d h0)), back, hbehind⟩⟩
  have hskipped : (w ++ d :: s).takeWhile (· == d) = [] := by
    cases w with
    | nil => exact absurd rfl hne
    | cons b w =>
        have hb : ¬(b == d) = true := by
          rw [beq_iff_eq]
          rintro rfl
          exact hw List.mem_cons_self
        exact List.takeWhile_cons_of_neg hb
  have htoken : (w ++ d :: s).takeWhile (· != d) = w := by
    have hall : ∀ b ∈ w, (b != d) = true := by
      intro b hb
      rw [bne_iff_ne]
      rintro rfl
      exact hw hb
    rw [List.takeWhile_append_of_pos hall, List.takeWhile_cons_of_neg (by simp), List.append_nil]
  have hpos : w.length ≠ 0 := mt List.length_eq_zero_iff.1 hne
  rw [strtok_r, hp]
  simp only [hstring, Except.ok_bind, hskipped, List.length_nil, List.drop_zero, htoken, Nat.add_zero,
    Nat.zero_add, if_neg hpos]
  refine if_pos ?_
  rw [List.length_append, List.length_cons]
  omega

theorem strtok_r_first (hd : d ≠ 0) (hstring : string m p = .ok l) :
    ∃ r, strtok_r m (some p) d none = .ok r ∧ Token m d p l r := strtok_r_token rfl hstring hd

theorem strtok_r_next (hd : d ≠ 0) (hstring : string m p = .ok l) :
    ∃ r, strtok_r m none d (some p) = .ok r ∧ Token m d p l r := strtok_r_token rfl hstring hd

/-! ### The memory in front of the string -/

variable {start save tok save' : Option ℕ} {m' : Bytes} {q : ℕ}

/-- The tokenisers write nothing in front of the string they are given. -/
theorem strtok_r_take (hp : (start <|> save) = some p)
    (h : strtok_r m start d save = .ok (tok, save', m')) : m'.take p = m.take p := by
  rw [strtok_r, hp] at h
  obtain ⟨str, -, h⟩ := Except.bind_eq_ok.1 h
  simp only at h
  split at h
  · obtain ⟨-, -, rfl⟩ : none = tok ∧ _ = save' ∧ m = m' := by simpa using h
    rfl
  · split at h
    · obtain ⟨-, -, rfl⟩ : some _ = tok ∧ some _ = save' ∧ m.set _ 0 = m' := by simpa using h
      rw [List.take_set_of_le]
      omega
    · obtain ⟨-, -, rfl⟩ : some _ = tok ∧ some _ = save' ∧ m = m' := by simpa using h
      rfl

theorem take_of_le {n : ℕ} (htake : m'.take n = m.take n) (hp : p ≤ n) : m'.take p = m.take p := by
  have h := congrArg (List.take p) htake
  rwa [List.take_take, List.take_take, Nat.min_eq_left hp] at h

theorem string_of_take (hstring : string m q = .ok l) (hlt : q + l.length < p)
    (htake : m'.take p = m.take p) : string m' q = .ok l := by
  obtain ⟨hl, back, hdrop⟩ := string_eq_ok.1 hstring
  have hstarts : l ++ [0] <+: m'.drop q := by
    have h : (m'.drop q).take (p - q) = (m.drop q).take (p - q) := by
      rw [← List.drop_take, ← List.drop_take, htake]
    have hin : l ++ [0] <+: (m'.drop q).take (p - q) := by
      rw [h, hdrop]
      refine List.prefix_take_iff.2 ⟨⟨back, by simp⟩, ?_⟩
      rw [List.length_append, List.length_singleton]
      omega
    exact hin.trans (List.take_prefix _ _)
  obtain ⟨back', hback⟩ := hstarts
  exact string_eq_ok.2 ⟨hl, back', by rw [← hback]; simp⟩

theorem string_length_le (hstring : string m q = .ok w) {k : ℕ} (hk : m[q + k]? = some 0) :
    w.length ≤ k := by
  obtain ⟨hw, back, hdrop⟩ := string_eq_ok.1 hstring
  by_contra hlong
  have hget : (m.drop q)[k]? = some 0 := by rwa [List.getElem?_drop]
  rw [hdrop, List.getElem?_append_left (by omega)] at hget
  exact hw (List.mem_of_getElem? hget)

theorem strtok_r_behind {stop : ℕ} (hp : (start <|> save) = some p)
    (h : strtok_r m start d save = .ok (some q, some stop, m')) (hl : string m p = .ok l)
    (hw : string m' q = .ok w) (hstop : stop < p + l.length) : q + w.length < stop := by
  rw [strtok_r, hp] at h
  simp only [hl, Except.ok_bind] at h
  split at h
  · simp at h
  · split at h
    case isTrue hmore =>
      obtain ⟨rfl, rfl, rfl⟩ : _ = q ∧ _ = stop ∧ m.set _ 0 = m' := by simpa using h
      obtain ⟨-, back, hdrop⟩ := string_eq_ok.1 hl
      have hin : p + l.length < m.length := by
        have hlength := congrArg List.length hdrop
        rw [List.length_drop, List.length_append, List.length_cons] at hlength
        omega
      have hle := string_length_le hw (List.getElem?_set_self (by omega))
      omega
    case isFalse hlast =>
      obtain ⟨rfl, rfl, -⟩ : _ = q ∧ _ = stop ∧ m = m' := by simpa using h
      omega

theorem head_dropWhile_takeWhile {f : UInt8 → Bool} (hlt : (s.takeWhile f).length < s.length) :
    ∃ b, s[(s.takeWhile f).length]? = some b ∧ f b = false := by
  have hsplit := List.takeWhile_append_dropWhile (p := f) (l := s)
  cases hrest : s.dropWhile f with
  | nil =>
      rw [hrest, List.append_nil] at hsplit
      rw [hsplit] at hlt
      exact absurd hlt (lt_irrefl _)
  | cons b rest =>
      refine ⟨b, ?_, head_dropWhile hrest⟩
      rw [hrest] at hsplit
      conv_lhs => rw [← hsplit]
      rw [List.takeWhile_append_of_pos (fun a ha => List.mem_takeWhile_imp ha),
        List.takeWhile_cons_of_neg (by simpa using head_dropWhile hrest), List.append_nil,
        List.getElem?_append_right le_rfl, Nat.sub_self]
      rfl

/-- All that is written is NUL over one delimiter. -/
theorem strtok_r_memory (h : strtok_r m start d save = .ok (tok, save', m')) :
    m' = m ∨ ∃ i, m[i]? = some d ∧ m' = m.set i 0 := by
  unfold strtok_r at h
  split at h
  · cases h
  · rename_i p hp
    obtain ⟨str, hstr, h⟩ := Except.bind_eq_ok.1 h
    simp only at h
    split at h
    · obtain ⟨-, -, rfl⟩ : none = tok ∧ _ = save' ∧ m = m' := by simpa using h
      exact .inl rfl
    · split at h
      case isTrue hmore =>
        obtain ⟨-, -, rfl⟩ : some _ = tok ∧ some _ = save' ∧ m.set _ 0 = m' := by simpa using h
        refine .inr ⟨_, ?_, rfl⟩
        obtain ⟨-, back, hdrop⟩ := string_eq_ok.1 hstr
        set skipped := (str.takeWhile (· == d)).length
        have hlt : ((str.drop skipped).takeWhile (· != d)).length < (str.drop skipped).length := by
          rw [List.length_drop]
          omega
        obtain ⟨b, hb, hbd⟩ := head_dropWhile_takeWhile hlt
        obtain rfl : b = d := by simpa using hbd
        rw [List.getElem?_drop] at hb
        rw [← hb, ← List.getElem?_append_left hmore, ← hdrop, List.getElem?_drop, Nat.add_assoc]
      case isFalse =>
        obtain ⟨-, -, rfl⟩ : some _ = tok ∧ some _ = save' ∧ m = m' := by simpa using h
        exact .inl rfl

/-! ### What is left -/

/-- What comes behind the first token of `s` and the delimiter that ends it. -/
def behind (d : UInt8) (s : Bytes) : Bytes := ((s.dropWhile (· == d)).dropWhile (· != d)).tail

theorem word_split (d : UInt8) (s : Bytes) :
    ∃ t rest, s = t ++ rest ∧ d ∉ t ∧ s.dropWhile (· != d) = rest ∧ (rest = [] ∨ ∃ r, rest = d :: r) := by
  refine ⟨s.takeWhile (· != d), s.dropWhile (· != d), List.takeWhile_append_dropWhile.symm, ?_, rfl, ?_⟩
  · intro hin
    simpa using List.mem_takeWhile_imp hin
  · cases hrest : s.dropWhile (· != d) with
    | nil => exact .inl rfl
    | cons b r =>
        obtain rfl : b = d := by simpa using head_dropWhile hrest
        exact .inr ⟨r, rfl⟩

theorem head_tokens {u : Bytes} (hu : d ∉ u) (hne : u ≠ []) (v : Bytes) :
    ∃ w, (tokens d (u ++ v)).head? = some w ∧ u <+: w := by
  obtain ⟨t, rest, rfl, ht, -, hrest⟩ := word_split d v
  have hword : d ∉ u ++ t := by
    rw [List.mem_append, not_or]
    exact ⟨hu, ht⟩
  have hwordNe : u ++ t ≠ [] := List.append_ne_nil_of_left_ne_nil hne t
  refine ⟨u ++ t, ?_, List.prefix_append _ _⟩
  rw [← List.append_assoc]
  obtain rfl | ⟨r, rfl⟩ := hrest
  · rw [List.append_nil, tokens_of_not_mem hword hwordNe]
    rfl
  · rw [tokens_append hword hwordNe]
    rfl

/-- A string has no token, or starts with its first one behind the delimiters in front. -/
theorem tokens_cases (d : UInt8) (s : Bytes) : (tokens d s = [] ∧ behind d s = []) ∨
    ∃ w rest, s.dropWhile (· == d) = w ++ rest ∧ tokens d s = w :: tokens d rest.tail ∧
      behind d s = rest.tail := by
  rw [behind, ← tokens_dropWhile (s := s)]
  cases hword : s.dropWhile (· == d) with
  | nil => exact .inl ⟨rfl, rfl⟩
  | cons b u =>
      have hb : b ≠ d := by simpa using head_dropWhile hword
      obtain ⟨w, rest, hsplit, hw, hdrop, hrest⟩ := word_split d (b :: u)
      have hne : w ≠ [] := by
        rintro rfl
        obtain rfl | ⟨r, rfl⟩ := hrest
        · cases hsplit
        · exact hb (List.cons.inj hsplit).1
      refine .inr ⟨w, rest, hsplit, ?_, by rw [hdrop]⟩
      rw [hsplit]
      obtain rfl | ⟨r, rfl⟩ := hrest
      · rw [List.append_nil, tokens_of_not_mem hw hne]
        rfl
      · rw [tokens_append hw hne]
        rfl

theorem tokens_behind (d : UInt8) (s : Bytes) : tokens d (behind d s) = (tokens d s).tail := by
  obtain ⟨hnone, hempty⟩ | ⟨w, rest, -, htokens, hbehind⟩ := tokens_cases d s
  · rw [hnone, hempty]
    rfl
  · rw [htokens, hbehind]
    rfl

theorem dropWhile_eq_drop (f : UInt8 → Bool) (s : Bytes) :
    s.dropWhile f = s.drop (s.takeWhile f).length := by
  have hsplit := List.takeWhile_append_dropWhile (p := f) (l := s)
  calc s.dropWhile f = (s.takeWhile f ++ s.dropWhile f).drop (s.takeWhile f).length :=
        List.drop_left.symm
    _ = s.drop (s.takeWhile f).length := by rw [hsplit]

/-- What comes behind the first delimiter. -/
def past (d : UInt8) (s : Bytes) : Bytes := (s.dropWhile (· != d)).tail

theorem past_of_mem (hd : d ∈ s) (t : Bytes) : past d (s ++ t) = past d s ++ t := by
  obtain ⟨w, rest, rfl, hw, hdrop, rfl | ⟨r, rfl⟩⟩ := word_split d s
  · rw [List.append_nil] at hd
    exact absurd hd hw
  · have hsame : ∀ u, (w ++ u).dropWhile (· != d) = u.dropWhile (· != d) := fun u =>
      List.dropWhile_append_of_pos fun b hb => bne_iff_ne.2 (ne_of_mem_of_not_mem hb hw)
    rw [past, past, List.append_assoc, hsame, hsame, List.cons_append, List.dropWhile_cons_of_neg (by simp),
      List.dropWhile_cons_of_neg (by simp)]
    rfl

theorem past_of_not_mem (hd : d ∉ s) (t : Bytes) : past d (s ++ t) = past d t := by
  rw [past, List.dropWhile_append_of_pos fun b hb => bne_iff_ne.2 (ne_of_mem_of_not_mem hb hd)]
  rfl

theorem past_suffix (d : UInt8) (s : Bytes) : past d s <:+ s.tail := by
  obtain ⟨w, rest, rfl, -, hdrop, hrest⟩ := word_split d s
  rw [past, hdrop]
  cases w with
  | nil => exact List.suffix_rfl
  | cons b w => exact (List.tail_suffix rest).trans (List.suffix_append w rest)

theorem string_set {i : ℕ} (hi : i < p) (b : UInt8) : string (m.set i b) p = string m p := by
  rw [string, string, List.length_set, List.drop_set, if_pos hi]

theorem strtok_r_rest {stop : ℕ} (hp : (start <|> save) = some p) (hstring : string m p = .ok s)
    (h : strtok_r m start d save = .ok (some q, some stop, m')) :
    string m' stop = .ok (behind d s) := by
  rw [strtok_r, hp] at h
  simp only [hstring, Except.ok_bind] at h
  have hbehind : behind d s = s.drop ((s.takeWhile (· == d)).length +
      ((s.drop (s.takeWhile (· == d)).length).takeWhile (· != d)).length + 1) := by
    rw [behind, dropWhile_eq_drop, dropWhile_eq_drop, List.tail_drop, List.drop_drop, Nat.add_assoc]
  set skipped := (s.takeWhile (· == d)).length
  set token := ((s.drop skipped).takeWhile (· != d)).length with htoken
  split at h
  · simp at h
  · split at h
    case isTrue hmore =>
      obtain ⟨-, rfl, rfl⟩ : _ = q ∧ _ = stop ∧ m.set _ 0 = m' := by simpa using h
      have hnext := string_drop hstring (Nat.succ_le_of_lt hmore)
      rw [hbehind, ← hnext, string_set (Nat.lt_succ_self _)]
      simp only [Nat.succ_eq_add_one, Nat.add_assoc]
    case isFalse hlast =>
      obtain ⟨-, rfl, rfl⟩ : _ = q ∧ _ = stop ∧ m = m' := by simpa using h
      have hle : token ≤ (s.drop skipped).length := (List.takeWhile_prefix _).length_le
      have hskipped : skipped ≤ s.length := (List.takeWhile_prefix _).length_le
      rw [List.length_drop] at hle
      rw [hbehind, List.drop_eq_nil_of_le (by omega), Nat.add_assoc, string_drop hstring (by omega),
        List.drop_eq_nil_of_le (by omega)]

end CString
