import WifiAudio.Proof.Rtsp.Spec
import Mathlib.Data.List.Induction

/-!
# A list of transport specs

The specs of a header are found by a search for `RTP/`, the separators in front of each are cut off,
and the pieces are then read one after another. Three places are searched for: the text of the third
piece runs to the end of the header (`cut`).
-/

namespace WifiAudio

open CString Except

namespace Parser

/-- The specs read into the entries; the parser gives up at the first option it does not take. -/
def specsOf : List (Fin maxTransports × Bytes) → (Fin maxTransports → Transport) →
    Bool × (Fin maxTransports → Transport)
  | [], t => (true, t)
  | (i, l) :: rest, t =>
      let (taken, e) := specOf l (t i)
      if taken then specsOf rest (Function.update t i e) else (false, Function.update t i e)

/-- The pieces lie one behind the other between `lo` and `hi`, each a string that starts with an
`R`. -/
def Laid (m : Bytes) (hi : ℕ) : ℕ → List (ℕ × Bytes) → Prop
  | lo, [] => lo ≤ hi + 1
  | lo, (q, l) :: rest => lo ≤ q ∧ string m q = .ok l ∧ l.head? = some 82 ∧
      Laid m hi (q + l.length + 1) rest

variable {m m' : Bytes} {p lo hi : ℕ}

theorem Laid.le {pieces : List (ℕ × Bytes)} (h : Laid m hi lo pieces) : lo ≤ hi + 1 := by
  induction pieces generalizing lo with
  | nil => exact h
  | cons piece rest ih =>
      obtain ⟨hlow, -, -, hrest⟩ := h
      have := ih hrest
      omega

theorem Laid.mono {pieces : List (ℕ × Bytes)} {lo' : ℕ} (h : Laid m hi lo pieces) (hlo : lo' ≤ lo) :
    Laid m hi lo' pieces := by
  cases pieces with
  | nil => exact hlo.trans h
  | cons piece rest =>
      obtain ⟨hlow, hrest⟩ := h
      exact ⟨hlo.trans hlow, hrest⟩

theorem Laid.kept {pieces : List (ℕ × Bytes)} {e : ℕ} (h : Laid m hi lo pieces)
    (hkept : Kept p e m m') (he : e ≤ lo) : Laid m' hi lo pieces := by
  induction pieces generalizing lo with
  | nil => exact h
  | cons piece rest ih =>
      obtain ⟨hlow, hstring, hstart, hrest⟩ := h
      exact ⟨hlow, hkept.string hstring (.inr (by omega)), hstart, ih hrest (by omega)⟩

/-! ### The entries -/

/-- A spec overwrites both pointers of its entry first. -/
theorem specOf_congr {t t' : Transport} (h : setDefaults t = setDefaults t') (l : Bytes) :
    specOf l t = specOf l t' := by
  rw [specOf, specOf, h]

/-- The entry has not been reached, or its texts are those of `t`. -/
def EntryIs (lo hi : ℕ) (m : Bytes) (before after t t' : Transport) : Prop :=
  (after = before ∧ t' = t) ∨
    ∀ n : Bytes, (∀ i, lo ≤ i → i ≤ hi → n[i]? = m[i]?) → after.resolve n = t'

theorem parseSpecs_text {specs : List (Fin maxTransports × ℕ × Bytes)}
    (hlaid : Laid m hi lo (specs.map Prod.snd)) (hdr : RtspHeader)
    {t : Fin maxTransports → Transport}
    (ht : ∀ i, setDefaults (hdr.transport i) = setDefaults (t i)) :
    ∃ hdr' m', parseSpecs (specs.map fun spec => (spec.1, spec.2.1)) m hdr =
        .ok ((specsOf (specs.map fun spec => (spec.1, spec.2.2)) t).1, hdr', m') ∧
      Kept lo hi m m' ∧
      (∀ i, EntryIs lo hi m' (hdr.transport i) (hdr'.transport i) (t i)
        ((specsOf (specs.map fun spec => (spec.1, spec.2.2)) t).2 i)) ∧
      hdr' = { hdr with transport := hdr'.transport } := by
  induction specs generalizing m lo hdr t with
  | nil => exact ⟨hdr, m, rfl, .refl m, fun i => .inl ⟨rfl, rfl⟩, rfl⟩
  | cons spec rest ih =>
      obtain ⟨idx, q, l⟩ := spec
      obtain ⟨hlow, hstring, hstart, hrest⟩ := hlaid
      have hhigh := hrest.le
      obtain ⟨e, m₁, hcall, hkept, hsettled⟩ := parseSpec_text hstring hstart (hdr.transport idx)
      rw [specOf_congr (ht idx)] at hcall hsettled
      have hkept₁ : Kept lo hi m m₁ := hkept.mono hlow (by omega)
      -- the entry that has just been read
      have hentry : ∀ m₂ : Bytes, Kept (q + l.length + 1) hi m₁ m₂ → ∀ n : Bytes,
          (∀ i, lo ≤ i → i ≤ hi → n[i]? = m₂[i]?) → e.resolve n = (specOf l (t idx)).2 := by
        intro m₂ hkept₂ n hn
        apply hsettled
        intro i hi hi'
        rw [hn i (by omega) (by omega)]
        exact hkept₂.outside i (by omega)
      simp only [List.map_cons, parseSpecs, specsOf, hcall, ok_bind]
      cases htaken : (specOf l (t idx)).1 with
      | false =>
          refine ⟨_, m₁, rfl, hkept₁, ?_, rfl⟩
          intro i
          by_cases hi : i = idx
          · subst hi
            right
            simp only [RtspHeader.transport_setTransport, Bool.false_eq_true, if_false,
              Function.update_self]
            exact hentry m₁ (.refl m₁)
          · left
            simp only [Bool.false_eq_true, if_false]
            exact ⟨RtspHeader.transport_setTransport_of_ne hi hdr e, Function.update_of_ne hi _ t⟩
      | true =>
          have hnext : ∀ i, setDefaults ((hdr.setTransport idx e).transport i) =
              setDefaults (Function.update t idx (specOf l (t idx)).2 i) := by
            intro i
            by_cases hi : i = idx
            · subst hi
              rw [RtspHeader.transport_setTransport, Function.update_self,
                ← hentry m₁ (.refl m₁) m₁ fun _ _ _ => rfl]
              rfl
            · rw [RtspHeader.transport_setTransport_of_ne hi, Function.update_of_ne hi]
              exact ht i
          have hlaid₁ := hrest.kept hkept (Nat.le_succ _)
          obtain ⟨hdr', m₂, hcalls, hkept₂, hentries, hothers⟩ :=
            ih hlaid₁ (hdr.setTransport idx e) hnext
          refine ⟨hdr', m₂, hcalls, hkept₁.trans (hkept₂.mono (by omega) le_rfl), ?_, hothers⟩
          intro i
          obtain ⟨hsame, hsame'⟩ | hresolve := hentries i
          · by_cases hi : i = idx
            · subst hi
              right
              simp only [if_true]
              rw [hsame, hsame', RtspHeader.transport_setTransport, Function.update_self]
              exact hentry m₂ hkept₂
            · left
              simp only [if_true]
              rw [hsame, hsame', RtspHeader.transport_setTransport_of_ne hi,
                Function.update_of_ne hi]
              exact ⟨rfl, rfl⟩
          · right
            intro n hn
            apply hresolve
            intro i hi hi'
            exact hn i (by omega) hi'

/-! ### The search -/

/-- The text of a list of specs, each with the separators in front of it. -/
def joined (specs : List (Bytes × Bytes)) : Bytes := specs.flatMap fun spec => spec.1 ++ spec.2

/-- The pieces the search makes, with `c` places left behind the spec `s`. -/
def cut : ℕ → Bytes → List (Bytes × Bytes) → List Bytes
  | 0, s, rest => [s ++ joined rest]
  | _ + 1, s, [] => [s]
  | c + 1, s, (_, s') :: rest => s :: cut c s' rest

/-- The search finds the specs at their starts and nowhere else; it does not look at the last four
places of the text. All the spaces and commas behind a spec belong to the separators. -/
inductive Listed : List (Bytes × Bytes) → Prop
  | nil : Listed []
  | cons {sep s : Bytes} {rest : List (Bytes × Bytes)} (hsep : ∀ b ∈ sep, b = space ∨ b = comma)
      (hstart : ascii "RTP/" <+: s) (hlong : 4 < (s ++ joined rest).length)
      (honce : ∀ k, 0 < k → k < s.length → k + 4 < (s ++ joined rest).length →
        ¬ascii "RTP/" <+: s.drop k)
      (hends : ∀ next ∈ rest.head?, next.1 ≠ [] ∧ ∀ b ∈ s.getLast?, b ≠ space ∧ b ≠ comma)
      (hrest : Listed rest) : Listed ((sep, s) :: rest)

variable {l s sep t : Bytes} {i j k n prev : ℕ} {lines : List ℕ}

theorem zero_not_mem_rtp : (0 : UInt8) ∉ ascii "RTP/" := by decide

theorem findSpecs_skip (hstring : string m (p + i) = .ok l) (hj : j ≤ l.length)
    (hno : ∀ k < j, ¬ascii "RTP/" <+: l.drop k) :
    findSpecs p (j + n) i lines m = findSpecs p n (i + j) lines m := by
  induction j generalizing i l with
  | zero => rw [Nat.zero_add, Nat.add_zero]
  | succ j ih =>
      have hfalse : (ascii "RTP/").isPrefixOf l = false := by
        rw [Bool.eq_false_iff, ne_eq, List.isPrefixOf_iff_prefix]
        exact hno 0 (Nat.succ_pos j)
      have hnext : string m (p + (i + 1)) = .ok (l.drop 1) :=
        string_drop hstring (Nat.le_trans (Nat.succ_pos j) hj)
      rw [Nat.add_right_comm, findSpecs, strncmpEq_string zero_not_mem_rtp hstring, hfalse]
      simp only [ok_bind, Bool.false_eq_true, if_false]
      rw [ih hnext (by rw [List.length_drop]; omega), Nat.add_assoc, Nat.add_comm 1 j]
      intro k hk
      rw [List.drop_drop, Nat.add_comm]
      exact hno (k + 1) (Nat.succ_lt_succ hk)

theorem prefix_of_separator {pat : Bytes} {b : UInt8} (hb : b ∉ pat) (h : pat <+: s ++ b :: t) :
    pat <+: s := by
  by_cases hle : pat.length ≤ s.length
  · exact List.prefix_of_prefix_length_le h (List.prefix_append s _) hle
  · refine absurd ?_ hb
    rw [List.prefix_iff_getElem?] at h
    have hget := h s.length (by omega)
    rw [List.getElem?_append_right le_rfl, Nat.sub_self] at hget
    exact List.mem_of_getElem? ((List.getElem?_eq_getElem (by omega)).trans hget.symm)

theorem not_starts_between {k : ℕ} (hsep : ∀ b ∈ sep, b = space ∨ b = comma) (hne : sep ≠ [])
    (hlt : k < s.length + sep.length)
    (honce : k < s.length → ¬ascii "RTP/" <+: s.drop k) :
    ¬ascii "RTP/" <+: (s ++ sep ++ t).drop k := by
  intro hstarts
  have hnot : ∀ b ∈ sep, b ∉ ascii "RTP/" := by
    intro b hb
    obtain rfl | rfl := hsep b hb <;> decide
  by_cases hin : k < s.length
  · cases sep with
    | nil => exact hne rfl
    | cons b sep =>
        rw [List.append_assoc, List.drop_append_of_le_length hin.le] at hstarts
        exact honce hin (prefix_of_separator (hnot b List.mem_cons_self) hstarts)
  · rw [List.append_assoc, List.drop_append, List.drop_of_length_le (by omega), List.nil_append,
      List.drop_append_of_le_length (by omega)] at hstarts
    cases hrest : sep.drop (k - s.length) with
    | nil =>
        have hlength := congrArg List.length hrest
        rw [List.length_drop, List.length_nil] at hlength
        omega
    | cons b sep' =>
        have hb : b ∈ sep := List.mem_of_mem_drop (hrest ▸ List.mem_cons_self)
        rw [hrest] at hstarts
        have hhead := List.cons_prefix_cons.1 (show 82 :: [84, 80, 47] <+: b :: (sep' ++ t) from hstarts)
        obtain rfl := hhead.1
        obtain h | h := hsep 82 hb <;> exact absurd h (by decide)

theorem trimSeparators_text (hdrop : m.drop prev = s ++ sep ++ t)
    (hsep : ∀ b ∈ sep, b = space ∨ b = comma) (hs : s ≠ [])
    (hlast : ∀ b ∈ s.getLast?, b ≠ space ∧ b ≠ comma) :
    ∃ m', trimSeparators m prev (s.length + sep.length - 1) = .ok m' ∧
      Kept prev (prev + s.length + sep.length) m m' ∧
      m'.drop prev = s ++ List.replicate sep.length 0 ++ t := by
  have hpos := List.length_pos_iff.2 hs
  induction sep using List.reverseRecOn generalizing m t with
  | nil =>
      refine ⟨m, ?_, .refl m, by simpa using hdrop⟩
      rw [List.length_nil, Nat.add_zero]
      cases hlength : s.length - 1 with
      | zero => rfl
      | succ si =>
          obtain ⟨b, hb⟩ : ∃ b, s.getLast? = some b := ⟨_, List.getLast?_eq_some_getLast hs⟩
          have hload : m[prev + (si + 1)]? = some b := by
            rw [← List.getElem?_drop, hdrop, List.append_nil, List.getElem?_append_left (by omega), ← hb,
              List.getLast?_eq_getElem?, hlength]
          obtain ⟨hspace, hcomma⟩ := hlast b hb
          rw [trimSeparators, load, hload]
          simp only [ok_bind, hspace, hcomma, or_self, if_false]
          rfl
  | append_singleton sep b ih =>
      have hlength : (sep ++ [b]).length = sep.length + 1 := List.length_append
      have hdrop' : m.drop prev = (s ++ sep) ++ b :: t := by
        rw [hdrop]
        simp only [List.append_assoc, List.singleton_append]
      have hload : m[prev + (s.length + sep.length)]? = some b := by
        rw [← List.getElem?_drop, hdrop', List.getElem?_append_right (by simp), List.length_append,
          Nat.sub_self]
        rfl
      obtain ⟨hin, -⟩ := List.getElem?_eq_some_iff.1 hload
      have hset := drop_set_length hdrop'
      rw [List.length_append] at hset
      obtain ⟨m', htrim, hkept, hdrop''⟩ :=
        ih hset fun b' hb' => hsep b' (List.mem_append_left [b] hb')
      have hfirst : Kept prev (prev + s.length + (sep.length + 1)) m
          (m.set (prev + (s.length + sep.length)) 0) := .set (by omega) (by omega) 0
      refine ⟨m', ?_, ?_, ?_⟩
      · have hone : s.length + (sep ++ [b]).length - 1 = (s.length + sep.length - 1) + 1 := by omega
        have hat : prev + (s.length + sep.length - 1 + 1) = prev + (s.length + sep.length) := by omega
        have hb := hsep b (List.mem_append_right sep List.mem_cons_self)
        rw [hone, trimSeparators, hat, load, hload]
        simp only [ok_bind, hb, if_true]
        rw [store, if_pos hin]
        exact htrim
      · rw [hlength]
        exact hfirst.trans (hkept.mono le_rfl (by omega))
      · rw [hdrop'', hlength, List.replicate_succ', List.append_assoc, List.append_assoc,
          List.append_assoc]
        rfl

theorem joined_cons (sep s : Bytes) (rest : List (Bytes × Bytes)) :
    joined ((sep, s) :: rest) = sep ++ (s ++ joined rest) := by
  rw [joined, List.flatMap_cons, List.append_assoc]
  rfl

theorem starts_head (h : ascii "RTP/" <+: s) : s.head? = some 82 := by
  obtain ⟨u, rfl⟩ := h
  rfl

theorem Listed.starts {rest : List (Bytes × Bytes)} (hlisted : Listed ((sep, s) :: rest)) :
    ascii "RTP/" <+: s ++ joined rest := by
  cases hlisted with
  | cons _ hstart => exact hstart.trans (List.prefix_append _ _)

theorem Listed.search {rest : List (Bytes × Bytes)} {back : Bytes} (hlisted : Listed ((sep, s) :: rest))
    (hdrop : m.drop prev = s ++ joined rest ++ 0 :: back) (hfree : 0 ∉ s ++ joined rest)
    (hi : p + i = prev + 1) : string m (p + i) = .ok ((s ++ joined rest).drop 1) := by
  rw [hi]
  apply string_drop (string_eq_ok.2 ⟨hfree, back, hdrop⟩)
  cases hlisted with
  | cons _ _ hlong => omega

/-- The next spec is found: the separators in front of it are cut off from the spec before. -/
theorem findSpecs_hit {behind back : Bytes} (hdrop : m.drop prev = s ++ sep ++ (behind ++ 0 :: back))
    (hfree : 0 ∉ s) (hfree' : 0 ∉ behind) (hsep : ∀ b ∈ sep, b = space ∨ b = comma) (hne : sep ≠ [])
    (hs : s ≠ []) (hends : ∀ b ∈ s.getLast?, b ≠ space ∧ b ≠ comma)
    (hstart : ascii "RTP/" <+: behind) (hlast : lines.getLast? = some prev)
    (hat : p + i = prev + s.length + sep.length) :
    ∃ m', findSpecs p (n + 1) i lines m =
        (if (lines ++ [p + i]).length ≥ maxTransports then .ok (lines ++ [p + i], m')
          else findSpecs p n (i + 1) (lines ++ [p + i]) m') ∧
      Kept prev (p + i) m m' ∧ string m' prev = .ok s ∧ m'.drop (p + i) = behind ++ 0 :: back := by
  have hpos := List.length_pos_iff.2 hs
  have hpos' := List.length_pos_iff.2 hne
  have hbehind : m.drop (p + i) = behind ++ 0 :: back := by
    rw [hat, Nat.add_assoc, ← List.length_append, ← List.drop_drop, hdrop, List.drop_left]
  have hstring : string m (p + i) = .ok behind := string_eq_ok.2 ⟨hfree', back, hbehind⟩
  have htrue : (ascii "RTP/").isPrefixOf behind = true := List.isPrefixOf_iff_prefix.2 hstart
  have hback : p + i - prev - 1 = s.length + sep.length - 1 := by omega
  obtain ⟨m', htrim, hkept, hdrop'⟩ := trimSeparators_text hdrop hsep hs hends
  rw [← hat] at hkept
  refine ⟨m', ?_, hkept, ?_, ?_⟩
  · rw [findSpecs, strncmpEq_string zero_not_mem_rtp hstring, htrue]
    simp only [ok_bind, if_true, hlast, hback, htrim]
    rfl
  · obtain ⟨k, hk⟩ := Nat.exists_eq_add_of_le' hpos'
    refine string_eq_ok.2 ⟨hfree, List.replicate k 0 ++ (behind ++ 0 :: back), ?_⟩
    rw [hdrop', hk, List.replicate_succ, List.append_assoc]
    rfl
  · rw [hkept.drop, hbehind]

theorem findSpecs_next {sep' s' : Bytes} {rest : List (Bytes × Bytes)} {back : Bytes}
    (hlisted : Listed ((sep, s) :: (sep', s') :: rest))
    (hdrop : m.drop prev = s ++ joined ((sep', s') :: rest) ++ 0 :: back)
    (hfree : 0 ∉ s ++ joined ((sep', s') :: rest)) (hlast : lines.getLast? = some prev)
    (hi : p + i = prev + 1) :
    ∃ j m', findSpecs p ((s ++ joined ((sep', s') :: rest)).length - 5) i lines m =
        (if (lines ++ [p + j]).length ≥ maxTransports then .ok (lines ++ [p + j], m')
          else findSpecs p ((s' ++ joined rest).length - 5) (j + 1) (lines ++ [p + j]) m') ∧
      prev + s.length < p + j ∧
      p + j + (s' ++ joined rest).length = prev + (s ++ joined ((sep', s') :: rest)).length ∧
      Kept prev (p + j) m m' ∧ string m' prev = .ok s ∧
      m'.drop (p + j) = s' ++ joined rest ++ 0 :: back := by
  have hsearch := hlisted.search hdrop hfree hi
  cases hlisted with
  | cons _ hstart hlong honce hends hrest =>
      obtain ⟨hne, hend⟩ := hends (sep', s') rfl
      have hnext := hrest.starts
      cases hrest with
      | cons hsep' _ hlong' =>
          rw [joined_cons] at hdrop hfree hlong honce hsearch ⊢
          have hlength : (s ++ (sep' ++ (s' ++ joined rest))).length =
              s.length + sep'.length + (s' ++ joined rest).length := by
            rw [List.length_append, List.length_append, Nat.add_assoc]
          have hpos : 0 < s.length := hstart.length_le.trans_lt' (by decide)
          have hpos' : 0 < sep'.length := List.length_pos_iff.2 hne
          have hdrop' : m.drop prev = s ++ sep' ++ (s' ++ joined rest ++ 0 :: back) := by
            rw [hdrop]
            simp only [List.append_assoc]
          have hskip : findSpecs p (s.length - 1 + sep'.length +
              ((s' ++ joined rest).length - 5 + 1)) i lines m = _ :=
            findSpecs_skip hsearch (by rw [List.length_drop]; omega) (by
              intro k hk
              rw [List.drop_drop, ← List.append_assoc]
              apply not_starts_between hsep' hne (by omega)
              intro hin
              exact honce (1 + k) (by omega) hin (by omega))
          have hfuel : (s ++ (sep' ++ (s' ++ joined rest))).length - 5 =
              s.length - 1 + sep'.length + ((s' ++ joined rest).length - 5 + 1) := by omega
          have hat : p + (i + (s.length - 1 + sep'.length)) = prev + s.length + sep'.length := by omega
          obtain ⟨m', hhit, hkept, hfirst, hbehind⟩ := findSpecs_hit hdrop'
            (fun h0 => hfree (List.mem_append_left _ h0))
            (fun h0 => hfree (List.mem_append_right _ (List.mem_append_right _ h0))) hsep' hne
            (List.length_pos_iff.1 hpos) hend hnext hlast hat
          refine ⟨_, m', ?_, by omega, by omega, hkept, hfirst, hbehind⟩
          rw [hfuel, hskip, hhit]

/-- From a spec that has been found on: the spec lies at `prev`, and its place is the last one of
`lines`. -/
theorem findSpecs_listed {c : ℕ} {rest : List (Bytes × Bytes)} {back : Bytes}
    (hlisted : Listed ((sep, s) :: rest)) (hdrop : m.drop prev = s ++ joined rest ++ 0 :: back)
    (hfree : 0 ∉ s ++ joined rest) (hlast : lines.getLast? = some prev)
    (hcount : lines.length + (c + 1) = maxTransports) (hi : p + i = prev + 1) :
    ∃ qs m', findSpecs p ((s ++ joined rest).length - 5) i lines m = .ok (lines ++ qs, m') ∧
      Kept prev (prev + (s ++ joined rest).length) m m' ∧
      Laid m' (prev + (s ++ joined rest).length) prev ((prev :: qs).zip (cut (c + 1) s rest)) ∧
      (prev :: qs).length = (cut (c + 1) s rest).length := by
  induction rest generalizing m sep s prev lines i c with
  | nil =>
      have hsearch := hlisted.search hdrop hfree hi
      cases hlisted with
      | cons _ hstart _ honce =>
          have hjoined : s ++ joined [] = s := List.append_nil s
          rw [hjoined] at hdrop hfree hsearch honce ⊢
          have htext : string m prev = .ok s := string_eq_ok.2 ⟨hfree, back, hdrop⟩
          have hskip : findSpecs p (s.length - 5 + 0) i lines m = _ :=
            findSpecs_skip hsearch (by rw [List.length_drop]; omega) (by
              intro k hk
              rw [List.drop_drop]
              exact honce (1 + k) (by omega) (by omega) (by omega))
          refine ⟨[], m, ?_, .refl m, ⟨le_rfl, htext, ?_, le_rfl⟩, rfl⟩
          · rw [List.append_nil]
            exact hskip
          · exact starts_head hstart
  | cons next rest ih =>
      obtain ⟨sep', s'⟩ := next
      obtain ⟨j, m₁, hnext, hbefore, hend, hkept₁, hfirst, hdrop₁⟩ :=
        findSpecs_next hlisted hdrop hfree hlast hi
      obtain ⟨q, hq⟩ : ∃ q, q = p + j := ⟨_, rfl⟩
      rw [← hq] at hnext hbefore hend hkept₁ hdrop₁
      have hfree' : 0 ∉ s' ++ joined rest := by
        rw [joined_cons] at hfree
        exact fun h0 => hfree (List.mem_append_right _ (List.mem_append_right _ h0))
      have hkept : Kept prev (prev + (s ++ joined ((sep', s') :: rest)).length) m m₁ :=
        hkept₁.mono le_rfl (by omega)
      have hcount' : (lines ++ [q]).length = lines.length + 1 := List.length_append
      cases hlisted with
      | cons _ hstart _ _ _ hrest =>
          have hstarts : ascii "RTP/" <+: s' ++ joined rest := hrest.starts
          rw [hnext]
          cases c with
          | zero =>
              rw [if_pos (by omega)]
              have hstring : string m₁ q = .ok (s' ++ joined rest) :=
                string_eq_ok.2 ⟨hfree', back, hdrop₁⟩
              have hlaid : Laid m₁ (prev + (s ++ joined ((sep', s') :: rest)).length)
                  (prev + s.length + 1) [(q, s' ++ joined rest)] :=
                ⟨by omega, hstring, starts_head hstarts, Nat.succ_le_succ hend.le⟩
              exact ⟨[q], m₁, rfl, hkept, ⟨le_rfl, hfirst, starts_head hstart, hlaid⟩, rfl⟩
          | succ c =>
              rw [if_neg (by omega)]
              obtain ⟨qs, m₂, hfind, hkept₂, hlaid, hcut⟩ := ih hrest hdrop₁ hfree'
                List.getLast?_concat (show (lines ++ [q]).length + (c + 1) = maxTransports by omega)
                (show p + (j + 1) = q + 1 by omega)
              rw [hend] at hkept₂ hlaid
              refine ⟨q :: qs, m₂, ?_, hkept.trans (hkept₂.mono (by omega) le_rfl), ?_, ?_⟩
              · rw [hfind, List.append_assoc]
                rfl
              · exact ⟨le_rfl, hkept₂.string hfirst (.inl (by omega)), starts_head hstart,
                  hlaid.mono (by omega)⟩
              · rw [List.length_cons, hcut]
                rfl

theorem length_cut (c : ℕ) (s : Bytes) (rest : List (Bytes × Bytes)) :
    (cut c s rest).length ≤ c + 1 := by
  induction c generalizing s rest with
  | zero => exact le_rfl
  | succ c ih =>
      cases rest with
      | nil => exact Nat.succ_le_succ (Nat.zero_le _)
      | cons next rest => exact Nat.succ_le_succ (ih next.2 rest)

/-- The search for the specs of a header. -/
theorem findSpecs_text {rest : List (Bytes × Bytes)} (hlisted : Listed ((sep, s) :: rest))
    (hstring : string m p = .ok (sep ++ (s ++ joined rest))) :
    ∃ qs m', findSpecs p ((sep ++ (s ++ joined rest)).length - 4) 0 [] m = .ok (qs, m') ∧
      Kept p (p + (sep ++ (s ++ joined rest)).length) m m' ∧
      Laid m' (p + (sep ++ (s ++ joined rest)).length) p (qs.zip (cut 2 s rest)) ∧
      qs.length = (cut 2 s rest).length := by
  obtain ⟨hfree, back, hdrop⟩ := string_eq_ok.1 hstring
  have hlisted' := hlisted
  cases hlisted' with
  | cons hsep hstart hlong =>
      have hlength : (sep ++ (s ++ joined rest)).length = sep.length + (s ++ joined rest).length :=
        List.length_append
      have hskip : findSpecs p (sep.length + ((s ++ joined rest).length - 5 + 1)) 0 [] m = _ :=
        findSpecs_skip hstring (by omega) (by
          intro k hk
          have hne : sep ≠ [] := List.length_pos_iff.1 (by omega)
          exact not_starts_between (s := []) hsep hne (by simpa using hk) (by simp))
      have hfuel : (sep ++ (s ++ joined rest)).length - 4 =
          sep.length + ((s ++ joined rest).length - 5 + 1) := by omega
      have hfirst : string m (p + (0 + sep.length)) = .ok (s ++ joined rest) := by
        rw [Nat.zero_add, string_drop hstring (by omega), List.drop_left]
      have htrue : (ascii "RTP/").isPrefixOf (s ++ joined rest) = true :=
        List.isPrefixOf_iff_prefix.2 (hstart.trans (List.prefix_append _ _))
      have hbehind : m.drop (p + (0 + sep.length)) = s ++ joined rest ++ 0 :: back := by
        rw [Nat.zero_add, ← List.drop_drop, hdrop, List.append_assoc, List.drop_left]
      obtain ⟨qs, m', hfind, hkept, hlaid, hcut⟩ := findSpecs_listed hlisted hbehind
        (fun h0 => hfree (List.mem_append_right sep h0))
        (show [p + (0 + sep.length)].getLast? = some (p + (0 + sep.length)) from rfl)
        (show [p + (0 + sep.length)].length + (1 + 1) = maxTransports from rfl)
        (show p + (0 + sep.length + 1) = p + (0 + sep.length) + 1 by omega)
      have hends : p + (0 + sep.length) + (s ++ joined rest).length =
          p + (sep ++ (s ++ joined rest)).length := by omega
      rw [hends] at hkept hlaid
      refine ⟨(p + (0 + sep.length)) :: qs, m', ?_, hkept.mono (by omega) le_rfl, hlaid.mono (by omega), hcut⟩
      rw [hfuel, hskip, findSpecs, strncmpEq_string zero_not_mem_rtp hfirst, htrue]
      exact hfind

/-- A header with a list of specs: the entries are read from the pieces, and nothing outside the
header's text is written. -/
theorem parseTransport_text {rest : List (Bytes × Bytes)} (hlisted : Listed ((sep, s) :: rest))
    (hstring : string m p = .ok (sep ++ (s ++ joined rest))) (hdr : RtspHeader) :
    ∃ hdr' m', parseTransport m hdr (some p) =
        .ok ((specsOf ((List.finRange maxTransports).zip (cut 2 s rest)) hdr.transport).1, hdr', m') ∧
      Kept p (p + (sep ++ (s ++ joined rest)).length) m m' ∧
      (∀ i, EntryIs p (p + (sep ++ (s ++ joined rest)).length) m' (hdr.transport i) (hdr'.transport i)
        (hdr.transport i)
        ((specsOf ((List.finRange maxTransports).zip (cut 2 s rest)) hdr.transport).2 i)) ∧
      hdr' = { hdr with transport := hdr'.transport } := by
  obtain ⟨qs, m₁, hfind, hkept₁, hlaid, hlength⟩ := findSpecs_text hlisted hstring
  have hbound : sizeSub (sep ++ (s ++ joined rest)).length 4 =
      (sep ++ (s ++ joined rest)).length - 4 := by
    refine if_pos ?_
    cases hlisted with
    | cons _ _ hlong =>
        rw [List.length_append]
        omega
  obtain ⟨specs, hspecs⟩ : ∃ specs, specs = (List.finRange maxTransports).zip (qs.zip (cut 2 s rest)) :=
    ⟨_, rfl⟩
  have hcut := length_cut 2 s rest
  have hlaid' : Laid m₁ (p + (sep ++ (s ++ joined rest)).length) p (specs.map Prod.snd) := by
    rw [hspecs, List.map_snd_zip]
    · exact hlaid
    · rw [List.length_zip, List.length_finRange]
      exact (min_le_right _ _).trans hcut
  have hplaces : specs.map (fun spec => (spec.1, spec.2.1)) = (List.finRange maxTransports).zip qs := by
    have hfst : qs = (qs.zip (cut 2 s rest)).map Prod.fst := (List.map_fst_zip hlength.le).symm
    conv_rhs => rw [hfst, List.zip_map_right]
    rw [hspecs]
    rfl
  have htexts : specs.map (fun spec => (spec.1, spec.2.2)) =
      (List.finRange maxTransports).zip (cut 2 s rest) := by
    have hsnd : cut 2 s rest = (qs.zip (cut 2 s rest)).map Prod.snd := (List.map_snd_zip hlength.ge).symm
    conv_rhs => rw [hsnd, List.zip_map_right]
    rw [hspecs]
    rfl
  obtain ⟨hdr', m₂, hparse, hkept₂, hentries, hothers⟩ := parseSpecs_text hlaid' hdr fun _ => rfl
  rw [hplaces, htexts] at hparse
  rw [htexts] at hentries
  refine ⟨hdr', m₂, ?_, hkept₁.trans hkept₂, hentries, hothers⟩
  rw [parseTransport, strlen, hstring]
  simp only [pure_eq_ok, ok_bind, hbound, hfind]
  exact hparse

end Parser

end WifiAudio
