import WifiAudio.Proof.Rtsp.Option

/-!
# What a transport spec does

The tokenisers cut a spec where it lies and the header keeps pointers into it. With every pointer
replaced by the text it leads to (`resolve`), what a spec does to its entry is computed from the
spec's text (`specOf`).
-/

namespace WifiAudio

open CString Except

/-- The text a pointer leads to, in its place. -/
def CharPtr.resolve (m : Bytes) : CharPtr → CharPtr
  | .at p =>
      match CString.string m p with
      | .ok l => .literal l
      | .error _ => .at p
  | ptr => ptr

def Transport.resolve (m : Bytes) (t : Transport) : Transport :=
  { t with transport := t.transport.resolve m, mode := t.mode.resolve m }

theorem CharPtr.resolve_at {m l : Bytes} {p : ℕ} (h : CString.string m p = .ok l) :
    (CharPtr.at p).resolve m = .literal l := by
  rw [resolve, h]

namespace Parser

/-- The options of a spec: the parser gives up at the first one it does not take. -/
def optionsOf : List Bytes → Transport → Bool × Transport
  | [], t => (true, t)
  | l :: rest, t =>
      let (taken, t) := optionOf l (fun k => .literal (l.drop k)) t
      if taken then optionsOf rest t else (false, t)

/-- The part `RTP/AVP/UDP`. -/
def protocolOf (l : Bytes) (t : Transport) : Transport :=
  let words := tokens slash l
  let t := setRtp t (words.head? == some (ascii "RTP"))
  match words[2]? with
  | some w => { t with transport := .literal w }
  | none => t

/-- The spec with the text `l`. -/
def specOf (l : Bytes) (t : Transport) : Bool × Transport :=
  optionsOf (tokens semicolon l).tail (protocolOf ((tokens semicolon l).headD []) (setDefaults t))

/-! ### Options -/

variable {m l : Bytes} {p q stop e : ℕ} {hdr t : Transport}

/-- The field holds no pointer. -/
structure OptionField.Plain {α : Type} (field : OptionField α) : Prop where
  get_resolve : ∀ m t, field.get (t.resolve m) = field.get t
  set_resolve : ∀ m t v, (field.set v t).resolve m = field.set v (t.resolve m)
  set_texts : ∀ t v, (field.set v t).transport = t.transport ∧ (field.set v t).mode = t.mode

theorem fields_plain : (∀ bin ∈ bins, bin.1.Plain) ∧ (∀ field ∈ ranges, field.Plain) ∧
    (∀ field ∈ numbers, field.Plain) ∧ (∀ field ∈ ips, field.Plain) ∧
    ∀ field ∈ iprange, field.Plain := by
  simp only [bins, ranges, numbers, ips, iprange, List.forall_mem_cons, List.not_mem_nil,
    false_implies, implies_true, and_true]
  refine ⟨⟨?_, ?_, ?_⟩, ⟨?_, ?_, ?_, ?_⟩, ⟨?_, ?_⟩, ⟨?_, ?_⟩, ?_, ?_⟩ <;>
    exact ⟨fun m t => rfl, fun m t v => rfl, fun t v => ⟨rfl, rfl⟩⟩

section Plain

variable {field : OptionField (ℤ × ℤ)} {addresses : OptionField (IpAddr × IpAddr)}

theorem rangeOf_resolve (hplain : field.Plain) (m l : Bytes) (t : Transport) :
    rangeOf l (t.resolve m) field = (rangeOf l t field).map id (Transport.resolve m) := by
  unfold rangeOf
  simp only [hplain.get_resolve, ← hplain.set_resolve]
  split
  · rfl
  · rfl

theorem iprangeOf_resolve (hplain : addresses.Plain) (m l : Bytes) (t : Transport) :
    iprangeOf l (t.resolve m) addresses = (iprangeOf l t addresses).map id (Transport.resolve m) := by
  unfold iprangeOf
  simp only [hplain.get_resolve, ← hplain.set_resolve]
  split
  · rfl
  · rfl

theorem rangeOf_texts (hplain : field.Plain) (l : Bytes) (t : Transport) :
    (rangeOf l t field).2.transport = t.transport ∧ (rangeOf l t field).2.mode = t.mode := by
  unfold rangeOf
  simp only []
  split
  · exact hplain.set_texts _ _
  · simp only [(hplain.set_texts _ _).1, (hplain.set_texts _ _).2, and_self]

theorem iprangeOf_texts (hplain : addresses.Plain) (l : Bytes) (t : Transport) :
    (iprangeOf l t addresses).2.transport = t.transport ∧ (iprangeOf l t addresses).2.mode = t.mode := by
  unfold iprangeOf
  simp only []
  split
  · exact hplain.set_texts _ _
  · simp only [(hplain.set_texts _ _).1, (hplain.set_texts _ _).2, and_self]

end Plain

theorem fieldOf_mem {α : Type} {fields : List (OptionField α)} {field : OptionField α}
    (h : fieldOf fields l = some field) : field ∈ fields :=
  List.mem_of_find?_eq_some h

theorem optionOf_resolve {f g : ℕ → CharPtr} (hfg : ∀ k ≤ l.length, (f k).resolve m = g k)
    (t : Transport) :
    optionOf l g (t.resolve m) = (optionOf l f t).map id (Transport.resolve m) := by
  obtain ⟨hbins, hranges, hnumbers, hips, hiprange⟩ := fields_plain
  unfold optionOf
  cases hbin : bins.find? fun bin => l == bin.1.cmd with
  | some bin =>
      have hplain := hbins bin (List.mem_of_find?_eq_some hbin)
      exact congrArg (Prod.mk true) (hplain.set_resolve m t bin.2).symm
  | none =>
  simp only []
  cases hrange : fieldOf ranges l with
  | some field => exact rangeOf_resolve (hranges field (fieldOf_mem hrange)) m _ t
  | none =>
  simp only []
  cases htext : fieldOf texts l with
  | some field =>
      have hlength := fieldOf_length htext
      obtain rfl := List.mem_singleton.1 (fieldOf_mem htext)
      simp only [Prod.map, id_eq, Transport.resolve, hfg _ hlength]
  | none =>
  simp only []
  cases hnumber : fieldOf numbers l with
  | some field =>
      have hplain := hnumbers field (fieldOf_mem hnumber)
      exact congrArg (Prod.mk true) (hplain.set_resolve m t _).symm
  | none =>
  simp only []
  cases hip : fieldOf ips l with
  | some field =>
      have hplain := hips field (fieldOf_mem hip)
      simp only [hplain.get_resolve]
      exact congrArg (Prod.mk true) (hplain.set_resolve m t _).symm
  | none =>
  simp only []
  cases hrange : fieldOf iprange l with
  | some field => exact iprangeOf_resolve (hiprange field (fieldOf_mem hrange)) m _ t
  | none => rfl

theorem optionOf_texts (l : Bytes) (behind : ℕ → CharPtr) (t : Transport) :
    (optionOf l behind t).2.transport = t.transport ∧
      ((optionOf l behind t).2.mode = t.mode ∨ ∃ k, (optionOf l behind t).2.mode = behind k) := by
  obtain ⟨hbins, hranges, hnumbers, hips, hiprange⟩ := fields_plain
  unfold optionOf
  cases hbin : bins.find? fun bin => l == bin.1.cmd with
  | some bin =>
      obtain ⟨htransport, hmode⟩ := (hbins bin (List.mem_of_find?_eq_some hbin)).set_texts t bin.2
      exact ⟨htransport, .inl hmode⟩
  | none =>
  simp only []
  cases hrange : fieldOf ranges l with
  | some field =>
      obtain ⟨htransport, hmode⟩ := rangeOf_texts (hranges field (fieldOf_mem hrange)) _ t
      exact ⟨htransport, .inl hmode⟩
  | none =>
  simp only []
  cases htext : fieldOf texts l with
  | some field =>
      obtain rfl := List.mem_singleton.1 (fieldOf_mem htext)
      exact ⟨rfl, .inr ⟨_, rfl⟩⟩
  | none =>
  simp only []
  cases hnumber : fieldOf numbers l with
  | some field =>
      obtain ⟨htransport, hmode⟩ := (hnumbers field (fieldOf_mem hnumber)).set_texts t _
      exact ⟨htransport, .inl hmode⟩
  | none =>
  simp only []
  cases hip : fieldOf ips l with
  | some field =>
      obtain ⟨htransport, hmode⟩ := (hips field (fieldOf_mem hip)).set_texts t _
      exact ⟨htransport, .inl hmode⟩
  | none =>
  simp only []
  cases hrange : fieldOf iprange l with
  | some field =>
      obtain ⟨htransport, hmode⟩ := iprangeOf_texts (hiprange field (fieldOf_mem hrange)) _ t
      exact ⟨htransport, .inl hmode⟩
  | none => exact ⟨rfl, .inl rfl⟩

/-- The entry's pointers lead to texts. -/
def Literal (t : Transport) : Prop :=
  ∃ transport mode, t.transport = .literal transport ∧ t.mode = .literal mode

theorem Literal.resolve (h : Literal t) (n : Bytes) : t.resolve n = t := by
  obtain ⟨transport, mode, htransport, hmode⟩ := h
  cases t
  simp only at htransport hmode
  subst htransport hmode
  rfl

theorem Literal.option (h : Literal t) (l : Bytes) :
    Literal (optionOf l (fun k => .literal (l.drop k)) t).2 := by
  obtain ⟨transport, mode, htransport, hmode⟩ := h
  obtain ⟨hsame, hsame' | ⟨k, hset⟩⟩ := optionOf_texts l (fun k => .literal (l.drop k)) t
  · exact ⟨transport, mode, hsame.trans htransport, hsame'.trans hmode⟩
  · exact ⟨transport, l.drop k, hsame.trans htransport, hset⟩

theorem Literal.options (h : Literal t) (words : List Bytes) : Literal (optionsOf words t).2 := by
  induction words generalizing t with
  | nil => exact h
  | cons w words ih =>
      rw [optionsOf]
      simp only []
      split
      · exact ih (h.option w)
      · exact h.option w

theorem protocolOf_literal (l : Bytes) (t : Transport) : Literal (protocolOf l (setDefaults t)) := by
  unfold protocolOf setRtp
  simp only []
  split <;> split <;> exact ⟨_, _, rfl, rfl⟩

theorem specOf_literal (l : Bytes) (t : Transport) : Literal (specOf l t).2 :=
  (protocolOf_literal _ t).options _

/-! ### Pointers that stay -/

/-- The texts of `hdr` lie in front of `stop`, and with them it is `t`; the last one may end with the
NUL at `e`. -/
def Settled (p stop e : ℕ) (m : Bytes) (hdr t : Transport) : Prop :=
  ∀ n : Bytes, (∀ i, p ≤ i → i < stop ∨ i = e → n[i]? = m[i]?) → hdr.resolve n = t

theorem Settled.kept {m' : Bytes} {stop' : ℕ} (h : Settled p stop e m hdr t) (hkept : Kept stop e m m')
    (hstop : stop ≤ stop') : Settled p stop' e m' hdr t := by
  intro n hn
  apply h
  intro i hlow hi
  rw [hn i hlow (by omega)]
  exact hkept.outside i (by omega)

theorem Settled.option {l : Bytes} {at_ : ℕ} (h : Settled p stop e m hdr t)
    (hstring : string m at_ = .ok l) (hlow : p ≤ at_)
    (hends : at_ + l.length < stop ∨ at_ + l.length = e ∧ stop = e) :
    Settled p stop e m (optionOf l (fun k => .at (at_ + k)) hdr).2
      (optionOf l (fun k => .literal (l.drop k)) t).2 := by
  intro n hn
  have hstring' : string n at_ = .ok l := by
    apply string_of_agree hstring
    intro i hi hi'
    exact hn i (by omega) (by omega)
  have hresolve : ∀ k ≤ l.length, (CharPtr.at (at_ + k)).resolve n = .literal (l.drop k) :=
    fun k hk => CharPtr.resolve_at (string_drop hstring' hk)
  have hsame := optionOf_resolve hresolve hdr
  rw [h n hn] at hsame
  rw [hsame]
  rfl

/-- Whether an option is taken does not depend on where it lies. -/
theorem optionOf_ok (h : Settled p stop e m hdr t) {at_ : ℕ} (hstring : string m at_ = .ok l) :
    (optionOf l (fun k => .at (at_ + k)) hdr).1 =
      (optionOf l (fun k => .literal (l.drop k)) t).1 := by
  have hresolve : ∀ k ≤ l.length, (CharPtr.at (at_ + k)).resolve m = .literal (l.drop k) :=
    fun k hk => CharPtr.resolve_at (string_drop hstring hk)
  have hsame := optionOf_resolve hresolve hdr
  rw [h m fun _ _ _ => rfl] at hsame
  rw [hsame]
  rfl

/-! ### The code on a spec -/

theorem semicolon_ne_zero : semicolon ≠ 0 := by decide

theorem slash_ne_zero : slash ≠ 0 := by decide

theorem readOptions_text {fuel : ℕ} (hstring : string m stop = .ok l) (he : stop + l.length = e)
    (hp : p ≤ stop) (hfuel : l.length < fuel) (hsettled : Settled p stop e m hdr t) :
    ∃ hdr' m', readOptions fuel m hdr (some stop) =
        .ok ((optionsOf (tokens semicolon l) t).1, hdr', m') ∧ Kept stop e m m' ∧
      Settled p e e m' hdr' (optionsOf (tokens semicolon l) t).2 := by
  induction fuel generalizing m stop l hdr t with
  | zero => exact absurd hfuel (Nat.not_lt_zero _)
  | succ fuel ih =>
      rw [readOptions]
      obtain ⟨hcall, htokens⟩ | ⟨q, stop', w, rest, m₁, hcall, hfound⟩ :=
        strtok_r_string (show ((none : Option ℕ) <|> some stop) = some stop from rfl)
          semicolon_ne_zero hstring
      · rw [hcall, htokens]
        exact ⟨hdr, m, rfl, .refl m, hsettled.kept (.refl m) (by omega)⟩
      · have hstop := hfound.stop_eq
        have hshort := hfound.short
        have hkept : Kept stop e m m₁ := he ▸ hfound.kept
        have hsettled₁ : Settled p stop' e m₁ hdr t := hsettled.kept hkept (by omega)
        have hends : q + w.length < stop' ∨ q + w.length = e ∧ stop' = e := he ▸ hfound.ends
        have hoption := hsettled₁.option hfound.word (hp.trans hfound.low) hends
        have hok := optionOf_ok hsettled₁ hfound.word
        rw [hcall, hfound.tokens_eq, optionsOf]
        simp only [ok_bind, parseTransportOption_string hfound.word]
        cases htaken : (optionOf w (fun k => .literal (w.drop k)) t).1 with
        | false =>
            rw [htaken] at hok
            simp only [hok]
            exact ⟨_, m₁, rfl, hkept, hoption.kept (.refl m₁) (by omega)⟩
        | true =>
            rw [htaken] at hok
            simp only [hok]
            obtain ⟨hdr', m₂, hread, hkept₂, hsettled₂⟩ :=
              ih hfound.behind (by omega) (by omega) (by omega) hoption
            exact ⟨hdr', m₂, hread, hkept.trans (hkept₂.mono (by omega) le_rfl), hsettled₂⟩

/-- One call, whether it finds a token or not: the token is the first one, and the rest has the
others. -/
theorem strtok_r_tokens {start save : Option ℕ} {d : UInt8} (hq : (start <|> save) = some q)
    (hd : d ≠ 0) (hstring : string m q = .ok l) :
    ∃ tok stop rest m', strtok_r m start d save = .ok (tok, some stop, m') ∧
      string m' stop = .ok rest ∧ stop + rest.length = q + l.length ∧ rest.length ≤ l.length ∧
      Kept q (q + l.length) m m' ∧ tokens d rest = (tokens d l).tail ∧
      ((tok = none ∧ (tokens d l).head? = none) ∨ ∃ t w, tok = some t ∧
        (tokens d l).head? = some w ∧ string m' t = .ok w ∧ q ≤ t ∧ t + w.length ≤ q + l.length) := by
  obtain ⟨hcall, htokens⟩ | ⟨t, stop, w, rest, m', hcall, hfound⟩ := strtok_r_string hq hd hstring
  · have hempty : string m (q + l.length) = .ok [] := by
      rw [string_drop hstring le_rfl, List.drop_length]
    refine ⟨none, _, [], m, hcall, hempty, rfl, Nat.zero_le _, .refl m, ?_, .inl ⟨rfl, ?_⟩⟩
    · rw [htokens]
      rfl
    · rw [htokens]
      rfl
  · have hstop := hfound.stop_eq
    refine ⟨some t, stop, rest, m', hcall, hfound.behind, hstop, hfound.short.le, hfound.kept, ?_,
      .inr ⟨t, w, rfl, ?_, hfound.word, hfound.low, ?_⟩⟩
    · rw [hfound.tokens_eq]
      rfl
    · rw [hfound.tokens_eq]
      rfl
    · obtain h | ⟨h, -⟩ := hfound.ends <;> omega

theorem parseProtocol_text (hstring : string m q = .ok l) (hliteral : ∀ n, hdr.resolve n = hdr) :
    ∃ hdr' m', parseProtocol m (some q) hdr = .ok (hdr', m') ∧ Kept q (q + l.length) m m' ∧
      Settled q (q + l.length) (q + l.length) m' hdr' (protocolOf l hdr) := by
  obtain ⟨tok₁, stop₁, rest₁, m₁, hcall₁, hrest₁, hstop₁, hshort₁, hkept₁, htail₁, htok₁⟩ :=
    strtok_r_tokens (show ((some q : Option ℕ) <|> none) = some q from rfl) slash_ne_zero hstring
  obtain ⟨tok₂, stop₂, rest₂, m₂, hcall₂, hrest₂, hstop₂, hshort₂, hkept₂, htail₂, -⟩ :=
    strtok_r_tokens (show ((none : Option ℕ) <|> some stop₁) = some stop₁ from rfl) slash_ne_zero hrest₁
  obtain ⟨tok₃, stop₃, rest₃, m₃, hcall₃, hrest₃, hstop₃, hshort₃, hkept₃, -, htok₃⟩ :=
    strtok_r_tokens (show ((none : Option ℕ) <|> some stop₂) = some stop₂ from rfl) slash_ne_zero hrest₂
  have hkept : Kept q (q + l.length) m m₃ :=
    (hkept₁.trans (hkept₂.mono (by omega) (by omega))).trans (hkept₃.mono (by omega) (by omega))
  set isRtp := (tokens slash l).head? == some (ascii "RTP") with hisRtp
  have hthird : (tokens slash rest₂).head? = (tokens slash l)[2]? := by
    rw [htail₂, htail₁, ← List.drop_one, ← List.drop_one, List.drop_drop, List.head?_drop]
  have hsame : ∀ n, (setRtp hdr isRtp).resolve n = setRtp hdr isRtp := by
    intro n
    have hn := hliteral n
    cases isRtp with
    | true => exact congrArg (fun t : Transport => { t with rtp := true }) hn
    | false => exact hn
  refine ⟨setTransport (setRtp hdr isRtp) tok₃, m₃, ?_, hkept, ?_⟩
  · rw [parseProtocol, hcall₁]
    obtain ⟨rfl, hhead⟩ | ⟨t, w, rfl, hhead, hword, -, -⟩ := htok₁
    · rw [hhead] at hisRtp
      rw [hisRtp]
      simp only [ok_bind, hcall₂, hcall₃, pure_eq_ok]
      rfl
    · rw [hhead] at hisRtp
      have hrtp : strcmpEq m₁ t (ascii "RTP") = .ok isRtp := by
        rw [strcmpEq, hword, hisRtp]
        rfl
      simp only [ok_bind, hrtp, hcall₂, hcall₃, pure_eq_ok]
  · intro n hn
    obtain ⟨rfl, hhead⟩ | ⟨t, w, rfl, hhead, hword, hlow, hhigh⟩ := htok₃
    · rw [protocolOf, ← hthird, hhead]
      exact hsame n
    · have hword' : string n t = .ok w := by
        apply string_of_agree hword
        intro i hi hi'
        exact hn i (by omega) (by omega)
      rw [protocolOf, ← hthird, hhead]
      have hmode := congrArg Transport.mode (hsame n)
      change ({ setRtp hdr isRtp with
        transport := (CharPtr.at t).resolve n, mode := (setRtp hdr isRtp).mode.resolve n } : Transport) = _
      rw [CharPtr.resolve_at hword', show (setRtp hdr isRtp).mode.resolve n = _ from hmode]

theorem setDefaults_resolve (t : Transport) (n : Bytes) :
    (setDefaults t).resolve n = setDefaults t := rfl

/-- A string with a token is read as a spec, and nothing outside it is written. Without a token the
null pointer is used. -/
theorem parseSpec_string (hstring : string m q = .ok l) (hdr : Transport) :
    (tokens semicolon l = [] ∧ ∀ r, parseSpec m q hdr ≠ .ok r) ∨
    ∃ t hdr' m', (∀ b, m[q]? = some b → b ≠ 0 → b ≠ semicolon → t = q) ∧
      parseSpec m q hdr = .ok ((specOf l hdr).1, hdr', m') ∧ Kept q (q + l.length) m m' ∧
      Settled t (q + l.length) (q + l.length) m' hdr' (specOf l hdr).2 := by
  obtain ⟨hcall, hnone⟩ | ⟨t, stop, w, rest, m₁, hcall, hfound⟩ :=
    strtok_r_string (show ((some q : Option ℕ) <|> none) = some q from rfl) semicolon_ne_zero hstring
  · left
    refine ⟨hnone, ?_⟩
    intro r hread
    rw [parseSpec, hcall] at hread
    cases hread
  · right
    have hlow := hfound.low
    have hstop := hfound.stop_eq
    have hends := hfound.ends
    have hkept₁ := hfound.kept
    obtain ⟨hdr₂, m₂, hcall₂, hkept₂, hsettled₂⟩ :=
      parseProtocol_text hfound.word (setDefaults_resolve hdr)
    have hrest : string m₂ stop = .ok rest := hkept₂.string hfound.behind (.inr (by omega))
    have hsettled : Settled t stop (q + l.length) m₂ hdr₂ (protocolOf w (setDefaults hdr)) := by
      intro n hn
      apply hsettled₂
      intro i hlow hi
      exact hn i hlow (by omega)
    obtain ⟨hdr₃, m₃, hcall₃, hkept₃, hsettled₃⟩ := readOptions_text hrest hstop (by omega)
      (Nat.lt_succ_of_lt (length_lt_of_string hrest)) hsettled
    have hspec : specOf l hdr =
        optionsOf (tokens semicolon rest) (protocolOf w (setDefaults hdr)) := by
      rw [specOf, hfound.tokens_eq]
      rfl
    have hkept : Kept q (q + l.length) m m₃ :=
      (hkept₁.trans (hkept₂.mono hlow (by omega))).trans (hkept₃.mono (by omega) le_rfl)
    refine ⟨t, hdr₃, m₃, hfound.starts, ?_, hkept, hspec ▸ hsettled₃⟩
    rw [parseSpec, hcall, hspec]
    simp only [ok_bind, hcall₂]
    exact hcall₃

/-- A spec is read into its entry, and nothing outside its text is written. -/
theorem parseSpec_text (hstring : string m q = .ok l) (hstart : l.head? = some 82)
    (hdr : Transport) :
    ∃ hdr' m', parseSpec m q hdr = .ok ((specOf l hdr).1, hdr', m') ∧
      Kept q (q + l.length) m m' ∧
      Settled q (q + l.length) (q + l.length) m' hdr' (specOf l hdr).2 := by
  obtain ⟨-, back, hdrop⟩ := string_eq_ok.1 hstring
  have hload : m[q]? = some 82 := by
    rw [← Nat.add_zero q, ← List.getElem?_drop, hdrop, ← List.head?_eq_getElem?, List.head?_append,
      hstart]
    rfl
  obtain ⟨hnone, -⟩ | ⟨t, hdr', m', hstarts, hcall, hkept, hsettled⟩ := parseSpec_string hstring hdr
  · obtain ⟨s, rfl⟩ := List.head?_eq_some_iff.1 hstart
    obtain ⟨w, hw, -⟩ := head_tokens (show semicolon ∉ ([82] : Bytes) by decide) (by decide) s
    rw [List.singleton_append, hnone] at hw
    cases hw
  · obtain rfl := hstarts 82 hload (by decide) (by decide)
    exact ⟨hdr', m', hcall, hkept, hsettled⟩

end Parser

end WifiAudio
