import WifiAudio.Proof.Rtsp.Address

/-!
# What a transport option may change

An option writes the field its keyword names. Two things break this: `ssrc=` writes to `ttl`, and an option
with a pair stores the first part before it looks for the separator, so a pair that is rejected leaves
its first part behind.
-/

namespace WifiAudio

open CString Except

/-- The fields an option can name. -/
inductive TransportField
  | unicast
  | rtcpMux
  | clientPort
  | serverPort
  | interleaved
  | port
  | mode
  | ttl
  | ssrc
  | destination
  | source
  | srcAddr
  | destAddr
  deriving DecidableEq, Repr

/-- The transport without a field. -/
def Transport.without (t : Transport) : TransportField → Transport
  | .unicast => { t with unicast := false }
  | .rtcpMux => { t with rtcpMux := false }
  | .clientPort => { t with clientPort := (0, 0) }
  | .serverPort => { t with serverPort := (0, 0) }
  | .interleaved => { t with interleaved := (0, 0) }
  | .port => { t with port := (0, 0) }
  | .mode => { t with mode := .null }
  | .ttl => { t with ttl := 0 }
  | .ssrc => { t with ssrc := 0 }
  | .destination => { t with destination := fun _ => 0 }
  | .source => { t with source := fun _ => 0 }
  | .srcAddr => { t with srcAddr := (fun _ => 0, fun _ => 0) }
  | .destAddr => { t with destAddr := (fun _ => 0, fun _ => 0) }

/-- The transports differ at most in the field, or not at all. -/
def Transport.SameBut (t t' : Transport) : Option TransportField → Prop
  | some field => t.without field = t'.without field
  | none => t = t'

namespace Parser

def flagNames : List (Bytes × TransportField) :=
  [(ascii "unicast", .unicast), (ascii "multicast", .unicast), (ascii "rtcp-mux", .rtcpMux)]

def valueNames : List (Bytes × TransportField) :=
  [(ascii "client_port=", .clientPort), (ascii "server_port=", .serverPort),
    (ascii "interleaved=", .interleaved), (ascii "port=", .port), (ascii "mode=", .mode),
    (ascii "ttl=", .ttl), (ascii "ssrc=", .ssrc), (ascii "destination=", .destination),
    (ascii "source=", .source), (ascii "src_addr=", .srcAddr), (ascii "dest_addr=", .destAddr)]

/-- The field the keyword of an option names. -/
def namedField (l : Bytes) : Option TransportField :=
  ((flagNames.find? fun name => l == name.1).or
    (valueNames.find? fun name => name.1.isPrefixOf l)).map Prod.snd

/-- The option changes at most the field it names, and nothing when it is rejected. -/
def Framed (m : Bytes) (p : ℕ) (t : Transport) (l : Bytes) : Prop :=
  ∃ ok t', parseTransportOption m t p = .ok (ok, t') ∧ t.SameBut t' (namedField l) ∧
    (ok = false → t' = t)

/-- The option is not one of those that write elsewhere, or writes what is there already. -/
structure WritesRight (t : Transport) (l : Bytes) : Prop where
  range : ∀ field, fieldOf ranges l = some field →
    (numberOf 10 (l.drop field.cmd.length)).2.headD 0 = minus ∨
      (numberOf 10 (l.drop field.cmd.length)).1 = (field.get t).1
  ssrc : ascii "ssrc=" <+: l → (numberOf 0 (l.drop 5)).1 = t.ttl
  addresses : ∀ field, fieldOf iprange l = some field →
    (numberOf 10 (l.drop field.cmd.length)).2.headD 0 = comma ∨
      ∀ i, UInt8.ofInt (numberOf 10 (l.drop field.cmd.length)).1 = (field.get t).1 i

/-- The field writes the field of the transport that its keyword names, and no other. -/
structure OptionField.Writes {α : Type} (field : OptionField α) (f : TransportField) : Prop where
  named : ∀ text, namedField (field.cmd ++ text) = some f
  frame : ∀ v t, (field.set v t).without f = t.without f
  get_set : ∀ v t, field.get (field.set v t) = v
  set_get : ∀ t, field.set (field.get t) t = t

variable {m l : Bytes} {p : ℕ} {t : Transport}

theorem fields_write : (∀ field ∈ ranges, ∃ f, field.Writes f) ∧ (∀ field ∈ texts, ∃ f, field.Writes f) ∧
    (∀ field ∈ ips, ∃ f, field.Writes f) ∧ ∀ field ∈ iprange, ∃ f, field.Writes f := by
  simp only [ranges, texts, ips, iprange, List.forall_mem_cons, List.not_mem_nil, false_implies,
    implies_true, and_true]
  refine ⟨⟨?_, ?_, ?_, ?_⟩, ?_, ⟨?_, ?_⟩, ?_, ?_⟩ <;>
    exact ⟨_, ⟨fun text => rfl, fun v t => rfl, fun v t => rfl, fun t => rfl⟩⟩

theorem bins_write : ∀ bin ∈ bins, ∃ f, namedField bin.1.cmd = some f ∧
    ∀ v t, (bin.1.set v t).without f = t.without f := by
  intro bin hmem
  simp only [bins, List.mem_cons, List.not_mem_nil, or_false] at hmem
  rcases hmem with rfl | rfl | rfl <;> exact ⟨_, rfl, fun v t => rfl⟩

/-! ### Keywords -/

/-- No keyword of one list starts with one of the other. -/
def Apart (ks ks' : List Bytes) : Prop := ∀ k ∈ ks, ∀ k' ∈ ks', ¬k <+: k' ∧ ¬k' <+: k

instance (ks ks' : List Bytes) : Decidable (Apart ks ks') :=
  inferInstanceAs (Decidable (∀ k ∈ ks, ∀ k' ∈ ks', _))

theorem Apart.not_starts {ks ks' : List Bytes} {k k' : Bytes} (h : Apart ks ks') (hk : k ∈ ks)
    (hk' : k' ∈ ks') (hstarts : k <+: l) : ¬k' <+: l := by
  intro hstarts'
  rcases List.prefix_or_prefix_of_prefix hstarts hstarts' with hprefix | hprefix
  · exact (h k hk k' hk').1 hprefix
  · exact (h k hk k' hk').2 hprefix

/-- Of the numbers `ttl=` writes its own field, and `ssrc=` writes to `ttl`. -/
theorem numbers_write : ∀ field ∈ numbers, (∀ text, ¬ascii "ssrc=" <+: field.cmd ++ text) ∧
      (∃ f, field.Writes f) ∨ field.cmd = ascii "ssrc=" ∧ ∀ v t, field.set v t = { t with ttl := v } := by
  intro field hmem
  rcases List.mem_pair.1 hmem with rfl | rfl
  · have hapart : Apart [ascii "ttl="] [ascii "ssrc="] := by decide
    refine .inl ⟨fun text => ?_, _, fun text => rfl, fun v t => rfl, fun v t => rfl, fun t => rfl⟩
    exact hapart.not_starts List.mem_cons_self List.mem_cons_self (List.prefix_append _ _)
  · exact .inr ⟨rfl, fun v t => rfl⟩

theorem fieldOf_eq_none {α : Type} {fields : List (OptionField α)} :
    fieldOf fields l = none ↔ ∀ k ∈ fields.map OptionField.cmd, ¬k <+: l := by
  simp [fieldOf, List.find?_eq_none]

theorem fieldOf_eq_some {α : Type} {fields : List (OptionField α)} {field : OptionField α}
    (h : fieldOf fields l = some field) :
    field ∈ fields ∧ ∃ text, l = field.cmd ++ text := by
  have hstarts : field.cmd.isPrefixOf l = true := by simpa using List.find?_some h
  obtain ⟨text, htext⟩ := List.isPrefixOf_iff_prefix.1 hstarts
  exact ⟨List.mem_of_find?_eq_some h, text, htext.symm⟩

theorem writesRight_of_none (hrange : fieldOf ranges l = none) (hssrc : ¬ascii "ssrc=" <+: l)
    (haddress : fieldOf iprange l = none) : WritesRight t l where
  range field h := by cases hrange.symm.trans h
  ssrc h := absurd h hssrc
  addresses field h := by cases haddress.symm.trans h

theorem writesRight_of_apart {k : Bytes} (hk : k ∈ bins.map (fun bin => bin.1.cmd) ++
    texts.map OptionField.cmd ++ ips.map OptionField.cmd) (hstarts : k <+: l) : WritesRight t l := by
  have hapart : Apart (bins.map (fun bin => bin.1.cmd) ++ texts.map OptionField.cmd ++
      ips.map OptionField.cmd) (ranges.map OptionField.cmd ++ [ascii "ssrc="] ++
      iprange.map OptionField.cmd) := by decide
  have hnot : ∀ k' ∈ ranges.map OptionField.cmd ++ [ascii "ssrc="] ++ iprange.map OptionField.cmd,
      ¬k' <+: l := fun k' hk' => hapart.not_starts hk hk' hstarts
  simp only [List.forall_mem_append, List.forall_mem_singleton] at hnot
  exact writesRight_of_none (fieldOf_eq_none.2 hnot.1.1) hnot.1.2 (fieldOf_eq_none.2 hnot.2)

theorem writesRight_range_iff {field : OptionField (ℤ × ℤ)} (hfield : fieldOf ranges l = some field) :
    WritesRight t l ↔ (numberOf 10 (l.drop field.cmd.length)).2.headD 0 = minus ∨
      (numberOf 10 (l.drop field.cmd.length)).1 = (field.get t).1 := by
  obtain ⟨hmem, text, hstarts⟩ := fieldOf_eq_some hfield
  have hapart : Apart (ranges.map OptionField.cmd)
      ([ascii "ssrc="] ++ iprange.map OptionField.cmd) := by decide
  have hnot : ∀ k ∈ [ascii "ssrc="] ++ iprange.map OptionField.cmd, ¬k <+: l := fun k hk =>
    hapart.not_starts (List.mem_map_of_mem hmem) hk ⟨text, hstarts.symm⟩
  rw [List.forall_mem_append, List.forall_mem_singleton] at hnot
  constructor
  · intro hright
    exact hright.range field hfield
  · intro hright
    refine ⟨fun field' h => ?_, fun h => absurd h hnot.1, fun field' h => ?_⟩
    · obtain rfl := Option.some.inj (hfield.symm.trans h)
      exact hright
    · cases (fieldOf_eq_none.2 hnot.2).symm.trans h

theorem writesRight_ssrc_iff (hrange : fieldOf ranges l = none) (haddress : fieldOf iprange l = none)
    (hssrc : ascii "ssrc=" <+: l) : WritesRight t l ↔ (numberOf 0 (l.drop 5)).1 = t.ttl := by
  constructor
  · intro hright
    exact hright.ssrc hssrc
  · intro hnumber
    refine ⟨fun field h => ?_, fun _ => hnumber, fun field h => ?_⟩
    · cases hrange.symm.trans h
    · cases haddress.symm.trans h

theorem writesRight_address_iff {field : OptionField (IpAddr × IpAddr)}
    (hrange : fieldOf ranges l = none) (hssrc : ¬ascii "ssrc=" <+: l)
    (hfield : fieldOf iprange l = some field) :
    WritesRight t l ↔ (numberOf 10 (l.drop field.cmd.length)).2.headD 0 = comma ∨
      ∀ i, UInt8.ofInt (numberOf 10 (l.drop field.cmd.length)).1 = (field.get t).1 i := by
  constructor
  · intro hright
    exact hright.addresses field hfield
  · intro hright
    refine ⟨fun field' h => ?_, fun h => absurd h hssrc, fun field' h => ?_⟩
    · cases hrange.symm.trans h
    · obtain rfl := Option.some.inj (hfield.symm.trans h)
      exact hright

/-! ### What the parsers of the values write -/

theorem Framed.iff_optionOf (hstring : string m p = .ok l) : Framed m p t l ↔
    t.SameBut (optionOf l (fun k => .at (p + k)) t).2 (namedField l) ∧
      ((optionOf l (fun k => .at (p + k)) t).1 = false → (optionOf l (fun k => .at (p + k)) t).2 = t) := by
  rw [Framed, parseTransportOption_string hstring]
  constructor
  · rintro ⟨ok, t', heq, hframed⟩
    obtain ⟨rfl, rfl⟩ : _ = ok ∧ _ = t' := Prod.ext_iff.1 (Except.ok.inj heq)
    exact hframed
  · intro hframed
    exact ⟨_, _, rfl, hframed⟩

/-- A field that is written as it should be, by an option that is accepted. -/
theorem accepted_framed_iff {α : Type} {field : OptionField α} {f : TransportField} {v : α}
    (hframe : (field.set v t).without f = t.without f) (hright : WritesRight t l) :
    (t.SameBut (field.set v t) (some f) ∧ (true = false → field.set v t = t)) ↔ WritesRight t l := by
  refine iff_of_true ⟨hframe.symm, ?_⟩ hright
  intro hrejected
  cases hrejected

/-- The number of `ssrc=` is stored in `ttl`. -/
theorem ssrc_framed_iff (v : ℤ) (t : Transport) :
    (t.SameBut { t with ttl := v } (some .ssrc) ∧ (true = false → { t with ttl := v } = t)) ↔ v = t.ttl := by
  constructor
  · rintro ⟨hsame, -⟩
    exact (congrArg Transport.ttl hsame).symm
  · rintro rfl
    exact ⟨rfl, fun _ => rfl⟩

section Writes

variable {field : OptionField (ℤ × ℤ)} {addresses : OptionField (IpAddr × IpAddr)} {f : TransportField}

theorem OptionField.Writes.set_eq_iff {α : Type} {field : OptionField α} (hwrites : field.Writes f)
    (v : α) (t : Transport) : field.set v t = t ↔ v = field.get t := by
  constructor
  · intro hset
    rw [← hset, hwrites.get_set]
  · rintro rfl
    exact hwrites.set_get t

/-- A range that is rejected leaves its first number behind. -/
theorem rangeOf_framed_iff (hwrites : field.Writes f) (text : Bytes) (t : Transport) :
    t.SameBut (rangeOf text t field).2 (some f) ∧
      ((rangeOf text t field).1 = false → (rangeOf text t field).2 = t) ↔
    (numberOf 10 text).2.headD 0 = minus ∨ (numberOf 10 text).1 = (field.get t).1 := by
  unfold rangeOf
  simp only []
  by_cases hminus : (numberOf 10 text).2.headD 0 = minus
  · rw [if_neg (not_not.2 hminus)]
    refine iff_of_true ⟨?_, fun h => by cases h⟩ (.inl hminus)
    exact (hwrites.frame _ _).symm.trans (hwrites.frame _ _).symm
  · rw [if_pos hminus, or_iff_right hminus]
    constructor
    · rintro ⟨-, hsame⟩
      exact congrArg Prod.fst ((hwrites.set_eq_iff _ t).1 (hsame rfl))
    · intro hfirst
      refine ⟨(hwrites.frame _ _).symm, fun _ => (hwrites.set_eq_iff _ t).2 ?_⟩
      rw [hfirst]

theorem iprangeOf_framed_iff (hwrites : addresses.Writes f) (text : Bytes) (t : Transport) :
    t.SameBut (iprangeOf text t addresses).2 (some f) ∧
      ((iprangeOf text t addresses).1 = false → (iprangeOf text t addresses).2 = t) ↔
    (numberOf 10 text).2.headD 0 = comma ∨
      ∀ i, UInt8.ofInt (numberOf 10 text).1 = (addresses.get t).1 i := by
  unfold iprangeOf
  simp only []
  by_cases hcomma : (numberOf 10 text).2.headD 0 = comma
  · rw [if_neg (not_not.2 hcomma)]
    refine iff_of_true ⟨?_, fun h => by cases h⟩ (.inl hcomma)
    exact (hwrites.frame _ _).symm.trans (hwrites.frame _ _).symm
  · rw [if_pos hcomma, or_iff_right hcomma, AddressOption.addressOf_eq]
    constructor
    · rintro ⟨-, hsame⟩ i
      exact congrFun (congrArg Prod.fst ((hwrites.set_eq_iff _ t).1 (hsame rfl))) i
    · intro hfirst
      refine ⟨(hwrites.frame _ _).symm, fun _ => (hwrites.set_eq_iff _ t).2 ?_⟩
      rw [funext hfirst]

end Writes

/-- An option changes at most the field its keyword names, and nothing when it is rejected, if and only if
it is not an `ssrc=` with another number than `ttl` holds, and no pair whose first part is stored and
then rejected for want of a separator. -/
theorem framed_iff (l m : Bytes) (p : ℕ) (hstring : string m p = .ok l) (t : Transport) :
    Framed m p t l ↔ WritesRight t l := by
  rw [Framed.iff_optionOf hstring, optionOf]
  obtain ⟨hranges, htexts, hips, hiprange⟩ := fields_write
  cases hbin : bins.find? fun bin => l == bin.1.cmd with
  | some bin =>
      have hcmd : l = bin.1.cmd := by simpa using List.find?_some hbin
      have hmem := List.mem_of_find?_eq_some hbin
      obtain ⟨f, hnamed, hframe⟩ := bins_write bin hmem
      rw [hcmd, hnamed]
      refine accepted_framed_iff (hframe _ t) (writesRight_of_apart ?_ List.prefix_rfl)
      exact List.mem_append_left _ (List.mem_append_left _ (List.mem_map_of_mem hmem))
  | none =>
  simp only []
  cases hrange : fieldOf ranges l with
  | some field =>
      rw [writesRight_range_iff hrange]
      obtain ⟨hmem, text, rfl⟩ := fieldOf_eq_some hrange
      obtain ⟨f, hwrites⟩ := hranges field hmem
      rw [hwrites.named]
      exact rangeOf_framed_iff hwrites _ t
  | none =>
  simp only []
  cases htext : fieldOf texts l with
  | some field =>
      obtain ⟨hmem, text, rfl⟩ := fieldOf_eq_some htext
      obtain ⟨f, hwrites⟩ := htexts field hmem
      rw [hwrites.named]
      refine accepted_framed_iff (hwrites.frame _ t) (writesRight_of_apart ?_ (List.prefix_append _ _))
      exact List.mem_append_left _ (List.mem_append_right _ (List.mem_map_of_mem hmem))
  | none =>
  simp only []
  cases hnumber : fieldOf numbers l with
  | some field =>
      obtain ⟨hmem, text, rfl⟩ := fieldOf_eq_some hnumber
      have hother : Apart (numbers.map OptionField.cmd) (iprange.map OptionField.cmd) := by decide
      have haddress : fieldOf iprange (field.cmd ++ text) = none := fieldOf_eq_none.2 fun k hk =>
        hother.not_starts (List.mem_map_of_mem hmem) hk (List.prefix_append _ _)
      simp only []
      rw [List.drop_left]
      rcases numbers_write field hmem with ⟨hnot, f, hwrites⟩ | ⟨hssrc, hset⟩
      · rw [hwrites.named]
        exact accepted_framed_iff (hwrites.frame _ t) (writesRight_of_none hrange (hnot text) haddress)
      · have hstarts : ascii "ssrc=" <+: field.cmd ++ text := hssrc ▸ List.prefix_append _ _
        rw [writesRight_ssrc_iff hrange haddress hstarts, hset, hssrc]
        exact ssrc_framed_iff _ t
  | none =>
  simp only []
  have hssrc : ¬ascii "ssrc=" <+: l :=
    fieldOf_eq_none.1 hnumber _ (List.mem_cons_of_mem _ List.mem_cons_self)
  cases hip : fieldOf ips l with
  | some field =>
      obtain ⟨hmem, text, rfl⟩ := fieldOf_eq_some hip
      obtain ⟨f, hwrites⟩ := hips field hmem
      rw [hwrites.named]
      refine accepted_framed_iff (hwrites.frame _ t) (writesRight_of_apart ?_ (List.prefix_append _ _))
      exact List.mem_append_right _ (List.mem_map_of_mem hmem)
  | none =>
  simp only []
  cases haddress : fieldOf iprange l with
  | some field =>
      rw [writesRight_address_iff hrange hssrc haddress]
      obtain ⟨hmem, text, rfl⟩ := fieldOf_eq_some haddress
      obtain ⟨f, hwrites⟩ := hiprange field hmem
      rw [hwrites.named]
      exact iprangeOf_framed_iff hwrites _ t
  | none =>
      refine iff_of_true ⟨?_, fun _ => rfl⟩ (writesRight_of_none hrange hssrc haddress)
      cases namedField l <;> rfl

/-- A pair of ports with its separator keeps to its field. -/
theorem framed_client_port : string (ascii "client_port=5000-5001" ++ [0]) 0 = .ok (ascii "client_port=5000-5001") ∧
    Framed (ascii "client_port=5000-5001" ++ [0]) 0 {} (ascii "client_port=5000-5001") := by
  have hstring : string (ascii "client_port=5000-5001" ++ [0]) 0 =
      .ok (ascii "client_port=5000-5001") := by decide +kernel
  refine ⟨hstring, (framed_iff _ _ 0 hstring {}).2 ⟨?_, ?_, ?_⟩⟩
  · intro field hfield
    cases hfield
    exact .inl (by decide +kernel)
  · intro hssrc
    exact absurd hssrc (by decide)
  · intro field hfield
    cases hfield

/-- The number of `ssrc=` is stored in `ttl`; a port without its second and a pair of addresses are
rejected, and the first part stays. -/
theorem options_not_framed :
    ¬Framed (ascii "ssrc=5" ++ [0]) 0 {} (ascii "ssrc=5") ∧
    ¬Framed (ascii "client_port=5000" ++ [0]) 0 {} (ascii "client_port=5000") ∧
    ¬Framed (ascii "src_addr=1.2.3.4,1.2.3.4" ++ [0]) 0 {} (ascii "src_addr=1.2.3.4,1.2.3.4") := by
  refine ⟨?_, ?_, ?_⟩
  · rintro ⟨ok, t', hparse, hsame, -⟩
    have hread : ((parseTransportOption (ascii "ssrc=5" ++ [0]) {} 0).toOption.all
        fun r => r.2.ttl = 5) = true := by decide +kernel
    rw [hparse] at hread
    have httl : t'.ttl = 5 := of_decide_eq_true hread
    have hzero : (0 : ℤ) = t'.ttl := congrArg Transport.ttl hsame
    exact absurd (hzero.trans httl) (by decide)
  · rintro ⟨ok, t', hparse, -, hrejected⟩
    have hread : ((parseTransportOption (ascii "client_port=5000" ++ [0]) {} 0).toOption.all
        fun r => r.1 = false ∧ r.2.clientPort.1 = 5000) = true := by decide +kernel
    rw [hparse] at hread
    obtain ⟨rfl, hport⟩ : ok = false ∧ t'.clientPort.1 = 5000 := of_decide_eq_true hread
    rw [hrejected rfl] at hport
    exact absurd hport (by decide)
  · rintro ⟨ok, t', hparse, -, hrejected⟩
    have hread : ((parseTransportOption (ascii "src_addr=1.2.3.4,1.2.3.4" ++ [0]) {} 0).toOption.all
        fun r => r.1 = false ∧ r.2.srcAddr.1 0 = 1) = true := by decide +kernel
    rw [hparse] at hread
    obtain ⟨rfl, haddr⟩ : ok = false ∧ t'.srcAddr.1 0 = 1 := of_decide_eq_true hread
    rw [hrejected rfl] at haddr
    exact absurd haddr (by decide)

end Parser

end WifiAudio
