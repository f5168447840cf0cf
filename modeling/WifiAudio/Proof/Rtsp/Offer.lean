import WifiAudio.Rtsp.Request
import WifiAudio.Proof.Rtsp.Specs

/-!
# The transports a client offers

A spec offers what its options say, whether or not the server understands all of them (`offerOf`). The
parser gives up at the first option it does not understand, so it may read less of a spec than it
offers, and it does not see the specs behind that one. `ReadRight` says when the port it finds is that
of the first supported spec all the same.
-/

namespace WifiAudio

open CString Except

/-- RTP over UDP, unicast, in the mode PLAY, with both client ports. -/
structure Transport.Supported (t : Transport) : Prop where
  unicast : t.unicast = true
  rtp : t.rtp = true
  mode : t.mode = .literal (ascii "PLAY")
  transport : t.transport = .literal (ascii "UDP")
  ports : t.clientPort.1 ≠ 0 ∧ t.clientPort.2 ≠ 0

namespace Transport

theorem supported_iff {t : Transport} : t.Supported ↔ t.unicast = true ∧ t.rtp = true ∧
    t.mode = .literal (ascii "PLAY") ∧ t.transport = .literal (ascii "UDP") ∧
      t.clientPort.1 ≠ 0 ∧ t.clientPort.2 ≠ 0 := by
  constructor
  · intro h
    exact ⟨h.unicast, h.rtp, h.mode, h.transport, h.ports⟩
  · rintro ⟨hunicast, hrtp, hmode, htransport, hports⟩
    exact ⟨hunicast, hrtp, hmode, htransport, hports⟩

instance (t : Transport) : Decidable t.Supported := decidable_of_iff _ supported_iff.symm

/-- The first client port of a supported transport. -/
def offered (t : Transport) : Option ℤ := if t.Supported then some t.clientPort.1 else none

end Transport

namespace Parser

/-- The server understands the option. -/
def understood (option : Bytes) : Bool :=
  (optionOf option (fun k => .literal (option.drop k)) {}).1

def applyOption (t : Transport) (option : Bytes) : Transport :=
  (optionOf option (fun k => .literal (option.drop k)) t).2

/-- The options of the spec `s`. -/
def options (s : Bytes) : List Bytes := (tokens semicolon s).tail

/-- The part `RTP/AVP/UDP` of the spec `s`, with the defaults of the options. -/
def protocol (s : Bytes) : Transport := protocolOf ((tokens semicolon s).headD []) (setDefaults {})

/-- What the spec `s` offers: an option that is not understood says nothing. -/
def offerOf (s : Bytes) : Transport := ((options s).filter understood).foldl applyOption (protocol s)

/-- The options up to the first one that is not understood. -/
def readable (options : List Bytes) : List Bytes :=
  options.takeWhile understood ++ (options.dropWhile understood).take 1

/-- What is read of the spec `s`. -/
def offerRead (s : Bytes) : Transport := (readable (options s)).foldl applyOption (protocol s)

/-- The port of the first supported spec. -/
def firstPort (specs : List Bytes) : Option ℤ := specs.findSome? fun s => (offerOf s).offered

/-- A last spec that is nothing but `RTP/` is not found: it stays part of the spec in front of it. -/
def unfound : List (Bytes × Bytes) → Bytes
  | [(sep, s)] => if s = ascii "RTP/" then sep ++ s else []
  | _ => []

/-- The specs as the search finds them. -/
def found : List (Bytes × Bytes) → List (Bytes × Bytes)
  | [] => []
  | (sep, s) :: rest =>
      if rest = [] ∧ s = ascii "RTP/" then [] else (sep, s ++ unfound rest) :: found rest

/-- Reading the specs one after another comes to a supported one before anything is not understood;
or what is read of the spec where that happens offers what the specs from it on offer. -/
def ReadRight : List (Bytes × Bytes) → Prop
  | [] => True
  | (_, s) :: rest =>
      if (options s).all understood ∧ unfound rest = [] then (offerOf s).Supported ∨ ReadRight rest
      else (offerRead (s ++ unfound rest)).offered = firstPort (s :: rest.map Prod.snd)

/-- A header's list of specs, each with the separators in front of it: every `RTP/` starts a spec, and
the spaces and commas behind a spec are separators. -/
inductive Offers : List (Bytes × Bytes) → Prop
  | last {sep s : Bytes} (hsep : ∀ b ∈ sep, b = space ∨ b = comma) (hstart : ascii "RTP/" <+: s)
      (honce : ¬ascii "RTP/" <:+: s.drop 1) : Offers [(sep, s)]
  | cons {sep s sep' s' : Bytes} {rest : List (Bytes × Bytes)}
      (hsep : ∀ b ∈ sep, b = space ∨ b = comma) (hstart : ascii "RTP/" <+: s)
      (honce : ¬ascii "RTP/" <:+: s.drop 1) (hne : sep' ≠ [])
      (hends : ∀ b ∈ s.getLast?, b ≠ space ∧ b ≠ comma) (hrest : Offers ((sep', s') :: rest)) :
      Offers ((sep, s) :: (sep', s') :: rest)

/-- The specs behind the first space of the list. -/
def seen : List (Bytes × Bytes) → List (Bytes × Bytes)
  | [] => []
  | (sep, s) :: rest =>
      if space ∈ sep then (past space sep, s) :: rest
      else if space ∈ s then rest
      else seen rest

/-! ### The options -/

theorem rangeOf_fst (l : Bytes) (t t' : Transport) (field : OptionField (ℤ × ℤ)) :
    (rangeOf l t field).1 = (rangeOf l t' field).1 := by
  unfold rangeOf
  simp only []
  split <;> rfl

theorem iprangeOf_fst (l : Bytes) (t t' : Transport) (field : OptionField (IpAddr × IpAddr)) :
    (iprangeOf l t field).1 = (iprangeOf l t' field).1 := by
  unfold iprangeOf
  simp only []
  split <;> rfl

theorem optionOf_understood (l : Bytes) (behind : ℕ → CharPtr) (t : Transport) :
    (optionOf l behind t).1 = understood l := by
  unfold understood optionOf
  cases bins.find? fun bin => l == bin.1.cmd with
  | some bin => rfl
  | none =>
  simp only []
  cases fieldOf ranges l with
  | some field => exact rangeOf_fst _ _ _ _
  | none =>
  simp only []
  cases fieldOf texts l with
  | some field => rfl
  | none =>
  simp only []
  cases fieldOf numbers l with
  | some field => rfl
  | none =>
  simp only []
  cases fieldOf ips l with
  | some field => rfl
  | none =>
  simp only []
  cases fieldOf iprange l with
  | some field => exact iprangeOf_fst _ _ _ _
  | none => rfl

theorem optionsOf_eq (words : List Bytes) (t : Transport) :
    optionsOf words t = (words.all understood, (readable words).foldl applyOption t) := by
  induction words generalizing t with
  | nil => rfl
  | cons w words ih =>
      have htaken : (optionOf w (fun k => .literal (w.drop k)) t).1 = understood w :=
        optionOf_understood w _ t
      rw [optionsOf]
      simp only [htaken]
      cases hw : understood w with
      | true =>
          rw [if_pos rfl, List.all_cons, hw, Bool.true_and, readable, List.takeWhile_cons_of_pos hw,
            List.dropWhile_cons_of_pos hw]
          exact ih _
      | false =>
          have hneg : ¬understood w = true := by rw [hw]; exact Bool.false_ne_true
          rw [List.all_cons, hw, Bool.false_and, readable, List.takeWhile_cons_of_neg hneg,
            List.dropWhile_cons_of_neg hneg]
          rfl

theorem specOf_eq (l : Bytes) : specOf l {} = ((options l).all understood, offerRead l) :=
  optionsOf_eq _ _

theorem offerRead_of_understood {s : Bytes} (h : (options s).all understood = true) :
    offerRead s = offerOf s := by
  have hall : ∀ w ∈ options s, understood w = true := List.all_eq_true.1 h
  rw [offerRead, offerOf, readable, List.filter_eq_self.2 hall, List.takeWhile_eq_self_iff.2 hall,
    List.dropWhile_eq_nil_iff.2 hall, List.take_nil, List.append_nil]

/-! ### The choice -/

/-- The port `setup` finds in what is read of the texts. -/
def choice : List Bytes → Option ℤ
  | [] => none
  | l :: rest => (offerRead l).offered.or (if (options l).all understood then choice rest else none)

theorem found_of_unfound {rest : List (Bytes × Bytes)} (h : unfound rest ≠ []) : found rest = [] := by
  cases rest with
  | nil => exact absurd rfl h
  | cons next rest =>
      obtain ⟨sep, s⟩ := next
      cases rest with
      | cons _ _ => exact absurd rfl h
      | nil =>
          rw [unfound] at h
          rw [found]
          split at h
          · exact if_pos ⟨rfl, ‹_›⟩
          · exact absurd rfl h

theorem firstPort_cons (s : Bytes) (rest : List Bytes) :
    firstPort (s :: rest) = (offerOf s).offered.or (firstPort rest) := by
  rw [firstPort, List.findSome?_cons]
  cases (offerOf s).offered <;> rfl

/-- `setup` finds the port of the first supported spec exactly when the specs are read right. -/
theorem choice_found_iff (specs : List (Bytes × Bytes)) :
    choice ((found specs).map Prod.snd) = firstPort (specs.map Prod.snd) ↔ ReadRight specs := by
  induction specs with
  | nil => exact iff_of_true rfl trivial
  | cons spec rest ih =>
      obtain ⟨sep, s⟩ := spec
      by_cases hbare : rest = [] ∧ s = ascii "RTP/"
      · obtain ⟨rfl, rfl⟩ := hbare
        have hread : (options (ascii "RTP/")).all understood ∧ unfound [] = [] := by decide +kernel
        have hport : firstPort [ascii "RTP/"] = none := by decide +kernel
        rw [ReadRight, if_pos hread]
        exact iff_of_true hport.symm (.inr trivial)
      · rw [found, if_neg hbare, ReadRight, List.map_cons, List.map_cons, choice]
        by_cases hread : (options s).all understood ∧ unfound rest = []
        · -- the spec is read as it is meant
          have hunfound := hread.2
          have hall := hread.1
          simp only [hunfound, List.append_nil, hall, if_true, and_self, offerRead_of_understood hall]
          rw [firstPort_cons]
          by_cases hsupported : (offerOf s).Supported
          · refine iff_of_true ?_ (.inl hsupported)
            rw [Transport.offered, if_pos hsupported]
            rfl
          · rw [Transport.offered, if_neg hsupported, or_iff_right hsupported]
            exact ih
        · -- nothing behind it is read
          have hlast : (if (options (s ++ unfound rest)).all understood
              then choice ((found rest).map Prod.snd) else none) = none := by
            by_cases hunfound : unfound rest = []
            · rw [hunfound, List.append_nil, if_neg fun hall => hread ⟨hall, hunfound⟩]
            · rw [found_of_unfound hunfound]
              exact ite_self none
          simp only [hlast, Option.or_none, if_neg hread]

/-! ### The entries -/

theorem CharPtr.string_of_resolve {ptr : CharPtr} {m l : Bytes} (h : ptr.resolve m = .literal l) :
    ptr.string m = .ok l := by
  cases ptr with
  | null => cases h
  | literal l' =>
      obtain rfl := CharPtr.literal.inj h
      rfl
  | «at» p =>
      rw [CharPtr.resolve] at h
      split at h
      · obtain rfl := CharPtr.literal.inj h
        assumption
      · cases h

theorem usable_resolve {m : Bytes} {t : Transport} (hliteral : Literal (t.resolve m)) :
    RtspHandler.usable m t = .ok (decide (t.resolve m).Supported) := by
  obtain ⟨transport, mode, htransport, hmode⟩ := hliteral
  have hread : t.transport.string m = .ok transport := CharPtr.string_of_resolve htransport
  have hread' : t.mode.string m = .ok mode := CharPtr.string_of_resolve hmode
  have hsupported : decide (t.resolve m).Supported = decide (t.unicast = true ∧ t.rtp = true ∧
      mode = ascii "PLAY" ∧ transport = ascii "UDP" ∧ t.clientPort.1 ≠ 0 ∧ t.clientPort.2 ≠ 0) := by
    rw [decide_eq_decide, Transport.supported_iff, hmode, htransport, CharPtr.literal.injEq,
      CharPtr.literal.injEq]
    rfl
  rw [hsupported, RtspHandler.usable, hread, hread']
  simp only [ok_bind, pure_eq_ok]
  cases t.unicast <;> cases t.rtp <;> try rfl
  by_cases hplay : mode = ascii "PLAY"
  · by_cases hudp : transport = ascii "UDP"
    · by_cases hfirst : t.clientPort.1 = 0
      · simp [hplay, hudp, hfirst]
      · by_cases hsecond : t.clientPort.2 = 0
        · simp [hplay, hudp, hfirst, hsecond]
        · simp [hplay, hudp, hfirst, hsecond]
    · simp [hplay, hudp]
  · simp [hplay]

theorem usable_fresh {m : Bytes} {t : Transport} (h : t.resolve m = {}) :
    RtspHandler.usable m t = .ok false := by
  have hunicast : t.unicast = false := congrArg Transport.unicast h
  rw [RtspHandler.usable, hunicast]
  rfl

theorem findTransport_none {m : Bytes} {hdrs : RtspHeader} {places : List (Fin maxTransports)}
    (h : ∀ i ∈ places, (hdrs.transport i).resolve m = {}) :
    RtspHandler.findTransport m hdrs places = .ok none := by
  induction places with
  | nil => rfl
  | cons i rest ih =>
      rw [RtspHandler.findTransport, usable_fresh (h i List.mem_cons_self)]
      exact ih fun j hj => h j (List.mem_cons_of_mem i hj)

theorem specsOf_of_not_mem {list : List (Fin maxTransports × Bytes)} {i : Fin maxTransports}
    (hi : i ∉ list.map Prod.fst) (t : Fin maxTransports → Transport) : (specsOf list t).2 i = t i := by
  induction list generalizing t with
  | nil => rfl
  | cons entry rest ih =>
      obtain ⟨j, l⟩ := entry
      obtain ⟨hne, hrest⟩ := not_or.1 (mt List.mem_cons.2 hi)
      rw [specsOf]
      simp only []
      split
      · rw [ih hrest, Function.update_of_ne hne]
      · exact Function.update_of_ne hne _ t

/-- `setup` chooses among the entries as they were read. -/
theorem findTransport_choice {m : Bytes} {hdrs : RtspHeader} {places : List (Fin maxTransports)}
    (hnodup : places.Nodup) {texts : List Bytes} (hlength : texts.length ≤ places.length)
    {t : Fin maxTransports → Transport} (hfresh : ∀ i ∈ places, t i = {})
    (hentries : ∀ i ∈ places, (hdrs.transport i).resolve m = (specsOf (places.zip texts) t).2 i) :
    ∃ found, RtspHandler.findTransport m hdrs places = .ok found ∧
      found.map (fun t => t.clientPort.1) = choice texts := by
  induction places generalizing texts t with
  | nil =>
      obtain rfl := List.eq_nil_of_length_eq_zero (Nat.le_zero.1 hlength)
      exact ⟨none, rfl, rfl⟩
  | cons i rest ih =>
      obtain ⟨hi, hnodup⟩ := List.nodup_cons.1 hnodup
      have hrest : ∀ j ∈ rest, j ≠ i := by
        rintro j hj rfl
        exact hi hj
      cases texts with
      | nil =>
          refine ⟨none, findTransport_none ?_, rfl⟩
          intro j hj
          rw [hentries j hj]
          exact hfresh j hj
      | cons l texts =>
          have hfresh' : t i = {} := hfresh i List.mem_cons_self
          have hnot : i ∉ (rest.zip texts).map Prod.fst := by
            intro hin
            obtain ⟨⟨j, l'⟩, hmem, rfl⟩ := List.mem_map.1 hin
            exact hi (List.of_mem_zip hmem).1
          simp only [List.zip_cons_cons, specsOf, hfresh', specOf_eq] at hentries
          have hentry : (hdrs.transport i).resolve m = offerRead l := by
            rw [hentries i List.mem_cons_self]
            split
            · rw [specsOf_of_not_mem hnot, Function.update_self]
            · exact Function.update_self i _ t
          have hliteral : Literal ((hdrs.transport i).resolve m) := by
            have hspec := specOf_literal l {}
            rw [specOf_eq] at hspec
            rwa [hentry]
          have hport := congrArg Transport.clientPort hentry
          change (hdrs.transport i).clientPort = _ at hport
          rw [RtspHandler.findTransport, usable_resolve hliteral, hentry, choice, Transport.offered]
          simp only [ok_bind]
          by_cases hsupported : (offerRead l).Supported
          · rw [if_pos (decide_eq_true hsupported), if_pos hsupported]
            refine ⟨some (hdrs.transport i), rfl, ?_⟩
            rw [Option.map_some, hport]
            rfl
          · rw [if_neg (mt of_decide_eq_true hsupported), if_neg hsupported, Option.none_or]
            cases hall : (options l).all understood with
            | true =>
                rw [if_pos rfl]
                simp only [hall, if_true] at hentries
                apply ih hnodup (Nat.le_of_succ_le_succ hlength) _ fun j hj =>
                  hentries j (List.mem_cons_of_mem i hj)
                intro j hj
                rw [Function.update_of_ne (hrest j hj)]
                exact hfresh j (List.mem_cons_of_mem i hj)
            | false =>
                rw [if_neg Bool.false_ne_true]
                simp only [hall, Bool.false_eq_true, if_false] at hentries
                refine ⟨none, findTransport_none ?_, rfl⟩
                intro j hj
                rw [hentries j (List.mem_cons_of_mem i hj), Function.update_of_ne (hrest j hj)]
                exact hfresh j (List.mem_cons_of_mem i hj)

/-! ### The header -/

theorem joined_found {specs : List (Bytes × Bytes)} (hbare : specs.map Prod.snd ≠ [ascii "RTP/"]) :
    joined (found specs) = joined specs := by
  induction specs with
  | nil => rfl
  | cons spec rest ih =>
      obtain ⟨sep, s⟩ := spec
      have hnot : ¬(rest = [] ∧ s = ascii "RTP/") := by
        rintro ⟨rfl, rfl⟩
        exact hbare rfl
      rw [found, if_neg hnot, joined_cons, joined_cons, List.append_assoc]
      by_cases hunfound : unfound rest = []
      · rw [hunfound, List.nil_append, ih]
        intro hlast
        cases rest with
        | nil => cases hlast
        | cons next rest =>
            obtain ⟨hnext, hrest⟩ := List.cons.inj hlast
            obtain ⟨sep', s'⟩ := next
            obtain rfl := List.map_eq_nil_iff.1 hrest
            obtain rfl : s' = ascii "RTP/" := hnext
            rw [unfound, if_pos rfl] at hunfound
            exact absurd (List.append_eq_nil_iff.1 hunfound).2 (by decide)
      · rw [found_of_unfound hunfound]
        cases rest with
        | nil => exact absurd rfl hunfound
        | cons next rest =>
            obtain ⟨sep', s'⟩ := next
            cases rest with
            | cons _ _ => exact absurd rfl hunfound
            | nil =>
                rw [unfound] at hunfound ⊢
                split at hunfound
                · rw [if_pos ‹_›, joined_cons, joined, List.flatMap_nil, List.append_nil, List.append_nil]
                · exact absurd rfl hunfound

variable {specs : List (Bytes × Bytes)}

theorem Offers.separators (h : Offers specs) {spec : Bytes × Bytes} (hspec : spec ∈ specs.head?) :
    ∀ b ∈ spec.1, b = space ∨ b = comma := by
  cases h with
  | last hsep =>
      obtain rfl := Option.some.inj hspec
      exact hsep
  | cons hsep =>
      obtain rfl := Option.some.inj hspec
      exact hsep

theorem Offers.long {sep s : Bytes} {rest : List (Bytes × Bytes)} (h : Offers ((sep, s) :: rest))
    (hbare : ¬(rest = [] ∧ s = ascii "RTP/")) : 4 < (s ++ joined rest).length := by
  have hrtp : (ascii "RTP/").length = 4 := rfl
  rw [List.length_append]
  cases h with
  | last _ hstart =>
      have hle := hstart.length_le
      refine Nat.lt_of_lt_of_le (lt_of_le_of_ne hle ?_) (Nat.le_add_right _ _)
      intro hlength
      exact hbare ⟨rfl, (hstart.eq_of_length hlength).symm⟩
  | cons _ hstart _ hne _ =>
      have hle := hstart.length_le
      have hpos := List.length_pos_iff.2 hne
      rw [joined_cons, List.length_append]
      omega

theorem Offers.listed (h : Offers specs) : Listed (found specs) := by
  induction h with
  | @last sep s hsep hstart honce =>
      by_cases hbare : s = ascii "RTP/"
      · rw [found, if_pos ⟨rfl, hbare⟩]
        exact .nil
      · have hlong := (Offers.last hsep hstart honce).long fun hcond => hbare hcond.2
        have hunfound : unfound [] = [] := rfl
        rw [found, if_neg fun hcond => hbare hcond.2, hunfound, List.append_nil]
        refine .cons hsep hstart hlong ?_ (by simp [found]) .nil
        intro k hk _ _ hstarts
        obtain ⟨k, rfl⟩ := Nat.exists_eq_add_of_le hk
        rw [← List.drop_drop] at hstarts
        exact honce (hstarts.isInfix.trans (List.drop_suffix _ _).isInfix)
  | @cons sep s sep' s' rest hsep hstart honce hne hends hrest ih =>
      have hbare : ¬((sep', s') :: rest = [] ∧ s = ascii "RTP/") := fun hcond => by cases hcond.1
      have hlong := (Offers.cons hsep hstart honce hne hends hrest).long hbare
      have hfree : ∀ k, 0 < k → ¬ascii "RTP/" <+: s.drop k := by
        intro k hk hstarts
        obtain ⟨k, rfl⟩ := Nat.exists_eq_add_of_le hk
        rw [← List.drop_drop] at hstarts
        exact honce (hstarts.isInfix.trans (List.drop_suffix _ _).isInfix)
      rw [found, if_neg hbare]
      by_cases hlast : rest = [] ∧ s' = ascii "RTP/"
      · -- the last spec is not found
        obtain ⟨rfl, rfl⟩ := hlast
        have hunfound : unfound [(sep', ascii "RTP/")] = sep' ++ ascii "RTP/" := by
          rw [unfound, if_pos rfl]
        have hnone : found [(sep', ascii "RTP/")] = [] := if_pos ⟨rfl, rfl⟩
        have hlong' : 4 < (s ++ (sep' ++ ascii "RTP/") ++ joined []).length := by
          simpa [joined] using hlong
        rw [hunfound, hnone]
        refine .cons hsep (hstart.trans (List.prefix_append _ _)) hlong' ?_ (by simp) .nil
        intro k hk _ hfit
        have hlt : k < s.length + sep'.length := by
          simp only [joined, List.flatMap_nil, List.append_nil, List.length_append] at hfit
          have hrtp : (ascii "RTP/").length = 4 := rfl
          omega
        rw [← List.append_assoc]
        exact not_starts_between (hrest.separators rfl) hne hlt fun _ => hfree k hk
      · have hunfound : unfound ((sep', s') :: rest) = [] := by
          cases rest with
          | cons _ _ => rfl
          | nil => exact if_neg fun hs => hlast ⟨rfl, hs⟩
        have hjoined : joined (found ((sep', s') :: rest)) = joined ((sep', s') :: rest) := by
          apply joined_found
          intro hsingle
          obtain ⟨hs, hrest⟩ := List.cons.inj hsingle
          exact hlast ⟨List.map_eq_nil_iff.1 hrest, hs⟩
        rw [hunfound, List.append_nil]
        refine .cons hsep hstart (by rw [hjoined]; exact hlong) (fun k hk _ _ => hfree k hk) ?_ ih
        intro next hnext
        rw [found, if_neg hlast] at hnext
        obtain rfl := Option.some.inj hnext
        exact ⟨hne, hends⟩

theorem length_found (specs : List (Bytes × Bytes)) : (found specs).length ≤ specs.length := by
  induction specs with
  | nil => exact le_rfl
  | cons spec rest ih =>
      obtain ⟨sep, s⟩ := spec
      rw [found]
      split
      · exact Nat.zero_le _
      · exact Nat.succ_le_succ ih

/-- With a place for each spec every piece is one spec. -/
theorem cut_eq {c : ℕ} {s : Bytes} {rest : List (Bytes × Bytes)} (hcount : rest.length ≤ c) :
    cut c s rest = s :: rest.map Prod.snd := by
  induction c generalizing s rest with
  | zero =>
      obtain rfl := List.eq_nil_of_length_eq_zero (Nat.le_zero.1 hcount)
      rw [cut, joined, List.flatMap_nil, List.append_nil]
      rfl
  | succ c ih =>
      cases rest with
      | nil => rfl
      | cons next rest => exact congrArg (List.cons s) (ih (Nat.le_of_succ_le_succ hcount))

/-- Nothing is found in a header that ends where its only spec would start. -/
theorem parseTransport_bare {m sep : Bytes} {p : ℕ} (hsep : ∀ b ∈ sep, b = space ∨ b = comma)
    (hstring : string m p = .ok (sep ++ ascii "RTP/")) (hdr : RtspHeader) :
    parseTransport m hdr (some p) = .ok (true, hdr, m) := by
  have hlength : (sep ++ ascii "RTP/").length = sep.length + 4 := List.length_append
  have hbound : sizeSub (sep ++ ascii "RTP/").length 4 = sep.length + 0 := by
    rw [hlength]
    exact if_pos (Nat.le_add_left 4 _)
  have hskip : findSpecs p (sep.length + 0) 0 [] m = _ := findSpecs_skip hstring (by omega) (by
    intro k hk
    have hne : sep ≠ [] := List.length_pos_iff.1 (by omega)
    exact not_starts_between (s := []) hsep hne (by simpa using hk) (by simp))
  rw [parseTransport, strlen, hstring]
  simp only [pure_eq_ok, ok_bind, hbound, hskip]
  rfl

/-- Where the text `l` of a Transport header is parsed, `setup` finds this port, whatever happens outside
the text before it looks. -/
def Gives (l : Bytes) (port : Option ℤ) : Prop :=
  ∀ (m : Bytes) (p : ℕ) (hdr : RtspHeader), string m p = .ok l → hdr.transport = (fun _ => {}) →
    ∃ ok hdr' m', parseTransport m hdr (some p) = .ok (ok, hdr', m') ∧ Kept p (p + l.length) m m' ∧
      ∀ (n : Bytes) (hdr'' : RtspHeader), hdr''.transport = hdr'.transport →
        (∀ i, p ≤ i → i ≤ p + l.length → n[i]? = m'[i]?) →
        ∃ t, RtspHandler.findTransport n hdr'' (List.finRange maxTransports) = .ok t ∧
          t.map (fun t => t.clientPort.1) = port

theorem gives_none {l : Bytes}
    (hparse : ∀ (m : Bytes) (p : ℕ) (hdr : RtspHeader), string m p = .ok l →
      parseTransport m hdr (some p) = .ok (true, hdr, m)) : Gives l none := by
  intro m p hdr hstring hfresh
  refine ⟨true, hdr, m, hparse m p hdr hstring, .refl m, ?_⟩
  intro n hdr'' hsame _
  refine ⟨none, findTransport_none ?_, rfl⟩
  intro i _
  rw [hsame, hfresh]
  rfl

/-- A header that lists at most three specs: `setup` finds the port `choice` gives. -/
theorem Offers.gives (hoffers : Offers specs) (hcount : specs.length ≤ maxTransports) :
    Gives (joined specs) (choice ((found specs).map Prod.snd)) := by
  by_cases hbare : specs.map Prod.snd = [ascii "RTP/"]
  · obtain ⟨⟨sep, s⟩, rfl, rfl⟩ := List.map_eq_singleton_iff.1 hbare
    have hsep := hoffers.separators rfl
    have hnone : found [(sep, ascii "RTP/")] = [] := if_pos ⟨rfl, rfl⟩
    rw [joined_cons, joined, List.flatMap_nil, List.append_nil, hnone]
    exact gives_none fun m p hdr hstring => parseTransport_bare hsep hstring hdr
  · have hjoined := joined_found hbare
    have hlisted := hoffers.listed
    have hlength := (length_found specs).trans hcount
    cases hfound : found specs with
    | nil =>
        rw [hfound] at hjoined
        cases hoffers with
        | last hsep hstart =>
            obtain ⟨u, rfl⟩ := hstart
            simp [joined, ascii] at hjoined
        | cons hsep hstart =>
            obtain ⟨u, rfl⟩ := hstart
            simp [joined, ascii] at hjoined
    | cons spec rest =>
        obtain ⟨sep, s⟩ := spec
        rw [hfound] at hjoined hlisted hlength
        rw [← hjoined, joined_cons]
        intro m p hdr hstring hfresh
        obtain ⟨hdr', m', hparse, hkept, hentries, -⟩ := parseTransport_text hlisted hstring hdr
        rw [cut_eq (Nat.le_of_succ_le_succ hlength), hfresh] at hparse hentries
        refine ⟨_, hdr', m', hparse, hkept, ?_⟩
        intro n hdr'' hsame hn
        apply findTransport_choice (List.nodup_finRange _) ?_ (fun _ _ => rfl)
        · intro i _
          rw [hsame]
          obtain ⟨hafter, hbefore⟩ | hread := hentries i
          · rw [hafter]
            exact hbefore.symm
          · exact hread n hn
        · rw [List.length_finRange, List.length_map]
          exact hlength

/-! ### Behind the first space -/

theorem Offers.starts (h : Offers specs) {spec : Bytes × Bytes} (hspec : spec ∈ specs.head?) :
    ascii "RTP/" <+: spec.2 ∧ ¬ascii "RTP/" <:+: spec.2.drop 1 := by
  cases h with
  | last _ hstart honce =>
      obtain rfl := Option.some.inj hspec
      exact ⟨hstart, honce⟩
  | cons _ hstart honce =>
      obtain rfl := Option.some.inj hspec
      exact ⟨hstart, honce⟩

theorem Offers.reseparate {sep sep' s : Bytes} {rest : List (Bytes × Bytes)}
    (h : Offers ((sep, s) :: rest)) (hsep : ∀ b ∈ sep', b = space ∨ b = comma) :
    Offers ((sep', s) :: rest) := by
  cases h with
  | last _ hstart honce => exact .last hsep hstart honce
  | cons _ hstart honce hne hends hrest => exact .cons hsep hstart honce hne hends hrest

theorem Offers.tail {spec : Bytes × Bytes} {rest : List (Bytes × Bytes)} (h : Offers (spec :: rest)) :
    rest = [] ∨ Offers rest := by
  cases h with
  | last => exact .inl rfl
  | cons _ _ _ _ _ hrest => exact .inr hrest

/-- Behind the first space are the rest of a spec, in which none starts, and the specs behind it. -/
theorem Offers.past_space (h : Offers specs) : ∃ junk,
    past space (joined specs) = junk ++ joined (seen specs) ∧
    (∀ k < junk.length, ¬ascii "RTP/" <+: (junk ++ joined (seen specs)).drop k) ∧
    (seen specs = [] ∨ Offers (seen specs)) ∧ (seen specs).length ≤ specs.length := by
  induction specs with
  | nil => exact ⟨[], rfl, fun k hk => absurd hk (Nat.not_lt_zero k), .inl rfl, le_rfl⟩
  | cons spec rest ih =>
      obtain ⟨sep, s⟩ := spec
      have hsep := h.separators rfl
      obtain ⟨hstart, honce⟩ := h.starts rfl
      rw [joined_cons, seen]
      by_cases hspace : space ∈ sep
      · refine ⟨[], ?_, fun k hk => absurd hk (Nat.not_lt_zero k), .inr ?_, ?_⟩ <;> rw [if_pos hspace]
        · rw [past_of_mem hspace, List.nil_append, joined_cons]
        · apply h.reseparate
          intro b hb
          exact hsep b (List.mem_of_mem_tail ((past_suffix space sep).mem hb))
        · exact le_rfl
      · rw [past_of_not_mem hspace, if_neg hspace]
        by_cases hin : space ∈ s
        · have hjunk : past space s <:+ s.drop 1 := by
            rw [List.drop_one]
            exact past_suffix space s
          refine ⟨past space s, ?_, ?_, ?_, ?_⟩ <;> rw [if_pos hin]
          · exact past_of_mem hin _
          · intro k hk hstarts
            have hfree : ∀ k, ¬ascii "RTP/" <+: (past space s).drop k := fun k hstarts =>
              honce (hstarts.isInfix.trans ((List.drop_suffix _ _).trans hjunk).isInfix)
            cases h with
            | last =>
                rw [joined, List.flatMap_nil, List.append_nil] at hstarts
                exact hfree k hstarts
            | @cons _ _ sep' s' _ _ _ _ hne _ hrest =>
                rw [joined_cons, ← List.append_assoc] at hstarts
                exact not_starts_between (hrest.separators rfl) hne (Nat.lt_add_right _ hk)
                  (fun _ => hfree k) hstarts
          · exact h.tail
          · exact Nat.le_succ _
        · rw [past_of_not_mem hin, if_neg hin]
          obtain hnil | hrest := h.tail
          · subst hnil
            exact ⟨[], rfl, fun k hk => absurd hk (Nat.not_lt_zero k), .inl rfl, Nat.zero_le _⟩
          · obtain ⟨junk, hpast, hfree, hoffers, hlength⟩ := ih hrest
            exact ⟨junk, hpast, hfree, hoffers, hlength.trans (Nat.le_succ _)⟩

theorem findSpecs_shift (p k n i : ℕ) (lines : List ℕ) (m : Bytes) :
    findSpecs p n (k + i) lines m = findSpecs (p + k) n i lines m := by
  induction n generalizing i lines m with
  | zero => rfl
  | succ n ih =>
      rw [findSpecs, findSpecs]
      simp only [Nat.add_assoc, ih]

theorem parseTransport_shift {junk l m : Bytes} {p : ℕ}
    (hstring : string m p = .ok (junk ++ l)) (hlong : 4 ≤ l.length)
    (hfree : ∀ k < junk.length, ¬ascii "RTP/" <+: (junk ++ l).drop k) (hdr : RtspHeader) :
    parseTransport m hdr (some p) = parseTransport m hdr (some (p + junk.length)) := by
  have hrest : string m (p + junk.length) = .ok l := by
    rw [string_drop hstring (by simp), List.drop_left]
  have hbound : sizeSub (junk ++ l).length 4 = junk.length + sizeSub l.length 4 := by
    rw [List.length_append, sizeSub, sizeSub, if_pos (by omega), if_pos hlong]
    omega
  have hskip : findSpecs p (junk.length + sizeSub l.length 4) 0 [] m = _ :=
    findSpecs_skip hstring (by simp) hfree
  rw [parseTransport, parseTransport, strlen, strlen, hstring, hrest]
  simp only [pure_eq_ok, ok_bind, hbound, hskip, Nat.zero_add]
  rw [← findSpecs_shift, Nat.add_zero]

/-- What is read of a list whose first space is not in front: the specs behind it. -/
theorem Offers.gives_seen (hoffers : Offers specs) (hcount : specs.length ≤ maxTransports)
    (hlong : 4 ≤ (past space (joined specs)).length) :
    Gives (past space (joined specs)) (choice ((found (seen specs)).map Prod.snd)) := by
  obtain ⟨junk, hpast, hfree, hnil | hseen, hlength⟩ := hoffers.past_space
  · rw [hpast, hnil] at hlong ⊢
    rw [hnil] at hfree
    refine gives_none ?_
    intro m p hdr hstring
    have hbound : sizeSub (junk ++ joined []).length 4 = (junk ++ joined []).length - 4 + 0 :=
      if_pos hlong
    have hskip : findSpecs p ((junk ++ joined []).length - 4 + 0) 0 [] m = _ :=
      findSpecs_skip hstring (Nat.sub_le _ _) (by
        intro k hk
        apply hfree
        rw [joined, List.flatMap_nil, List.append_nil] at hk
        omega)
    rw [parseTransport, strlen, hstring]
    simp only [pure_eq_ok, ok_bind, hbound, hskip]
    rfl
  · rw [hpast]
    intro m p hdr hstring hfresh
    have hfour : 4 ≤ (joined (seen specs)).length := by
      cases hspecs : seen specs with
      | nil => rw [hspecs] at hseen; cases hseen
      | cons spec rest =>
          rw [hspecs] at hseen
          have hle := (hseen.starts rfl).1.length_le
          have hrtp : (ascii "RTP/").length = 4 := rfl
          rw [joined_cons, List.length_append, List.length_append]
          omega
    have hrest : string m (p + junk.length) = .ok (joined (seen specs)) := by
      rw [string_drop hstring (by simp), List.drop_left]
    obtain ⟨ok, hdr', m', hparse, hkept, hfinds⟩ := hseen.gives (hlength.trans hcount) m _ hdr hrest hfresh
    have hend : p + junk.length + (joined (seen specs)).length =
        p + (junk ++ joined (seen specs)).length := by
      rw [List.length_append, Nat.add_assoc]
    rw [hend] at hkept hfinds
    refine ⟨ok, hdr', m', (parseTransport_shift hstring hfour hfree hdr).trans hparse,
      hkept.mono (Nat.le_add_right _ _) le_rfl, ?_⟩
    intro n hdr'' hsame hn
    exact hfinds n hdr'' hsame fun i hlow hhigh => hn i ((Nat.le_add_right _ _).trans hlow) hhigh

end Parser

end WifiAudio
