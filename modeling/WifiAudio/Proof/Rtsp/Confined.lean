import WifiAudio.Proof.Rtsp.Option
import WifiAudio.Proof.Rtsp.Scrub

/-!
# The reach of a Transport header

`parse_transport` is given the text behind `Transport:` and works in place. Its tokenisers and the
option parser stay inside the text, whatever it is. The loop that looks for the specs runs over
`strlen - 4` places, which is a number close to 2^32 for a text of less than four characters.
-/

namespace WifiAudio

open CString Except

namespace Parser

variable {p e q : ℕ} {m n : Bytes}

/-! ### One spec -/

theorem parseTransportOption_twin (h : Twin p e m n) (hp : p ≤ q) (he : q ≤ e) (hdr : Transport) :
    ∃ r, parseTransportOption m hdr q = .ok r ∧ parseTransportOption n hdr q = .ok r := by
  obtain ⟨l, hm, hn, -⟩ := h.string hp he
  exact ⟨_, parseTransportOption_string hm hdr, parseTransportOption_string hn hdr⟩

theorem readOptions_twin (h : Twin p e m n) (hp : p ≤ q) (he : q ≤ e) {f g : ℕ} (hf : e - q < f)
    (hg : e - q < g) (hdr : Transport) :
    ∃ ok hdr' m' n', readOptions f m hdr (some q) = .ok (ok, hdr', m') ∧
      readOptions g n hdr (some q) = .ok (ok, hdr', n') ∧ Twins p e m n m' n' := by
  induction f generalizing g m n q hdr with
  | zero => exact absurd hf (Nat.not_lt_zero _)
  | succ f ih =>
      cases g with
      | zero => exact absurd hg (Nat.not_lt_zero _)
      | succ g =>
          obtain ⟨tok, stop, m₁, n₁, hm, hn, htwins, hlow, hhigh, htok, -⟩ :=
            h.strtok_r (show ((none : Option ℕ) <|> some q) = some q from rfl) hp he semicolon
          rw [readOptions, readOptions, hm, hn]
          simp only [ok_bind]
          cases tok with
          | none => exact ⟨true, hdr, m₁, n₁, rfl, rfl, htwins⟩
          | some t =>
              obtain ⟨hqt, htstop⟩ := htok t rfl
              obtain ⟨⟨ok, hdr'⟩, hoption, hoption'⟩ :=
                parseTransportOption_twin htwins.twin (show p ≤ t by omega) (by omega) hdr
              simp only [hoption, hoption', ok_bind]
              cases ok with
              | false => exact ⟨false, hdr', m₁, n₁, rfl, rfl, htwins⟩
              | true =>
                  obtain ⟨ok, hdr'', m₂, n₂, hm₂, hn₂, htwins₂⟩ :=
                    ih htwins.twin (show p ≤ stop by omega) hhigh (by omega)
                      (show e - stop < g by omega) hdr'
                  exact ⟨ok, hdr'', m₂, n₂, hm₂, hn₂, htwins.trans htwins₂⟩

theorem parseProtocol_twin (h : Twin p e m n) (hp : p ≤ q) (he : q ≤ e) (hdr : Transport) :
    ∃ hdr' m' n', parseProtocol m (some q) hdr = .ok (hdr', m') ∧
      parseProtocol n (some q) hdr = .ok (hdr', n') ∧ Twins p e m n m' n' := by
  obtain ⟨protocol, stop, m₁, n₁, hm₁, hn₁, htwins₁, hlow₁, hhigh₁, hprotocol, -⟩ :=
    h.strtok_r (show ((some q : Option ℕ) <|> none) = some q from rfl) hp he slash
  obtain ⟨profile, stop₂, m₂, n₂, hm₂, hn₂, htwins₂, hlow₂, hhigh₂, -, -⟩ :=
    htwins₁.twin.strtok_r (show ((none : Option ℕ) <|> some stop) = some stop from rfl)
      (show p ≤ stop by omega) hhigh₁ slash
  obtain ⟨transport, stop₃, m₃, n₃, hm₃, hn₃, htwins₃, -, -, -, -⟩ :=
    htwins₂.twin.strtok_r (show ((none : Option ℕ) <|> some stop₂) = some stop₂ from rfl)
      (show p ≤ stop₂ by omega) hhigh₂ slash
  have htwins := (htwins₁.trans htwins₂).trans htwins₃
  rw [parseProtocol, parseProtocol, hm₁, hn₁]
  simp only [ok_bind]
  cases protocol with
  | none =>
      simp only [pure_eq_ok, ok_bind, hm₂, hn₂, hm₃, hn₃]
      exact ⟨_, m₃, n₃, rfl, rfl, htwins⟩
  | some t =>
      obtain ⟨hqt, htstop⟩ := hprotocol t rfl
      obtain ⟨isRtp, hrtp, hrtp'⟩ :=
        htwins₁.twin.strcmpEq (show p ≤ t by omega) (by omega) (ascii "RTP")
      simp only [pure_eq_ok, ok_bind, hrtp, hrtp', hm₂, hn₂, hm₃, hn₃]
      exact ⟨_, m₃, n₃, rfl, rfl, htwins⟩

theorem parseSpec_twin (h : Twin p e m n) (hp : p ≤ q) (he : q ≤ e) (hstart : m[q]? = some 82)
    (hdr : Transport) :
    ∃ ok hdr' m' n', parseSpec m q hdr = .ok (ok, hdr', m') ∧
      parseSpec n q hdr = .ok (ok, hdr', n') ∧ Twins p e m n m' n' := by
  obtain ⟨tok, stop, m₁, n₁, hm₁, hn₁, htwins₁, hlow, hhigh, -, hfirst⟩ :=
    h.strtok_r (show ((some q : Option ℕ) <|> none) = some q from rfl) hp he semicolon
  obtain rfl := hfirst 82 hstart (by decide) (by decide)
  obtain ⟨hdr₁, m₂, n₂, hm₂, hn₂, htwins₂⟩ := parseProtocol_twin htwins₁.twin hp he (setDefaults hdr)
  have hlt := htwins₂.twin.in_bounds
  have hlt' := (htwins₂.twin.symm (hp.trans he)).in_bounds
  obtain ⟨ok, hdr₂, m₃, n₃, hm₃, hn₃, htwins₃⟩ := readOptions_twin htwins₂.twin
    (show p ≤ stop by omega) hhigh (show e - stop < m₂.length + 1 by omega)
    (show e - stop < n₂.length + 1 by omega) hdr₁
  refine ⟨ok, hdr₂, m₃, n₃, ?_, ?_, (htwins₁.trans htwins₂).trans htwins₃⟩
  · rw [parseSpec, hm₁]
    simp only [ok_bind, hm₂, hm₃]
  · rw [parseSpec, hn₁]
    simp only [ok_bind, hn₂, hn₃]

theorem parseSpecs_twin (h : Twin p e m n) {specs : List (Fin maxTransports × ℕ)}
    (hspecs : ∀ spec ∈ specs, p ≤ spec.2 ∧ spec.2 ≤ e ∧ m[spec.2]? = some 82) (hdr : RtspHeader) :
    ∃ ok hdr' m' n', parseSpecs specs m hdr = .ok (ok, hdr', m') ∧
      parseSpecs specs n hdr = .ok (ok, hdr', n') ∧ Twins p e m n m' n' := by
  induction specs generalizing m n hdr with
  | nil => exact ⟨true, hdr, m, n, rfl, rfl, h.twins⟩
  | cons spec rest ih =>
      obtain ⟨hp, he, hstart⟩ := hspecs spec List.mem_cons_self
      obtain ⟨ok, t, m₁, n₁, hm₁, hn₁, htwins⟩ :=
        parseSpec_twin h hp he hstart (hdr.transport spec.1)
      rw [parseSpecs, parseSpecs, hm₁, hn₁]
      simp only [ok_bind]
      cases ok with
      | false => exact ⟨false, _, m₁, n₁, rfl, rfl, htwins⟩
      | true =>
          have hcut : Cut m m₁ := parseSpec_cut m spec.2 _ _ hm₁
          have hrest : ∀ spec' ∈ rest, p ≤ spec'.2 ∧ spec'.2 ≤ e ∧ m₁[spec'.2]? = some 82 := by
            intro spec' hmem
            obtain ⟨hp', he', hstart'⟩ := hspecs spec' (List.mem_cons_of_mem spec hmem)
            exact ⟨hp', he', hcut.keeps hstart' (not_separator_R _)⟩
          obtain ⟨ok, hdr', m₂, n₂, hm₂, hn₂, htwins₂⟩ := ih htwins.twin hrest _
          exact ⟨ok, hdr', m₂, n₂, hm₂, hn₂, htwins.trans htwins₂⟩

/-! ### The search for the specs -/

theorem trimSeparators_twin (h : Twin p e m n) {prev si : ℕ} (hp : p ≤ prev) (he : prev + si ≤ e) :
    ∃ m' n', trimSeparators m prev si = .ok m' ∧ trimSeparators n prev si = .ok n' ∧
      Twins p e m n m' n' := by
  induction si generalizing m n with
  | zero => exact ⟨m, n, rfl, rfl, h.twins⟩
  | succ si ih =>
      obtain ⟨b, hb, hm, hn⟩ := h.load (show p ≤ prev + (si + 1) by omega) he
      rw [trimSeparators, trimSeparators, hm, hn]
      simp only [ok_bind]
      by_cases hsep : b = space ∨ b = comma
      · have hne : b ≠ 0 := by
          rintro rfl
          exact absurd hsep (by decide)
        have hlt := h.lt_of_ne hb hne he
        obtain ⟨hstore, hstore'⟩ := h.store (show p ≤ prev + (si + 1) by omega) hlt
        have hset := h.set (show p ≤ prev + (si + 1) by omega) hlt 0
        obtain ⟨m', n', hm', hn', htwins⟩ := ih hset.twin (by omega)
        rw [if_pos hsep, if_pos hsep, hstore, hstore']
        exact ⟨m', n', hm', hn', hset.trans htwins⟩
      · rw [if_neg hsep, if_neg hsep]
        exact ⟨m, n, rfl, rfl, h.twins⟩

theorem findSpecs_twin (h : Twin p e m n) {k i : ℕ} (hi : p + i + k ≤ e + 1) {lines : List ℕ}
    (hlines : ∀ l ∈ lines, p ≤ l ∧ l ≤ e) (hfew : lines.length < maxTransports) :
    ∃ lines' m' n', findSpecs p k i lines m = .ok (lines', m') ∧
      findSpecs p k i lines n = .ok (lines', n') ∧ Twins p e m n m' n' ∧
      (∀ l ∈ lines', p ≤ l ∧ l ≤ e) ∧ lines'.length ≤ maxTransports := by
  induction k generalizing i lines m n with
  | zero => exact ⟨lines, m, n, rfl, rfl, h.twins, hlines, hfew.le⟩
  | succ k ih =>
      obtain ⟨isSpec, hm, hn, -⟩ := h.strncmpEq (show (0 : UInt8) ∉ ascii "RTP/" by decide)
        (Nat.le_add_right p i) (show p + i ≤ e by omega)
      rw [findSpecs, findSpecs, hm, hn]
      simp only [ok_bind]
      cases isSpec with
      | false => exact ih h (by omega) hlines hfew
      | true =>
          have hall : ∀ l ∈ lines ++ [p + i], p ≤ l ∧ l ≤ e := by
            intro l hl
            rw [List.mem_append, List.mem_singleton] at hl
            obtain hl | rfl := hl
            · exact hlines l hl
            · omega
          have hlength : (lines ++ [p + i]).length = lines.length + 1 := List.length_append
          have hfound : ∀ m₁ n₁, Twins p e m n m₁ n₁ → ∃ lines' m' n',
              (if (lines ++ [p + i]).length ≥ maxTransports then return (lines ++ [p + i], m₁)
                else findSpecs p k (i + 1) (lines ++ [p + i]) m₁) = .ok (lines', m') ∧
              (if (lines ++ [p + i]).length ≥ maxTransports then return (lines ++ [p + i], n₁)
                else findSpecs p k (i + 1) (lines ++ [p + i]) n₁) = .ok (lines', n') ∧
              Twins p e m n m' n' ∧ (∀ l ∈ lines', p ≤ l ∧ l ≤ e) ∧
              lines'.length ≤ maxTransports := by
            intro m₁ n₁ htwins
            by_cases hmany : (lines ++ [p + i]).length ≥ maxTransports
            · rw [if_pos hmany, if_pos hmany]
              exact ⟨_, m₁, n₁, rfl, rfl, htwins, hall, by omega⟩
            · rw [if_neg hmany, if_neg hmany]
              obtain ⟨lines', m₂, n₂, hm₂, hn₂, htwins₂, hall', hfew'⟩ :=
                ih htwins.twin (show p + (i + 1) + k ≤ e + 1 by omega) hall (by omega)
              exact ⟨lines', m₂, n₂, hm₂, hn₂, htwins.trans htwins₂, hall', hfew'⟩
          simp only [if_true]
          cases hlast : lines.getLast? with
          | none => exact hfound m n h.twins
          | some prev =>
              obtain ⟨hlow, hhigh⟩ := hlines prev (List.mem_of_getLast? hlast)
              obtain ⟨m₁, n₁, hm₁, hn₁, htwins⟩ :=
                trimSeparators_twin h hlow (show prev + (p + i - prev - 1) ≤ e by omega)
              simp only [hm₁, hn₁, ok_bind]
              exact hfound m₁ n₁ htwins

/-! ### The whole header -/

/-- `parse_transport`, given the text from `p` to its NUL at `e`, looks at nothing but that text and
writes nothing but its bytes: whatever stands around the text, it runs to its end, with the same
result, and leaves what is around as it is. -/
def TransportConfined (p e : ℕ) (m : Bytes) (hdr : RtspHeader) : Prop :=
  ∀ n, Twin p e m n → ∃ ok hdr' m' n', parseTransport m hdr (some p) = .ok (ok, hdr', m') ∧
    parseTransport n hdr (some p) = .ok (ok, hdr', n') ∧ Twins p e m n m' n'

/-- Four characters are enough for the loop's bound. -/
theorem parseTransport_confined {text : Bytes} (hlen : 4 ≤ text.length)
    (htext : string m p = .ok text) (hdr : RtspHeader) :
    TransportConfined p (p + text.length) m hdr := by
  intro n htwin
  have hbound : sizeSub text.length 4 = text.length - 4 := if_pos hlen
  have htext' : string n p = .ok text := by
    obtain ⟨l, hm, hn, -⟩ := htwin.string le_rfl (Nat.le_add_right p _)
    rwa [← Except.ok.inj (htext.symm.trans hm)] at hn
  obtain ⟨lines, m₁, n₁, hm₁, hn₁, htwins₁, hlines, -⟩ := findSpecs_twin htwin
    (show p + 0 + (text.length - 4) ≤ p + text.length + 1 by omega) (List.forall_mem_nil _) (by decide)
  obtain ⟨-, hstarts⟩ := findSpecs_cut p _ 0 [] m (by simp) (lines, m₁) hm₁
  have hspecs : ∀ spec ∈ (List.finRange maxTransports).zip lines,
      p ≤ spec.2 ∧ spec.2 ≤ p + text.length ∧ m₁[spec.2]? = some 82 := by
    intro spec hspec
    have hmem : spec.2 ∈ lines := (List.of_mem_zip hspec).2
    exact ⟨(hlines _ hmem).1, (hlines _ hmem).2, hstarts _ hmem⟩
  obtain ⟨ok, hdr', m₂, n₂, hm₂, hn₂, htwins₂⟩ := parseSpecs_twin htwins₁.twin hspecs hdr
  refine ⟨ok, hdr', m₂, n₂, ?_, ?_, htwins₁.trans htwins₂⟩
  · rw [parseTransport, strlen, htext]
    simp only [pure_eq_ok, ok_bind, hbound, hm₁, hm₂]
  · rw [parseTransport, strlen, htext']
    simp only [pure_eq_ok, ok_bind, hbound, hn₁, hn₂]

/-- Too short a text has no spec in it, and the loop runs on behind it. -/
theorem findSpecs_runs_out (h : Twin p e m n) (hshort : e < p + 4) (hends : n.length = e + 1)
    {k i : ℕ} (hi : p + i ≤ e + 1) (hk : e + 1 < p + i + k) :
    findSpecs p k i [] n = .error .outOfBounds := by
  induction k generalizing i with
  | zero => omega
  | succ k ih =>
      rw [findSpecs]
      by_cases hin : p + i ≤ e
      · obtain ⟨isSpec, -, hn, hmatch⟩ := h.strncmpEq (show (0 : UInt8) ∉ ascii "RTP/" by decide)
          (Nat.le_add_right p i) hin
        rw [hn]
        cases isSpec with
        | false => exact ih (by omega) (by omega)
        | true =>
            have hle : p + i + 4 ≤ e := hmatch rfl
            omega
      · have hnone : n[p + i]? = none := List.getElem?_eq_none (by omega)
        have hload : load n (p + i) = .error .outOfBounds := by rw [load, hnone]
        have hcompare : strncmpEq n (p + i) (82 :: [84, 80, 47]) = .error .outOfBounds := by
          rw [strncmpEq, hload]
          rfl
        change (strncmpEq n (p + i) (82 :: [84, 80, 47]) >>= _) = _
        rw [hcompare]
        rfl

theorem parseTransport_not_confined {text : Bytes} (hlen : text.length < 4)
    (htext : string m p = .ok text) (hdr : RtspHeader) :
    ¬TransportConfined p (p + text.length) m hdr := by
  intro hconfined
  have hend := string_ends htext
  obtain ⟨hin, -⟩ := List.getElem?_eq_some_iff.1 hend
  -- nothing behind the text
  have htwin : Twin p (p + text.length) m (m.take (p + text.length + 1)) := by
    refine ⟨?_, hend⟩
    intro i _ hi
    rw [List.getElem?_take, if_pos (by omega)]
  obtain ⟨ok, hdr', m', n', -, hn, -⟩ := hconfined _ htwin
  obtain ⟨l, hl, hl', -⟩ := htwin.string le_rfl (Nat.le_add_right p _)
  obtain rfl := Except.ok.inj (htext.symm.trans hl)
  have hsearch := findSpecs_runs_out htwin (by omega)
    (by rw [List.length_take, Nat.min_eq_left (by omega)])
    (k := sizeSub text.length 4) (i := 0) (by omega) (by rw [sizeSub, if_neg (by omega)]; omega)
  rw [parseTransport, strlen, hl'] at hn
  simp only [pure_eq_ok, ok_bind, hsearch] at hn
  cases hn

/-- `parse_transport` keeps to its text, with a search of at most `strlen` rounds and at most
`MAX_TRANSPORTS` specs, if and only if the text has four characters. -/
theorem transport_confined_iff (m : Bytes) (p : ℕ) (hdr : RtspHeader) (text : Bytes)
    (htext : string m p = .ok text) :
    (TransportConfined p (p + text.length) m hdr ∧ sizeSub text.length 4 ≤ text.length ∧
      ∀ lines m', findSpecs p (sizeSub text.length 4) 0 [] m = .ok (lines, m') →
        lines.length ≤ maxTransports) ↔
      4 ≤ text.length := by
  constructor
  · rintro ⟨hconfined, -, -⟩
    by_contra hlen
    exact parseTransport_not_confined (by omega) htext hdr hconfined
  · intro hlen
    have hbound : sizeSub text.length 4 = text.length - 4 := if_pos hlen
    refine ⟨parseTransport_confined hlen htext hdr, by omega, ?_⟩
    intro lines m' hfound
    obtain ⟨lines', m₁, -, hm₁, -, -, -, hfew⟩ := findSpecs_twin (.refl (string_ends htext))
      (show p + 0 + (text.length - 4) ≤ p + text.length + 1 by omega) (List.forall_mem_nil _) (by decide)
    rw [hbound, hm₁] at hfound
    cases hfound
    exact hfew

theorem transport_confined_one_spec :
    TransportConfined 0 7 (ascii "RTP/AVP" ++ [0]) {} ∧ sizeSub 7 4 ≤ 7 ∧
      ∀ lines m', findSpecs 0 (sizeSub 7 4) 0 [] (ascii "RTP/AVP" ++ [0]) = .ok (lines, m') →
        lines.length ≤ maxTransports :=
  (transport_confined_iff (ascii "RTP/AVP" ++ [0]) 0 {} (ascii "RTP/AVP") (by rfl)).2 (by decide)

/-- `Transport:` alone on its line: `read_headers` passes the empty text behind the name. -/
theorem empty_transport_not_confined :
    strtok_r (ascii "Transport:" ++ [0, 10, 13, 10]) (some 0) space none =
        .ok (some 0, some 10, ascii "Transport:" ++ [0, 10, 13, 10]) ∧
      string (ascii "Transport:" ++ [0, 10, 13, 10]) 10 = .ok [] ∧
      ¬TransportConfined 10 10 (ascii "Transport:" ++ [0, 10, 13, 10]) {} := by
  have htext : string (ascii "Transport:" ++ [0, 10, 13, 10]) 10 = .ok [] := by rfl
  exact ⟨by rfl, htext, parseTransport_not_confined (by decide) htext {}⟩

end Parser

end WifiAudio
