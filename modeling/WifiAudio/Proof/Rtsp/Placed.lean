import WifiAudio.Lib.Moved
import WifiAudio.Proof.Rtsp.Confined
import WifiAudio.Proof.Rtsp.Offer

/-!
# Whether a Transport header is read

`parse_transport` says whether it has got through its text. That depends on the text alone: not on
where it lies, nor on what is around it, nor on what the header has already.
-/

namespace WifiAudio

open CString Except

/-- The header without its transports. -/
def RtspHeader.bare (hdr : RtspHeader) : RtspHeader := { hdr with transport := fun _ => {} }

namespace Parser

variable {k q : ℕ} {m n m' : Bytes} {ok : Bool}

/-! ### One spec -/

theorem parseTransportOption_flag {t t' : Transport} (hcall : parseTransportOption m t q = .ok (ok, t')) :
    ∃ l, string m q = .ok l ∧ ok = understood l := by
  have hcompare := hcall
  rw [parseTransportOption] at hcompare
  obtain ⟨bin, hbin, -⟩ := bind_eq_ok.1 hcompare
  obtain ⟨same, hsame, -⟩ := bind_eq_ok.1 (show (strcmpEq m q _ >>= _) = .ok bin from hbin)
  obtain ⟨l, hl, -⟩ := bind_eq_ok.1 (show (string m q >>= _) = .ok same from hsame)
  refine ⟨l, hl, ?_⟩
  rw [parseTransportOption_string hl] at hcall
  rw [← optionOf_understood l (fun k => .at (q + k)) t]
  exact (congrArg Prod.fst (Except.ok.inj hcall)).symm

theorem parseTransportOption_moved (h : Moved k m n) {t t' : Transport}
    (hcall : parseTransportOption m t q = .ok (ok, t')) (u : Transport) :
    ∃ u', parseTransportOption n u (k + q) = .ok (ok, u') := by
  obtain ⟨l, hl, rfl⟩ := parseTransportOption_flag hcall
  rw [← h.string] at hl
  rw [parseTransportOption_string hl]
  refine ⟨_, congrArg Except.ok (Prod.ext ?_ rfl)⟩
  exact optionOf_understood l _ u

/-- The loop over the options, with at least as much fuel. -/
theorem readOptions_moved (h : Moved k m n) {f g : ℕ} (hfg : f ≤ g) {t t' : Transport}
    {save : Option ℕ} (hcall : readOptions f m t save = .ok (ok, t', m')) (u : Transport) :
    ∃ u' n', readOptions g n u (save.map (k + ·)) = .ok (ok, u', n') ∧ Moved k m' n' := by
  induction f generalizing g m n t save u with
  | zero => cases hcall
  | succ f ih =>
      obtain ⟨g, rfl⟩ := Nat.exists_eq_succ_of_ne_zero (show g ≠ 0 by omega)
      rw [readOptions] at hcall
      obtain ⟨⟨tok, stop, m₁⟩, htok, hcall⟩ := bind_eq_ok.1 hcall
      obtain ⟨n₁, htok', h₁⟩ := h.strtok_r htok
      rw [readOptions]
      simp only [Option.map_none] at htok'
      simp only [htok', ok_bind]
      cases tok with
      | none =>
          obtain ⟨rfl, -, rfl⟩ : true = ok ∧ t = t' ∧ m₁ = m' := by simpa using hcall
          exact ⟨u, n₁, rfl, h₁⟩
      | some s =>
          obtain ⟨⟨taken, t₁⟩, hoption, hcall⟩ := bind_eq_ok.1 hcall
          obtain ⟨u₁, hoption'⟩ := parseTransportOption_moved h₁ hoption u
          simp only [Option.map_some, hoption', ok_bind]
          cases taken with
          | false =>
              obtain ⟨rfl, -, rfl⟩ : false = ok ∧ t₁ = t' ∧ m₁ = m' := by simpa using hcall
              exact ⟨u₁, n₁, rfl, h₁⟩
          | true => exact ih h₁ (by omega) hcall u₁

private theorem protocol_rest_moved (h : Moved k m n) {save : Option ℕ} {t t' : Transport}
    (hcall : (do
      let (_, save, m) ← strtok_r m none slash save
      let (transport, _, m) ← strtok_r m none slash save
      return (setTransport t transport, m)) = Except.ok (ε := Fault) (t', m')) (u : Transport) :
    ∃ u' n', (do
      let (_, save, n) ← strtok_r n none slash (save.map (k + ·))
      let (transport, _, n) ← strtok_r n none slash save
      return (setTransport u transport, n)) = Except.ok (ε := Fault) (u', n') ∧ Moved k m' n' := by
  obtain ⟨⟨profile, save₁, m₁⟩, hone, hcall⟩ := bind_eq_ok.1 hcall
  obtain ⟨n₁, hone', h₁⟩ := h.strtok_r hone
  obtain ⟨⟨transport, save₂, m₂⟩, htwo, hcall⟩ := bind_eq_ok.1 hcall
  obtain ⟨n₂, htwo', h₂⟩ := h₁.strtok_r htwo
  obtain ⟨-, rfl⟩ : _ = t' ∧ m₂ = m' := by simpa using hcall
  simp only [Option.map_none] at hone' htwo'
  rw [hone']
  simp only [ok_bind, htwo']
  exact ⟨_, n₂, rfl, h₂⟩

theorem parseProtocol_moved (h : Moved k m n) {s : Option ℕ} {t t' : Transport}
    (hcall : parseProtocol m s t = .ok (t', m')) (u : Transport) :
    ∃ u' n', parseProtocol n (s.map (k + ·)) u = .ok (u', n') ∧ Moved k m' n' := by
  rw [parseProtocol] at hcall
  obtain ⟨⟨protocol, save, m₁⟩, htok, hcall⟩ := bind_eq_ok.1 hcall
  obtain ⟨n₁, htok', h₁⟩ := h.strtok_r htok
  simp only [Option.map_none] at htok'
  rw [parseProtocol, htok']
  simp only [ok_bind]
  cases protocol with
  | none => exact protocol_rest_moved h₁ hcall _
  | some p =>
      obtain ⟨isRtp, hrtp, hcall⟩ := bind_eq_ok.1 hcall
      have hrtp' : strcmpEq n₁ (k + p) (ascii "RTP") = .ok isRtp := (h₁.strcmpEq p _).trans hrtp
      simp only [Option.map_some, hrtp', ok_bind]
      exact protocol_rest_moved h₁ hcall _

theorem parseSpec_moved (h : Moved k m n) {line : ℕ} {t t' : Transport}
    (hcall : parseSpec m line t = .ok (ok, t', m')) (u : Transport) :
    ∃ u' n', parseSpec n (k + line) u = .ok (ok, u', n') ∧ Moved k m' n' := by
  rw [parseSpec] at hcall
  obtain ⟨⟨s, save, m₁⟩, htok, hcall⟩ := bind_eq_ok.1 hcall
  obtain ⟨n₁, htok', h₁⟩ := h.strtok_r htok
  obtain ⟨⟨t₂, m₂⟩, hprotocol, hcall⟩ := bind_eq_ok.1 hcall
  obtain ⟨u₂, n₂, hprotocol', h₂⟩ := parseProtocol_moved h₁ hprotocol (setDefaults u)
  have hfuel : m₂.length + 1 ≤ n₂.length + 1 := by
    rw [h₂.length_eq]
    omega
  obtain ⟨u₃, n₃, hoptions, h₃⟩ := readOptions_moved h₂ hfuel hcall u₂
  simp only [Option.map_some, Option.map_none] at htok'
  rw [parseSpec, htok']
  simp only [ok_bind, hprotocol', hoptions]
  exact ⟨u₃, n₃, rfl, h₃⟩

theorem parseSpecs_moved (h : Moved k m n) {specs : List (Fin maxTransports × ℕ)} {hdr hdr' : RtspHeader}
    (hcall : parseSpecs specs m hdr = .ok (ok, hdr', m')) (hdr₂ : RtspHeader) :
    ∃ hdr₂' n', parseSpecs (specs.map fun spec => (spec.1, k + spec.2)) n hdr₂ = .ok (ok, hdr₂', n') ∧
      Moved k m' n' := by
  induction specs generalizing m n hdr hdr₂ with
  | nil =>
      obtain ⟨rfl, -, rfl⟩ : true = ok ∧ hdr = hdr' ∧ m = m' := by simpa [parseSpecs] using hcall
      exact ⟨hdr₂, n, rfl, h⟩
  | cons spec rest ih =>
      obtain ⟨idx, line⟩ := spec
      rw [parseSpecs] at hcall
      obtain ⟨⟨taken, t, m₁⟩, hspec, hcall⟩ := bind_eq_ok.1 hcall
      obtain ⟨u, n₁, hspec', h₁⟩ := parseSpec_moved h hspec (hdr₂.transport idx)
      rw [List.map_cons, parseSpecs]
      simp only [hspec', ok_bind]
      cases taken with
      | false =>
          obtain ⟨rfl, -, rfl⟩ : false = ok ∧ _ = hdr' ∧ m₁ = m' := by simpa using hcall
          exact ⟨_, n₁, rfl, h₁⟩
      | true => exact ih h₁ hcall _

/-! ### The search for the specs -/

theorem trimSeparators_moved (h : Moved k m n) {prev si : ℕ}
    (hcall : trimSeparators m prev si = .ok m') :
    ∃ n', trimSeparators n (k + prev) si = .ok n' ∧ Moved k m' n' := by
  induction si generalizing m n with
  | zero =>
      obtain rfl := Except.ok.inj hcall
      exact ⟨n, rfl, h⟩
  | succ si ih =>
      rw [trimSeparators] at hcall ⊢
      obtain ⟨b, hb, hcall⟩ := bind_eq_ok.1 hcall
      have hb' : load n (k + (prev + (si + 1))) = .ok b := (h.load _).trans hb
      rw [Nat.add_assoc, hb']
      simp only [ok_bind]
      split at hcall
      case isTrue hsep =>
        obtain ⟨m₁, hstore, hcall⟩ := bind_eq_ok.1 hcall
        obtain ⟨n₁, hstore', h₁⟩ := h.store hstore
        rw [if_pos hsep, hstore']
        exact ih h₁ hcall
      case isFalse hsep =>
        obtain rfl := Except.ok.inj hcall
        rw [if_neg hsep]
        exact ⟨n, rfl, h⟩

theorem findSpecs_moved (h : Moved k m n) {ss c i : ℕ} {lines lines' : List ℕ}
    (hcall : findSpecs ss c i lines m = .ok (lines', m')) :
    ∃ n', findSpecs (k + ss) c i (lines.map (k + ·)) n = .ok (lines'.map (k + ·), n') ∧
      Moved k m' n' := by
  induction c generalizing i lines m n with
  | zero =>
      obtain ⟨rfl, rfl⟩ : lines = lines' ∧ m = m' := by simpa [findSpecs] using hcall
      exact ⟨n, rfl, h⟩
  | succ c ih =>
      rw [findSpecs] at hcall ⊢
      obtain ⟨isSpec, hspec, hcall⟩ := bind_eq_ok.1 hcall
      have hspec' : strncmpEq n (k + (ss + i)) (ascii "RTP/") = .ok isSpec :=
        (h.strncmpEq _ _).trans hspec
      rw [Nat.add_assoc, hspec']
      simp only [ok_bind]
      cases isSpec with
      | false => exact ih h hcall
      | true =>
          have hlines : lines.map (k + ·) ++ [k + (ss + i)] = (lines ++ [ss + i]).map (k + ·) := by
            rw [List.map_append, List.map_singleton]
          have hfound : ∀ m₁ n₁, Moved k m₁ n₁ →
              (if (lines ++ [ss + i]).length ≥ maxTransports then return (lines ++ [ss + i], m₁)
                else findSpecs ss c (i + 1) (lines ++ [ss + i]) m₁) = Except.ok (lines', m') →
              ∃ n', (if (lines.map (k + ·) ++ [k + (ss + i)]).length ≥ maxTransports
                  then return (lines.map (k + ·) ++ [k + (ss + i)], n₁)
                else findSpecs (k + ss) c (i + 1) (lines.map (k + ·) ++ [k + (ss + i)]) n₁) =
                  Except.ok (lines'.map (k + ·), n') ∧ Moved k m' n' := by
            intro m₁ n₁ h₁ hcall
            rw [hlines, List.length_map]
            split at hcall
            case isTrue hmany =>
              obtain ⟨rfl, rfl⟩ : _ = lines' ∧ m₁ = m' := by simpa using hcall
              rw [if_pos hmany]
              exact ⟨n₁, rfl, h₁⟩
            case isFalse hmany =>
              rw [if_neg hmany]
              exact ih h₁ hcall
          simp only [if_true, List.getLast?_map] at hcall ⊢
          cases hlast : lines.getLast? with
          | none =>
              rw [hlast] at hcall
              exact hfound m n h hcall
          | some prev =>
              rw [hlast] at hcall
              obtain ⟨m₁, htrim, hcall⟩ := bind_eq_ok.1 hcall
              obtain ⟨n₁, htrim', h₁⟩ := trimSeparators_moved h htrim
              have hsize : k + (ss + i) - (k + prev) - 1 = ss + i - prev - 1 := by omega
              simp only [Option.map_some, hsize, htrim', ok_bind]
              exact hfound m₁ n₁ h₁ hcall

theorem parseTransport_moved (h : Moved k m n) {ss : ℕ} {hdr hdr' : RtspHeader}
    (hcall : parseTransport m hdr (some ss) = .ok (ok, hdr', m')) (hdr₂ : RtspHeader) :
    ∃ hdr₂' n', parseTransport n hdr₂ (some (k + ss)) = .ok (ok, hdr₂', n') ∧ Moved k m' n' := by
  rw [parseTransport] at hcall ⊢
  obtain ⟨sz, hsz, hcall⟩ := bind_eq_ok.1 hcall
  obtain ⟨⟨lines, m₁⟩, hfind, hcall⟩ := bind_eq_ok.1 hcall
  obtain ⟨n₁, hfind', h₁⟩ := findSpecs_moved h hfind
  have hsz' : strlen n (k + ss) = .ok sz := by
    rw [strlen, h.string]
    exact hsz
  have hzip : (List.finRange maxTransports).zip (lines.map (k + ·)) =
      ((List.finRange maxTransports).zip lines).map fun spec => (spec.1, k + spec.2) := by
    rw [List.zip_map_right]
    rfl
  obtain ⟨hdr₂', n₂, hspecs, h₂⟩ := parseSpecs_moved h₁ hcall hdr₂
  simp only [List.map_nil] at hfind'
  simp only [hsz', ok_bind, hfind', hzip, hspecs]
  exact ⟨hdr₂', n₂, rfl, h₂⟩

/-! ### The header -/

/-- `parse_transport` gets through the text. -/
def transportRead (text : Bytes) : Bool :=
  ((parseTransport (text ++ [0]) {} (some 0)).toOption.map fun r => r.1).getD false

theorem parseSpecs_bare {specs : List (Fin maxTransports × ℕ)} {hdr hdr' : RtspHeader}
    (hcall : parseSpecs specs m hdr = .ok (ok, hdr', m')) : hdr'.bare = hdr.bare := by
  induction specs generalizing m hdr with
  | nil =>
      obtain ⟨-, rfl, -⟩ : true = ok ∧ hdr = hdr' ∧ m = m' := by simpa [parseSpecs] using hcall
      rfl
  | cons spec rest ih =>
      obtain ⟨idx, line⟩ := spec
      rw [parseSpecs] at hcall
      obtain ⟨⟨taken, t, m₁⟩, -, hcall⟩ := bind_eq_ok.1 hcall
      cases taken with
      | false =>
          obtain ⟨-, rfl, -⟩ : false = ok ∧ hdr.setTransport idx t = hdr' ∧ m₁ = m' := by
            simpa using hcall
          rfl
      | true =>
          have hrest : hdr'.bare = (hdr.setTransport idx t).bare := ih hcall
          exact hrest

theorem parseTransport_bare_eq {hdr hdr' : RtspHeader} {save : Option ℕ}
    (hcall : parseTransport m hdr save = .ok (ok, hdr', m')) : hdr'.bare = hdr.bare := by
  cases save with
  | none => cases hcall
  | some ss =>
      obtain ⟨sz, -, hcall⟩ := bind_eq_ok.1 hcall
      obtain ⟨r, -, hcall⟩ := bind_eq_ok.1 hcall
      exact parseSpecs_bare hcall

/-- A text of four characters is read wherever it lies, or nowhere. -/
theorem parseTransport_read {text : Bytes} (hlen : 4 ≤ text.length) {p : ℕ}
    (htext : string m p = .ok text) (hdr : RtspHeader) :
    ∃ hdr' m', parseTransport m hdr (some p) = .ok (transportRead text, hdr', m') ∧
      Kept p (p + text.length) m m' ∧ hdr'.bare = hdr.bare := by
  obtain ⟨hfree, back, hdrop⟩ := string_eq_ok.1 htext
  have halone : string (text ++ [0]) 0 = .ok text := string_eq_ok.2 ⟨hfree, [], rfl⟩
  -- the text alone in memory, and with what comes behind it
  have htwin : Twin 0 (0 + text.length) (text ++ [0]) (m.drop p) := by
    refine ⟨?_, string_ends halone⟩
    intro i _ hi
    rw [hdrop]
    by_cases hin : i < text.length
    · rw [List.getElem?_append_left hin, List.getElem?_append_left hin]
    · obtain rfl : i = text.length := by omega
      rw [List.getElem?_append_right le_rfl, List.getElem?_append_right le_rfl, Nat.sub_self]
      rfl
  obtain ⟨ok, hdr₁, m₁, n₁, hparse, hparse', -⟩ := parseTransport_confined hlen halone {} _ htwin
  have hp : p ≤ m.length := by
    by_contra hlong
    rw [List.drop_eq_nil_of_le (by omega)] at hdrop
    have hlength := congrArg List.length hdrop
    rw [List.length_append, List.length_cons, List.length_nil] at hlength
    omega
  obtain ⟨hdr₂, m₂, hmoved, -⟩ := parseTransport_moved (moved_drop hp) hparse' hdr
  have hread : transportRead text = ok := by
    rw [transportRead, hparse]
    rfl
  obtain ⟨ok', hdr₃, m₃, n₃, hcall, -, htwins⟩ :=
    parseTransport_confined hlen htext hdr m (.refl (string_ends htext))
  rw [Nat.add_zero, hcall] at hmoved
  obtain ⟨rfl, -⟩ := Prod.mk.inj (Except.ok.inj hmoved)
  rw [hread]
  exact ⟨hdr₃, m₃, hcall, htwins.left, parseTransport_bare_eq hcall⟩

end Parser

end WifiAudio
