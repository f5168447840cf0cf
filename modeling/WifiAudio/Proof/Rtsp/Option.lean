import WifiAudio.Lib.Region
import WifiAudio.Rtsp.Parser

/-!
# What a transport option does

An option is read where it lies, but what it does to the transport depends on its text alone; only the
text of a `mode=` stays in memory. `optionOf` is the option parser on texts, and `specOf` reads a whole
spec.
-/

namespace WifiAudio

open CString Except

namespace Parser

/-- The number a text starts with, and the text behind it. -/
def numberOf (base : ℕ) (l : Bytes) : ℤ × Bytes :=
  (toInt (strtoll l base).1, l.drop (strtoll l base).2)

/-- Every octet is the number the text starts with. -/
def addressOf (l : Bytes) (addr : IpAddr) : IpAddr :=
  (List.finRange 4).foldl (fun addr i => Function.update addr i (UInt8.ofInt (numberOf 10 l).1)) addr

def rangeOf (l : Bytes) (hdr : Transport) (field : OptionField (ℤ × ℤ)) : Bool × Transport :=
  let (first, behind) := numberOf 10 l
  let hdr := field.set (first, (field.get hdr).2) hdr
  if behind.headD 0 ≠ minus then (false, hdr)
  else (true, field.set ((field.get hdr).1, (numberOf 10 (behind.drop 1)).1) hdr)

def iprangeOf (l : Bytes) (hdr : Transport) (field : OptionField (IpAddr × IpAddr)) :
    Bool × Transport :=
  let behind := (numberOf 10 l).2
  let hdr := field.set (addressOf l (field.get hdr).1, (field.get hdr).2) hdr
  if behind.headD 0 ≠ comma then (false, hdr)
  else (true, field.set (addressOf (behind.drop 1) (field.get hdr).1, (field.get hdr).2) hdr)

/-- The first entry whose keyword the text starts with. -/
def fieldOf {α : Type} (fields : List (OptionField α)) (l : Bytes) : Option (OptionField α) :=
  fields.find? fun field => field.cmd.isPrefixOf l

/-- The option `l`; `behind k` points to its text behind the first `k` characters. -/
def optionOf (l : Bytes) (behind : ℕ → CharPtr) (hdr : Transport) : Bool × Transport :=
  match bins.find? fun bin => l == bin.1.cmd with
  | some (field, value) => (true, field.set value hdr)
  | none =>
  match fieldOf ranges l with
  | some field => rangeOf (l.drop field.cmd.length) hdr field
  | none =>
  match fieldOf texts l with
  | some field => (true, field.set (behind field.cmd.length) hdr)
  | none =>
  match fieldOf numbers l with
  | some field => (true, field.set (numberOf 0 (l.drop field.cmd.length)).1 hdr)
  | none =>
  match fieldOf ips l with
  | some field => (true, field.set (addressOf (l.drop field.cmd.length) (field.get hdr)) hdr)
  | none =>
  match fieldOf iprange l with
  | some field => iprangeOf (l.drop field.cmd.length) hdr field
  | none => (false, hdr)

/-! ### The code on a string -/

variable {m l : Bytes} {p : ℕ}

theorem getNumber_string (hstring : string m p = .ok l) (base : ℕ) :
    ∃ stop, getNumber m (some p) base = .ok (some ((numberOf base l).1, stop)) ∧
      string m stop = .ok (numberOf base l).2 := by
  refine ⟨_, ?_, string_drop hstring (strtoll_length_le l base)⟩
  rw [getNumber, hstring]
  rfl

theorem getIpaddr_string (hstring : string m p = .ok l) (is : List (Fin 4)) (addr : IpAddr)
    (stop : Option ℕ) :
    ∃ stop', getIpaddr m (some p) is addr stop = .ok (true, is.foldl
        (fun addr i => Function.update addr i (UInt8.ofInt (numberOf 10 l).1)) addr, stop') ∧
      ((is ≠ [] ∨ ∃ s, stop = some s ∧ string m s = .ok (numberOf 10 l).2) →
        ∃ s, stop' = some s ∧ string m s = .ok (numberOf 10 l).2) := by
  induction is generalizing addr stop with
  | nil =>
      refine ⟨stop, rfl, ?_⟩
      rintro (hne | hstop)
      · exact absurd rfl hne
      · exact hstop
  | cons i is ih =>
      obtain ⟨after, hnumber, hafter⟩ := getNumber_string hstring 10
      obtain ⟨stop', heq, hstop'⟩ :=
        ih (Function.update addr i (UInt8.ofInt (numberOf 10 l).1)) (some after)
      refine ⟨stop', ?_, fun _ => hstop' (.inr ⟨after, rfl, hafter⟩)⟩
      rw [getIpaddr, hnumber]
      exact heq

theorem getAddress_string (hstring : string m p = .ok l) (addr : IpAddr) (stop : Option ℕ) :
    ∃ s, getIpaddr m (some p) (List.finRange 4) addr stop = .ok (true, addressOf l addr, some s) ∧
      string m s = .ok (numberOf 10 l).2 := by
  obtain ⟨stop', haddr, hstop⟩ := getIpaddr_string hstring (List.finRange 4) addr stop
  have hfour : List.finRange 4 ≠ [] := by decide
  obtain ⟨s, rfl, hs⟩ := hstop (.inl hfour)
  exact ⟨s, haddr, hs⟩

theorem parseBin_string (hstring : string m p = .ok l) (hdr : Transport)
    (fields : List (OptionField Bool × Bool)) : parseBin m hdr p fields =
      .ok ((fields.find? fun bin => l == bin.1.cmd).map fun bin => bin.1.set bin.2 hdr) := by
  induction fields with
  | nil => rfl
  | cons bin rest ih =>
      rw [parseBin, strcmpEq, hstring, List.find?_cons]
      simp only [ok_bind, pure_eq_ok]
      cases l == bin.1.cmd with
      | true => rfl
      | false => exact ih

theorem findField_string {α : Type} {fields : List (OptionField α)} (hstring : string m p = .ok l)
    (hfields : ∀ field ∈ fields, 0 ∉ field.cmd) : findField m p fields = .ok (fieldOf fields l) := by
  induction fields with
  | nil => rfl
  | cons field rest ih =>
      rw [findField, strncmpEq_string (hfields field List.mem_cons_self) hstring, fieldOf,
        List.find?_cons]
      simp only [ok_bind]
      cases field.cmd.isPrefixOf l with
      | true => rfl
      | false => exact ih fun field' hfield => hfields field' (List.mem_cons_of_mem field hfield)

theorem parseRange_string (hstring : string m p = .ok l) (hdr : Transport)
    (field : OptionField (ℤ × ℤ)) : parseRange m hdr p field = .ok (rangeOf l hdr field) := by
  obtain ⟨stop, hnumber, hstop⟩ := getNumber_string hstring 10
  rw [parseRange, hnumber, rangeOf]
  simp only [ok_bind, load_string hstop]
  by_cases hminus : (numberOf 10 l).2.headD 0 = minus
  · have hone : 1 ≤ (numberOf 10 l).2.length := by
      by_contra hshort
      rw [List.length_eq_zero_iff.1 (show (numberOf 10 l).2.length = 0 by omega)] at hminus
      exact absurd hminus (by decide)
    obtain ⟨stop', hnumber', -⟩ := getNumber_string (string_drop hstop hone) 10
    simp only [hminus, ne_eq, not_true_eq_false, if_false, hnumber', ok_bind]
    rfl
  · simp only [ne_eq, hminus, not_false_eq_true, if_true]
    rfl

theorem parseIprange_string (hstring : string m p = .ok l) (hdr : Transport)
    (field : OptionField (IpAddr × IpAddr)) :
    parseIprange m hdr p field = .ok (iprangeOf l hdr field) := by
  obtain ⟨stop, haddr, hstop⟩ := getAddress_string hstring (field.get hdr).1 none
  rw [parseIprange, haddr, iprangeOf]
  simp only [ok_bind, Bool.not_true, Bool.false_eq_true, if_false, load_string hstop]
  by_cases hcomma : (numberOf 10 l).2.headD 0 = comma
  · have hone : 1 ≤ (numberOf 10 l).2.length := by
      by_contra hshort
      rw [List.length_eq_zero_iff.1 (show (numberOf 10 l).2.length = 0 by omega)] at hcomma
      exact absurd hcomma (by decide)
    obtain ⟨stop', haddr', -⟩ := getAddress_string (string_drop hstop hone)
      (field.get (field.set (addressOf l (field.get hdr).1, (field.get hdr).2) hdr)).1 (some stop)
    simp only [hcomma, ne_eq, not_true_eq_false, if_false, haddr', ok_bind]
    rfl
  · simp only [ne_eq, hcomma, not_false_eq_true, if_true]
    rfl

theorem keywords_noNul : (∀ field ∈ ranges, 0 ∉ field.cmd) ∧ (∀ field ∈ texts, 0 ∉ field.cmd) ∧
    (∀ field ∈ numbers, 0 ∉ field.cmd) ∧ (∀ field ∈ ips, 0 ∉ field.cmd) ∧
    ∀ field ∈ iprange, 0 ∉ field.cmd := by
  simp only [ranges, texts, numbers, ips, iprange, List.forall_mem_cons, List.not_mem_nil,
    false_implies, implies_true, and_true]
  decide

theorem fieldOf_length {α : Type} {fields : List (OptionField α)} {field : OptionField α}
    (h : fieldOf fields l = some field) : field.cmd.length ≤ l.length := by
  rw [fieldOf] at h
  have hstarts : field.cmd.isPrefixOf l = true := by simpa using List.find?_some h
  exact (List.isPrefixOf_iff_prefix.1 hstarts).length_le

theorem parseTransportOption_string (hstring : string m p = .ok l) (hdr : Transport) :
    parseTransportOption m hdr p = .ok (optionOf l (fun k => .at (p + k)) hdr) := by
  obtain ⟨hranges, htexts, hnumbers, hips, hiprange⟩ := keywords_noNul
  rw [parseTransportOption, optionOf, parseBin_string hstring]
  cases bins.find? fun bin => l == bin.1.cmd with
  | some bin => rfl
  | none =>
  simp only [Option.map_none, ok_bind]
  rw [findField_string hstring hranges]
  cases hrange : fieldOf ranges l with
  | some field =>
      have hrest := string_drop hstring (fieldOf_length hrange)
      simp only [ok_bind, parseRange_string hrest, pure_eq_ok]
  | none =>
  simp only [ok_bind]
  rw [findField_string hstring htexts]
  cases htext : fieldOf texts l with
  | some field => rfl
  | none =>
  simp only [ok_bind]
  rw [findField_string hstring hnumbers]
  cases hnumber : fieldOf numbers l with
  | some field =>
      have hrest := string_drop hstring (fieldOf_length hnumber)
      obtain ⟨stop, hread, -⟩ := getNumber_string hrest 0
      simp only [ok_bind, hread, pure_eq_ok]
  | none =>
  simp only [ok_bind]
  rw [findField_string hstring hips]
  cases hip : fieldOf ips l with
  | some field =>
      have hrest := string_drop hstring (fieldOf_length hip)
      obtain ⟨stop, hread, -⟩ := getAddress_string hrest (field.get hdr) none
      simp only [ok_bind, hread, pure_eq_ok]
  | none =>
  simp only [ok_bind]
  rw [findField_string hstring hiprange]
  cases hiprange : fieldOf iprange l with
  | some field =>
      have hrest := string_drop hstring (fieldOf_length hiprange)
      simp only [ok_bind, parseIprange_string hrest, pure_eq_ok]
  | none => rfl

end Parser

end WifiAudio
