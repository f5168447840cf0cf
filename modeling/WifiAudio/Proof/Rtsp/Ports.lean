import WifiAudio.Lib.Decimal
import WifiAudio.Proof.Rtsp.Fields

/-!
# The client's ports

Among the options of a spec the last `client_port=` decides. Two decimal ports with a `-` between them
are read as what they are; `get_number` lets other texts pass as well, cuts what it read down to an
`int`, and `setup` only rejects 0.
-/

namespace WifiAudio

open CString Except

namespace Parser

/-- A decimal number between 1 and 65535. -/
def PortText (w : Bytes) : Prop := Digits w ∧ 1 ≤ digitsValue 10 w ∧ digitsValue 10 w ≤ 65535

def isClientPort (option : Bytes) : Bool := (ascii "client_port=").isPrefixOf option

/-- The texts of the client port options. -/
def portTexts (options : List Bytes) : List Bytes :=
  (options.filter isClientPort).map fun option => option.drop (ascii "client_port=").length

/-- The last client port option is written as the two ports. -/
structure PortsWritten (options : List Bytes) (first last : Bytes) : Prop where
  text_eq : (portTexts options).getLast? = some (first ++ minus :: last)
  first_port : PortText first
  last_port : PortText last

/-- The number at the start of a text, as the C library reads it, and what is behind it. -/
def number (w : Bytes) : ℤ := (strtoll w 10).1

def behindNumber (w : Bytes) : Bytes := w.drop (strtoll w 10).2

def isRange (w : Bytes) : Bool := (behindNumber w).headD 0 == minus

/-- Of the texts read one after another, the last one starts with a number that is `first` as an
`int`, and the last one with a `-` behind that number has one behind it that is `last`. -/
structure PortsLeft (texts : List Bytes) (first last : ℕ) : Prop where
  first_eq : ∃ w, texts.getLast? = some w ∧ number w % 2 ^ 32 = first
  last_eq : ∃ w, (texts.filter isRange).getLast? = some w ∧
    number ((behindNumber w).drop 1) % 2 ^ 32 = last

/-- The two ports when one more text is read. -/
def portsStep (ports : ℤ × ℤ) (w : Bytes) : ℤ × ℤ :=
  (toInt (number w), if isRange w then toInt (number ((behindNumber w).drop 1)) else ports.2)

variable {option first last : Bytes} {opts : List Bytes}

/-! ### One option -/

theorem set_other_port : (∀ bin ∈ bins, ∀ v t, (bin.1.set v t).clientPort = t.clientPort) ∧
    (∀ field ∈ ranges, field.cmd ≠ ascii "client_port=" → ∀ v t,
      (field.set v t).clientPort = t.clientPort) ∧
    (∀ field ∈ texts, ∀ v t, (field.set v t).clientPort = t.clientPort) ∧
    (∀ field ∈ numbers, ∀ v t, (field.set v t).clientPort = t.clientPort) ∧
    (∀ field ∈ ips, ∀ v t, (field.set v t).clientPort = t.clientPort) ∧
    ∀ field ∈ iprange, ∀ v t, (field.set v t).clientPort = t.clientPort := by
  simp only [bins, ranges, texts, numbers, ips, iprange, List.forall_mem_cons, List.not_mem_nil,
    false_implies, implies_true, and_true, ne_eq, not_true_eq_false]

/-- Only a client port option sets the client's ports. -/
theorem applyOption_other (hother : isClientPort option = false) (t : Transport) :
    (applyOption t option).clientPort = t.clientPort := by
  obtain ⟨hbins, hranges, htexts, hnumbers, hips, hiprange⟩ := set_other_port
  unfold applyOption optionOf
  cases hbin : bins.find? fun bin => option == bin.1.cmd with
  | some bin => exact hbins bin (List.mem_of_find?_eq_some hbin) _ _
  | none =>
  simp only []
  cases hrange : fieldOf ranges option with
  | some field =>
      have hcmd : field.cmd ≠ ascii "client_port=" := by
        intro hcmd
        have hstarts := List.find?_some hrange
        rw [hcmd] at hstarts
        exact absurd (hother.symm.trans hstarts) (by decide)
      have hset := hranges field (fieldOf_mem hrange) hcmd
      simp only [rangeOf]
      split
      · exact hset _ _
      · exact (hset _ _).trans (hset _ _)
  | none =>
  simp only []
  cases htext : fieldOf texts option with
  | some field => exact htexts field (fieldOf_mem htext) _ _
  | none =>
  simp only []
  cases hnumber : fieldOf numbers option with
  | some field => exact hnumbers field (fieldOf_mem hnumber) _ _
  | none =>
  simp only []
  cases hip : fieldOf ips option with
  | some field => exact hips field (fieldOf_mem hip) _ _
  | none =>
  simp only []
  cases hrange : fieldOf iprange option with
  | some field =>
      have hset := hiprange field (fieldOf_mem hrange)
      simp only [iprangeOf]
      split
      · exact hset _ _
      · exact (hset _ _).trans (hset _ _)
  | none => rfl

theorem applyOption_client (hport : isClientPort option = true) (t : Transport) :
    (applyOption t option).clientPort =
      portsStep t.clientPort (option.drop (ascii "client_port=").length) := by
  obtain ⟨value, rfl⟩ := List.isPrefixOf_iff_prefix.1 hport
  rw [List.drop_left]
  change (rangeOf value t
    ⟨ascii "client_port=", (·.clientPort), fun v t => { t with clientPort := v }⟩).2.clientPort = _
  unfold rangeOf portsStep isRange
  by_cases hrange : (behindNumber value).headD 0 = minus
  · rw [hrange]
    change (if (behindNumber value).headD 0 ≠ minus then _ else _ : Bool × Transport).2.clientPort = _
    rw [if_neg (not_not.2 hrange)]
    rfl
  · rw [if_neg (by simpa using hrange)]
    change (if (behindNumber value).headD 0 ≠ minus then _ else _ : Bool × Transport).2.clientPort = _
    rw [if_pos hrange]
    rfl

/-! ### The options of a spec -/

theorem foldl_clientPort (opts : List Bytes) (t : Transport) :
    (opts.foldl applyOption t).clientPort = (portTexts opts).foldl portsStep t.clientPort := by
  induction opts generalizing t with
  | nil => rfl
  | cons option opts ih =>
      rw [List.foldl_cons, ih, portTexts, portTexts]
      cases hport : isClientPort option with
      | true => rw [List.filter_cons_of_pos hport, List.map_cons, List.foldl_cons, applyOption_client hport]
      | false => rw [List.filter_cons_of_neg (by simp [hport]), applyOption_other hport]

theorem strtoll_port {w rest : Bytes} (hw : PortText w) (hrest : ∀ b ∈ rest.head?, isDigit 10 b = false) :
    toInt (number (w ++ rest)) = digitsValue 10 w ∧ behindNumber (w ++ rest) = rest := by
  obtain ⟨hdigits, -, hhigh⟩ := hw
  have hsmall : min (2 ^ 63 - 1) (digitsValue 10 w : ℤ) = digitsValue 10 w :=
    min_eq_right (by omega)
  constructor
  · rw [number, strtoll_digits hdigits hrest, hsmall, toInt, Int.bmod_eq_of_le (by omega) (by omega)]
  · rw [behindNumber, strtoll_digits hdigits hrest, List.drop_left]

theorem portsStep_written (hfirst : PortText first) (hlast : PortText last) (ports : ℤ × ℤ) :
    portsStep ports (first ++ minus :: last) =
      ((digitsValue 10 first : ℤ), (digitsValue 10 last : ℤ)) := by
  have hdash : ∀ b ∈ (minus :: last).head?, isDigit 10 b = false := by
    intro b hb
    obtain rfl := Option.some.inj hb
    rfl
  have hend : ∀ b ∈ ([] : Bytes).head?, isDigit 10 b = false := by simp
  obtain ⟨hone, hbehind⟩ := strtoll_port hfirst hdash
  obtain ⟨htwo, -⟩ := strtoll_port hlast hend
  rw [List.append_nil] at htwo
  simp only [portsStep, isRange, hone, hbehind, List.headD_cons, beq_self_eq_true, if_true,
    List.drop_succ_cons, List.drop_zero, htwo]

/-! ### The ports that are left -/

theorem foldl_portsStep (texts : List Bytes) (ports : ℤ × ℤ) :
    texts.foldl portsStep ports =
      ((texts.getLast?.map fun w => toInt (number w)).getD ports.1,
        ((texts.filter isRange).getLast?.map fun w =>
          toInt (number ((behindNumber w).drop 1))).getD ports.2) := by
  induction texts using List.reverseRecOn with
  | nil => rfl
  | append_singleton texts w ih =>
      rw [List.foldl_append, ih, List.foldl_cons, List.foldl_nil, portsStep, List.getLast?_concat,
        List.filter_append]
      cases hrange : isRange w with
      | true =>
          rw [List.filter_cons_of_pos hrange, List.filter_nil, List.getLast?_concat]
          rfl
      | false =>
          rw [List.filter_cons_of_neg (by simp [hrange]), List.filter_nil, List.append_nil]
          rfl

theorem toInt_eq_iff {v : ℤ} {n : ℕ} (hn : n < 2 ^ 31) : toInt v = n ↔ v % 2 ^ 32 = n := by
  rw [toInt, Int.bmod_def]
  split <;> omega

/-- Which ports are left by the texts read into a new entry. -/
theorem foldl_portsStep_iff {texts : List Bytes} {first last : ℕ} (hfirst : 1 ≤ first ∧ first ≤ 65535)
    (hlast : 1 ≤ last ∧ last ≤ 65535) :
    texts.foldl portsStep (0, 0) = ((first : ℤ), (last : ℤ)) ↔ PortsLeft texts first last := by
  have hone : ∀ {α : Type} (w : Option α) (f : α → ℤ) {n : ℕ}, 1 ≤ n ∧ n ≤ 65535 →
      ((w.map fun v => toInt (f v)).getD 0 = (n : ℤ) ↔ ∃ v, w = some v ∧ f v % 2 ^ 32 = n) := by
    intro α w f n hn
    cases w with
    | none =>
        refine iff_of_false ?_ (by simp)
        intro hzero
        have hzero : (0 : ℤ) = n := hzero
        omega
    | some v =>
        refine (toInt_eq_iff (by omega)).trans ?_
        simp
  rw [foldl_portsStep, Prod.mk.injEq, hone _ number hfirst,
    hone _ (fun w => number ((behindNumber w).drop 1)) hlast]
  exact ⟨fun h => ⟨h.1, h.2⟩, fun h => ⟨h.first_eq, h.last_eq⟩⟩

end Parser

end WifiAudio
