import WifiAudio.Proof.Rtsp.Rendering
import WifiAudio.Proof.Rtsp.Specs

/-!
# What a list of transport specs states

Specs are written out with their options, and parsing them gives every entry what its spec states. The
third entry is the exception: its text runs on over the specs behind it, so what they state is read on
top.
-/

namespace WifiAudio

open CString Except

/-- An option with the values it gives. -/
inductive SpecOption
  | unicast
  | multicast
  | rtcpMux
  | clientPort (first last : ℤ)
  | serverPort (first last : ℤ)
  | interleaved (first last : ℤ)
  | port (first last : ℤ)
  | ttl (n : ℤ)
  | mode (text : Bytes)
  deriving DecidableEq

namespace SpecOption

def pair (first last : ℤ) : Bytes := decimal first ++ minus :: decimal last

def keyword : SpecOption → Bytes
  | unicast => ascii "unicast"
  | multicast => ascii "multicast"
  | rtcpMux => ascii "rtcp-mux"
  | clientPort _ _ => ascii "client_port="
  | serverPort _ _ => ascii "server_port="
  | interleaved _ _ => ascii "interleaved="
  | port _ _ => ascii "port="
  | ttl _ => ascii "ttl="
  | mode _ => ascii "mode="

def value : SpecOption → Bytes
  | clientPort first last | serverPort first last | interleaved first last | port first last =>
      pair first last
  | ttl n => decimal n
  | mode text => text
  | _ => []

def text (option : SpecOption) : Bytes := option.keyword ++ option.value

def IsInt (n : ℤ) : Prop := -2 ^ 31 ≤ n ∧ n < 2 ^ 31

/-- The numbers are `int`s, and a mode has none of the characters that have a meaning in the header. -/
def Valid : SpecOption → Prop
  | clientPort first last | serverPort first last | interleaved first last | port first last =>
      IsInt first ∧ IsInt last
  | ttl n => IsInt n
  | mode text => (∀ b ∈ text, b ≠ semicolon ∧ b ≠ comma ∧ b ≠ space ∧ b ≠ 0) ∧
      ¬ascii "RTP/" <:+: text
  | _ => True

/-- The value the option states. -/
def apply (t : Transport) : SpecOption → Transport
  | unicast => { t with unicast := true }
  | multicast => { t with unicast := false }
  | rtcpMux => { t with rtcpMux := true }
  | clientPort first last => { t with clientPort := (first, last) }
  | serverPort first last => { t with serverPort := (first, last) }
  | interleaved first last => { t with interleaved := (first, last) }
  | port first last => { t with port := (first, last) }
  | ttl n => { t with ttl := n }
  | mode text => { t with mode := .literal text }

/-- The option as it is read with `behind` in place of the next option's semicolon: one without a
value is not found any more. -/
def runOn (behind : Bytes) : SpecOption → Option SpecOption
  | unicast => if behind = [] then some unicast else none
  | multicast => if behind = [] then some multicast else none
  | rtcpMux => if behind = [] then some rtcpMux else none
  | mode text => some (mode (text ++ behind))
  | option => some option

/-- What an option does as it is read; one that is not found is not taken. -/
def taken (t : Transport) : Option SpecOption → Bool × Transport
  | some option => (true, option.apply t)
  | none => (false, t)

end SpecOption

/-- A spec `RTP/AVP`, with its lower transport if it names one. -/
structure TransportSpec where
  lower : Option Bytes
  options : List SpecOption

namespace TransportSpec

def protocol (spec : TransportSpec) : Bytes :=
  ascii "RTP/AVP" ++ (spec.lower.map fun lower => slash :: lower).getD []

def renderOptions (options : List SpecOption) : Bytes :=
  options.flatMap fun option => semicolon :: option.text

def text (spec : TransportSpec) : Bytes := spec.protocol ++ renderOptions spec.options

def Valid (spec : TransportSpec) : Prop :=
  (∀ lower ∈ spec.lower, lower ≠ [] ∧
    ∀ b ∈ lower, b ≠ slash ∧ b ≠ semicolon ∧ b ≠ comma ∧ b ≠ space ∧ b ≠ 0) ∧
  ∀ option ∈ spec.options, option.Valid

/-- The entry before the options are read: the defaults, and what the protocol part says. -/
def start (spec : TransportSpec) (t : Transport) : Transport :=
  { t with
    rtp := true
    transport := .literal (spec.lower.getD (ascii "UDP"))
    mode := .literal (ascii "PLAY")
    unicast := false }

/-- What the spec states, on top of `t`; later options override earlier ones. -/
def stated (spec : TransportSpec) (t : Transport) : Transport :=
  spec.options.foldl SpecOption.apply (spec.start t)

def separator : Bytes := [comma, space]

/-- The header's text: the specs, joined. -/
def render : List TransportSpec → Bytes
  | [] => []
  | spec :: rest => spec.text ++ rest.flatMap fun next => separator ++ next.text

/-! ### The third spec -/

/-- What follows the last option of a spec in front of the next semicolon. -/
def glued : List TransportSpec → Bytes
  | [] => []
  | spec :: rest =>
      separator ++ spec.protocol ++ if spec.options = [] then glued rest else []

/-- The options, the last one with the text behind it. -/
def withTail (tail : Bytes) : List SpecOption → List (SpecOption × Bytes)
  | [] => []
  | option :: rest => (option, if rest = [] then tail else []) :: withTail tail rest

/-- All options up to the end of the header, each with the text in front of the next semicolon. -/
def runs : List TransportSpec → List SpecOption → List (SpecOption × Bytes)
  | [], options => withTail [] options
  | spec :: rest, options => withTail (glued (spec :: rest)) options ++ runs rest spec.options

/-- With specs behind the third: the third has options, each option up to the end of the header is
taken, and read one after another they leave what the third states. -/
def KeptApart (t : Transport) : List TransportSpec → Prop
  | _ :: _ :: third :: next :: rest => third.options ≠ [] ∧ ∃ options : List SpecOption,
      (runs (next :: rest) third.options).map (fun run => run.1.runOn run.2) = options.map some ∧
        options.foldl SpecOption.apply (third.start t) = third.stated t
  | _ => True

end TransportSpec

/-! ### One option -/

open WifiAudio.Parser

namespace SpecOption

variable {behind : Bytes}

theorem numberOf_decimal {n : ℤ} (hn : IsInt n) {base : ℕ} (hbase : base = 0 ∨ base = 10) {rest : Bytes}
    (hrest : ∀ b ∈ rest.head?, digitValue b = none) :
    numberOf base (decimal n ++ rest) = (n, rest) := by
  obtain ⟨hlow, hhigh⟩ := hn
  have hread : strtoll (decimal n ++ rest) base = (n, (decimal n).length) :=
    strtoll_decimal hbase (by omega) (by omega) hrest
  rw [numberOf, hread, List.drop_left, toInt, Int.bmod_eq_of_le (by omega) (by omega)]

theorem rangeOf_pair {first last : ℤ} (hfirst : IsInt first) (hlast : IsInt last)
    (hbehind : ∀ b ∈ behind.head?, digitValue b = none) (t : Transport)
    (field : OptionField (ℤ × ℤ)) :
    rangeOf (pair first last ++ behind) t field =
      (true, field.set ((field.get (field.set (first, (field.get t).2) t)).1, last)
        (field.set (first, (field.get t).2) t)) := by
  have hpair : pair first last ++ behind = decimal first ++ (minus :: (decimal last ++ behind)) := by
    rw [pair, List.append_assoc]
    rfl
  have hone : numberOf 10 (pair first last ++ behind) = (first, minus :: (decimal last ++ behind)) := by
    rw [hpair]
    apply numberOf_decimal hfirst (.inr rfl)
    intro b hb
    obtain rfl := Option.some.inj hb
    rfl
  have htwo : numberOf 10 (decimal last ++ behind) = (last, behind) :=
    numberOf_decimal hlast (.inr rfl) hbehind
  unfold rangeOf
  simp only [hone, List.headD_cons, ne_eq, not_true_eq_false, if_false, List.drop_succ_cons, List.drop_zero,
    htwo]

theorem optionOf_text {option : SpecOption} (hvalid : option.Valid)
    (hbehind : behind = [] ∨ behind.head? = some comma) (t : Transport) :
    optionOf (option.text ++ behind) (fun k => .literal ((option.text ++ behind).drop k)) t =
      taken t (option.runOn behind) := by
  have hdigit : ∀ b ∈ behind.head?, digitValue b = none := by
    intro b hb
    obtain rfl | hcomma := hbehind
    · cases hb
    · obtain rfl := Option.some.inj (hcomma.symm.trans hb)
      rfl
  have hflag : ∀ (flag : SpecOption), flag.runOn behind = (if behind = [] then some flag else none) →
      optionOf flag.text (fun k => .literal (flag.text.drop k)) t = (true, flag.apply t) →
      (∀ rest, optionOf (flag.text ++ comma :: rest)
        (fun k => .literal ((flag.text ++ comma :: rest).drop k)) t = (false, t)) →
      optionOf (flag.text ++ behind) (fun k => .literal ((flag.text ++ behind).drop k)) t =
        taken t (flag.runOn behind) := by
    intro flag hrun hplain hglued
    rw [hrun]
    obtain rfl | hcomma := hbehind
    · simpa [taken] using hplain
    · cases behind with
      | nil => cases hcomma
      | cons b rest =>
          obtain rfl := Option.some.inj hcomma
          simpa [taken] using hglued rest
  cases option with
  | unicast => exact hflag unicast rfl rfl fun rest => rfl
  | multicast => exact hflag multicast rfl rfl fun rest => rfl
  | rtcpMux => exact hflag rtcpMux rfl rfl fun rest => rfl
  | clientPort first last =>
      rw [text, List.append_assoc]
      exact rangeOf_pair hvalid.1 hvalid.2 hdigit t
        ⟨ascii "client_port=", (·.clientPort), fun v t => { t with clientPort := v }⟩
  | serverPort first last =>
      rw [text, List.append_assoc]
      exact rangeOf_pair hvalid.1 hvalid.2 hdigit t
        ⟨ascii "server_port=", (·.serverPort), fun v t => { t with serverPort := v }⟩
  | interleaved first last =>
      rw [text, List.append_assoc]
      exact rangeOf_pair hvalid.1 hvalid.2 hdigit t
        ⟨ascii "interleaved=", (·.interleaved), fun v t => { t with interleaved := v }⟩
  | port first last =>
      rw [text, List.append_assoc]
      exact rangeOf_pair hvalid.1 hvalid.2 hdigit t
        ⟨ascii "port=", (·.port), fun v t => { t with port := v }⟩
  | ttl n =>
      have hnumber : numberOf 0 (decimal n ++ behind) = (n, behind) :=
        numberOf_decimal hvalid (.inl rfl) hdigit
      rw [text, List.append_assoc]
      change (true, { t with ttl := (numberOf 0 (decimal n ++ behind)).1 }) = _
      rw [hnumber]
      rfl
  | mode text =>
      rw [SpecOption.text, List.append_assoc]
      rfl

end SpecOption

namespace TransportSpec

variable {spec : TransportSpec} {specs rest : List TransportSpec} {options : List SpecOption}
  {w tail : Bytes} {t : Transport}

/-! ### The tokens -/

theorem decimal_free {b : UInt8} (hminus : b ≠ 45) (hdigit : b.toNat < 48 ∨ 57 < b.toNat) (v : ℤ) :
    b ∉ decimal v :=
  HeaderLine.not_mem_decimal hminus hdigit v

theorem pair_free {b : UInt8} (hminus : b ≠ 45) (hdigit : b.toNat < 48 ∨ 57 < b.toNat) (first last : ℤ) :
    b ∉ SpecOption.pair first last := by
  rw [SpecOption.pair, List.mem_append, List.mem_cons]
  rintro (h | h | h)
  · exact decimal_free hminus hdigit first h
  · exact hminus h
  · exact decimal_free hminus hdigit last h

theorem option_free {option : SpecOption} (hvalid : option.Valid) {b : UInt8}
    (hb : b = semicolon ∨ b = comma ∨ b = space ∨ b = 0) : b ∉ option.text := by
  have hminus : b ≠ 45 := by obtain rfl | rfl | rfl | rfl := hb <;> decide
  have hdigit : b.toNat < 48 ∨ 57 < b.toNat := by
    obtain rfl | rfl | rfl | rfl := hb <;> decide
  have hkeyword : b ∉ option.keyword := by
    cases option <;> simp only [SpecOption.keyword] <;> obtain rfl | rfl | rfl | rfl := hb <;> decide
  have hvalue : b ∉ option.value := by
    cases option with
    | clientPort first last => exact pair_free hminus hdigit first last
    | serverPort first last => exact pair_free hminus hdigit first last
    | interleaved first last => exact pair_free hminus hdigit first last
    | port first last => exact pair_free hminus hdigit first last
    | ttl n => exact decimal_free hminus hdigit n
    | mode text =>
        intro hin
        obtain ⟨h1, h2, h3, h4⟩ := hvalid.1 b hin
        obtain h | h | h | h := hb
        · exact h1 h
        · exact h2 h
        · exact h3 h
        · exact h4 h
    | _ => exact List.not_mem_nil
  rw [SpecOption.text, List.mem_append]
  rintro (h | h)
  · exact hkeyword h
  · exact hvalue h

theorem text_ne_nil (option : SpecOption) : option.text ≠ [] := by
  rw [SpecOption.text]
  apply List.append_ne_nil_of_left_ne_nil
  cases option <;> simp only [SpecOption.keyword] <;> decide

/-- The specs behind the first, each with the separator in front of it. -/
def renderRest (rest : List TransportSpec) : Bytes :=
  rest.flatMap fun next => separator ++ next.text

theorem runs_cons (rest : List TransportSpec) (option : SpecOption) (options : List SpecOption) :
    runs rest (option :: options) =
      (option, if options = [] then glued rest else []) :: runs rest options := by
  cases rest with
  | nil => rfl
  | cons spec rest => rfl

theorem protocol_free (hvalid : spec.Valid) {b : UInt8}
    (hb : b = semicolon ∨ b = comma ∨ b = space ∨ b = 0) : b ∉ spec.protocol := by
  have hword : b ∉ ascii "RTP/AVP" := by obtain rfl | rfl | rfl | rfl := hb <;> decide
  rw [protocol, List.mem_append, not_or]
  refine ⟨hword, ?_⟩
  cases hlower : spec.lower with
  | none => exact List.not_mem_nil
  | some lower =>
      intro hin
      obtain h | hin := List.mem_cons.1 hin
      · obtain rfl | rfl | rfl | rfl := hb <;> exact absurd h (by decide)
      · obtain ⟨-, h1, h2, h3, h4⟩ := (hvalid.1 lower hlower).2 b hin
        obtain h | h | h | h := hb
        · exact h1 h
        · exact h2 h
        · exact h3 h
        · exact h4 h

theorem separator_free : semicolon ∉ separator := by decide

theorem tokens_cons_option {option : SpecOption} (hw : semicolon ∉ w) (hne : w ≠ [])
    (ih : tokens semicolon (option.text ++ (renderOptions options ++ renderRest rest)) =
      (option.text ++ if options = [] then glued rest else []) ::
        (runs rest options).map fun run => run.1.text ++ run.2) :
    tokens semicolon (w ++ (renderOptions (option :: options) ++ renderRest rest)) =
      (w ++ if option :: options = [] then glued rest else []) ::
        (runs rest (option :: options)).map fun run => run.1.text ++ run.2 := by
  have hsplit : renderOptions (option :: options) ++ renderRest rest =
      semicolon :: (option.text ++ (renderOptions options ++ renderRest rest)) := by
    rw [renderOptions, List.flatMap_cons, List.append_assoc]
    rfl
  rw [hsplit, tokens_append hw hne, ih, runs_cons]
  simp

theorem tokens_options (hw : semicolon ∉ w) (hne : w ≠ [])
    (hoptions : ∀ option ∈ options, option.Valid) (hrest : ∀ spec ∈ rest, spec.Valid) :
    tokens semicolon (w ++ (renderOptions options ++ renderRest rest)) =
      (w ++ if options = [] then glued rest else []) ::
        (runs rest options).map fun run => run.1.text ++ run.2 := by
  induction rest generalizing w options with
  | nil =>
      induction options generalizing w with
      | nil => simpa [renderOptions, renderRest, glued, runs, withTail] using tokens_of_not_mem hw hne
      | cons option options ih =>
          obtain ⟨hoption, hoptions⟩ := List.forall_mem_cons.1 hoptions
          apply tokens_cons_option hw hne
          exact ih (option_free hoption (.inl rfl)) (text_ne_nil option) hoptions
  | cons spec rest ihrest =>
      obtain ⟨hspec, hrest⟩ := List.forall_mem_cons.1 hrest
      induction options generalizing w with
      | nil =>
          have hjoin : w ++ (renderOptions [] ++ renderRest (spec :: rest)) =
              (w ++ (separator ++ spec.protocol)) ++ (renderOptions spec.options ++ renderRest rest) := by
            simp [renderOptions, renderRest, text]
          have hfree : semicolon ∉ w ++ (separator ++ spec.protocol) := by
            rw [List.mem_append, List.mem_append]
            rintro (h | h | h)
            · exact hw h
            · exact separator_free h
            · exact protocol_free hspec (.inl rfl) h
          rw [hjoin, ihrest hfree (List.append_ne_nil_of_left_ne_nil hne _) hspec.2 hrest]
          simp [glued, runs, withTail]
      | cons option options ih =>
          obtain ⟨hoption, hoptions⟩ := List.forall_mem_cons.1 hoptions
          apply tokens_cons_option hw hne
          exact ih (option_free hoption (.inl rfl)) (text_ne_nil option) hoptions

/-! ### The entry of a spec -/

/-- The options, up to the first one that is not taken. -/
def applyAll : List (Option SpecOption) → Transport → Bool × Transport
  | [], t => (true, t)
  | some option :: rest, t => applyAll rest (option.apply t)
  | none :: _, t => (false, t)

theorem applyAll_map_some (options : List SpecOption) (t : Transport) :
    applyAll (options.map some) t = (true, options.foldl SpecOption.apply t) := by
  induction options generalizing t with
  | nil => rfl
  | cons option options ih => exact ih (option.apply t)

theorem applyAll_eq_true {list : List (Option SpecOption)} (h : (applyAll list t).1 = true) :
    ∃ options : List SpecOption, list = options.map some := by
  induction list generalizing t with
  | nil => exact ⟨[], rfl⟩
  | cons option list ih =>
      cases option with
      | none => cases h
      | some option =>
          obtain ⟨options, rfl⟩ := ih h
          exact ⟨option :: options, rfl⟩

theorem optionsOf_runs {list : List (SpecOption × Bytes)}
    (hlist : ∀ run ∈ list, run.1.Valid ∧ (run.2 = [] ∨ run.2.head? = some comma)) (t : Transport) :
    optionsOf (list.map fun run => run.1.text ++ run.2) t =
      applyAll (list.map fun run => run.1.runOn run.2) t := by
  induction list generalizing t with
  | nil => rfl
  | cons run list ih =>
      obtain ⟨⟨hvalid, hbehind⟩, hlist⟩ := List.forall_mem_cons.1 hlist
      rw [List.map_cons, List.map_cons, optionsOf, SpecOption.optionOf_text hvalid hbehind]
      cases run.1.runOn run.2 with
      | none => rfl
      | some option => exact ih hlist (option.apply t)

theorem glued_head (rest : List TransportSpec) :
    glued rest = [] ∨ (glued rest).head? = some comma := by
  cases rest with
  | nil => exact .inl rfl
  | cons spec rest => exact .inr rfl

theorem runs_valid_cons {option : SpecOption} (hoption : option.Valid)
    (ih : ∀ run ∈ runs rest options, run.1.Valid ∧ (run.2 = [] ∨ run.2.head? = some comma)) :
    ∀ run ∈ runs rest (option :: options), run.1.Valid ∧ (run.2 = [] ∨ run.2.head? = some comma) := by
  rw [runs_cons]
  refine List.forall_mem_cons.2 ⟨⟨hoption, ?_⟩, ih⟩
  split
  · exact glued_head rest
  · exact .inl rfl

theorem runs_valid (hoptions : ∀ option ∈ options, option.Valid) (hrest : ∀ spec ∈ rest, spec.Valid) :
    ∀ run ∈ runs rest options, run.1.Valid ∧ (run.2 = [] ∨ run.2.head? = some comma) := by
  induction rest generalizing options with
  | nil =>
      induction options with
      | nil => simp [runs, withTail]
      | cons option options ih =>
          obtain ⟨hoption, hoptions⟩ := List.forall_mem_cons.1 hoptions
          exact runs_valid_cons hoption (ih hoptions)
  | cons spec rest ihrest =>
      obtain ⟨hspec, hrest⟩ := List.forall_mem_cons.1 hrest
      induction options with
      | nil => exact ihrest hspec.2 hrest
      | cons option options ih =>
          obtain ⟨hoption, hoptions⟩ := List.forall_mem_cons.1 hoptions
          exact runs_valid_cons hoption (ih hoptions)

theorem specOf_text (hvalid : spec.Valid) (hrest : ∀ next ∈ rest, next.Valid) (t : Transport) :
    specOf (spec.text ++ renderRest rest) t =
      applyAll ((runs rest spec.options).map fun run => run.1.runOn run.2)
        (protocolOf (spec.protocol ++ if spec.options = [] then glued rest else []) (setDefaults t)) := by
  have hne : spec.protocol ≠ [] := List.append_ne_nil_of_left_ne_nil (by decide) _
  have htokens := tokens_options (protocol_free hvalid (.inl rfl)) hne hvalid.2 hrest
  rw [specOf, text, List.append_assoc, htokens, List.tail_cons, List.headD_cons]
  exact optionsOf_runs (runs_valid hvalid.2 hrest) _

/-! ### The protocol part -/

theorem tokens_cons_head {b d : UInt8} (hb : b ≠ d) (s : Bytes) :
    ∃ w, (tokens d (b :: s)).head? = some (b :: w) := by
  rw [tokens, List.splitOn_cons_eq_if_modifyHead, if_neg (by simpa using hb)]
  cases hsplit : s.splitOn d with
  | nil => exact absurd hsplit (List.splitOn_ne_nil d s)
  | cons w words => exact ⟨w, by simp⟩

theorem tokens_protocol {lower : Bytes} (hlower : slash ∉ lower) (hne : lower ≠ []) (behind : Bytes) :
    tokens slash (ascii "RTP/AVP" ++ slash :: (lower ++ slash :: behind)) =
      ascii "RTP" :: ascii "AVP" :: lower :: tokens slash behind := by
  have hsplit : ascii "RTP/AVP" ++ slash :: (lower ++ slash :: behind) =
      ascii "RTP" ++ slash :: (ascii "AVP" ++ slash :: (lower ++ slash :: behind)) := rfl
  rw [hsplit, tokens_append (by decide) (by decide), tokens_append (by decide) (by decide),
    tokens_append hlower hne]

theorem protocolOf_protocol (hvalid : spec.Valid) (t : Transport) :
    protocolOf spec.protocol (setDefaults t) = spec.start t := by
  cases hlower : spec.lower with
  | none =>
      have htokens : tokens slash spec.protocol = [ascii "RTP", ascii "AVP"] := by
        rw [protocol, hlower]
        decide +kernel
      rw [protocolOf, htokens, start, hlower]
      rfl
  | some lower =>
      obtain ⟨hne, hfree⟩ := hvalid.1 lower hlower
      have hslash : slash ∉ lower := fun hin => (hfree slash hin).1 rfl
      have htokens : tokens slash spec.protocol = [ascii "RTP", ascii "AVP", lower] := by
        have hsplit : spec.protocol = ascii "RTP" ++ slash :: (ascii "AVP" ++ slash :: lower) := by
          rw [protocol, hlower]
          rfl
        rw [hsplit, tokens_append (by decide) (by decide), tokens_append (by decide) (by decide),
          tokens_of_not_mem hslash hne]
      rw [protocolOf, htokens, start, hlower]
      rfl

/-- With another spec glued to it, the protocol part names another lower transport. -/
theorem protocolOf_glued (hvalid : spec.Valid) (next : TransportSpec) (rest : List TransportSpec)
    (t : Transport) :
    (protocolOf (spec.protocol ++ glued (next :: rest)) (setDefaults t)).transport ≠
      (spec.start t).transport := by
  obtain ⟨behind, hbehind⟩ : ∃ behind, glued (next :: rest) =
      (comma :: space :: ascii "RTP") ++ slash :: (65 :: behind) := by
    refine ⟨ascii "VP" ++ ((next.lower.map fun lower => slash :: lower).getD [] ++
      if next.options = [] then glued rest else []), ?_⟩
    rw [glued, protocol, List.append_assoc, List.append_assoc]
    rfl
  have hthird : ∀ w, (tokens slash (spec.protocol ++ glued (next :: rest)))[2]? = some w →
      (protocolOf (spec.protocol ++ glued (next :: rest)) (setDefaults t)).transport = .literal w := by
    intro w hw
    rw [protocolOf, hw]
  cases hlower : spec.lower with
  | none =>
      have hsplit : spec.protocol ++ glued (next :: rest) = ascii "RTP" ++ slash ::
          ((ascii "AVP" ++ (comma :: space :: ascii "RTP")) ++ slash :: (65 :: behind)) := by
        rw [hbehind, protocol, hlower]
        rfl
      obtain ⟨w, hw⟩ := tokens_cons_head (show (65 : UInt8) ≠ slash by decide) behind
      have htokens : (tokens slash (spec.protocol ++ glued (next :: rest)))[2]? = some (65 :: w) := by
        rw [hsplit, tokens_append (by decide) (by decide), tokens_append (by decide) (by decide), ← hw,
          List.head?_eq_getElem?]
        rfl
      rw [hthird _ htokens, start, hlower]
      intro heq
      exact absurd (List.cons.inj (CharPtr.literal.inj heq)).1 (by decide)
  | some lower =>
      obtain ⟨hne, hfree⟩ := hvalid.1 lower hlower
      have hslash : slash ∉ lower ++ (comma :: space :: ascii "RTP") := by
        rw [List.mem_append]
        rintro (hin | hin)
        · exact (hfree slash hin).1 rfl
        · revert hin
          decide
      have hsplit : spec.protocol ++ glued (next :: rest) = ascii "RTP/AVP" ++ slash ::
          ((lower ++ (comma :: space :: ascii "RTP")) ++ slash :: (65 :: behind)) := by
        rw [hbehind, protocol, hlower]
        simp
      have htokens : (tokens slash (spec.protocol ++ glued (next :: rest)))[2]? =
          some (lower ++ (comma :: space :: ascii "RTP")) := by
        rw [hsplit, tokens_protocol hslash (List.append_ne_nil_of_left_ne_nil hne _)]
        rfl
      rw [hthird _ htokens, start, hlower]
      intro heq
      have hlength := congrArg List.length (CharPtr.literal.inj heq)
      rw [List.length_append, Option.getD_some] at hlength
      exact absurd hlength (by simp)

theorem applyAll_transport (list : List (Option SpecOption)) (t : Transport) :
    (applyAll list t).2.transport = t.transport := by
  induction list generalizing t with
  | nil => rfl
  | cons option list ih =>
      cases option with
      | none => rfl
      | some option =>
          rw [applyAll, ih]
          cases option <;> rfl

theorem foldl_apply_transport (options : List SpecOption) (t : Transport) :
    (options.foldl SpecOption.apply t).transport = t.transport := by
  have h := applyAll_transport (options.map some) t
  rwa [applyAll_map_some] at h

/-- A spec at the end of the header gives its entry what it states. -/
theorem specOf_last (hvalid : spec.Valid) (t : Transport) :
    specOf spec.text t = (true, spec.stated t) := by
  have hspec := specOf_text hvalid (List.forall_mem_nil _) t
  have hruns : (runs [] spec.options).map (fun run => run.1.runOn run.2) = spec.options.map some := by
    have hall : ∀ options : List SpecOption,
        (runs [] options).map (fun run => run.1.runOn run.2) = options.map some := by
      intro options
      induction options with
      | nil => rfl
      | cons option options ih =>
          rw [runs_cons, List.map_cons, List.map_cons, ih]
          have hplain : option.runOn [] = some option := by cases option <;> simp [SpecOption.runOn]
          simp [glued, hplain]
    exact hall spec.options
  have hend : (if spec.options = [] then glued [] else []) = [] := by simp [glued]
  rw [hruns, hend, applyAll_map_some, List.append_nil, protocolOf_protocol hvalid] at hspec
  rw [stated, ← hspec, renderRest, List.flatMap_nil, List.append_nil]

/-- A spec with others in its text gives its entry what it states exactly when they leave it. -/
theorem specOf_run_on (hvalid : spec.Valid) {next : TransportSpec}
    (hrest : ∀ spec ∈ next :: rest, spec.Valid) (t : Transport) :
    specOf (spec.text ++ renderRest (next :: rest)) t = (true, spec.stated t) ↔
      spec.options ≠ [] ∧ ∃ options : List SpecOption,
        (runs (next :: rest) spec.options).map (fun run => run.1.runOn run.2) = options.map some ∧
          options.foldl SpecOption.apply (spec.start t) = spec.stated t := by
  rw [specOf_text hvalid hrest]
  by_cases hoptions : spec.options = []
  · refine iff_of_false ?_ fun h => h.1 hoptions
    intro heq
    have htransport := congrArg (fun r => r.2.transport) heq
    rw [if_pos hoptions] at htransport
    simp only [applyAll_transport, stated, foldl_apply_transport] at htransport
    exact protocolOf_glued hvalid next rest t htransport
  · rw [if_neg hoptions, List.append_nil, protocolOf_protocol hvalid]
    constructor
    · intro heq
      obtain ⟨options, hruns⟩ := applyAll_eq_true (congrArg Prod.fst heq)
      rw [hruns, applyAll_map_some] at heq
      exact ⟨hoptions, options, hruns, congrArg Prod.snd heq⟩
    · rintro ⟨-, options, hruns, hstated⟩
      rw [hruns, applyAll_map_some, hstated]

/-! ### The search on rendered specs -/

theorem infix_of_head {pat a s : Bytes} {c : UInt8} (hc : c ∉ a) (h : c :: pat <:+: a ++ s) :
    c :: pat <:+: s := by
  induction a with
  | nil => exact h
  | cons b a ih =>
      obtain ⟨hb, ha⟩ := not_or.1 (mt List.mem_cons.2 hc)
      rw [List.cons_append, List.infix_cons_iff] at h
      obtain hstarts | h := h
      · exact absurd (List.cons_prefix_cons.1 hstarts).1 hb
      · exact ih ha h

theorem not_infix_of_not_mem {s : Bytes} (hs : slash ∉ s) : ¬ascii "RTP/" <:+: s := by
  intro h
  exact hs (h.subset (by decide))

theorem not_infix_text {option : SpecOption} (hvalid : option.Valid) :
    ¬ascii "RTP/" <:+: option.text := by
  have hkeyword : 82 ∉ option.keyword := by
    cases option <;> simp only [SpecOption.keyword] <;> decide
  have hdecimal : ∀ n, slash ∉ decimal n := decimal_free (by decide) (by decide)
  have hpair : ∀ first last, slash ∉ SpecOption.pair first last := pair_free (by decide) (by decide)
  intro h
  have hvalue : ascii "RTP/" <:+: option.value := infix_of_head hkeyword h
  revert hvalue
  cases option with
  | clientPort first last => exact not_infix_of_not_mem (hpair first last)
  | serverPort first last => exact not_infix_of_not_mem (hpair first last)
  | interleaved first last => exact not_infix_of_not_mem (hpair first last)
  | port first last => exact not_infix_of_not_mem (hpair first last)
  | ttl n => exact not_infix_of_not_mem (hdecimal n)
  | mode text => exact hvalid.2
  | _ => exact not_infix_of_not_mem List.not_mem_nil

theorem not_infix_options (hw : ¬ascii "RTP/" <:+: w) (hoptions : ∀ option ∈ options, option.Valid) :
    ¬ascii "RTP/" <:+: w ++ renderOptions options := by
  induction options generalizing w with
  | nil => rwa [renderOptions, List.flatMap_nil, List.append_nil]
  | cons option options ih =>
      obtain ⟨hoption, hoptions⟩ := List.forall_mem_cons.1 hoptions
      intro h
      have hsplit : w ++ renderOptions (option :: options) =
          w ++ semicolon :: (option.text ++ renderOptions options) := rfl
      rw [hsplit] at h
      obtain h | h := infix_append_cons (by decide) h
      · exact hw h
      · exact ih (not_infix_text hoption) hoptions h

theorem not_infix_spec (hvalid : spec.Valid) : ¬ascii "RTP/" <:+: spec.text.drop 1 := by
  obtain ⟨a, lower, ha, hlower, htext⟩ : ∃ a lower, (82 : UInt8) ∉ a ∧ slash ∉ lower ∧
      spec.text.drop 1 = a ++ (lower ++ renderOptions spec.options) := by
    cases hlower : spec.lower with
    | none =>
        refine ⟨ascii "TP/AVP", [], by decide, List.not_mem_nil, ?_⟩
        rw [text, protocol, hlower]
        rfl
    | some lower =>
        refine ⟨ascii "TP/AVP/", lower, by decide, ?_, ?_⟩
        · intro hin
          exact ((hvalid.1 lower hlower).2 slash hin).1 rfl
        · rw [text, protocol, hlower, List.append_assoc]
          rfl
  rw [htext]
  intro h
  exact not_infix_options (not_infix_of_not_mem hlower) hvalid.2 (infix_of_head ha h)

theorem text_free (hvalid : spec.Valid) {b : UInt8} (hb : b = comma ∨ b = space ∨ b = 0) :
    b ∉ spec.text := by
  rw [text, renderOptions, List.mem_append, List.mem_flatMap]
  rintro (h | ⟨option, hmem, h⟩)
  · exact protocol_free hvalid (.inr hb) h
  · obtain h | h := List.mem_cons.1 h
    · obtain rfl | rfl | rfl := hb <;> exact absurd h (by decide)
    · exact option_free (hvalid.2 option hmem) (.inr hb) h

/-- The specs as the search takes them. -/
def listed (specs : List TransportSpec) : List (Bytes × Bytes) :=
  specs.map fun spec => (separator, spec.text)

theorem joined_listed (specs : List TransportSpec) : joined (listed specs) = renderRest specs := by
  rw [joined, listed, List.flatMap_map]
  rfl

theorem listed_cons {sep : Bytes} (hsep : ∀ b ∈ sep, b = space ∨ b = comma) (hvalid : spec.Valid)
    (hrest : Listed (listed rest)) : Listed ((sep, spec.text) :: listed rest) := by
  have hprotocol : ascii "RTP/AVP" <+: spec.text :=
    (List.prefix_append _ _).trans (List.prefix_append _ _)
  have hlong : 7 ≤ spec.text.length := hprotocol.length_le
  refine .cons hsep ((show ascii "RTP/" <+: ascii "RTP/AVP" by decide).trans hprotocol) ?_ ?_ ?_ hrest
  · rw [List.length_append]
    omega
  · intro k hk _ _ hstarts
    apply not_infix_spec hvalid
    obtain ⟨k, rfl⟩ := Nat.exists_eq_add_of_le hk
    rw [← List.drop_drop] at hstarts
    exact hstarts.isInfix.trans (List.drop_suffix _ _).isInfix
  · intro next hnext
    obtain ⟨spec', -, rfl⟩ := List.mem_map.1 (List.mem_of_mem_head? hnext)
    refine ⟨show separator ≠ [] by decide, ?_⟩
    intro b hb
    have hmem : b ∈ spec.text := List.mem_of_mem_getLast? hb
    refine ⟨?_, ?_⟩
    · rintro rfl
      exact text_free hvalid (.inr (.inl rfl)) hmem
    · rintro rfl
      exact text_free hvalid (.inl rfl) hmem

theorem separator_bytes : ∀ b ∈ separator, b = space ∨ b = comma := by
  intro b hb
  obtain rfl | hb := List.mem_cons.1 hb
  · exact .inr rfl
  · exact .inl (List.mem_singleton.1 hb)

theorem listed_specs (hspecs : ∀ spec ∈ specs, spec.Valid) : Listed (listed specs) := by
  induction specs with
  | nil => exact .nil
  | cons spec specs ih =>
      obtain ⟨hspec, hspecs⟩ := List.forall_mem_cons.1 hspecs
      exact listed_cons separator_bytes hspec (ih hspecs)

/-! ### The header -/

/-- The entries as the specs state them. -/
def Stated (hdr hdr' : RtspHeader) (m : Bytes) (specs : List TransportSpec) : Prop :=
  ∀ (i : Fin maxTransports) spec, specs[i.val]? = some spec →
    (hdr'.transport i).resolve m = spec.stated (hdr.transport i)

theorem stated_iff {m' : Bytes} {lo hi : ℕ} {hdr hdr' : RtspHeader}
    {entries : Fin maxTransports → Transport}
    (hentries : ∀ i, EntryIs lo hi m' (hdr.transport i) (hdr'.transport i) (hdr.transport i) (entries i))
    (hresolve : ∀ (i : Fin maxTransports) spec, specs[i.val]? = some spec →
      (entries i).resolve m' = entries i) :
    Stated hdr hdr' m' specs ↔ ∀ (i : Fin maxTransports) spec, specs[i.val]? = some spec →
      entries i = spec.stated (hdr.transport i) := by
  have hsame : ∀ (i : Fin maxTransports) spec, specs[i.val]? = some spec →
      (hdr'.transport i).resolve m' = entries i := by
    intro i spec hspec
    obtain ⟨hafter, hbefore⟩ | hread := hentries i
    · rw [hafter, ← hbefore, hresolve i spec hspec]
    · exact hread m' fun _ _ _ => rfl
  refine forall_congr' fun i => forall_congr' fun spec => ?_
  refine imp_congr_right fun hspec => ?_
  rw [hsame i spec hspec]

/-- The search gives every spec its piece, the third one with the rest of the header. -/
def pieces : List TransportSpec → List Bytes
  | [] => []
  | [first] => [first.text]
  | [first, second] => [first.text, second.text]
  | first :: second :: third :: rest => [first.text, second.text, third.text ++ renderRest rest]

theorem cut_listed (spec : TransportSpec) (rest : List TransportSpec) :
    cut 2 spec.text (listed rest) = pieces (spec :: rest) := by
  cases rest with
  | nil => rfl
  | cons second rest =>
      cases rest with
      | nil => rfl
      | cons third rest =>
          change [spec.text, second.text, third.text ++ joined (listed rest)] = _
          rw [joined_listed]
          rfl

theorem specsOf_spec (hvalid : spec.Valid) (i : Fin maxTransports)
    (list : List (Fin maxTransports × Bytes)) (t : Fin maxTransports → Transport) :
    specsOf ((i, spec.text) :: list) t =
      specsOf list (Function.update t i (spec.stated (t i))) := by
  rw [specsOf, specOf_last hvalid]
  rfl

theorem specsOf_single (i : Fin maxTransports) (l : Bytes) (t : Fin maxTransports → Transport) :
    specsOf [(i, l)] t = ((specOf l (t i)).1, Function.update t i (specOf l (t i)).2) := by
  rw [specsOf]
  cases specOf l (t i) with
  | mk taken e => cases taken <;> rfl

theorem keptApart_iff {first second third : TransportSpec} (hthird : third.Valid)
    (hrest : ∀ spec ∈ rest, spec.Valid) (t : Transport) :
    specOf (third.text ++ renderRest rest) t = (true, third.stated t) ↔
      KeptApart t (first :: second :: third :: rest) := by
  cases rest with
  | nil =>
      refine iff_of_true ?_ trivial
      rw [renderRest, List.flatMap_nil, List.append_nil]
      exact specOf_last hthird t
  | cons next rest => exact specOf_run_on hthird hrest t

theorem forall_places {P : Fin maxTransports → Prop} (hfirst : P 0) (hsecond : P 1) (hthird : P 2)
    (i : Fin maxTransports) : P i := by
  have hi : ∀ i : Fin maxTransports, i = 0 ∨ i = 1 ∨ i = 2 := by decide
  obtain rfl | rfl | rfl := hi i
  · exact hfirst
  · exact hsecond
  · exact hthird

/-- What the pieces give the entries is what the specs state, unless the third one runs on. -/
theorem pieces_stated_iff (hspecs : ∀ spec ∈ specs, spec.Valid) (t : Fin maxTransports → Transport) :
    ((specsOf ((List.finRange maxTransports).zip (pieces specs)) t).1 = true ∧
      ∀ (i : Fin maxTransports) spec, specs[i.val]? = some spec →
        (specsOf ((List.finRange maxTransports).zip (pieces specs)) t).2 i = spec.stated (t i)) ↔
      KeptApart (t 2) specs := by
  have hplaces : List.finRange maxTransports = [0, 1, 2] := rfl
  have hfirst_ne : (0 : Fin maxTransports) ≠ 1 := by decide
  cases specs with
  | nil => exact iff_of_true ⟨rfl, fun i spec hspec => by cases hspec⟩ trivial
  | cons first specs =>
  obtain ⟨hfirst, hspecs⟩ := List.forall_mem_cons.1 hspecs
  cases specs with
  | nil =>
      refine iff_of_true ?_ trivial
      rw [hplaces, pieces, List.zip_cons_cons, specsOf_spec hfirst]
      refine ⟨rfl, ?_⟩
      apply forall_places
      · intro spec hspec
        obtain rfl := Option.some.inj hspec
        simp [specsOf]
      · intro spec hspec
        cases hspec
      · intro spec hspec
        cases hspec
  | cons second specs =>
  obtain ⟨hsecond, hspecs⟩ := List.forall_mem_cons.1 hspecs
  have hone : Function.update t 0 (first.stated (t 0)) 1 = t 1 := Function.update_of_ne (by decide) _ _
  cases specs with
  | nil =>
      refine iff_of_true ?_ trivial
      rw [hplaces, pieces, List.zip_cons_cons, List.zip_cons_cons, specsOf_spec hfirst,
        specsOf_spec hsecond, hone]
      refine ⟨rfl, ?_⟩
      apply forall_places
      · intro spec hspec
        obtain rfl := Option.some.inj hspec
        simp [specsOf, hfirst_ne]
      · intro spec hspec
        obtain rfl := Option.some.inj hspec
        simp [specsOf]
      · intro spec hspec
        cases hspec
  | cons third rest =>
  obtain ⟨hthird, hrest⟩ := List.forall_mem_cons.1 hspecs
  have htwo : Function.update (Function.update t 0 (first.stated (t 0))) 1 (second.stated (t 1)) 2 = t 2 :=
    (Function.update_of_ne (by decide) _ _).trans (Function.update_of_ne (by decide) _ _)
  rw [hplaces, pieces, List.zip_cons_cons, List.zip_cons_cons, List.zip_cons_cons, specsOf_spec hfirst,
    specsOf_spec hsecond, hone, List.zip_nil_left, specsOf_single, htwo, ← keptApart_iff hthird hrest]
  constructor
  · rintro ⟨htaken, hall⟩
    have hlast := hall 2 third rfl
    simp only [Function.update_self] at hlast
    exact Prod.ext htaken hlast
  · intro heq
    rw [heq]
    refine ⟨rfl, ?_⟩
    apply forall_places
    · intro spec hspec
      obtain rfl := Option.some.inj hspec
      simp [hfirst_ne]
    · intro spec hspec
      obtain rfl := Option.some.inj hspec
      simp
    · intro spec hspec
      obtain rfl := Option.some.inj hspec
      simp

theorem specsOf_resolve {list : List (Fin maxTransports × Bytes)} {t : Fin maxTransports → Transport}
    {i : Fin maxTransports} (htaken : (specsOf list t).1 = true)
    (hi : (∀ n, (t i).resolve n = t i) ∨ i ∈ list.map Prod.fst) (n : Bytes) :
    ((specsOf list t).2 i).resolve n = (specsOf list t).2 i := by
  induction list generalizing t with
  | nil =>
      obtain hi | hi := hi
      · exact hi n
      · cases hi
  | cons entry list ih =>
      obtain ⟨j, l⟩ := entry
      rw [specsOf] at htaken ⊢
      simp only [] at htaken ⊢
      split at htaken
      · rw [if_pos ‹_›]
        apply ih htaken
        by_cases hij : i = j
        · subst hij
          left
          intro n
          rw [Function.update_self]
          exact (specOf_literal l (t i)).resolve n
        · rw [Function.update_of_ne hij]
          refine hi.imp_right fun hmem => ?_
          exact (List.mem_cons.1 hmem).resolve_left hij
      · cases htaken

theorem mem_places {i : Fin maxTransports} (hspec : specs[i.val]? = some spec) :
    i ∈ ((List.finRange maxTransports).zip (pieces specs)).map Prod.fst := by
  have hlength : (pieces specs).length = min specs.length maxTransports := by
    cases specs with
    | nil => rfl
    | cons first specs =>
    cases specs with
    | nil => rfl
    | cons second specs =>
    cases specs with
    | nil => rfl
    | cons third rest => simp [pieces]
  obtain ⟨hlt, -⟩ := List.getElem?_eq_some_iff.1 hspec
  have hin : i.val < (pieces specs).length := by
    rw [hlength]
    exact lt_min hlt i.isLt
  refine List.mem_map.2 ⟨(i, (pieces specs)[i.val]), List.mem_iff_getElem?.2 ⟨i.val, ?_⟩, rfl⟩
  rw [List.getElem?_zip_eq_some]
  exact ⟨by simp, List.getElem?_eq_getElem hin⟩

/-- A header with specs in it is read, and every spec within the number of entries gives its entry
what it states, if and only if there are at most three specs or the ones behind the third leave its
entry as it is. -/
theorem parseTransport_stated_iff (specs : List TransportSpec) (hne : specs ≠ [])
    (hspecs : ∀ spec ∈ specs, spec.Valid) (m : Bytes) (p : ℕ)
    (hstring : string m p = .ok (render specs)) (hdr : RtspHeader) :
    (∃ hdr' m', parseTransport m hdr (some p) = .ok (true, hdr', m') ∧ Stated hdr hdr' m' specs) ↔
      KeptApart (hdr.transport 2) specs := by
  cases specs with
  | nil => exact absurd rfl hne
  | cons spec rest =>
      obtain ⟨hspec, hrest⟩ := List.forall_mem_cons.1 hspecs
      have hlisted : Listed (([], spec.text) :: listed rest) :=
        listed_cons (List.forall_mem_nil _) hspec (listed_specs hrest)
      have htext : render (spec :: rest) = [] ++ (spec.text ++ joined (listed rest)) := by
        rw [joined_listed]
        rfl
      rw [htext] at hstring
      obtain ⟨hdr', m', hparse, -, hentries, -⟩ := parseTransport_text hlisted hstring hdr
      rw [cut_listed] at hparse hentries
      have hpieces := pieces_stated_iff hspecs hdr.transport
      set entries := specsOf ((List.finRange maxTransports).zip (pieces (spec :: rest))) hdr.transport
      have hread : (∃ hdr' m', parseTransport m hdr (some p) = .ok (true, hdr', m') ∧
          Stated hdr hdr' m' (spec :: rest)) ↔ entries.1 = true ∧ Stated hdr hdr' m' (spec :: rest) := by
        rw [hparse]
        constructor
        · rintro ⟨hdr'', m'', heq, hstated⟩
          obtain ⟨htaken, hrest⟩ := Prod.mk.inj (Except.ok.inj heq)
          obtain ⟨rfl, rfl⟩ := Prod.mk.inj hrest
          exact ⟨htaken, hstated⟩
        · rintro ⟨htaken, hstated⟩
          rw [htaken]
          exact ⟨hdr', m', rfl, hstated⟩
      rw [hread, ← hpieces]
      refine and_congr_right fun htaken => stated_iff hentries ?_
      intro i spec' hspec'
      exact specsOf_resolve htaken (.inr (mem_places hspec')) m'

def fiveSpecs : List TransportSpec :=
  [⟨some (ascii "TCP"), [.interleaved 0 1]⟩, ⟨some (ascii "TCP"), [.interleaved 2 3]⟩,
    ⟨none, [.unicast, .clientPort 5000 5001]⟩, ⟨none, [.unicast, .clientPort 5000 5001]⟩,
    ⟨some (ascii "UDP"), [.clientPort 5000 5001]⟩]

/-- Five specs, the last two of which repeat what the third states. -/
theorem five_specs_stated : KeptApart {} fiveSpecs ∧
    ∃ hdr' m', parseTransport (render fiveSpecs ++ [0]) {} (some 0) = .ok (true, hdr', m') ∧
      Stated {} hdr' m' fiveSpecs := by
  have hports : SpecOption.IsInt 5000 ∧ SpecOption.IsInt 5001 := ⟨⟨by decide, by decide⟩, by decide, by decide⟩
  have hchannels : ∀ n ∈ [0, 1, 2, 3], SpecOption.IsInt n := by
    intro n hn
    have hbounds : ∀ n ∈ ([0, 1, 2, 3] : List ℤ), 0 ≤ n ∧ n ≤ 3 := by decide
    obtain ⟨hlow, hhigh⟩ := hbounds n hn
    exact ⟨by omega, by omega⟩
  have hlower : ∀ lower ∈ [ascii "TCP", ascii "UDP"], lower ≠ [] ∧
      ∀ b ∈ lower, b ≠ slash ∧ b ≠ semicolon ∧ b ≠ comma ∧ b ≠ space ∧ b ≠ 0 := by decide +kernel
  have htcp := hlower (ascii "TCP") List.mem_cons_self
  have hudp := hlower (ascii "UDP") (List.mem_cons_of_mem _ List.mem_cons_self)
  have hvalid : ∀ spec ∈ fiveSpecs, spec.Valid := by
    simp only [fiveSpecs, List.forall_mem_cons, List.not_mem_nil, Valid, SpecOption.Valid, hports,
      Option.mem_def, Option.some.injEq, forall_eq', reduceCtorEq, false_imp_iff, implies_true, and_true,
      true_and]
    exact ⟨⟨htcp, hchannels 0 (by simp), hchannels 1 (by simp)⟩,
      ⟨htcp, hchannels 2 (by simp), hchannels 3 (by simp)⟩, hudp⟩
  have hstring : string (render fiveSpecs ++ [0]) 0 = .ok (render fiveSpecs) :=
    string_eq_ok.2 ⟨by decide +kernel, [], rfl⟩
  have hkept : KeptApart {} fiveSpecs :=
    ⟨by decide, [.unicast, .clientPort 5000 5001, .unicast, .clientPort 5000 5001,
      .clientPort 5000 5001], by decide +kernel, rfl⟩
  exact ⟨hkept, (parseTransport_stated_iff _ (by decide) hvalid _ 0 hstring {}).2 hkept⟩

def fourSpecs : List TransportSpec :=
  [⟨some (ascii "TCP"), [.interleaved 0 1]⟩, ⟨some (ascii "TCP"), [.interleaved 2 3]⟩,
    ⟨none, [.unicast, .clientPort 5000 5001]⟩, ⟨none, [.multicast, .port 6000 6001]⟩]

/-- The fourth spec makes the entry of the third a multicast one. -/
theorem fourth_spec_read_into_third :
    ¬∃ hdr' m', parseTransport (render fourSpecs ++ [0]) {} (some 0) = .ok (true, hdr', m') ∧
      Stated {} hdr' m' fourSpecs := by
  rintro ⟨hdr', m', hparse, hstated⟩
  have hmulticast : ((parseTransport (render fourSpecs ++ [0]) {} (some 0)).toOption.all fun r =>
      (r.2.1.transport 2).unicast = false) = true := by decide +kernel
  rw [hparse] at hmulticast
  have hread : (hdr'.transport 2).unicast = false := of_decide_eq_true hmulticast
  have hunicast := congrArg Transport.unicast (hstated 2 ⟨none, [.unicast, .clientPort 5000 5001]⟩ rfl)
  change (hdr'.transport 2).unicast = true at hunicast
  rw [hread] at hunicast
  cases hunicast

end TransportSpec

end WifiAudio
