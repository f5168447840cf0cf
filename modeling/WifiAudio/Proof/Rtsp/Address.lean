import WifiAudio.Lib.Decimal
import WifiAudio.Proof.Rtsp.Option
import Mathlib.Data.Fin.VecNotation

/-!
# Transport options with addresses

`get_ipaddr` reads its first number four times and moves nothing: an address is stored right when its
octets are the same, and behind the first octet there is no comma, so a pair of addresses is never
taken. Whether a text is an address at all is not looked at.
-/

namespace WifiAudio

open CString Except

/-- The options that take addresses. -/
inductive AddressOption
  | destination
  | source
  | srcAddr
  | destAddr
  deriving DecidableEq, Repr

namespace AddressOption

def keyword : AddressOption → Bytes
  | destination => ascii "destination="
  | source => ascii "source="
  | srcAddr => ascii "src_addr="
  | destAddr => ascii "dest_addr="

def dot : UInt8 := 46

/-- A decimal number up to 255. -/
def Octet (w : Bytes) (n : UInt8) : Prop := Digits w ∧ digitsValue 10 w = n.toNat

instance (w : Bytes) (n : UInt8) : Decidable (Octet w n) :=
  inferInstanceAs (Decidable ((w ≠ [] ∧ ∀ b ∈ w, 48 ≤ b.toNat ∧ b.toNat ≤ 57) ∧ _ = _))

/-- The text is the address, in dotted decimal. -/
def Dotted (text : Bytes) (a : IpAddr) : Prop :=
  ∃ w : Fin 4 → Bytes, text = w 0 ++ dot :: (w 1 ++ dot :: (w 2 ++ dot :: w 3)) ∧ ∀ i, Octet (w i) (a i)

/-- Two addresses with a comma between them. -/
def DottedPair (text : Bytes) (a b : IpAddr) : Prop :=
  ∃ first second, text = first ++ comma :: second ∧ Dotted first a ∧ Dotted second b

/-- `text` behind the keyword states the addresses that make `t` into `t'`. -/
def States (t t' : Transport) (text : Bytes) : AddressOption → Prop
  | destination => ∃ a, Dotted text a ∧ t' = { t with destination := a }
  | source => ∃ a, Dotted text a ∧ t' = { t with source := a }
  | srcAddr => ∃ a b, DottedPair text a b ∧ t' = { t with srcAddr := (a, b) }
  | destAddr => ∃ a b, DottedPair text a b ∧ t' = { t with destAddr := (a, b) }

/-- What the option states is stored; a text that states no address is rejected. -/
def Stored (m : Bytes) (p : ℕ) (t : Transport) (text : Bytes) (option : AddressOption) : Prop :=
  (∀ t', option.States t t' text → Parser.parseTransportOption m t p = .ok (true, t')) ∧
  ((∀ t', ¬option.States t t' text) → ∃ t', Parser.parseTransportOption m t p = .ok (false, t'))

/-- One address has the same octet four times. A pair is none, and what `strtoll` leaves of the text does
not start with a comma. -/
def StoredRight (text : Bytes) : AddressOption → Prop
  | destination | source => ∃ n, Dotted text fun _ => n
  | srcAddr | destAddr => (∀ a b, ¬DottedPair text a b) ∧
      (Parser.numberOf 10 text).2.head? ≠ some comma

/-! ### Octets -/

variable {text w rest : Bytes} {n : UInt8} {a b : IpAddr}

theorem forall_octets {P : Fin 4 → Prop} (h0 : P 0) (h1 : P 1) (h2 : P 2) (h3 : P 3) (i : Fin 4) :
    P i := by
  have hi : ∀ i : Fin 4, i = 0 ∨ i = 1 ∨ i = 2 ∨ i = 3 := by decide
  obtain rfl | rfl | rfl | rfl := hi i
  · exact h0
  · exact h1
  · exact h2
  · exact h3

theorem Octet.free (h : Octet w n) : dot ∉ w := by
  intro hin
  exact absurd (h.1.2 dot hin).1 (by decide)

theorem Octet.unique {n' : UInt8} (h : Octet w n) (h' : Octet w n') : n = n' :=
  UInt8.toNat_inj.1 (h.2.symm.trans h'.2)

theorem Octet.number (h : Octet w n) (hrest : ∀ b ∈ rest.head?, isDigit 10 b = false) :
    Parser.numberOf 10 (w ++ rest) = ((n.toNat : ℤ), rest) := by
  obtain ⟨hdigits, hvalue⟩ := h
  have hlt : n.toNat < 256 := n.toNat_lt
  have hsmall : min (2 ^ 63 - 1) (digitsValue 10 w : ℤ) = n.toNat := by
    rw [hvalue]
    omega
  rw [Parser.numberOf, strtoll_digits hdigits hrest, List.drop_left, hsmall, toInt,
    Int.bmod_eq_of_le (by omega) (by omega)]

theorem dot_no_digit : ∀ b ∈ (dot :: rest).head?, isDigit 10 b = false := by
  intro b hb
  obtain rfl := Option.some.inj hb
  rfl

theorem Dotted.number (h : Dotted text a) (rest : Bytes) :
    ∃ behind, Parser.numberOf 10 (text ++ rest) = (((a 0).toNat : ℤ), dot :: behind) := by
  obtain ⟨w, rfl, hoctets⟩ := h
  rw [List.append_assoc]
  exact ⟨_, (hoctets 0).number dot_no_digit⟩

theorem Dotted.unique (h : Dotted text a) (h' : Dotted text b) : a = b := by
  obtain ⟨w, rfl, hoctets⟩ := h
  obtain ⟨w', hsame, hoctets'⟩ := h'
  have hsplit := congrArg (List.splitOn dot) hsame
  simp only [splitOn_append (hoctets _).free, splitOn_append (hoctets' _).free,
    List.splitOn_eq_singleton (hoctets 3).free, List.splitOn_eq_singleton (hoctets' 3).free,
    List.cons.injEq, and_true] at hsplit
  obtain ⟨h0, h1, h2, h3⟩ := hsplit
  have hw : ∀ i, w i = w' i := forall_octets h0 h1 h2 h3
  funext i
  have hi := hoctets i
  rw [hw i] at hi
  exact hi.unique (hoctets' i)

/-! ### The options -/

theorem foldl_update (n : UInt8) (addr : IpAddr) :
    (List.finRange 4).foldl (fun addr i => Function.update addr i n) addr = fun _ => n := by
  funext i
  apply forall_octets _ _ _ _ i <;> rfl

theorem addressOf_eq (text : Bytes) (addr : IpAddr) :
    Parser.addressOf text addr = fun _ => UInt8.ofInt (Parser.numberOf 10 text).1 :=
  foldl_update _ addr

theorem Dotted.address (h : Dotted text a) (addr : IpAddr) :
    Parser.addressOf text addr = fun _ => a 0 := by
  obtain ⟨behind, hnumber⟩ := h.number []
  rw [List.append_nil] at hnumber
  rw [addressOf_eq, hnumber]
  funext i
  have hlt := (a 0).toNat_lt
  apply UInt8.toNat_inj.1
  rw [UInt8.ofInt, UInt8.toNat_ofNat']
  omega

variable {m : Bytes} {p : ℕ} {t : Transport}

theorem stored_one_iff {option : AddressOption} (set : IpAddr → Transport)
    (hset : ∀ a b, set a = set b → a = b)
    (hstates : ∀ t', option.States t t' text ↔ ∃ a, Dotted text a ∧ t' = set a)
    (hparse : Parser.parseTransportOption m t p =
      .ok (true, set fun _ => UInt8.ofInt (Parser.numberOf 10 text).1)) :
    option.Stored m p t text ↔ ∃ n, Dotted text fun _ => n := by
  rw [Stored, hparse]
  constructor
  · rintro ⟨hstored, hrejected⟩
    by_cases hdotted : ∃ a, Dotted text a
    · obtain ⟨a, ha⟩ := hdotted
      have hsame := hstored (set a) ((hstates _).2 ⟨a, ha, rfl⟩)
      have haddr := ha.address a
      rw [addressOf_eq] at haddr
      rw [haddr] at hsame
      have hall := hset _ _ (Prod.mk.inj (Except.ok.inj hsame)).2
      exact ⟨a 0, hall ▸ ha⟩
    · obtain ⟨t', hfalse⟩ := hrejected fun t' ht' => by
        obtain ⟨a, ha, -⟩ := (hstates t').1 ht'
        exact hdotted ⟨a, ha⟩
      cases (Prod.mk.inj (Except.ok.inj hfalse)).1
  · rintro ⟨n, hn⟩
    constructor
    · intro t' ht'
      obtain ⟨a, ha, rfl⟩ := (hstates t').1 ht'
      have haddr := hn.address a
      rw [addressOf_eq] at haddr
      rw [haddr, ha.unique hn]
    · intro hnone
      exact absurd ((hstates _).2 ⟨_, hn, rfl⟩) (hnone _)

/-- An option with two addresses is taken where a comma follows the first number. -/
theorem stored_two_iff {option : AddressOption} (set : IpAddr × IpAddr → Transport)
    (hstates : ∀ t', option.States t t' text ↔ ∃ a b, DottedPair text a b ∧ t' = set (a, b))
    (hparse : ∃ t', Parser.parseTransportOption m t p =
      .ok (decide ((Parser.numberOf 10 text).2.head? = some comma), t')) :
    option.Stored m p t text ↔ (∀ a b, ¬DottedPair text a b) ∧
      (Parser.numberOf 10 text).2.head? ≠ some comma := by
  obtain ⟨t₁, hparse⟩ := hparse
  rw [Stored, hparse]
  constructor
  · rintro ⟨hstored, hrejected⟩
    have hnone : ∀ a b, ¬DottedPair text a b := by
      intro a b hpair
      have hsame := hstored (set (a, b)) ((hstates _).2 ⟨a, b, hpair, rfl⟩)
      have hcomma := of_decide_eq_true (Prod.mk.inj (Except.ok.inj hsame)).1
      obtain ⟨first, second, rfl, hfirst, -⟩ := hpair
      obtain ⟨behind, hnumber⟩ := hfirst.number (comma :: second)
      rw [hnumber] at hcomma
      cases hcomma
    refine ⟨hnone, ?_⟩
    obtain ⟨t', hfalse⟩ := hrejected fun t' ht' => by
      obtain ⟨a, b, hpair, -⟩ := (hstates t').1 ht'
      exact hnone a b hpair
    exact of_decide_eq_false (Prod.mk.inj (Except.ok.inj hfalse)).1
  · rintro ⟨hnone, hcomma⟩
    constructor
    · intro t' ht'
      obtain ⟨a, b, hpair, -⟩ := (hstates t').1 ht'
      exact absurd hpair (hnone a b)
    · intro _
      rw [decide_eq_false hcomma]
      exact ⟨t₁, rfl⟩

theorem iprangeOf_eq (l : Bytes) (t : Transport) (field : Parser.OptionField (IpAddr × IpAddr)) :
    ∃ t', Parser.iprangeOf l t field =
      (decide ((Parser.numberOf 10 l).2.head? = some comma), t') := by
  unfold Parser.iprangeOf
  simp only []
  cases hhead : (Parser.numberOf 10 l).2 with
  | nil => exact ⟨_, rfl⟩
  | cons b behind =>
      by_cases hb : b = comma
      · subst hb
        exact ⟨_, rfl⟩
      · rw [if_pos (show List.headD (b :: behind) 0 ≠ comma from hb), decide_eq_false (by simpa using hb)]
        exact ⟨_, rfl⟩

/-- An option with addresses is stored, and another text rejected, exactly for an address with four
equal octets, and where two are asked for, for a text that is no pair of addresses and has no comma
behind its first number. -/
theorem stored_iff (option : AddressOption) (text m : Bytes) (p : ℕ)
    (hstring : string m p = .ok (option.keyword ++ text)) (t : Transport) :
    option.Stored m p t text ↔ option.StoredRight text := by
  have hparse := Parser.parseTransportOption_string hstring t
  cases option with
  | destination =>
      apply stored_one_iff (fun a => { t with destination := a })
      · intro a b hsame
        exact congrArg Transport.destination hsame
      · intro t'
        exact Iff.rfl
      · rw [hparse, ← addressOf_eq text t.destination]
        rfl
  | source =>
      apply stored_one_iff (fun a => { t with source := a })
      · intro a b hsame
        exact congrArg Transport.source hsame
      · intro t'
        exact Iff.rfl
      · rw [hparse, ← addressOf_eq text t.source]
        rfl
  | srcAddr =>
      apply stored_two_iff (fun v => { t with srcAddr := v })
      · intro t'
        exact Iff.rfl
      · obtain ⟨t', ht'⟩ := iprangeOf_eq text t
          ⟨ascii "src_addr=", (·.srcAddr), fun v t => { t with srcAddr := v }⟩
        refine ⟨t', ?_⟩
        rw [hparse, ← ht']
        rfl
  | destAddr =>
      apply stored_two_iff (fun v => { t with destAddr := v })
      · intro t'
        exact Iff.rfl
      · obtain ⟨t', ht'⟩ := iprangeOf_eq text t
          ⟨ascii "dest_addr=", (·.destAddr), fun v t => { t with destAddr := v }⟩
        refine ⟨t', ?_⟩
        rw [hparse, ← ht']
        rfl

/-- An address with four equal octets. -/
theorem ten_stored : ∃ n, Dotted (ascii "10.10.10.10") (fun _ => n) ∧
    destination.Stored (ascii "destination=10.10.10.10" ++ [0]) 0 {} (ascii "10.10.10.10") := by
  have hten : Dotted (ascii "10.10.10.10") fun _ => 10 :=
    ⟨fun _ => ascii "10", by decide +kernel, fun _ => (by decide +kernel : Octet (ascii "10") 10)⟩
  have hstring : string (ascii "destination=10.10.10.10" ++ [0]) 0 =
      .ok (destination.keyword ++ ascii "10.10.10.10") :=
    string_eq_ok.2 ⟨by decide +kernel, [], by decide +kernel⟩
  exact ⟨10, hten, (stored_iff destination _ _ 0 hstring {}).2 ⟨10, hten⟩⟩

theorem dotted_of_octets {text : Bytes} {w : Fin 4 → Bytes} {a : IpAddr}
    (htext : text = w 0 ++ dot :: (w 1 ++ dot :: (w 2 ++ dot :: w 3)))
    (hoctets : ∀ i, Octet (w i) (a i)) : Dotted text a := ⟨w, htext, hoctets⟩

def homeAddr : IpAddr := ![192, 168, 1, 1]

def groupAddr : IpAddr := ![224, 0, 0, 1]

theorem home_dotted : Dotted (ascii "192.168.1.1") homeAddr :=
  dotted_of_octets (w := ![ascii "192", ascii "168", ascii "1", ascii "1"]) (by decide +kernel)
    (forall_octets (by decide +kernel) (by decide +kernel) (by decide +kernel) (by decide +kernel))

theorem group_dotted : Dotted (ascii "224.0.0.1") groupAddr :=
  dotted_of_octets (w := ![ascii "224", ascii "0", ascii "0", ascii "1"]) (by decide +kernel)
    (forall_octets (by decide +kernel) (by decide +kernel) (by decide +kernel) (by decide +kernel))

/-- Four times the first octet is stored, a pair of addresses is rejected, and a name is taken for an
address. -/
theorem addresses_not_stored :
    ¬destination.Stored (ascii "destination=192.168.1.1" ++ [0]) 0 {} (ascii "192.168.1.1") ∧
    ¬srcAddr.Stored (ascii "src_addr=192.168.1.1,224.0.0.1" ++ [0]) 0 {}
      (ascii "192.168.1.1,224.0.0.1") ∧
    ¬destination.Stored (ascii "destination=camera" ++ [0]) 0 {} (ascii "camera") := by
  refine ⟨?_, ?_, ?_⟩
  · rintro ⟨hstored, -⟩
    have hparse := hstored _ ⟨homeAddr, home_dotted, rfl⟩
    have hread : ((Parser.parseTransportOption (ascii "destination=192.168.1.1" ++ [0]) {} 0).toOption.all
        fun r => r.2.destination 1 = 192) = true := by decide +kernel
    rw [hparse] at hread
    have hoctet : homeAddr 1 = 192 := of_decide_eq_true hread
    exact absurd hoctet (by decide)
  · rintro ⟨hstored, -⟩
    have hparse := hstored _ ⟨homeAddr, groupAddr, ⟨_, _, rfl, home_dotted, group_dotted⟩, rfl⟩
    have hread : ((Parser.parseTransportOption (ascii "src_addr=192.168.1.1,224.0.0.1" ++ [0]) {} 0).toOption.all
        fun r => r.1 = false) = true := by decide +kernel
    rw [hparse] at hread
    cases hread
  · rintro ⟨-, hrejected⟩
    obtain ⟨t', hparse⟩ := hrejected fun t' ht' => by
      obtain ⟨a, ⟨w, htext, -⟩, -⟩ := ht'
      have hdot : dot ∈ ascii "camera" := htext ▸ List.mem_append_right _ List.mem_cons_self
      exact absurd hdot (by decide)
    have hread : ((Parser.parseTransportOption (ascii "destination=camera" ++ [0]) {} 0).toOption.all
        fun r => r.1 = true) = true := by decide +kernel
    rw [hparse] at hread
    cases hread

end AddressOption

end WifiAudio
