import WifiAudio.Rtp.Packet
import Mathlib.Data.Nat.Bitwise
import Mathlib.Tactic.IntervalCases

/-!
# The fields of a packet header

Version and payload type share their bytes with bits that have no setter. What a setter does is said in
the fields of the header alone: its own field holds the argument, cut to the width of the field, and
everything else is as before. The fields make up the header, so setters of different fields commute.
-/

namespace WifiAudio

namespace RtpHeader

/-- The fields that can be set. -/
inductive Field
  | version
  | payload
  | seq
  | timestamp
  | ssrc
  deriving DecidableEq, Repr

def Field.width : Field → ℕ
  | version => 2
  | payload => 7
  | seq => 16
  | timestamp => 32
  | ssrc => 32

/-- A call of a setter. -/
inductive Setter
  | setVersion (v : UInt8)
  | setPayload (pt : UInt8)
  | setSeq (seq : UInt16)
  | setTimestamp (ts : UInt32)
  | setSsrc (ssrc : UInt32)
  deriving DecidableEq, Repr

def Setter.field : Setter → Field
  | setVersion _ => .version
  | setPayload _ => .payload
  | setSeq _ => .seq
  | setTimestamp _ => .timestamp
  | setSsrc _ => .ssrc

def Setter.arg : Setter → ℕ
  | setVersion v => v.toNat
  | setPayload pt => pt.toNat
  | setSeq seq => seq.toNat
  | setTimestamp ts => ts.toNat
  | setSsrc ssrc => ssrc.toNat

/-- The header after a call. -/
def apply (h : RtpHeader) : Setter → RtpHeader
  | .setVersion v => h.setVersion v
  | .setPayload pt => h.setPayload pt
  | .setSeq seq => h.setSeq seq
  | .setTimestamp ts => h.setTimestamp ts
  | .setSsrc ssrc => h.setSsrc ssrc

/-- The number a field holds. -/
def get (h : RtpHeader) : Field → ℕ
  | .version => h.version
  | .payload => h.payloadType
  | .seq => h.seq
  | .timestamp => h.timestamp
  | .ssrc => h.ssrc

/-- The argument of the last call that sets the field. -/
def lastArg (field : Field) (calls : List Setter) : Option ℕ :=
  (calls.reverse.find? fun s => s.field = field).map Setter.arg

/-- The bits that have no setter are the same. -/
structure SameFlags (h h' : RtpHeader) : Prop where
  padding : h.padding = h'.padding
  extension : h.extension = h'.extension
  csrcCount : h.csrcCount = h'.csrcCount
  marker : h.marker = h'.marker

/-! ### The shared bytes -/

theorem toNat_setU8_version (head v : UInt8) :
    (setU8 head v 0x03 6).toNat = v.toNat % 4 * 64 + head.toNat % 64 := by
  have hlow : head.toNat &&& 63 = head.toNat % 64 := Nat.and_two_pow_sub_one_eq_mod head.toNat 6
  have harg : v.toNat &&& 3 = v.toNat % 4 := Nat.and_two_pow_sub_one_eq_mod v.toNat 2
  have hmask : (~~~((0x03 : UInt8) <<< 6)).toNat = 63 := by decide
  have hdisjoint := Nat.two_pow_add_eq_or_of_lt (i := 6) (b := head.toNat % 64)
    (Nat.mod_lt _ (by decide)) (v.toNat % 4)
  rw [setU8, UInt8.toNat_or, UInt8.toNat_and, hmask, hlow, UInt8.toNat_shiftLeft, UInt8.toNat_and]
  change _ ||| ((v.toNat &&& 3) <<< 6) % 256 = _
  rw [harg, Nat.shiftLeft_eq, Nat.mod_eq_of_lt (show v.toNat % 4 * 2 ^ 6 < 256 by omega), Nat.or_comm,
    Nat.mul_comm, ← hdisjoint, Nat.mul_comm]

theorem toNat_setU8_payload (head pt : UInt8) :
    (setU8 head pt 0x7f 0).toNat = head.toNat / 128 * 128 + pt.toNat % 128 := by
  have hlt := head.toNat_lt
  have harg : pt.toNat &&& 127 = pt.toNat % 128 := Nat.and_two_pow_sub_one_eq_mod pt.toNat 7
  have hmask : (~~~((0x7f : UInt8) <<< 0)).toNat = 2 ^ 7 := by decide
  have hflag : head.toNat &&& 2 ^ 7 = head.toNat / 128 * 128 := by
    rw [Nat.and_two_pow, Nat.testBit_eq_decide_div_mod_eq]
    rcases Nat.lt_or_ge head.toNat 128 with hlow | hhigh
    · rw [Nat.div_eq_of_lt hlow]
      rfl
    · rw [show head.toNat / 2 ^ 7 = 1 by omega, show head.toNat / 128 = 1 by omega]
      rfl
  have hdisjoint := Nat.two_pow_add_eq_or_of_lt (i := 7) (b := pt.toNat % 128)
    (Nat.mod_lt _ (by decide)) (head.toNat / 128)
  rw [setU8, UInt8.toNat_or, UInt8.toNat_and, hmask, hflag, UInt8.toNat_shiftLeft, UInt8.toNat_and]
  change _ ||| ((pt.toNat &&& 127) <<< 0) % 256 = _
  rw [harg, Nat.shiftLeft_zero, Nat.mod_eq_of_lt (show pt.toNat % 128 < 256 by omega), Nat.mul_comm,
    ← hdisjoint]

/-! ### One call -/

/-- The byte is one of the field's. -/
def Field.Has (field : Field) (i : ℕ) : Prop :=
  match field with
  | version => i = 0
  | payload => i = 1
  | seq => i = 2 ∨ i = 3
  | timestamp => 4 ≤ i ∧ i < 8
  | ssrc => 8 ≤ i ∧ i < 12

instance (field : Field) (i : ℕ) : Decidable (field.Has i) :=
  match field with
  | .version => inferInstanceAs (Decidable (i = 0))
  | .payload => inferInstanceAs (Decidable (i = 1))
  | .seq => inferInstanceAs (Decidable (i = 2 ∨ i = 3))
  | .timestamp => inferInstanceAs (Decidable (4 ≤ i ∧ i < 8))
  | .ssrc => inferInstanceAs (Decidable (8 ≤ i ∧ i < 12))

theorem Field.has_unique {field field' : Field} {i : ℕ} (h : field.Has i) (h' : field'.Has i) :
    field = field' := by
  cases field <;> cases field' <;> simp only [Field.Has] at h h' <;> first | rfl | omega

theorem get_congr {h h' : RtpHeader} {field : Field}
    (hbytes : ∀ i (hi : i < 12), field.Has i → h[i] = h'[i]) : h.get field = h'.get field := by
  cases field with
  | version => rw [get, get, version, version, hbytes 0 (by decide) rfl]
  | payload => rw [get, get, payloadType, payloadType, hbytes 1 (by decide) rfl]
  | seq =>
      rw [get, get, seq, seq, hbytes 2 (by decide) (by decide), hbytes 3 (by decide) (by decide)]
  | timestamp =>
      rw [get, get, timestamp, timestamp, hbytes 4 (by decide) (by decide),
        hbytes 5 (by decide) (by decide), hbytes 6 (by decide) (by decide),
        hbytes 7 (by decide) (by decide)]
  | ssrc =>
      rw [get, get, ssrc, ssrc, hbytes 8 (by decide) (by decide), hbytes 9 (by decide) (by decide),
        hbytes 10 (by decide) (by decide), hbytes 11 (by decide) (by decide)]

variable (h : RtpHeader)

theorem apply_getElem (s : Setter) {i : ℕ} (hi : i < 12) (hout : ¬s.field.Has i) :
    (h.apply s)[i] = h[i] := by
  cases s with
  | setVersion v =>
      rw [apply, setVersion, Vector.getElem_set_ne _ _ (Ne.symm hout)]
  | setPayload pt =>
      rw [apply, setPayload, Vector.getElem_set_ne _ _ (Ne.symm hout)]
  | setSeq seq =>
      simp only [Setter.field, Field.Has] at hout
      rw [apply, setSeq, Vector.getElem_set_ne _ _ (by omega), Vector.getElem_set_ne _ _ (by omega)]
  | setTimestamp ts =>
      simp only [Setter.field, Field.Has] at hout
      simp only [apply, setTimestamp, setU32]
      repeat rw [Vector.getElem_set_ne _ _ (by omega)]
  | setSsrc ssrc =>
      simp only [Setter.field, Field.Has] at hout
      simp only [apply, setSsrc, setU32]
      repeat rw [Vector.getElem_set_ne _ _ (by omega)]

theorem version_setVersion (v : UInt8) : (h.setVersion v).version = v.toNat % 4 := by
  rw [version, setVersion, Vector.getElem_set_self, toNat_setU8_version]
  omega

theorem payloadType_setPayload (pt : UInt8) : (h.setPayload pt).payloadType = pt.toNat % 128 := by
  rw [payloadType, setPayload, Vector.getElem_set_self, toNat_setU8_payload]
  omega

theorem ssrc_setSsrc (v : UInt32) : (h.setSsrc v).ssrc = v.toNat := by
  rw [← bigEndian_u32 v]
  simp [ssrc, setSsrc, setU32]

theorem get_apply_self (s : Setter) : (h.apply s).get s.field = s.arg % 2 ^ s.field.width := by
  cases s with
  | setVersion v => exact version_setVersion h v
  | setPayload pt => exact payloadType_setPayload h pt
  | setSeq seq => exact (seq_setSeq h seq).trans (Nat.mod_eq_of_lt seq.toNat_lt).symm
  | setTimestamp ts => exact (timestamp_setTimestamp h ts).trans (Nat.mod_eq_of_lt ts.toNat_lt).symm
  | setSsrc ssrc => exact (ssrc_setSsrc h ssrc).trans (Nat.mod_eq_of_lt ssrc.toNat_lt).symm

theorem get_apply_other {s : Setter} {field : Field} (hne : s.field ≠ field) :
    (h.apply s).get field = h.get field := by
  apply get_congr
  intro i hi hhas
  exact apply_getElem h s hi fun hown => hne (Field.has_unique hown hhas)

theorem SameFlags.refl : SameFlags h h := ⟨rfl, rfl, rfl, rfl⟩

theorem SameFlags.trans {h h' h'' : RtpHeader} (hfirst : SameFlags h h') (hsecond : SameFlags h' h'') :
    SameFlags h h'' :=
  ⟨hfirst.padding.trans hsecond.padding, hfirst.extension.trans hsecond.extension,
    hfirst.csrcCount.trans hsecond.csrcCount, hfirst.marker.trans hsecond.marker⟩

theorem SameFlags.symm {h h' : RtpHeader} (hsame : SameFlags h h') : SameFlags h' h :=
  ⟨hsame.padding.symm, hsame.extension.symm, hsame.csrcCount.symm, hsame.marker.symm⟩

/-- The flags lie in the low part of the first byte and at the top of the second. -/
theorem SameFlags.of_bytes {h h' : RtpHeader}
    (hfirst : (Vector.get h 0).toNat % 64 = (Vector.get h' 0).toNat % 64)
    (hsecond : (Vector.get h 1).toNat / 128 = (Vector.get h' 1).toNat / 128) : SameFlags h h' := by
  have hget : ∀ (x : RtpHeader), Vector.get x 0 = x[0] ∧ Vector.get x 1 = x[1] := fun x => ⟨rfl, rfl⟩
  rw [(hget h).1, (hget h').1] at hfirst
  rw [(hget h).2, (hget h').2] at hsecond
  constructor
  all_goals
    simp only [RtpHeader.padding, RtpHeader.extension, RtpHeader.csrcCount, RtpHeader.marker,
      Nat.testBit_eq_decide_div_mod_eq, decide_eq_decide]
    omega

theorem apply_flags (s : Setter) : SameFlags (h.apply s) h := by
  have hbyte : ∀ i : Fin 12, ¬s.field.Has i → Vector.get (h.apply s) i = Vector.get h i :=
    fun i hout => apply_getElem h s i.isLt hout
  cases s with
  | setVersion v =>
      have hfirst : Vector.get (h.apply (.setVersion v)) 0 = setU8 (Vector.get h 0) v 0x03 6 :=
        Vector.getElem_set_self _
      apply SameFlags.of_bytes
      · rw [hfirst, toNat_setU8_version]
        omega
      · rw [hbyte 1 Nat.one_ne_zero]
  | setPayload pt =>
      have hsecond : Vector.get (h.apply (.setPayload pt)) 1 = setU8 (Vector.get h 1) pt 0x7f 0 :=
        Vector.getElem_set_self _
      apply SameFlags.of_bytes
      · rw [hbyte 0 Nat.zero_ne_one]
      · rw [hsecond, toNat_setU8_payload]
        omega
  | setSeq _ | setTimestamp _ | setSsrc _ =>
      apply SameFlags.of_bytes
      · rw [hbyte 0 (by simp [Setter.field, Field.Has])]
      · rw [hbyte 1 (by simp [Setter.field, Field.Has])]

/-! ### Any number of calls -/

theorem digit_unique {v v' : ℕ} {b b' : UInt8} (h : v * 256 + b.toNat = v' * 256 + b'.toNat) :
    v = v' ∧ b = b' := by
  have hlt := b.toNat_lt
  have hlt' := b'.toNat_lt
  exact ⟨by omega, UInt8.toNat_inj.1 (by omega)⟩

theorem bigEndian_unique {a b a' b' : UInt8} (h : bigEndian [a, b] = bigEndian [a', b']) :
    a = a' ∧ b = b' := by
  obtain ⟨h, hb⟩ := digit_unique h
  exact ⟨(digit_unique h).2, hb⟩

theorem bigEndian_unique_four {a b c d a' b' c' d' : UInt8}
    (h : bigEndian [a, b, c, d] = bigEndian [a', b', c', d']) : a = a' ∧ b = b' ∧ c = c' ∧ d = d' := by
  obtain ⟨h, hd⟩ := digit_unique h
  obtain ⟨h, hc⟩ := digit_unique h
  exact ⟨(bigEndian_unique h).1, (bigEndian_unique h).2, hc, hd⟩

/-- A header is made up of its fields and flags. -/
theorem ext_fields {h h' : RtpHeader} (hget : ∀ field, h.get field = h'.get field)
    (hflags : SameFlags h h') : h = h' := by
  obtain ⟨hpadding, hextension, hcsrc, hmarker⟩ := hflags
  simp only [padding, extension, csrcCount, marker, Nat.testBit_eq_decide_div_mod_eq,
    decide_eq_decide] at hpadding hextension hcsrc hmarker
  have hfirst : h[0] = h'[0] := by
    have hversion : h[0].toNat / 64 = h'[0].toNat / 64 := hget .version
    exact UInt8.toNat_inj.1 (by omega)
  have hsecond : h[1] = h'[1] := by
    have hpayload : h[1].toNat % 128 = h'[1].toNat % 128 := hget .payload
    have hlt := h[1].toNat_lt
    have hlt' := h'[1].toNat_lt
    exact UInt8.toNat_inj.1 (by omega)
  have hseq : bigEndian [h[2], h[3]] = bigEndian [h'[2], h'[3]] := hget .seq
  have htimestamp : bigEndian [h[4], h[5], h[6], h[7]] = bigEndian [h'[4], h'[5], h'[6], h'[7]] :=
    hget .timestamp
  have hssrc : bigEndian [h[8], h[9], h[10], h[11]] = bigEndian [h'[8], h'[9], h'[10], h'[11]] :=
    hget .ssrc
  obtain ⟨h2, h3⟩ := bigEndian_unique hseq
  obtain ⟨h4, h5, h6, h7⟩ := bigEndian_unique_four htimestamp
  obtain ⟨h8, h9, h10, h11⟩ := bigEndian_unique_four hssrc
  apply Vector.ext
  intro i hi
  interval_cases i
  exacts [hfirst, hsecond, h2, h3, h4, h5, h6, h7, h8, h9, h10, h11]

/-- Setters of different fields commute. -/
theorem apply_comm {s s' : Setter} (hne : s.field ≠ s'.field) :
    (h.apply s).apply s' = (h.apply s').apply s := by
  apply ext_fields
  · intro field
    by_cases hfield : s'.field = field
    · subst hfield
      rw [get_apply_self, get_apply_other _ hne, get_apply_self]
    · rw [get_apply_other _ hfield]
      by_cases hfield' : s.field = field
      · subst hfield'
        rw [get_apply_self, get_apply_self]
      · rw [get_apply_other _ hfield', get_apply_other _ hfield', get_apply_other _ hfield]
  · exact ((apply_flags _ s').trans (apply_flags h s)).trans
      ((apply_flags _ s).trans (apply_flags h s')).symm

theorem lastArg_cons (s : Setter) (calls : List Setter) (field : Field) : lastArg field (s :: calls) =
    (lastArg field calls).or (if s.field = field then some s.arg else none) := by
  rw [lastArg, List.reverse_cons, List.find?_append, lastArg]
  cases calls.reverse.find? fun s => s.field = field with
  | some _ => rfl
  | none => by_cases hfield : s.field = field <;> simp [hfield]

/-- Any sequence of calls leaves in each field the argument of the last call for it, cut to the width of
the field, or what was there at the start, and the bits that have no setter as they were. Setters of
different fields commute. -/
theorem fields_applied (h : RtpHeader) (calls : List Setter) :
    (∀ field, (calls.foldl apply h).get field =
      ((lastArg field calls).map (· % 2 ^ field.width)).getD (h.get field)) ∧
    SameFlags (calls.foldl apply h) h ∧
    ∀ s s' : Setter, s.field ≠ s'.field → (h.apply s).apply s' = (h.apply s').apply s := by
  refine ⟨?_, ?_, fun s s' hne => apply_comm h hne⟩
  · intro field
    induction calls generalizing h with
    | nil => rfl
    | cons s calls ih =>
        rw [List.foldl_cons, ih, lastArg_cons]
        cases lastArg field calls with
        | some arg => rfl
        | none =>
            by_cases hfield : s.field = field
            · subst hfield
              rw [if_pos rfl]
              exact get_apply_self h s
            · rw [if_neg hfield]
              exact get_apply_other h hfield
  · induction calls generalizing h with
    | nil => exact SameFlags.refl h
    | cons s calls ih => exact (ih (h.apply s)).trans (apply_flags h s)

end RtpHeader

end WifiAudio
