import WifiAudio.Lib.CString

/-!
# RTP packet headers

`RTP_Header` of `rtp.h`: twelve bytes, written field by field. Decoding follows the layout of
RFC 3550: version, padding, extension and CSRC count in the first byte, marker and payload type in
the second, then sequence number, timestamp and SSRC in network byte order.
-/

namespace WifiAudio

abbrev RtpHeader := Vector UInt8 12

/-- Overwrite the bits of `mask`, shifted into place. -/
def setU8 (head data mask shift : UInt8) : UInt8 :=
  (head &&& ~~~(mask <<< shift)) ||| ((data &&& mask) <<< shift)

/-- The number bytes in network order stand for. -/
def bigEndian (bytes : Bytes) : ℕ := bytes.foldl (fun v b => v * 256 + b.toNat) 0

namespace RtpHeader

def setVersion (h : RtpHeader) (v : UInt8) : RtpHeader := h.set 0 (setU8 h[0] v 0x03 6)

def setPayload (h : RtpHeader) (pt : UInt8) : RtpHeader := h.set 1 (setU8 h[1] pt 0x7f 0)

/-- `set_u16` at byte 2. -/
def setSeq (h : RtpHeader) (seq : UInt16) : RtpHeader :=
  (h.set 2 (seq >>> 8).toUInt8).set 3 seq.toUInt8

/-- `set_u32` at byte `i`. -/
def setU32 (h : RtpHeader) (i : ℕ) (data : UInt32) (hi : i + 3 < 12 := by decide) : RtpHeader :=
  (((h.set i (data >>> 24).toUInt8).set (i + 1) (data >>> 16).toUInt8).set (i + 2)
    (data >>> 8).toUInt8).set (i + 3) data.toUInt8

def setTimestamp (h : RtpHeader) (ts : UInt32) : RtpHeader := h.setU32 4 ts

def setSsrc (h : RtpHeader) (ssrc : UInt32) : RtpHeader := h.setU32 8 ssrc

/-- The header of a new block. -/
def initial (pt : UInt8) : RtpHeader :=
  (((setVersion (.replicate 12 0) 2).setPayload pt).setTimestamp 0).setSsrc 0

/-! ### Decoding -/

def version (h : RtpHeader) : ℕ := h[0].toNat / 64
def padding (h : RtpHeader) : Bool := h[0].toNat.testBit 5
def extension (h : RtpHeader) : Bool := h[0].toNat.testBit 4
def csrcCount (h : RtpHeader) : ℕ := h[0].toNat % 16
def marker (h : RtpHeader) : Bool := h[1].toNat.testBit 7
def payloadType (h : RtpHeader) : ℕ := h[1].toNat % 128
def seq (h : RtpHeader) : ℕ := bigEndian [h[2], h[3]]
def timestamp (h : RtpHeader) : ℕ := bigEndian [h[4], h[5], h[6], h[7]]
def ssrc (h : RtpHeader) : ℕ := bigEndian [h[8], h[9], h[10], h[11]]

/-- The fields that are set when a block is made and never changed. -/
structure Fixed (h : RtpHeader) (pt : ℕ) : Prop where
  version : h.version = 2
  padding : h.padding = false
  extension : h.extension = false
  csrcCount : h.csrcCount = 0
  marker : h.marker = false
  payloadType : h.payloadType = pt
  ssrc : h.ssrc = 0

/-! ### What the setters of the running fields do -/

theorem bigEndian_u16 (v : UInt16) : bigEndian [(v >>> 8).toUInt8, v.toUInt8] = v.toNat := by
  have hlt := v.toNat_lt
  simp only [bigEndian, List.foldl_cons, List.foldl_nil, UInt16.toNat_toUInt8, UInt16.toNat_shiftRight,
    Nat.shiftRight_eq_div_pow, UInt16.reduceToNat, Nat.reduceMod, Nat.reducePow]
  omega

theorem bigEndian_u32 (v : UInt32) :
    bigEndian [(v >>> 24).toUInt8, (v >>> 16).toUInt8, (v >>> 8).toUInt8, v.toUInt8] = v.toNat := by
  have hlt := v.toNat_lt
  simp only [bigEndian, List.foldl_cons, List.foldl_nil, UInt32.toNat_toUInt8, UInt32.toNat_shiftRight,
    Nat.shiftRight_eq_div_pow, UInt32.reduceToNat, Nat.reduceMod, Nat.reducePow]
  omega

variable (h : RtpHeader)

@[simp] theorem seq_setSeq (v : UInt16) : (h.setSeq v).seq = v.toNat := by
  rw [← bigEndian_u16 v]
  simp [seq, setSeq]

@[simp] theorem timestamp_setTimestamp (v : UInt32) : (h.setTimestamp v).timestamp = v.toNat := by
  rw [← bigEndian_u32 v]
  simp [timestamp, setTimestamp, setU32]

@[simp] theorem seq_setTimestamp (v : UInt32) : (h.setTimestamp v).seq = h.seq := by
  simp [seq, setTimestamp, setU32]

theorem Fixed.stamp {h : RtpHeader} {pt : ℕ} (hfixed : h.Fixed pt) (seq : UInt16) (ts : UInt32) :
    ((h.setSeq seq).setTimestamp ts).Fixed pt := by
  have hbyte : ∀ i (hi : i < 12), i < 2 ∨ 8 ≤ i → ((h.setSeq seq).setTimestamp ts)[i] = h[i] := by
    intro i hi hout
    simp only [setTimestamp, setU32, setSeq]
    repeat rw [Vector.getElem_set_ne _ _ (by omega)]
  constructor
  all_goals
    simp only [RtpHeader.version, RtpHeader.padding, RtpHeader.extension, RtpHeader.csrcCount,
      RtpHeader.marker, RtpHeader.payloadType, RtpHeader.ssrc, hbyte, Nat.reduceLT, Nat.reduceLeDiff,
      or_true, true_or]
  exacts [hfixed.version, hfixed.padding, hfixed.extension, hfixed.csrcCount, hfixed.marker,
    hfixed.payloadType, hfixed.ssrc]

end RtpHeader

end WifiAudio
