import WifiAudio.Audio.Decode
import WifiAudio.Lib.Except
import Mathlib.Algebra.Order.Group.Int

/-!
# The room for decoded samples

The size of the output is in bytes and is passed on as the frame size, which counts samples for each
channel, and an error comes back as an unsigned number. So a packet is decoded as promised only into no
room at all, where libopus has nothing to write.
-/

namespace WifiAudio

open Except AudioCodec

variable {δ : Type}

/-- The frame size fits the output, and what is returned is the number of samples written for each channel,
or 0 for an error. -/
structure Decoded.Fits (r : Decoded δ) (codec : OpusCodec) (obytes : UInt32) : Prop where
  frame : r.frameSize * numChans (.opus codec) * sampleSize (.opus codec) ≤ obytes.toNat
  written : 0 ≤ r.samples → r.result = r.samples ∧ (r.result : ℤ) ≤ r.frameSize ∧
    r.pcm.length = r.result * numChans (.opus codec)
  failed : r.samples < 0 → r.result = 0

/-- `decode` returns, and as it should. -/
def OpusCodec.DecodesRight (codec : OpusCodec) (lib : OpusDecoder δ codec.config.chans.toNat) (d : δ)
    (src : Bytes) (obytes : UInt32) : Prop :=
  ∃ r, codec.decode lib d src obytes = .ok r ∧ r.Fits codec obytes

theorem result_ne_zero {samples : ℤ} (hlow : -2 ^ 31 ≤ samples) (hneg : samples < 0) :
    (samples % 2 ^ 32).toNat ≠ 0 := by
  omega

theorem frameSize_cases (obytes : UInt32) :
    toInt obytes.toNat = obytes.toNat ∨ toInt obytes.toNat < 0 := by
  have hlt := obytes.toNat_lt
  rcases Nat.lt_or_ge obytes.toNat (2 ^ 31) with hsmall | hlarge
  · exact .inl (Int.bmod_eq_of_le (by omega) (by omega))
  · refine .inr ?_
    rw [toInt, Int.bmod_def, Int.emod_eq_of_lt (by omega) (by omega), if_neg (by omega)]
    omega

/-- A call of `decode` is a call of `opus_decode`. -/
theorem OpusCodec.decode_eq_ok {chans : ℕ} {codec : OpusCodec} {lib : OpusDecoder δ chans} {d : δ}
    {src : Bytes} {obytes : UInt32} {r : Decoded δ} :
    codec.decode lib d src obytes = .ok r ↔ codec.config.decode ∧ r.frameSize = toInt obytes.toNat ∧
      lib.decode d src (toInt src.length) r.frameSize = (r.pcm, r.samples, r.decoder) ∧
      r.result = (r.samples % 2 ^ 32).toNat := by
  obtain ⟨frameSize, pcm, samples, result, decoder⟩ := r
  rw [OpusCodec.decode]
  by_cases hdecode : codec.config.decode = true
  · cases hcall : lib.decode d src (toInt src.length) (toInt obytes.toNat) with
    | mk pcm' call =>
    obtain ⟨samples', d'⟩ := call
    simp only [hdecode, if_true, hcall, Except.ok.injEq, Decoded.mk.injEq, true_and]
    constructor
    · rintro ⟨rfl, rfl, rfl, rfl, rfl⟩
      exact ⟨rfl, hcall, rfl⟩
    · rintro ⟨hframe, hcall', hresult⟩
      rw [hframe, hcall] at hcall'
      obtain ⟨hpcm, hsamples, hd⟩ : pcm' = pcm ∧ samples' = samples ∧ d' = decoder := by
        simpa using hcall'
      exact ⟨hframe.symm, hpcm, hsamples, hsamples ▸ hresult.symm, hd⟩
  · rw [if_neg hdecode]
    exact iff_of_false (fun h => by cases h) fun h => hdecode h.1

theorem OpusDecoder.call {chans : ℕ} {lib : OpusDecoder δ chans} {d d' : δ} {src : Bytes}
    {len frameSize samples : ℤ} {pcm : List Int16}
    (hcall : lib.decode d src len frameSize = (pcm, samples, d')) : -2 ^ 31 ≤ samples ∧
      (0 ≤ samples → samples ≤ frameSize ∧ (pcm.length : ℤ) = samples * chans) := by
  have hreturns := lib.returns d src len frameSize
  have hwrites := lib.writes d src len frameSize
  rw [hcall] at hreturns hwrites
  exact ⟨hreturns, hwrites⟩

/-- A packet is decoded right if and only if the codec has a decoder, there is no room for the output, and
`opus_decode`, asked for no samples, reports no error. -/
theorem OpusCodec.decodes_right_iff (codec : OpusCodec)
    (hchans : codec.config.chans = 1 ∨ codec.config.chans = 2)
    (lib : OpusDecoder δ codec.config.chans.toNat) (d : δ) (src : Bytes) (obytes : UInt32) :
    codec.DecodesRight lib d src obytes ↔
      codec.config.decode ∧ obytes = 0 ∧ 0 ≤ (lib.decode d src (toInt src.length) 0).2.1 := by
  have hpos : 0 < codec.config.chans.toNat := by
    rcases hchans with h | h <;> rw [h] <;> decide
  constructor
  · rintro ⟨r, hr, hframe, -, hfailed⟩
    obtain ⟨hdecode, hsize, hcall, hresult⟩ := decode_eq_ok.1 hr
    obtain ⟨hlow, hwrites⟩ := OpusDecoder.call hcall
    have hsamples : 0 ≤ r.samples := by
      by_contra hneg
      exact result_ne_zero hlow (not_le.1 hneg) (hresult ▸ hfailed (not_le.1 hneg))
    obtain ⟨hle, -⟩ := hwrites hsamples
    have hbytes : r.frameSize = obytes.toNat := by
      rcases frameSize_cases obytes with hbytes | hneg
      · exact hsize.trans hbytes
      · exact absurd (hsize ▸ hneg) (not_lt.2 (hsamples.trans hle))
    have hzero : obytes.toNat = 0 := by
      by_contra hne
      have hprod := Nat.mul_le_mul_left obytes.toNat hpos
      rw [hbytes] at hframe
      have hroom : obytes.toNat * codec.config.chans.toNat * 2 ≤ obytes.toNat := by
        exact_mod_cast hframe
      omega
    rw [hbytes, hzero] at hcall
    refine ⟨hdecode, UInt32.toNat_inj.1 hzero, ?_⟩
    change 0 ≤ (lib.decode d src (toInt src.length) ((0 : ℕ) : ℤ)).2.1
    rw [hcall]
    exact hsamples
  · rintro ⟨hdecode, rfl, hsamples⟩
    obtain ⟨pcm, samples, d', hcall⟩ :
        ∃ pcm samples d', lib.decode d src (toInt src.length) 0 = (pcm, samples, d') := ⟨_, _, _, rfl⟩
    rw [hcall] at hsamples
    obtain ⟨hle, hpcm⟩ := (OpusDecoder.call hcall).2 hsamples
    obtain rfl : samples = 0 := le_antisymm hle hsamples
    have hzero : 0 = toInt (0 : UInt32).toNat := by decide
    refine ⟨⟨0, pcm, 0, 0, d'⟩, decode_eq_ok.2 ⟨hdecode, hzero, hcall, rfl⟩, ?_, ?_, fun _ => rfl⟩
    · exact le_of_eq (by simp)
    · intro _
      exact ⟨rfl, le_refl 0, by simpa using hpcm⟩

/-- Three frames of silence, 20 ms each. -/
def silentPacket : Bytes := [0xff, 0x03, 0xff, 0xfe, 0xff, 0xfe, 0xff, 0xfe]

/-- A decoder at 48 kHz that knows one packet. A frame size that is not positive is a bad argument, any
other packet is invalid, and room for fewer than its 2880 samples is too small. -/
def silence (chans : ℕ) : OpusDecoder Unit chans where
  decode _ packet _ frameSize :=
    if frameSize ≤ 0 then ([], -1, ())
    else if packet ≠ silentPacket then ([], -4, ())
    else if frameSize < 2880 then ([], -2, ())
    else (List.replicate (2880 * chans) 0, 2880, ())
  returns _ packet _ frameSize := by
    repeat' split
    all_goals simp only []
    all_goals omega
  writes _ packet _ frameSize := by
    split
    · intro h
      cases h
    split
    · intro h
      cases h
    split
    · intro h
      cases h
    · intro _
      refine ⟨by simp only []; omega, ?_⟩
      rw [List.length_replicate]
      exact Int.natCast_mul 2880 chans

/-- A stereo codec with a decoder. -/
def stereo : OpusCodec where
  encoder := true
  samplesPerBlock := 2880
  config := ⟨96000, 5, 60, 48000, 2, .audio, true, true⟩

/-- The output of a block, 11520 bytes, is said to have room for 11520 samples of each channel, and the
error for a packet without the frame count it announces is returned as a size. -/
theorem decode_not_right :
    (∃ r, stereo.decode (silence 2) () silentPacket 11520 = .ok r ∧ r.frameSize = 11520 ∧
      ¬r.Fits stereo 11520) ∧
    ∃ r, stereo.decode (silence 2) () [0x03] 11520 = .ok r ∧ r.samples = -4 ∧ r.result = 2 ^ 32 - 4 ∧
      ¬r.Fits stereo 11520 := by
  refine ⟨⟨_, rfl, by decide +kernel, ?_⟩, ⟨_, rfl, by decide +kernel, by decide +kernel, ?_⟩⟩
  · intro hfits
    exact absurd hfits.frame (by decide +kernel)
  · intro hfits
    exact absurd (hfits.failed (by decide +kernel)) (by decide +kernel)

/-- With no room for samples libopus reports an error, which is returned as a size. -/
theorem no_room_not_right : ¬stereo.DecodesRight (silence 2) () silentPacket 0 := by
  intro hright
  obtain ⟨-, -, hsamples⟩ := (stereo.decodes_right_iff (.inr rfl) (silence 2) () _ 0).1 hright
  exact absurd hsamples (by decide +kernel)

end WifiAudio
