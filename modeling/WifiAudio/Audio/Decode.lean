import WifiAudio.Audio.Codec

/-!
# The Opus decoder

`OpusCodec::decode` of `audio_codec_opus.cpp` hands a packet to libopus. The library is told how many
samples for each channel there is room for, and returns how many it has written, or an error, which is
negative.
-/

namespace WifiAudio

/-- The decoder of libopus for `chans` channels: `opus_decode` is given a packet, its length and the
frame size, and leaves samples at the output and returns an `int`. -/
structure OpusDecoder (δ : Type) (chans : ℕ) where
  decode : δ → Bytes → ℤ → ℤ → List Int16 × ℤ × δ
  returns : ∀ d packet len frameSize, -2 ^ 31 ≤ (decode d packet len frameSize).2.1
  writes : ∀ d packet len frameSize, 0 ≤ (decode d packet len frameSize).2.1 →
    (decode d packet len frameSize).2.1 ≤ frameSize ∧
      ((decode d packet len frameSize).1.length : ℤ) = (decode d packet len frameSize).2.1 * chans

/-- A call of `decode`: the frame size `opus_decode` was given, what it wrote and returned, and what
`decode` returned. -/
structure Decoded (δ : Type) where
  frameSize : ℤ
  pcm : List Int16
  samples : ℤ
  result : ℕ
  decoder : δ

/-- `decode` of the packet `src`; the output has room for `obytes` bytes. The constructor makes the
decoder that the ASSERT asks for where the configuration says so. -/
def OpusCodec.decode {δ : Type} {chans : ℕ} (codec : OpusCodec) (lib : OpusDecoder δ chans) (d : δ)
    (src : Bytes) (obytes : UInt32) : Except Fault (Decoded δ) :=
  if codec.config.decode then
    let frameSize := toInt obytes.toNat
    let (pcm, samples, d) := lib.decode d src (toInt src.length) frameSize
    .ok ⟨frameSize, pcm, samples, (samples % 2 ^ 32).toNat, d⟩
  else .error .assertFailed

end WifiAudio
