import WifiAudio.Audio.Codec
import WifiAudio.Lib.Except

/-!
# The stored parameters of the Opus codec

The values `make_opus` reads are validated one by one, then `AudioCodec::create` asserts some of them
again and the codec works out its frame length. The two checks differ at the low bit rates, and the
sample rate is only held within a range: the frame length is counted at 48 kHz whatever it is.
-/

namespace WifiAudio

open Except

namespace AudioCodec

/-- The sample rates `opus_encoder_create` accepts. -/
def encoderRates : List ℕ := [8000, 12000, 16000, 24000, 48000]

/-- The frame lengths of Opus, in tenths of a millisecond. -/
def frameLengths : List ℕ := [25, 50, 100, 200, 400, 600, 800, 1000, 1200]

/-- The encoder is made with a rate it accepts, and a block lasts as long as a frame at that rate. -/
def CanEncode (codec : OpusCodec) : Prop :=
  codec.config.fs.toNat ∈ encoderRates ∧
    ∃ t ∈ frameLengths, codec.samplesPerBlock.toNat * 10000 = codec.config.fs.toNat * t

instance (codec : OpusCodec) : Decidable (CanEncode codec) := inferInstanceAs (Decidable (_ ∧ _))

/-- Every stored value passes its validator. -/
structure StoredValid (db : Storage) : Prop where
  bitRate : ∀ v ∈ db (ascii "bit_rate"), validateBitRate v
  complexity : ∀ v ∈ db (ascii "complexity"), validateComplexity v
  packetRate : ∀ v ∈ db (ascii "packet_rate"), validateRate v
  fs : ∀ v ∈ db (ascii "fs"), validateFs v
  chans : ∀ v ∈ db (ascii "chans"), validateChans v
  app : ∀ v ∈ db (ascii "app"), validateApp v

/-- The stored bit rate, packet rate and sample rate, or their defaults. -/
def storedBitRate (db : Storage) : ℤ := (db (ascii "bit_rate")).getD 96000
def storedPacketRate (db : Storage) : ℤ := (db (ascii "packet_rate")).getD 60
def storedFs (db : Storage) : ℤ := (db (ascii "fs")).getD 48000

/-- The packet rates whose blocks, of as many milliseconds at 48 kHz, last as long as a frame at `fs`. -/
def packetRates (fs : ℤ) : List ℤ :=
  if fs = 48000 ∨ fs = 24000 then [5, 10, 20, 40, 60]
  else if fs = 16000 then [20, 40]
  else if fs = 12000 then [5, 10, 20]
  else if fs = 8000 then [10, 20]
  else []

/-! ### What is read -/

/-- Every variable holds a value that passes its validator. -/
structure ParamsValid (p : OpusParams) : Prop where
  bitRate : validateBitRate p.bitRate
  complexity : validateComplexity p.complexity
  packetRate : validateRate p.packetRate
  fs : validateFs p.fs
  chans : validateChans p.chans
  app : validateApp p.app

theorem defaults_valid : ParamsValid {} := by
  constructor <;> decide

variable {db : Storage} {p : OpusParams}

theorem getParam_valid {validate : ℤ → Bool} {value : ℤ} (hvalue : validate value) (name : String) :
    validate (db.getParam name value validate) := by
  rw [Storage.getParam]
  cases hstored : (db (ascii name)).filter validate with
  | none => exact hvalue
  | some v => exact (Option.filter_eq_some_iff.1 hstored).2

/-- Whatever is stored, the variables hold valid values. -/
theorem getParams_valid (hdefaults : ParamsValid p) (db : Storage) : ParamsValid (getParams db p) where
  bitRate := getParam_valid hdefaults.bitRate _
  complexity := getParam_valid hdefaults.complexity _
  packetRate := getParam_valid hdefaults.packetRate _
  fs := getParam_valid hdefaults.fs _
  chans := getParam_valid hdefaults.chans _
  app := getParam_valid hdefaults.app _

theorem getParam_eq {validate : ℤ → Bool} {name : String}
    (hvalid : ∀ v ∈ db (ascii name), validate v) (value : ℤ) :
    db.getParam name value validate = (db (ascii name)).getD value := by
  rw [Storage.getParam]
  cases hstored : db (ascii name) with
  | none => rfl
  | some v => rw [Option.filter_some, if_pos (hvalid v hstored)]

/-! ### What is made of it -/

theorem toNat_ofInt {v : ℤ} (hlow : 0 ≤ v) (hhigh : v < 2 ^ 32) : (UInt32.ofInt v).toNat = v.toNat := by
  rw [UInt32.ofInt, UInt32.toNat_ofNat']
  omega

theorem ofValue_eq_some {v : ℤ} (hvalid : validateApp v) : ∃ app, Application.ofValue v = some app := by
  rw [validateApp, decide_eq_true_eq, List.mem_pair] at hvalid
  rcases hvalid with rfl | rfl
  · exact ⟨.audio, rfl⟩
  · exact ⟨.voip, rfl⟩

/-- The ASSERTs hold just in case the bit rate is one `create` takes. -/
theorem createOpus_params (hvalid : ParamsValid p) (lib : OpusLib) (app : Application) :
    createOpus lib (opusConfig p app) =
      if 6000 ≤ p.bitRate then
        .ok (.opus ⟨lib.encoderCreate (UInt32.ofInt p.fs) (UInt32.ofInt p.chans) app,
          UInt32.ofInt p.packetRate * 48, opusConfig p app⟩)
      else .error .assertFailed := by
  obtain ⟨hbitRate, hcomplexity, hrate, hfs, hchans, -⟩ := hvalid
  simp only [validateBitRate, validateComplexity, validateRate, validateFs, validateChans,
    decide_eq_true_eq, List.mem_cons, List.not_mem_nil, or_false] at hbitRate hcomplexity hrate hfs hchans
  have hbits := toNat_ofInt (v := p.bitRate) (by omega) (by omega)
  have hcomplex := toNat_ofInt (v := p.complexity) (by omega) (by omega)
  have hpacket := toNat_ofInt (v := p.packetRate) (by omega) (by omega)
  have hfreq := toNat_ofInt (v := p.fs) (by omega) (by omega)
  have hchannels := toNat_ofInt (v := p.chans) (by omega) (by omega)
  have hasserts : (6000 ≤ UInt32.ofInt p.bitRate ∧ UInt32.ofInt p.bitRate ≤ 510000 ↔ 6000 ≤ p.bitRate) ∧
      UInt32.ofInt p.complexity < 11 ∧ UInt32.ofInt p.fs ≠ 0 ∧
      (0 < UInt32.ofInt p.chans ∧ UInt32.ofInt p.chans < 3) ∧ UInt32.ofInt p.packetRate ≠ 0 := by
    simp only [UInt32.le_iff_toNat_le, UInt32.lt_iff_toNat_lt, ne_eq, ← UInt32.toNat_inj, hbits, hcomplex,
      hpacket, hfreq, hchannels, UInt32.reduceToNat]
    omega
  obtain ⟨hassert, hassert₁, hassert₂, hassert₃, hassert₄⟩ := hasserts
  simp only [createOpus, opusConfig, opusCodec, hassert, hassert₁, hassert₂, hassert₃, hassert₄, not_true_eq_false,
    if_false, true_or, if_true, true_and, Bool.decide_eq_true]
  by_cases hlow : 6000 ≤ p.bitRate
  · rw [if_neg (not_not.2 hlow), if_pos hlow]
    rfl
  · rw [if_pos hlow, if_neg hlow]
    rfl

theorem frame_iff {fs rate : ℕ} (hrate : rate ∈ [5, 10, 20, 40, 60]) :
    (fs ∈ encoderRates ∧ ∃ t ∈ frameLengths, rate * 48 * 10000 = fs * t) ↔
      (rate : ℤ) ∈ packetRates fs := by
  by_cases hfs : fs ∈ encoderRates
  · have hall : ∀ fs ∈ encoderRates, ∀ rate ∈ [5, 10, 20, 40, 60],
        (∃ t ∈ frameLengths, rate * 48 * 10000 = fs * t) ↔ (rate : ℤ) ∈ packetRates fs := by decide
    rw [← hall fs hfs rate hrate]
    exact and_iff_right hfs
  · have hnone : packetRates fs = [] := by
      simp only [encoderRates, List.mem_cons, List.not_mem_nil, or_false, not_or] at hfs
      rw [packetRates, if_neg (by omega), if_neg (by omega), if_neg (by omega), if_neg (by omega)]
    rw [hnone]
    exact iff_of_false (fun h => hfs h.1) List.not_mem_nil

theorem canEncode_iff {fs rate : ℤ} (hfs : validateFs fs) (hrate : validateRate rate) (encoder : Bool)
    (config : OpusConfig) (hconfig : config.fs = UInt32.ofInt fs) :
    CanEncode ⟨encoder, UInt32.ofInt rate * 48, config⟩ ↔ rate ∈ packetRates fs := by
  rw [validateFs, decide_eq_true_eq] at hfs
  rw [validateRate, decide_eq_true_eq] at hrate
  obtain ⟨fs, rfl⟩ := Int.eq_ofNat_of_zero_le (show 0 ≤ fs by omega)
  have hpos : 0 ≤ rate ∧ rate ≤ 60 := by
    simp only [List.mem_cons, List.not_mem_nil, or_false] at hrate
    omega
  obtain ⟨rate, rfl⟩ := Int.eq_ofNat_of_zero_le hpos.1
  have hblock : (UInt32.ofInt rate * 48).toNat = rate * 48 := by
    rw [UInt32.toNat_mul, toNat_ofInt hpos.1 (by omega), Int.toNat_natCast]
    simp only [UInt32.reduceToNat]
    omega
  have hrates : rate ∈ [5, 10, 20, 40, 60] := by
    simp only [List.mem_cons, List.not_mem_nil, or_false] at hrate ⊢
    omega
  rw [CanEncode, hblock, hconfig, toNat_ofInt (by omega) (by omega), Int.toNat_natCast]
  exact frame_iff hrates

/-- Every stored value passes its validator. Then `make_opus` fails no ASSERT and returns a codec that can
encode if and only if the bit rate is at least 6000 and the packet rate is one of those whose blocks last
as long as a frame at the sample rate. -/
theorem makeOpus_encodes_iff (lib : OpusLib) (db : Storage) (hvalid : StoredValid db) :
    (∃ codec, makeOpus lib db = .ok (.opus codec) ∧ CanEncode codec) ↔
      6000 ≤ storedBitRate db ∧ storedPacketRate db ∈ packetRates (storedFs db) := by
  have hparams := getParams_valid defaults_valid db
  have hbitRate : (getParams db {}).bitRate = storedBitRate db := getParam_eq hvalid.bitRate _
  have hpacketRate : (getParams db {}).packetRate = storedPacketRate db := getParam_eq hvalid.packetRate _
  have hfs : (getParams db {}).fs = storedFs db := getParam_eq hvalid.fs _
  obtain ⟨app, happ⟩ := ofValue_eq_some hparams.app
  have hencode := fun encoder =>
    canEncode_iff hparams.fs hparams.packetRate encoder (opusConfig (getParams db {}) app) rfl
  rw [hpacketRate, hfs] at hencode
  rw [makeOpus, happ]
  simp only [createOpus_params hparams, hbitRate, hpacketRate]
  by_cases hlow : 6000 ≤ storedBitRate db
  · rw [if_pos hlow, ← hencode]
    constructor
    · rintro ⟨codec, hcodec, hcan⟩
      obtain rfl := AudioCodec.opus.inj (Except.ok.inj hcodec)
      exact ⟨hlow, hcan⟩
    · rintro ⟨-, hcan⟩
      exact ⟨_, rfl, hcan⟩
  · rw [if_neg hlow]
    refine iff_of_false ?_ fun h => hlow h.1
    rintro ⟨codec, hcodec, -⟩
    cases hcodec

/-- A library that makes encoders for its rates and for one or two channels. -/
def opusLib : OpusLib := ⟨fun fs chans _ => fs.toNat ∈ encoderRates ∧ chans.toNat ∈ [1, 2]⟩

/-- A `Storage` with a bit rate, a packet rate and a sample rate. -/
def storing (bitRate packetRate fs : ℤ) : Storage := fun name =>
  if name = ascii "bit_rate" then some bitRate
  else if name = ascii "packet_rate" then some packetRate
  else if name = ascii "fs" then some fs
  else none

theorem storing_valid {bitRate packetRate fs : ℤ} (hbitRate : validateBitRate bitRate)
    (hpacketRate : validateRate packetRate) (hfs : validateFs fs) :
    StoredValid (storing bitRate packetRate fs) := by
  constructor
  · rintro _ ⟨⟩
    exact hbitRate
  · rintro _ ⟨⟩
  · rintro _ ⟨⟩
    exact hpacketRate
  · rintro _ ⟨⟩
    exact hfs
  · rintro _ ⟨⟩
  · rintro _ ⟨⟩

/-- Values that pass their validators: a bit rate for which an ASSERT fails, blocks of 40 ms at 48 kHz that
last 240 ms at 8 kHz, and a sample rate that no encoder takes. -/
theorem valid_params_fail :
    (StoredValid (storing 5500 60 48000) ∧
      makeOpus opusLib (storing 5500 60 48000) = .error .assertFailed) ∧
    (StoredValid (storing 96000 40 8000) ∧ ∀ codec,
      makeOpus opusLib (storing 96000 40 8000) = .ok (.opus codec) → ¬CanEncode codec) ∧
    (StoredValid (storing 96000 20 44100) ∧ ∀ codec,
      makeOpus opusLib (storing 96000 20 44100) = .ok (.opus codec) →
        ¬CanEncode codec ∧ codec.encoder = false) := by
  refine ⟨⟨storing_valid rfl rfl rfl, rfl⟩, ⟨storing_valid rfl rfl rfl, ?_⟩,
    ⟨storing_valid rfl rfl rfl, ?_⟩⟩
  · intro codec hcodec
    obtain rfl := AudioCodec.opus.inj (Except.ok.inj hcodec)
    decide +kernel
  · intro codec hcodec
    obtain rfl := AudioCodec.opus.inj (Except.ok.inj hcodec)
    decide +kernel

/-- Blocks of 20 ms at 48 kHz, 40 ms at 24 kHz. -/
theorem encodes_24000 : ∃ codec, makeOpus opusLib (storing 64000 20 24000) = .ok (.opus codec) ∧
    CanEncode codec :=
  (makeOpus_encodes_iff opusLib (storing 64000 20 24000) (storing_valid rfl rfl rfl)).2
    ⟨by decide +kernel, by decide +kernel⟩

end AudioCodec

end WifiAudio
