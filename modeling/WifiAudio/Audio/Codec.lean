import WifiAudio.Rtsp.Protocol

/-!
# The audio codecs

`PcmCodec`, `OpusCodec` and `Codec2`: the numbers the streaming loop asks a codec for, the
requirements of `encode`, and the session description. The Opus and Codec2 libraries lie outside
the repository; what a codec keeps of them is what they answered when it was created.
-/

namespace WifiAudio

/-- A product or sum held in a `size_t`, 32 bits wide on the target. -/
def toSize (n : ℕ) : ℕ := n % 2 ^ 32

/-- The decimal text of a number. -/
def decimal (n : ℤ) : Bytes := ascii (toString n)

/-- A piece of the description's format: fixed text, or one of the values `describe` fills in. -/
inductive SdpPart
  | text (bytes : Bytes)
  | sessionId
  | sessionVersion
  | ipAddr
  deriving DecidableEq, Repr

abbrev SdpFmt := List SdpPart

structure PcmConfig where
  bits : UInt32
  chans : UInt32
  freq : UInt32
  deriving DecidableEq, Repr

inductive Application
  | audio
  | voip
  deriving DecidableEq, Repr

structure OpusConfig where
  bitRate : UInt32
  complexity : UInt32
  /-- in ms -/
  packetRate : UInt32
  /-- sample frequency in Hz -/
  fs : UInt32
  chans : UInt32
  app : Application
  encode : Bool
  decode : Bool
  deriving DecidableEq, Repr

structure Codec2Config where
  mode : UInt32
  fs : UInt32
  deriving DecidableEq, Repr

/-- A configuration `AudioCodec::create` is given. -/
inductive CodecConfig
  | pcm (config : PcmConfig)
  | opus (config : OpusConfig)
  | codec2 (config : Codec2Config)

/-- The Opus library: whether `opus_encoder_create` returns an encoder. -/
structure OpusLib where
  encoderCreate : (fs : UInt32) → (chans : UInt32) → Application → Bool

/-- The Codec2 library: the modes it names, whether `codec2_create` returns a codec for a mode, and
the frame sizes of that codec. -/
structure Codec2Lib where
  modes : List (Bytes × ℤ)
  create : ℤ → Bool
  samplesPerFrame : ℤ → ℕ
  bytesPerFrame : ℤ → ℕ

structure PcmCodec where
  sdpFmt : SdpFmt
  freq : UInt32
  deriving DecidableEq, Repr

structure OpusCodec where
  encoder : Bool
  samplesPerBlock : UInt32
  config : OpusConfig
  deriving DecidableEq, Repr

structure Codec2 where
  mode : ℤ
  fs : UInt32
  samplesPerFrame : ℕ
  bytesPerFrame : ℕ
  modeText : Bytes
  deriving DecidableEq, Repr

inductive AudioCodec
  | pcm (codec : PcmCodec)
  | opus (codec : OpusCodec)
  | codec2 (codec : Codec2)
  deriving DecidableEq, Repr

namespace AudioCodec

/-- `sizeof(int16_t)`, for every codec. -/
def sampleSize (_ : AudioCodec) : ℕ := 2

def payloadType : AudioCodec → UInt8
  | pcm _ => 96
  | opus _ => 97
  | codec2 _ => 98

def samplesPerPacket : AudioCodec → Except Fault ℕ
  | pcm _ => .ok 360
  | opus c => if c.samplesPerBlock = 0 then .error .assertFailed else .ok c.samplesPerBlock.toNat
  | codec2 c => .ok c.samplesPerFrame

def numChans : AudioCodec → ℕ
  | pcm _ => 2
  | opus c => c.config.chans.toNat
  | codec2 _ => 1

def sampleRate : AudioCodec → UInt32
  | pcm c => c.freq
  | opus c => c.config.fs
  | codec2 c => c.fs

def maxPayloadSize : AudioCodec → ℕ
  | pcm _ => 360 * 2 * 2
  | opus _ => 1275
  | codec2 c => c.bytesPerFrame

/-- The ASSERTs `encode` makes about its codec and its arguments. -/
def encodeAsserts (codec : AudioCodec) (samples obytes : ℕ) : Bool :=
  match codec with
  | pcm _ => toSize (samples * codec.numChans * codec.sampleSize) ≤ obytes
  | opus c => c.encoder
  | codec2 c => samples = c.samplesPerFrame ∧ obytes = c.bytesPerFrame

/-- How many bytes `encode` may write: PCM copies the samples, `opus_encode` is told the output
size, `codec2_encode` writes one frame. -/
def encodeWrites (codec : AudioCodec) (samples obytes : ℕ) : ℕ :=
  match codec with
  | pcm _ => toSize (samples * codec.numChans * codec.sampleSize)
  | opus _ => obytes
  | codec2 c => c.bytesPerFrame

/-- What `encode` writes for the samples `src`: PCM copies them, the other libraries write `out`. -/
def encoded (codec : AudioCodec) (src out : Bytes) : Bytes :=
  match codec with
  | pcm _ => src
  | _ => out

/-- `encode`: how many bytes it reports. `result` is what `opus_encode` returned, and an error there
is reported as no bytes. -/
def encode (codec : AudioCodec) (samples obytes : ℕ) (result : ℤ) : Except Fault ℕ :=
  if codec.encodeAsserts samples obytes then
    match codec with
    | pcm _ => .ok (toSize (samples * codec.numChans * codec.sampleSize))
    | opus _ => .ok (if result ≤ 0 then 0 else result.toNat)
    | codec2 c => .ok c.bytesPerFrame
  else .error .assertFailed

/-! ### Creation -/

/-- The description of a PCM stream; `%d` prints the unsigned values as `int`. -/
def pcmSdpFmt (bits chans freq : UInt32) : SdpFmt :=
  [.text (ascii "k=clear: PCM Encoder\r\nv=0\r\no=- "), .sessionId, .text (ascii " "),
    .sessionVersion, .text (ascii " IN IP4 "), .ipAddr,
    .text (ascii "\r\ns=Audio Stream\r\nc=IN IP4 0.0.0.0\r\nt=0 0\r\nm=audio 0 RTP/AVP " ++
      decimal 96 ++ ascii "\r\na=rtpmap:" ++ decimal 96 ++ ascii " L" ++
      decimal (toInt bits.toNat) ++ ascii "/" ++ decimal (toInt freq.toNat) ++ ascii "/" ++
      decimal (toInt chans.toNat) ++ ascii "\r\n")]

def createPcm (config : PcmConfig) : AudioCodec :=
  .pcm ⟨pcmSdpFmt config.bits config.chans config.freq, config.freq⟩

/-- The `OpusCodec` constructor. -/
def opusCodec (lib : OpusLib) (config : OpusConfig) : Except Fault OpusCodec :=
  if config.encode ∨ config.decode then
    if config.packetRate = 0 then .error .assertFailed
    else .ok
      { encoder := config.encode ∧ lib.encoderCreate config.fs config.chans config.app
        samplesPerBlock := config.packetRate * 48
        config := config }
  else .error .assertFailed

def createOpus (lib : OpusLib) (config : OpusConfig) : Except Fault AudioCodec := do
  if ¬(6000 ≤ config.bitRate ∧ config.bitRate ≤ 510000) then throw .assertFailed
  if ¬config.complexity < 11 then throw .assertFailed
  if config.fs = 0 then throw .assertFailed
  if ¬(0 < config.chans ∧ config.chans < 3) then throw .assertFailed
  return .opus (← opusCodec lib config)

def createCodec2 (P : Lookup) (lib : Codec2Lib) (config : Codec2Config) : Except Fault AudioCodec :=
  let mode := toInt config.mode.toNat
  if lib.create mode then
    .ok (.codec2 ⟨mode, config.fs, lib.samplesPerFrame mode, lib.bytesPerFrame mode,
      P.lut ⟨lib.modes, 0⟩ mode⟩)
  else .error .assertFailed

/-- `AudioCodec::create`. -/
def create (P : Lookup) (opusLib : OpusLib) (codec2Lib : Codec2Lib) :
    CodecConfig → Except Fault AudioCodec
  | .pcm config => .ok (createPcm config)
  | .opus config => createOpus opusLib config
  | .codec2 config => createCodec2 P codec2Lib config

/-- `get_sdp_fmt`. -/
def sdpFmt : AudioCodec → SdpFmt
  | pcm c => c.sdpFmt
  | opus c =>
      [.text (ascii "k=clear: Opus Encoder\r\nv=0\r\no=- "), .sessionId, .text (ascii " "),
        .sessionVersion, .text (ascii " IN IP4 "), .ipAddr,
        .text (ascii "\r\ns=Audio Stream\r\nc=IN IP4 0.0.0.0\r\nt=0 0\r\nm=audio 0 RTP/AVP " ++
          decimal 97 ++ ascii "\r\na=rtpmap:" ++ decimal 97 ++ ascii " opus/48000/2\r\na=fmtp:" ++
          decimal 97 ++ ascii " stereo=" ++ decimal (if c.config.chans = 2 then 1 else 0) ++
          ascii "\r\n")]
  | codec2 c =>
      [.text (ascii "k=clear: Codec2 Encoder\r\nm=audio 0 RTP/AVP " ++ decimal 98 ++
        ascii "\r\nc=IN IP4 0.0.0.0\r\na=rtpmap:" ++ decimal 98 ++ ascii " codec2/" ++
        decimal (toInt c.fs.toNat) ++ ascii "\r\na=fmtp:" ++ decimal 98 ++ ascii " mode=" ++
        c.modeText ++ ascii "\r\n")]

/-! ### The stored parameters of `make_opus`

`Storage::validate_range` is an inclusive range test and `Storage::validate_set` a membership test. -/

def validateComplexity (v : ℤ) : Bool := 0 ≤ v ∧ v ≤ 10
def validateBitRate (v : ℤ) : Bool := 5000 ≤ v ∧ v ≤ 510000
def validateFs (v : ℤ) : Bool := 8000 ≤ v ∧ v ≤ 48000
def validateChans (v : ℤ) : Bool := 1 ≤ v ∧ v ≤ 2
def validateRate (v : ℤ) : Bool := v ∈ [5, 10, 20, 40, 60]

end AudioCodec

open AudioCodec in
/-- The values of a configuration pass the validators. -/
def OpusConfig.Valid (config : OpusConfig) : Prop :=
  validateComplexity config.complexity.toNat ∧ validateBitRate config.bitRate.toNat ∧
    validateFs config.fs.toNat ∧ validateChans config.chans.toNat ∧
    validateRate config.packetRate.toNat

instance (config : OpusConfig) : Decidable config.Valid :=
  inferInstanceAs (Decidable (_ ∧ _ ∧ _ ∧ _ ∧ _))

/-- The values of the enumeration. -/
def Application.value : Application → ℤ
  | audio => 1
  | voip => 2

/-- The application an integer is cast to; the cast of any other integer fails an ASSERT of `create`. -/
def Application.ofValue (v : ℤ) : Option Application :=
  [audio, voip].find? fun app => app.value = v

def AudioCodec.validateApp (v : ℤ) : Bool := v ∈ [Application.audio.value, Application.voip.value]

/-- A `Storage`: the integers it holds, by name. -/
abbrev Storage := Bytes → Option ℤ

/-- An entry of the table given to `get_params`. Only a value that passes its validator is stored in the
variable, which keeps its default otherwise. -/
def Storage.getParam (db : Storage) (name : String) (value : ℤ) (validate : ℤ → Bool) : ℤ :=
  ((db (ascii name)).filter validate).getD value

/-- The variables of `make_opus`, with their defaults. -/
structure OpusParams where
  bitRate : ℤ := 96000
  complexity : ℤ := 5
  /-- in ms -/
  packetRate : ℤ := 60
  /-- in Hz -/
  fs : ℤ := 48000
  chans : ℤ := 2
  app : ℤ := Application.audio.value
  deriving DecidableEq, Repr

namespace AudioCodec

/-- `get_params` of `make_opus`. -/
def getParams (db : Storage) (defaults : OpusParams) : OpusParams where
  bitRate := db.getParam "bit_rate" defaults.bitRate validateBitRate
  complexity := db.getParam "complexity" defaults.complexity validateComplexity
  packetRate := db.getParam "packet_rate" defaults.packetRate validateRate
  fs := db.getParam "fs" defaults.fs validateFs
  chans := db.getParam "chans" defaults.chans validateChans
  app := db.getParam "app" defaults.app validateApp

/-- The configuration made of the variables. -/
def opusConfig (params : OpusParams) (app : Application) : OpusConfig where
  bitRate := UInt32.ofInt params.bitRate
  complexity := UInt32.ofInt params.complexity
  packetRate := UInt32.ofInt params.packetRate
  fs := UInt32.ofInt params.fs
  chans := UInt32.ofInt params.chans
  app := app
  encode := true
  decode := false

def makeOpus (lib : OpusLib) (db : Storage) : Except Fault AudioCodec :=
  let params := getParams db {}
  match Application.ofValue params.app with
  | none => .error .assertFailed
  | some app => createOpus lib (opusConfig params app)

end AudioCodec

end WifiAudio
