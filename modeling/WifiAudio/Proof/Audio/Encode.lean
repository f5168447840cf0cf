import WifiAudio.Audio.Copy
import WifiAudio.Proof.Rtp.Engine

/-!
# The output size passed to `encode`

`audio_copy` passes `rx_bytes()`, the size of a block of samples, as the size of the output, while
the block of the packet has room for `max_payload_size()` bytes. The two agree for PCM. An Opus
encoder may then write past the block unless a block of samples is itself no larger than an Opus
frame, and a Codec2 encoder fails its assertion unless a frame has as many bytes as its samples.
-/

namespace WifiAudio

open Except Transition

namespace AudioCodec

/-- The codecs the repository makes: PCM, Opus from a stored configuration, Codec2 of any mode. -/
inductive Creatable (P : Lookup) (opusLib : OpusLib) (codec2Lib : Codec2Lib) : AudioCodec → Prop
  | pcm (config : PcmConfig) : Creatable P opusLib codec2Lib (createPcm config)
  | opus {codec : AudioCodec} (config : OpusConfig) (hvalid : config.Valid)
      (hcreate : createOpus opusLib config = .ok codec) : Creatable P opusLib codec2Lib codec
  | codec2 {codec : AudioCodec} (config : Codec2Config)
      (hcreate : createCodec2 P codec2Lib config = .ok codec) : Creatable P opusLib codec2Lib codec

/-- A block of samples fits where the codec writes: for Opus the encoder exists and the samples of a
block are no larger than the largest frame, for Codec2 a frame is as large as its samples. -/
def OutputFits : AudioCodec → Prop
  | .pcm _ => True
  | .opus c => c.encoder ∧ 96 * c.config.packetRate.toNat * c.config.chans.toNat ≤ 1275
  | .codec2 c => toSize (2 * c.samplesPerFrame) = c.bytesPerFrame

theorem opusCodec_eq_ok {lib : OpusLib} {config : OpusConfig} {c : OpusCodec}
    (h : opusCodec lib config = .ok c) :
    c.config = config ∧ c.samplesPerBlock = config.packetRate * 48 := by
  unfold opusCodec at h
  split at h
  · split at h
    · cases h
    · obtain rfl := Except.ok.inj h
      exact ⟨rfl, rfl⟩
  · cases h

theorem createOpus_eq_ok {lib : OpusLib} {config : OpusConfig} {codec : AudioCodec}
    (h : createOpus lib config = .ok codec) : ∃ c, opusCodec lib config = .ok c ∧ codec = .opus c := by
  unfold createOpus at h
  iterate 4
    split at h
    · simp at h
  obtain ⟨c, hc, hcodec⟩ := bind_eq_ok.1 h
  exact ⟨c, hc, (Except.ok.inj hcodec).symm⟩

theorem createCodec2_eq_ok {P : Lookup} {lib : Codec2Lib} {config : Codec2Config}
    {codec : AudioCodec} (h : createCodec2 P lib config = .ok codec) : ∃ c, codec = .codec2 c := by
  simp only [createCodec2] at h
  split at h
  · exact ⟨_, (Except.ok.inj h).symm⟩
  · cases h

/-- An Opus codec made from a stored configuration: blocks of 5 to 60 ms of at most two channels. -/
theorem createOpus_valid {lib : OpusLib} {config : OpusConfig} {codec : AudioCodec}
    (hvalid : config.Valid) (hcreate : createOpus lib config = .ok codec) :
    ∃ c : OpusCodec, codec = .opus c ∧ c.samplesPerBlock.toNat = 48 * c.config.packetRate.toNat ∧
      0 < c.config.packetRate.toNat ∧ c.config.packetRate.toNat ≤ 60 ∧ c.config.chans.toNat ≤ 2 := by
  obtain ⟨c, hc, rfl⟩ := createOpus_eq_ok hcreate
  obtain ⟨rfl, hsamples⟩ := opusCodec_eq_ok hc
  obtain ⟨-, -, -, hchans, hrate⟩ := hvalid
  simp only [validateChans, decide_eq_true_eq] at hchans
  simp only [validateRate, List.mem_cons, List.not_mem_nil, or_false, decide_eq_true_eq] at hrate
  refine ⟨c, rfl, ?_, by omega, by omega, by omega⟩
  rw [hsamples, UInt32.toNat_mul]
  simp only [UInt32.reduceToNat]
  omega

end AudioCodec

namespace Engine

variable {e e' : Engine}

/-- The blocks are as the constructor made them, and the free list leads to no other. -/
structure Sized (codec : AudioCodec) (e : Engine) : Prop where
  codec_eq : e.codec = codec
  maxPayload : ∀ block ∈ e.pool, block.maxPayload = codec.maxPayloadSize
  head : ∀ b, e.blocks.head = some b → b < e.pool.length
  next : ∀ i b, e.blocks.next i = some b → b < e.pool.length

variable {codec : AudioCodec}

theorem push_links {l : LinkedList ℕ} {n b : ℕ} (hb : b < n) (hhead : ∀ i, l.head = some i → i < n)
    (hnext : ∀ i j, l.next i = some j → j < n) :
    (∀ i, (l.push b).head = some i → i < n) ∧ ∀ i j, (l.push b).next i = some j → j < n := by
  refine ⟨fun i hi => Option.some.inj hi ▸ hb, ?_⟩
  intro i j hij
  change Function.update l.next b l.head i = some j at hij
  by_cases hib : i = b
  · subst hib
    rw [Function.update_self] at hij
    exact hhead j hij
  · rw [Function.update_of_ne hib] at hij
    exact hnext i j hij

theorem pushAll_links {l : LinkedList ℕ} {n : ℕ} {bs : List ℕ} (hbs : ∀ b ∈ bs, b < n)
    (hhead : ∀ i, l.head = some i → i < n) (hnext : ∀ i j, l.next i = some j → j < n) :
    (∀ i, (bs.foldl LinkedList.push l).head = some i → i < n) ∧
      ∀ i j, (bs.foldl LinkedList.push l).next i = some j → j < n := by
  induction bs generalizing l with
  | nil => exact ⟨hhead, hnext⟩
  | cons b bs ih =>
      obtain ⟨hb, hbs⟩ := List.forall_mem_cons.1 hbs
      obtain ⟨hhead', hnext'⟩ := push_links hb hhead hnext
      exact ih hbs hhead' hnext'

theorem sized_new (codec : AudioCodec) (rtp rtcp : ℤ) (numBuffers : ℕ) :
    (new codec rtp rtcp numBuffers).Sized codec := by
  obtain ⟨hhead, hnext⟩ : (∀ i, ((List.range numBuffers).foldl LinkedList.push .empty).head = some i →
      i < numBuffers) ∧ ∀ i j, ((List.range numBuffers).foldl LinkedList.push .empty).next i = some j →
        j < numBuffers := by
    apply pushAll_links
    · intro b hb
      exact List.mem_range.1 hb
    · intro i hi
      cases hi
    · intro i j hij
      cases hij
  refine ⟨rfl, ?_, ?_, ?_⟩
  · intro block hmem
    rw [List.eq_of_mem_replicate hmem]
    rfl
  · simpa [new] using hhead
  · simpa [new] using hnext

theorem Sized.frame (h : e.Sized codec) (hcodec : e'.codec = e.codec) (hpool : e'.pool = e.pool)
    (hblocks : e'.blocks = e.blocks) : e'.Sized codec := by
  refine ⟨hcodec.trans h.codec_eq, hpool ▸ h.maxPayload, ?_, ?_⟩
  · rw [hpool, hblocks]
    exact h.head
  · rw [hpool, hblocks]
    exact h.next

theorem Sized.remove {client : Option ℕ} (h : e.Sized codec) (hremove : e.remove client = .ok e') :
    e'.Sized codec := by
  obtain ⟨playing, rfl⟩ := remove_eq_ok hremove
  exact h.frame rfl rfl rfl

theorem Sized.getFree {b : ℕ} (h : e.Sized codec) (hfree : e.getFree = (some b, e')) :
    e'.Sized codec ∧ b < e'.pool.length := by
  unfold Engine.getFree LinkedList.pop at hfree
  cases hhead : e.blocks.head with
  | none => simp [hhead] at hfree
  | some b' =>
      obtain ⟨rfl, rfl⟩ : b' = b ∧ ({ e with blocks :=
          { e.blocks with head := e.blocks.next b' } } : Engine) = e' := by
        simpa [hhead] using hfree
      exact ⟨⟨h.codec_eq, h.maxPayload, h.next b', h.next⟩, h.head b' hhead⟩

theorem Sized.putFree {b : ℕ} (h : e.Sized codec) (hb : b < e.pool.length) :
    (e.putFree b).Sized codec :=
  have hlinks := push_links hb h.head h.next
  ⟨h.codec_eq, h.maxPayload, hlinks.1, hlinks.2⟩

theorem Sized.setBlock {b : ℕ} {block block' : Block} (h : e.Sized codec)
    (hblock : e.pool[b]? = some block) (hsize : block'.maxPayload = block.maxPayload) :
    ({ e with pool := e.pool.set b block' } : Engine).Sized codec := by
  refine ⟨h.codec_eq, ?_, ?_, ?_⟩
  · intro block'' hmem
    rcases List.mem_or_eq_of_mem_set hmem with hmem | rfl
    · exact h.maxPayload block'' hmem
    · exact hsize.trans (h.maxPayload block (List.mem_of_getElem? hblock))
  · simpa using h.head
  · simpa using h.next

end Engine

namespace AudioCopy

open Engine AudioCodec

variable {codec : AudioCodec} {a a' : AudioCopy} {act : Action} {b bytes : ℕ}

/-- The engine's blocks are sized, and so is the one the loop holds. -/
structure Sized (codec : AudioCodec) (a : AudioCopy) : Prop where
  engine : a.engine.Sized codec
  encoding : ∀ b, a.loop = .encoding b → b < a.engine.pool.length
  sending : ∀ b bytes, a.loop = .sending b bytes → b < a.engine.pool.length

theorem Sized.encode {e e' : Engine} {result : ℤ} {written : Bytes} (h : e.Sized codec)
    (hencode : AudioCopy.encode e b result written = .ok (bytes, e')) :
    e'.Sized codec ∧ e'.pool.length = e.pool.length := by
  obtain ⟨call, -, hencode⟩ := bind_eq_ok.1 hencode
  obtain ⟨written', -, hencode⟩ := bind_eq_ok.1 hencode
  obtain ⟨e'', hwrite, hencode⟩ := bind_eq_ok.1 hencode
  obtain ⟨-, rfl⟩ := Prod.mk.inj (Except.ok.inj hencode)
  unfold Engine.writeAudio at hwrite
  cases hblock : e.pool[b]? with
  | none => simp [hblock] at hwrite
  | some block =>
      simp only [hblock] at hwrite
      split at hwrite
      · simp at hwrite
      · obtain rfl := Except.ok.inj hwrite
        exact ⟨h.setBlock hblock rfl, List.length_set⟩

theorem Sized.step (h : a.Sized codec) (hstep : Step a act a') : a'.Sized codec := by
  obtain ⟨e, loop⟩ := a
  cases act with
  | samples =>
      cases loop with
      | head =>
          obtain rfl := Except.ok.inj (Option.some.inj hstep)
          unfold takeBlock
          split
          · cases hfree : e.getFree with
            | mk block e' =>
                cases block with
                | none =>
                    have hsame : e' = e := by
                      unfold Engine.getFree at hfree
                      cases hpop : e.blocks.pop <;> simp_all
                    exact ⟨hsame ▸ h.engine, nofun, nofun⟩
                | some b =>
                    obtain ⟨hengine, hb⟩ := h.engine.getFree hfree
                    refine ⟨hengine, ?_, nofun⟩
                    intro b' hb'
                    obtain rfl := Loop.encoding.inj hb'
                    exact hb
          · exact h
      | _ => cases hstep
  | encode result written =>
      cases loop with
      | encoding b =>
          obtain ⟨⟨bytes, e'⟩, hencode, hresult⟩ := bind_eq_ok.1 (Option.some.inj hstep)
          obtain rfl := Except.ok.inj hresult
          obtain ⟨hengine, hlength⟩ := Sized.encode h.engine hencode
          refine ⟨hengine, nofun, ?_⟩
          intro b' bytes' hb'
          obtain ⟨rfl, -⟩ := Loop.sending.inj hb'
          exact (h.encoding b rfl).trans_eq hlength.symm
      | _ => cases hstep
  | send results =>
      cases loop with
      | sending b bytes =>
          obtain ⟨samples, -, hrest⟩ := bind_eq_ok.1 (Option.some.inj hstep)
          obtain ⟨e', hsend, hresult⟩ := bind_eq_ok.1 hrest
          obtain rfl := Except.ok.inj hresult
          obtain ⟨block, visited, hblock, -, -, rfl⟩ := send_eq_ok.1 hsend
          have hset : Engine.Sized codec
              { e with pool := e.pool.set b (block.stamp e.packetSeq e.timestamp) } :=
            h.engine.setBlock hblock rfl
          exact ⟨Engine.Sized.putFree (hset.frame rfl rfl rfl)
            ((h.sending b bytes rfl).trans_eq List.length_set.symm), nofun, nofun⟩
      | _ => cases hstep
  | newClient socket =>
      obtain rfl := Except.ok.inj (Option.some.inj hstep)
      exact ⟨h.engine.frame rfl rfl rfl, h.encoding, h.sending⟩
  | play c =>
      obtain rfl := Except.ok.inj (Option.some.inj hstep)
      exact ⟨h.engine.frame rfl rfl rfl, h.encoding, h.sending⟩
  | remove c =>
      obtain ⟨e', hremove, hresult⟩ := bind_eq_ok.1 (Option.some.inj hstep)
      obtain rfl := Except.ok.inj hresult
      have hengine := h.engine.remove hremove
      obtain ⟨playing, rfl⟩ := remove_eq_ok hremove
      exact ⟨hengine, h.encoding, h.sending⟩

theorem sized_new (codec : AudioCodec) (rtp rtcp : ℤ) (numBuffers : ℕ) :
    (AudioCopy.new (.new codec rtp rtcp numBuffers)).Sized codec :=
  ⟨Engine.sized_new codec rtp rtcp numBuffers, nofun, nofun⟩

/-- The requirements of the call made for block `b`: the output size is within the block, and the
assertions of `encode` hold. -/
def CallMeets (e : Engine) (b : ℕ) : Prop :=
  ∃ call block, encodeCall e b = .ok call ∧ e.pool[b]? = some block ∧
    call.obytes ≤ block.maxPayload ∧ e.codec.encodeAsserts call.samples call.obytes

/-- The call made for a block of a codec's own payload size. -/
theorem callMeets_iff {e : Engine} {block : Block} {samples : ℕ} (hcodec : e.codec = codec)
    (hblock : e.pool[b]? = some block) (hsize : block.maxPayload = codec.maxPayloadSize)
    (hsamples : codec.samplesPerPacket = .ok samples) :
    CallMeets e b ↔ toSize (samples * codec.numChans * codec.sampleSize) ≤ codec.maxPayloadSize ∧
      codec.encodeAsserts samples (toSize (samples * codec.numChans * codec.sampleSize)) := by
  subst hcodec
  have hcall : encodeCall e b = .ok ⟨samples, b, toSize (samples * e.codec.numChans *
      e.codec.sampleSize)⟩ := by
    simp [encodeCall, rxBytes, hsamples]
  constructor
  · rintro ⟨call, block', hcall', hblock', hle, hasserts⟩
    obtain rfl := Except.ok.inj (hcall.symm.trans hcall')
    obtain rfl := Option.some.inj (hblock.symm.trans hblock')
    exact ⟨hsize ▸ hle, hasserts⟩
  · rintro ⟨hle, hasserts⟩
    exact ⟨_, block, hcall, hblock, hsize ▸ hle, hasserts⟩

/-- In every run of the streaming loop, with any codec the repository makes, every call of `encode`
meets its requirements if and only if the codec's output fits. -/
theorem encode_call_meets_iff (P : Lookup) (opusLib : OpusLib) (codec2Lib : Codec2Lib)
    (codec : AudioCodec) (hcodec : Creatable P opusLib codec2Lib codec) (rtp rtcp : ℤ)
    (numBuffers : ℕ) (as : List Action) (a : AudioCopy) (b : ℕ)
    (hrun : Run Step (AudioCopy.new (.new codec rtp rtcp numBuffers)) as a)
    (hloop : a.loop = .encoding b) : CallMeets a.engine b ↔ codec.OutputFits := by
  have h : a.Sized codec := hrun.invariant (fun _ _ _ h hstep => h.step hstep)
    (sized_new codec rtp rtcp numBuffers)
  have hblock := List.getElem?_eq_getElem (h.encoding b hloop)
  have hsize := h.engine.maxPayload _ (List.mem_of_getElem? hblock)
  cases hcodec with
  | pcm config =>
      rw [callMeets_iff h.engine.codec_eq hblock hsize rfl]
      refine iff_of_true ?_ trivial
      change toSize (360 * 2 * 2) ≤ 360 * 2 * 2 ∧
        decide (toSize (360 * 2 * 2) ≤ toSize (360 * 2 * 2)) = true
      decide
  | opus config hvalid hcreate =>
      obtain ⟨c, rfl, hsamples, hpos, hrate, hchans⟩ := createOpus_valid hvalid hcreate
      have hnonzero : c.samplesPerBlock ≠ 0 := fun hzero => by simp [hzero] at hsamples; omega
      rw [callMeets_iff h.engine.codec_eq hblock hsize (if_neg hnonzero)]
      have hbound : c.config.packetRate.toNat * c.config.chans.toNat ≤ 60 * 2 :=
        Nat.mul_le_mul hrate hchans
      have hbytes : toSize (c.samplesPerBlock.toNat * c.config.chans.toNat * 2) =
          96 * c.config.packetRate.toNat * c.config.chans.toNat := by
        rw [hsamples, toSize, Nat.mul_assoc 96, Nat.mul_assoc 48]
        omega
      change toSize (c.samplesPerBlock.toNat * c.config.chans.toNat * 2) ≤ 1275 ∧ c.encoder = true ↔ _
      rw [hbytes, and_comm]
      exact Iff.rfl
  | codec2 config hcreate =>
      obtain ⟨c, rfl⟩ := createCodec2_eq_ok hcreate
      rw [callMeets_iff h.engine.codec_eq hblock hsize rfl]
      -- the samples of a frame are exactly the ones the encoder asks for
      change toSize (c.samplesPerFrame * 1 * 2) ≤ c.bytesPerFrame ∧
        decide (c.samplesPerFrame = c.samplesPerFrame ∧
          toSize (c.samplesPerFrame * 1 * 2) = c.bytesPerFrame) = true ↔
        toSize (2 * c.samplesPerFrame) = c.bytesPerFrame
      rw [Nat.mul_one, Nat.mul_comm, decide_eq_true_eq]
      exact ⟨fun h => h.2.2, fun h => ⟨h.le, rfl, h⟩⟩

/-- The configuration of `make_opus` when nothing is stored. -/
def defaultOpus : OpusConfig where
  bitRate := 96000
  complexity := 5
  packetRate := 60
  fs := 48000
  chans := 2
  app := .audio
  encode := true
  decode := false

/-- The sample rates the Opus encoder takes. -/
def opusRates : OpusLib := ⟨fun fs _ _ => fs ∈ [8000, 12000, 16000, 24000, 48000]⟩

/-- The loop asks for a block as soon as a client plays. -/
def firstBlock : List Action := [.newClient ⟨none, 5000, true, []⟩, .play 0, .samples]

/-- With the default Opus configuration the encoder is told of 11520 bytes where 1275 are left. -/
theorem default_opus_overruns_block : ∃ codec a b call block,
    createOpus opusRates defaultOpus = .ok codec ∧
      Run Step (AudioCopy.new (.new codec 6000 6001 4)) firstBlock a ∧ a.loop = .encoding b ∧
      encodeCall a.engine b = .ok call ∧ a.engine.pool[b]? = some block ∧
      call.obytes = 11520 ∧ block.maxPayload = 1275 := by
  refine ⟨.opus ⟨true, 2880, defaultOpus⟩, _, 3, _, _, by rfl, .cons rfl (.cons rfl (.cons rfl (.nil _))),
    rfl, rfl, rfl, rfl, rfl⟩

/-- A mono Opus stream in packets of 10 ms meets the requirements. -/
theorem encode_call_meets_short_opus : ∃ codec a b,
    Run Step (AudioCopy.new (.new codec 6000 6001 4)) firstBlock a ∧ a.loop = .encoding b ∧
      CallMeets a.engine b := by
  have hvalid : OpusConfig.Valid { defaultOpus with packetRate := 10, chans := 1 } := by
    decide
  have hcreate : createOpus opusRates { defaultOpus with packetRate := 10, chans := 1 } =
      .ok (.opus ⟨true, 480, { defaultOpus with packetRate := 10, chans := 1 }⟩) := by
    rfl
  have hrun : Run Step (AudioCopy.new (.new (.opus ⟨true, 480,
      { defaultOpus with packetRate := 10, chans := 1 }⟩) 6000 6001 4)) firstBlock _ :=
    .cons rfl (.cons rfl (.cons rfl (.nil _)))
  exact ⟨_, _, 3, hrun, rfl, (encode_call_meets_iff Lookup.literal opusRates
    ⟨[], fun _ => false, fun _ => 0, fun _ => 0⟩ _ (.opus _ hvalid hcreate) 6000 6001 4 firstBlock _ 3
    hrun rfl).2 ⟨rfl, by decide⟩⟩

end AudioCopy

end WifiAudio
