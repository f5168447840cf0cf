import WifiAudio.Proof.Audio.Poll
import WifiAudio.Proof.Server.Operations

/-!
# From the source to the wire

What the server is for, in its two threads with a PCM codec: as long as the encoder thread keeps up and
somebody listens, the packets carry the samples of the source, piece by piece and in order, and at most
two blocks of samples are on their way.
-/

namespace WifiAudio

open Except Transition

/-- The packet a step of the loop sends. -/
def AudioCopy.packetOf (c : AudioCopy) : AudioCopy.Action → Option Bytes
  | .send _ =>
      match c.loop with
      | .sending b bytes => c.engine.pool[b]?.map fun block =>
          (block.stamp c.engine.packetSeq c.engine.timestamp).packet bytes
      | _ => none
  | _ => none

theorem AudioCopy.packetOf_send {c : AudioCopy} {b bytes samples : ℕ} {results : ℕ → ℤ}
    (hloop : c.loop = .sending b bytes) :
    c.packetOf (.send results) = c.engine.packetOf (.send b bytes samples results) := by
  rw [packetOf, hloop]
  rfl

namespace ServerThreads

/-- What a step reads from the source. -/
def Action.bytes : Action → Bytes
  | .read bytes => bytes
  | _ => []

/-- The packet a step sends. -/
def packetOf (t : ServerThreads) : Action → Option Bytes
  | .copy act => t.copy.packetOf act
  | _ => none

/-- The source delivers, and at each read the encoder thread needs fewer blocks than there are buffers;
somebody listens when a block is taken up. -/
structure Steady (t : ServerThreads) (a : Action) : Prop where
  reads : ∀ bytes, a = .read bytes →
    bytes ≠ [] ∧ t.reader.outstanding.length < t.reader.numBlocks
  listened : a = .copy .samples → t.copy.engine.hasClients = true
  socket : t.NewSocket a

/-- The bytes of the block being filled. -/
def filled (t : ServerThreads) : Bytes := t.reader.current.elim [] Reader.Block.content

/-- A block of samples. -/
def Full (size : ℕ) (block : Reader.Block) : Prop := block.bytes = size ∧ block.content.length = size

/-- The stream is what has been sent, the blocks the encoder thread still needs and the block being
filled, one behind the other. -/
structure Flow (t : ServerThreads) (codec : AudioCodec) (stream : Bytes) (payloads : List Bytes) :
    Prop where
  codec_eq : t.copy.engine.codec = codec
  size_eq : t.reader.size = 1440
  length_data : ∀ buff, (t.reader.data buff).length = 1440
  outstanding : ∀ block ∈ t.reader.outstanding, Full 1440 block
  putting : ∀ block, t.reader.producer = .putting block → Full 1440 block
  pieces : ∀ piece ∈ payloads, piece.length = 1440
  stream_eq : stream =
    payloads.flatten ++ (t.reader.outstanding.map Reader.Block.content).flatten ++ t.filled
  room : t.reader.outstanding.length ≤ 2 ∧ (t.filled = [] ∨ t.reader.outstanding.length ≤ 1)
  sending : ∀ b bytes, t.copy.loop = .sending b bytes → bytes = 1440 ∧ ∃ block,
    t.reader.consumer = .holding block ∧ ∃ packet, t.copy.engine.pool[b]? = some packet ∧
      packet.audio.take 1440 = block.content

/-- What the threads keep whatever the source does. -/
structure Sound (t : ServerThreads) : Prop extends Placed t, Ordered t, Keeps t where
  numbered : ∃ first, t.reader.Numbered 2 first

variable {t t' : ServerThreads} {a : Action} {codec : AudioCodec} {stream : Bytes} {payloads : List Bytes}

/-! ### The reader -/

theorem reader_step (h : t.Placed) (hstep : Step t a t') : t'.reader = t.reader ∨
    ∃ act, Reader.Step t.reader act t'.reader ∧ ∀ bytes, act = .read bytes → a = .read bytes := by
  cases moves_of_step hstep with
  | acquire halive r hr => exact .inr ⟨.acquire, Reader.step_of_moves hr, nofun⟩
  | read bytes r hr =>
      refine .inr ⟨.read bytes, Reader.step_of_moves hr, fun bytes' heq => ?_⟩
      rw [Reader.Action.read.inj heq]
  | put r hr => exact .inr ⟨.put, Reader.step_of_moves hr, nofun⟩
  | halt hdead r hr => exact .inr ⟨.halt, Reader.step_of_moves hr, nofun⟩
  | get hreading r hr => exact .inr ⟨.get, Reader.step_of_moves hr, nofun⟩
  | work hworking copy hworks =>
      by_cases hloop : copy.loop = .head
      · rw [worked_of_head hloop]
        cases hconsumer : t.reader.consumer with
        | waiting => exact absurd hconsumer (h.working.1 hworking)
        | holding block =>
            exact .inr ⟨.release, Reader.step_of_moves (.release block hconsumer), nofun⟩
      · rw [worked_of_ne hloop]
        exact .inl rfl
  | _ => exact .inl rfl

theorem Sound.step (h : t.Sound) (hstep : Step t a t') : t'.Sound := by
  refine ⟨h.toPlaced.step hstep, h.toOrdered.step hstep,
    h.toKeeps.step h.toPlaced h.toOrdered hstep, ?_⟩
  rcases reader_step h.toPlaced hstep with hsame | ⟨act, hreader, -⟩
  · rw [hsame]
    exact h.numbered
  · obtain ⟨first, hnumbered⟩ := h.numbered
    exact hnumbered.step hreader

/-- No read goes into a block the encoder thread still needs. -/
theorem Sound.contents (h : t.Sound) (hcontents : t.reader.Contents) (hsteady : t.Steady a)
    (hstep : Step t a t') : t'.reader.Contents := by
  rcases reader_step h.toPlaced hstep with hsame | ⟨act, hreader, hread⟩
  · rw [hsame]
    exact hcontents
  · obtain ⟨first, hnumbered⟩ := h.numbered
    refine hcontents.step ((hnumbered.overwrites_iff Nat.two_pos).2 ?_) hreader
    rintro ⟨bytes, buff, content, rfl, -⟩
    exact (hsteady.reads bytes (hread bytes rfl)).2

/-! ### One call of the encoder -/

theorem pcm_sizes (c : PcmCodec) (result : ℤ) : (AudioCodec.pcm c).encodeWrites 360 1440 = 1440 ∧
    (AudioCodec.pcm c).encode 360 1440 result = .ok 1440 := by
  simp [AudioCodec.encodeWrites, AudioCodec.encode, AudioCodec.encodeAsserts, AudioCodec.numChans,
    AudioCodec.sampleSize, toSize]

theorem pcm_encodeCall {e : Engine} {c : PcmCodec} (hcodec : e.codec = .pcm c) (b : ℕ) :
    AudioCopy.encodeCall e b = .ok ⟨360, b, 1440⟩ := by
  simp [AudioCopy.encodeCall, Engine.rxBytes, hcodec, AudioCodec.samplesPerPacket, AudioCodec.numChans,
    AudioCodec.sampleSize, toSize]

theorem pcm_encode {e e' : Engine} {b bytes : ℕ} {result : ℤ} {written : Bytes} {c : PcmCodec}
    (hcodec : e.codec = .pcm c) (hlength : written.length = 1440)
    (hencode : AudioCopy.encode e b result written = .ok (bytes, e')) :
    bytes = 1440 ∧ ∃ packet, e'.pool[b]? = some packet ∧ packet.audio.take 1440 = written := by
  obtain ⟨call, hcall, hencode⟩ := bind_eq_ok.1 hencode
  obtain ⟨reported, hreported, hencode⟩ := bind_eq_ok.1 hencode
  obtain ⟨e₁, hwrite, hresult⟩ := bind_eq_ok.1 hencode
  obtain ⟨rfl, rfl⟩ := Prod.mk.inj (Except.ok.inj hresult)
  obtain rfl := Except.ok.inj ((pcm_encodeCall hcodec b).symm.trans hcall)
  obtain ⟨hwrites, hencodes⟩ := pcm_sizes c result
  rw [hcodec, hencodes] at hreported
  rw [hcodec, hwrites, ← hlength, List.take_length] at hwrite
  obtain ⟨packet, hpacket, -, rfl⟩ := Engine.writeAudio_found hwrite
  refine ⟨(Except.ok.inj hreported).symm, _, List.getElem?_set_self ?_, ?_⟩
  · exact (List.getElem?_eq_some_iff.1 hpacket).1
  · rw [← hlength]
    exact List.take_left

/-! ### One step -/

/-- What is added to the payloads sent. -/
def payloadOf (t : ServerThreads) (a : Action) : List Bytes := (t.packetOf a).toList.map (List.drop 12)

theorem Flow.frame (h : t.Flow codec stream payloads) (hreader : t'.reader = t.reader)
    (hcodec : t'.copy.engine.codec = t.copy.engine.codec)
    (hsending : ∀ b bytes, t'.copy.loop = .sending b bytes →
      t.copy.loop = .sending b bytes ∧ t'.copy.engine.pool = t.copy.engine.pool) :
    t'.Flow codec stream payloads := by
  refine ⟨hcodec.trans h.codec_eq, ?_, ?_, ?_, ?_, h.pieces, ?_, ?_, ?_⟩
  · rw [hreader]
    exact h.size_eq
  · rw [hreader]
    exact h.length_data
  · rw [hreader]
    exact h.outstanding
  · rw [hreader]
    exact h.putting
  · rw [filled, hreader]
    exact h.stream_eq
  · rw [filled, hreader]
    exact h.room
  · intro b bytes hloop
    obtain ⟨hloop', hpool⟩ := hsending b bytes hloop
    rw [hreader, hpool]
    exact h.sending b bytes hloop'

theorem Flow.acquire (h : t.Flow codec stream payloads) (hidle : t.reader.producer = .idle) :
    ({ t with reader := { t.reader with
        producer := t.reader.startFill t.reader.idx
        idx := (t.reader.idx + 1) % t.reader.numBlocks } } : ServerThreads).Flow codec stream payloads := by
  have hbefore : t.filled = [] := by simp [filled, Reader.current, hidle]
  have hafter : ({ t with reader := { t.reader with
      producer := t.reader.startFill t.reader.idx
      idx := (t.reader.idx + 1) % t.reader.numBlocks } } : ServerThreads).filled = [] := by
    rw [filled, Reader.current_startFill]
    rfl
  refine ⟨h.codec_eq, h.size_eq, h.length_data, h.outstanding, ?_, h.pieces, ?_, ?_, h.sending⟩
  · intro block hputting
    change t.reader.startFill t.reader.idx = _ at hputting
    rw [Reader.startFill, if_pos (by rw [h.size_eq]; decide)] at hputting
    cases hputting
  · rw [hafter, ← hbefore]
    exact h.stream_eq
  · exact ⟨h.room.1, .inl hafter⟩

theorem Flow.read (h : t.Flow codec stream payloads) {buff : ℕ} {content bytes : Bytes}
    (hfilling : t.reader.producer = .filling buff content)
    (hlt : content.length < t.reader.size) (hle : bytes.length ≤ t.reader.todo content.length)
    (hne : bytes ≠ []) (hroom : t.reader.outstanding.length ≤ 1) :
    ({ t with reader := { t.reader with
        producer := t.reader.continueFill buff content bytes
        data := Function.update t.reader.data buff
          (Reader.overwrite (t.reader.data buff) content.length bytes) } } :
      ServerThreads).Flow codec (stream ++ bytes) payloads := by
  have hfits : content.length + bytes.length ≤ 1440 := by
    have hsize := h.size_eq
    rw [Reader.todo] at hle
    omega
  have hbefore : t.filled = content := by simp [filled, Reader.current, hfilling, Reader.filled]
  refine ⟨h.codec_eq, h.size_eq, ?_, h.outstanding, ?_, h.pieces, ?_, ⟨h.room.1, .inr hroom⟩, h.sending⟩
  · intro buff'
    change (Function.update t.reader.data buff _ buff').length = 1440
    by_cases hbuff : buff' = buff
    · subst hbuff
      rw [Function.update_self, Poll.length_overwrite, h.length_data]
      rwa [h.length_data]
    · rw [Function.update_of_ne hbuff, h.length_data]
  · intro block hputting
    change t.reader.continueFill buff content bytes = _ at hputting
    rw [Reader.continueFill, h.size_eq] at hputting
    split at hputting
    · cases hputting
    · rename_i hmore
      obtain rfl := Reader.Producer.putting.inj hputting
      have hfull : (content ++ bytes).length = 1440 := by
        have hnot : ¬(content ++ bytes).length < 1440 := fun hless => hmore ⟨hne, hless⟩
        rw [List.length_append] at hnot ⊢
        omega
      exact ⟨hfull, hfull⟩
  · rw [filled, Reader.current_continueFill]
    change _ = _ ++ (content ++ bytes)
    rw [h.stream_eq, hbefore, List.append_assoc, List.append_assoc, List.append_assoc]
    rfl

theorem Flow.put (h : t.Flow codec stream payloads) {block : Reader.Block}
    (hputting : t.reader.producer = .putting block) :
    ({ t with reader := { t.reader with
        producer := if block.bytes = 0 then .done else .idle
        queue := t.reader.queue ++ [block] } } : ServerThreads).Flow codec stream payloads := by
  have hfull := h.putting block hputting
  have hbefore : t.filled = block.content := by simp [filled, Reader.current, hputting]
  have hafter : ({ t with reader := { t.reader with
      producer := if block.bytes = 0 then .done else .idle
      queue := t.reader.queue ++ [block] } } : ServerThreads).filled = [] := by
    rw [filled, Reader.current_put]
    rfl
  have hone : t.reader.outstanding.length ≤ 1 := by
    refine h.room.2.resolve_left fun hempty => ?_
    have hzero := hfull.2
    rw [← hbefore, hempty] at hzero
    cases hzero
  refine ⟨h.codec_eq, h.size_eq, h.length_data, ?_, ?_, h.pieces, ?_, ⟨?_, .inl hafter⟩, h.sending⟩
  · rw [Reader.outstanding_put]
    intro block' hblock'
    rcases List.mem_append.1 hblock' with hblock' | hblock'
    · exact h.outstanding block' hblock'
    · rwa [List.mem_singleton.1 hblock']
  · intro block' hputting'
    change (if block.bytes = 0 then Reader.Producer.done else .idle) = _ at hputting'
    split at hputting' <;> cases hputting'
  · rw [hafter, Reader.outstanding_put, List.map_append, List.flatten_append, h.stream_eq, hbefore]
    simp
  · rw [Reader.outstanding_put, List.length_append]
    exact Nat.succ_le_succ hone

theorem Flow.get (h : t.Flow codec stream payloads) {block : Reader.Block} {rest : List Reader.Block}
    (hwaiting : t.reader.consumer = .waiting) (hqueue : t.reader.queue = block :: rest)
    (hloop : t.copy.loop = .head) : ({ t with
      reader := { t.reader with consumer := .holding block, queue := rest }
      encoder := .working } : ServerThreads).Flow codec stream payloads := by
  have hsame := Reader.outstanding_get t.reader hwaiting hqueue
  refine ⟨h.codec_eq, h.size_eq, h.length_data, ?_, h.putting, h.pieces, ?_, ?_, ?_⟩
  · rw [hsame]
    exact h.outstanding
  · rw [hsame]
    exact h.stream_eq
  · rw [hsame]
    exact h.room
  · intro b bytes hsending
    cases hloop.symm.trans hsending

theorem Flow.data_eq (h : t.Flow codec stream payloads) (hcontents : t.reader.Contents)
    {block : Reader.Block} (hholding : t.reader.consumer = .holding block) :
    t.reader.data block.data = block.content := by
  have hmem : block ∈ t.reader.outstanding := by simp [Reader.outstanding, hholding]
  have hintact := hcontents.outstanding_intact block hmem
  rwa [Reader.Intact, (h.outstanding block hmem).1, ← h.length_data block.data, List.take_length] at hintact

theorem payloadOf_send {b : ℕ} {results : ℕ → ℤ} {block : Block} (hloop : t.copy.loop = .sending b 1440)
    (hblock : t.copy.engine.pool[b]? = some block) :
    t.payloadOf (.copy (.send results)) = [block.audio.take 1440] := by
  have hpacket : t.packetOf (.copy (.send results)) =
      some ((block.stamp t.copy.engine.packetSeq t.copy.engine.timestamp).packet 1440) := by
    simp only [packetOf, AudioCopy.packetOf, hloop, hblock, Option.map_some]
  rw [payloadOf, hpacket]
  exact congrArg (fun bytes => [bytes]) (List.drop_left' Vector.length_toList)

theorem Flow.sent (h : t.Flow codec stream payloads) {b bytes : ℕ} {results : ℕ → ℤ} {e : Engine}
    (hloop : t.copy.loop = .sending b bytes) (hcodec : e.codec = codec) :
    ({ t with
      reader := { t.reader with consumer := .waiting }
      encoder := .head
      copy := ⟨e, .head⟩ } : ServerThreads).Flow codec stream
        (payloads ++ t.payloadOf (.copy (.send results))) := by
  obtain ⟨rfl, block, hholding, packet, hpacket, haudio⟩ := h.sending b bytes hloop
  have hcons : t.reader.outstanding = block :: t.reader.queue := by simp [Reader.outstanding, hholding]
  have hfull : ∀ block' ∈ block :: t.reader.queue, Full 1440 block' := hcons ▸ h.outstanding
  obtain ⟨hblock, hrest⟩ := List.forall_mem_cons.1 hfull
  rw [payloadOf_send hloop hpacket, haudio]
  have hroom := h.room
  rw [hcons, List.length_cons] at hroom
  refine ⟨hcodec, h.size_eq, h.length_data, hrest, h.putting, ?_, ?_, ?_, fun _ _ hloop => by cases hloop⟩
  · intro piece hpiece
    rcases List.mem_append.1 hpiece with hpiece | hpiece
    · exact h.pieces piece hpiece
    · rw [List.mem_singleton.1 hpiece]
      exact hblock.2
  · have hstream := h.stream_eq
    rw [hcons, List.map_cons, List.flatten_cons] at hstream
    rw [hstream, List.flatten_append, List.flatten_singleton]
    simp only [List.append_assoc]
    rfl
  · refine ⟨Nat.le_of_succ_le hroom.1, hroom.2.imp id fun hle => ?_⟩
    exact Nat.le_of_succ_le hle

theorem payloadOf_nil (hquiet : t.packetOf a = none) : t.payloadOf a = [] := by
  rw [payloadOf, hquiet]
  rfl

theorem client_pool {act : AudioCopy.Action} {copy : AudioCopy} (hown : (Action.copy act).own = false)
    (hcopy : AudioCopy.Step t.copy act copy) : copy.engine.pool = t.copy.engine.pool := by
  cases act with
  | samples | encode result out | send results => cases hown
  | newClient socket =>
      obtain rfl := Except.ok.inj (Option.some.inj hcopy)
      rfl
  | play c =>
      obtain rfl := Except.ok.inj (Option.some.inj hcopy)
      rfl
  | remove c =>
      obtain ⟨e, hremove, hresult⟩ := bind_eq_ok.1 (Option.some.inj hcopy)
      obtain rfl := Except.ok.inj hresult
      obtain ⟨playing, rfl⟩ := Engine.remove_eq_ok hremove
      rfl

/-- With a client the samples are not dropped: the encoder thread has given its last block back. -/
theorem Sound.takes_block (h : t.Sound) (hworking : t.encoder = .working) (hloop : t.copy.loop = .head)
    (hclients : t.copy.engine.hasClients = true) : ∃ b, t.copy.takeBlock.loop = .encoding b := by
  have hengine : t.hasEngine = true := by
    refine hasEngine_iff.2 ?_
    by_contra hleft
    cases hworking.symm.trans (h.encoder (by omega))
  have hlends := h.lends hengine
  rw [hloop] at hlends
  obtain ⟨b, hb⟩ := Option.ne_none_iff_exists'.1 (AudioCopy.getFree_isSome (by decide) hlends)
  obtain ⟨e, he⟩ : ∃ e, t.copy.engine.getFree = (some b, e) := ⟨_, Prod.ext hb rfl⟩
  exact ⟨b, by rw [AudioCopy.takeBlock, if_pos hclients, he]⟩

theorem Flow.work (h : t.Flow codec stream payloads) (hsound : t.Sound) (hcontents : t.reader.Contents)
    (hpcm : ∃ c, codec = .pcm c) {act : AudioCopy.Action} {copy : AudioCopy}
    (hworking : t.encoder = .working) (hsteady : t.Steady (.copy act)) (hworks : t.Works act copy) :
    (t.worked copy).Flow codec stream (payloads ++ t.payloadOf (.copy act)) := by
  have hcodec : copy.engine.codec = t.copy.engine.codec := Engine.codec_of_run hworks.run
  cases hworks with
  | samples hloop =>
      obtain ⟨b, hb⟩ := hsound.takes_block hworking hloop (hsteady.listened rfl)
      rw [payloadOf_nil rfl, List.append_nil, worked_of_ne (by simp [hb])]
      refine h.frame rfl hcodec ?_
      intro b' bytes hsending
      cases hb.symm.trans hsending
  | @encode b bytes result out block e hloop hholding hencode =>
      rw [payloadOf_nil rfl, List.append_nil, worked_of_ne (by simp)]
      obtain ⟨c, rfl⟩ := hpcm
      rw [h.codec_eq] at hencode
      change AudioCopy.encode t.copy.engine b result (t.reader.data block.data) = _ at hencode
      obtain ⟨rfl, packet, hpacket, haudio⟩ := pcm_encode h.codec_eq (h.length_data _) hencode
      rw [h.data_eq hcontents hholding] at haudio
      refine ⟨hcodec.trans h.codec_eq, h.size_eq, h.length_data, h.outstanding, h.putting, h.pieces,
        h.stream_eq, h.room, ?_⟩
      intro b' bytes hsending
      obtain ⟨rfl, rfl⟩ := Loop.sending.inj hsending
      exact ⟨rfl, block, hholding, packet, hpacket, haudio⟩
  | @send b bytes samples results e hloop hsamples hsend =>
      rw [worked_of_head rfl]
      exact h.sent hloop (hcodec.trans h.codec_eq)

theorem Flow.quiet (h : t'.Flow codec stream payloads) (hbytes : a.bytes = [])
    (hpacket : t.packetOf a = none) :
    t'.Flow codec (stream ++ a.bytes) (payloads ++ t.payloadOf a) := by
  rw [payloadOf_nil hpacket, hbytes, List.append_nil, List.append_nil]
  exact h

/-- What is read goes in at one end, and what is sent comes out at the other. -/
theorem Flow.step (h : t.Flow codec stream payloads) (hsound : t.Sound)
    (hcontents : t.reader.Contents) (hpcm : ∃ c, codec = .pcm c) (hsteady : t.Steady a)
    (hstep : Step t a t') : t'.Flow codec (stream ++ a.bytes) (payloads ++ t.payloadOf a) := by
  cases moves_of_step hstep with
  | acquire halive r hr =>
      cases hr with
      | acquire hidle => exact (h.acquire hidle).quiet rfl rfl
  | read bytes r hr =>
      rw [payloadOf_nil rfl, List.append_nil]
      obtain ⟨hne, hroom⟩ := hsteady.reads bytes rfl
      obtain ⟨first, hnumbered⟩ := hsound.numbered
      rw [hnumbered.numBlocks_eq] at hroom
      cases hr with
      | read buff content _ hfilling hle =>
          exact h.read hfilling (hsound.filling buff content hfilling) hle hne (Nat.le_of_lt_succ hroom)
  | put r hr =>
      cases hr with
      | put block hputting hroom => exact (h.put hputting).quiet rfl rfl
  | halt hdead r hr =>
      cases hr with
      | halt hidle =>
          have hbefore : t.filled = [] := by simp [filled, Reader.current, hidle]
          have hstream := h.stream_eq
          rw [hbefore] at hstream
          have hputting : ∀ block, Reader.Producer.done = .putting block → Full 1440 block := by
            intro block hdone
            cases hdone
          exact Flow.quiet ⟨h.codec_eq, h.size_eq, h.length_data, h.outstanding, hputting, h.pieces, hstream,
            ⟨h.room.1, .inl rfl⟩, h.sending⟩ rfl rfl
  | loop hhead => exact Flow.quiet (h.frame rfl rfl fun _ _ hloop => ⟨hloop, rfl⟩) rfl rfl
  | get hreading r hr =>
      cases hr with
      | get block rest hwaiting hqueue =>
          exact (h.get hwaiting hqueue (hsound.loop (by simp [hreading]))).quiet rfl rfl
  | work hworking copy hworks =>
      change (t.worked copy).Flow codec (stream ++ []) _
      rw [List.append_nil]
      exact h.work hsound hcontents hpcm hworking hsteady hworks
  | @client act hown copy hengine hcopy hloop =>
      have hquiet : t.packetOf (.copy act) = none := by
        cases act with
        | send results => cases hown
        | _ => rfl
      have hcodec := Engine.codec_of_run (client_run hown hsteady.socket hcopy)
      have hframe : ({ t with copy := copy } : ServerThreads).Flow codec stream payloads :=
        h.frame rfl hcodec fun _ _ hsending => ⟨hloop ▸ hsending, client_pool hown hcopy⟩
      exact hframe.quiet rfl hquiet
  | deleteEngine hmain deleted engine hdelete =>
      refine Flow.quiet (h.frame rfl (Engine.codec_of_run (Engine.deleteBlocks_run hdelete)) ?_) rfl rfl
      intro b bytes hsending
      have hencoder := hsound.encoder (by simp [hmain, Main.left])
      cases (hsound.loop (by simp [hencoder])).symm.trans hsending
  | kill hmain | joinEncoder hmain hdone | joinReader hmain hdone | deleteReader hmain
  | deleteCodec hmain => exact Flow.quiet (h.frame rfl rfl fun _ _ hloop => ⟨hloop, rfl⟩) rfl rfl

/-! ### The stream in pieces -/

theorem sound_new {rtp rtcp : ℤ} {maxRead : ℕ} {t₀ : ServerThreads}
    {memory : ℕ → ℕ → UInt8} (hnew : new codec rtp rtcp maxRead memory = .ok t₀) : t₀.Sound where
  toPlaced := placed_new hnew
  toOrdered := ordered_new hnew
  toKeeps := keeps_new hnew
  numbered := by
    obtain ⟨size, rfl⟩ := new_eq_ok hnew
    exact ⟨0, Reader.numbered_new size maxRead 2 memory⟩

theorem pcm_rxBytes (config : PcmConfig) (rtp rtcp : ℤ) (numBuffers : ℕ) :
    (Engine.new (AudioCodec.createPcm config) rtp rtcp numBuffers).rxBytes = .ok 1440 := by
  simp [Engine.rxBytes, Engine.new, AudioCodec.createPcm, AudioCodec.samplesPerPacket,
    AudioCodec.numChans, AudioCodec.sampleSize, toSize]

theorem flow_new {config : PcmConfig} {rtp rtcp : ℤ} {maxRead : ℕ} {t₀ : ServerThreads}
    {memory : ℕ → ℕ → UInt8} (hnew : new (AudioCodec.createPcm config) rtp rtcp maxRead memory = .ok t₀) :
    t₀.Flow (AudioCodec.createPcm config) [] [] := by
  obtain ⟨size, hsize, hresult⟩ := bind_eq_ok.1 hnew
  obtain rfl : 1440 = size := Except.ok.inj ((pcm_rxBytes config rtp rtcp numBuffers).symm.trans hsize)
  obtain rfl := Except.ok.inj hresult
  refine ⟨rfl, rfl, fun buff => Reader.length_data_new buff, List.forall_mem_nil _, ?_, List.forall_mem_nil _, rfl,
    ⟨Nat.zero_le _, .inl rfl⟩, ?_⟩
  · intro block hputting
    cases hputting
  · intro b bytes hloop
    cases hloop

theorem fullPieces_cons {size : ℕ} (hpos : 0 < size) {piece : Bytes} (hpiece : piece.length = size)
    (s : Bytes) : Poll.fullPieces size (piece ++ s) = piece :: Poll.fullPieces size s := by
  have hcount : (piece ++ s).length / size = s.length / size + 1 := by
    rw [List.length_append, hpiece, Nat.add_div_left _ hpos]
  rw [Poll.fullPieces, hcount, List.range_succ_eq_map, List.map_cons, List.map_map, Poll.fullPieces]
  congr 1
  · rw [Nat.zero_mul, List.drop_zero, ← hpiece, List.take_left]
  · apply List.map_congr_left
    intro i _
    have hdrop : (i + 1) * size = piece.length + i * size := by rw [hpiece, Nat.succ_mul, Nat.add_comm]
    simp only [Function.comp, Nat.succ_eq_add_one]
    rw [hdrop, List.drop_append, List.drop_eq_nil_of_le (Nat.le_add_right _ _), List.nil_append,
      Nat.add_sub_cancel_left]

theorem fullPieces_flatten {size : ℕ} (hpos : 0 < size) {pieces : List Bytes}
    (hpieces : ∀ piece ∈ pieces, piece.length = size) (rest : Bytes) :
    Poll.fullPieces size (pieces.flatten ++ rest) = pieces ++ Poll.fullPieces size rest := by
  induction pieces with
  | nil => rfl
  | cons piece pieces ih =>
      obtain ⟨hpiece, hpieces⟩ := List.forall_mem_cons.1 hpieces
      rw [List.flatten_cons, List.append_assoc, fullPieces_cons hpos hpiece, ih hpieces, List.cons_append]

theorem length_flatten_of {size : ℕ} {pieces : List Bytes} (hpieces : ∀ piece ∈ pieces, piece.length = size) :
    pieces.flatten.length = size * pieces.length := by
  rw [List.length_flatten, List.eq_replicate_of_mem (List.forall_mem_map.2 hpieces),
    List.sum_replicate_nat, List.length_map, Nat.mul_comm]

/-- At most two blocks are on their way. -/
theorem Flow.behind (h : t.Flow codec stream payloads) (hplaced : t.Placed) :
    stream.length ≤ 1440 * (payloads.length + 2) := by
  have houtstanding : ((t.reader.outstanding.map Reader.Block.content).flatten).length =
      1440 * t.reader.outstanding.length := by
    rw [length_flatten_of (List.forall_mem_map.2 fun block hblock => (h.outstanding block hblock).2),
      List.length_map]
  have hfilled : t.filled.length ≤ 1440 := by
    unfold filled Reader.current
    cases hproducer : t.reader.producer with
    | idle | done => exact Nat.zero_le _
    | filling buff content => exact h.size_eq ▸ (hplaced.filling buff content hproducer).le
    | putting block => exact (h.putting block hproducer).2.le
  rw [h.stream_eq, List.length_append, List.length_append, length_flatten_of h.pieces, houtstanding]
  obtain ⟨htwo, hempty | hone⟩ := h.room
  · rw [hempty, List.length_nil]
    omega
  · omega

/-- The conditions of `Steady`, checked. -/
def steady (t : ServerThreads) : Action → Bool
  | .read bytes => bytes ≠ [] ∧ t.reader.outstanding.length < t.reader.numBlocks
  | .copy .samples => t.copy.engine.hasClients
  | .copy (.newClient socket) => socket.sent = []
  | _ => true

theorem steady_sound (h : t.steady a = true) : t.Steady a := by
  refine ⟨?_, ?_, ?_⟩
  · rintro bytes rfl
    exact of_decide_eq_true h
  · rintro rfl
    exact h
  · rintro socket rfl
    exact of_decide_eq_true h

end ServerThreads

end WifiAudio
