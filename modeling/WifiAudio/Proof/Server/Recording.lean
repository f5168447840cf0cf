import WifiAudio.Proof.Audio.Playback
import WifiAudio.Proof.Audio.WavRoundTrip
import WifiAudio.Proof.Server.Running

/-!
# From a recording to the listeners

A file that was recorded and is played with a PCM codec is heard as it was recorded: through the file,
the blocks of the loop and the packets of the engine no byte is lost, repeated or moved, and what is
added behind the last one fills up the last packet.
-/

namespace WifiAudio

open Except Transition

namespace Playback

variable {blank : ℕ → Bytes} {size k : ℕ} {data : Bytes} {taken : List Bool}

/-! ### The blocks of a file -/

theorem chosen_of_all (hall : ∀ flag ∈ taken, flag = true) :
    chosen blank size data taken = (List.range taken.length).map (block blank size data) := by
  induction taken using List.reverseRecOn with
  | nil => rfl
  | append_singleton taken flag ih =>
      obtain rfl := hall flag (by simp)
      rw [chosen_append, ih fun flag hflag => hall flag (List.mem_append_left _ hflag), List.length_append,
        List.length_singleton, List.range_succ, List.map_append]
      rfl

theorem length_before (hblank : ∀ buff, (blank buff).length = size) (k : ℕ) :
    (before blank size data k).length ≤ size := by
  rw [before]
  split
  · exact Nat.le_of_eq (hblank k)
  · exact length_piece_le size data _

theorem block_eq_piece (hblank : ∀ buff, (blank buff).length = size) (h : (k + 1) * size ≤ data.length) :
    block blank size data k = piece size data k := by
  have hshort : (before blank size data k).length ≤ (piece size data k).length := by
    rw [length_piece h]
    exact length_before hblank k
  rw [block, List.drop_eq_nil_of_le hshort, List.append_nil]

theorem flatten_blocks (hblank : ∀ buff, (blank buff).length = size) (h : k * size ≤ data.length) :
    ((List.range k).map (block blank size data)).flatten = data.take (k * size) := by
  induction k with
  | zero => rw [Nat.zero_mul, List.take_zero]; rfl
  | succ k ih =>
      have hle : k * size ≤ data.length := Nat.le_trans (Nat.mul_le_mul_right size (Nat.le_succ k)) h
      rw [List.range_succ, List.map_append, List.flatten_append, ih hle, List.map_singleton,
        List.flatten_singleton, block_eq_piece hblank h, piece, ← List.take_add, Nat.succ_mul]

/-- The blocks of a file are its bytes and less than a block behind them. -/
theorem blocks_of_file (hblank : ∀ buff, (blank buff).length = size) (hpos : 0 < size) (data : Bytes) :
    ∃ padding : Bytes, padding.length < size ∧
      ((List.range ((data.length + size - 1) / size)).map (block blank size data)).flatten =
        data ++ padding := by
  obtain ⟨k, hk, hlt⟩ : ∃ k, k * size ≤ data.length ∧ data.length < (k + 1) * size :=
    ⟨data.length / size, Nat.div_mul_le_self _ _, Nat.lt_mul_of_div_lt (Nat.lt_succ_self _) hpos⟩
  have hone : (k + 1) * size = k * size + size := Nat.succ_mul k size
  have htwo : (k + 1 + 1) * size = k * size + size + size := by rw [Nat.succ_mul, hone]
  rcases Nat.eq_or_lt_of_le hk with heq | hless
  · have hcount : (data.length + size - 1) / size = k :=
      Nat.div_eq_of_lt_le (by omega) (by omega)
    refine ⟨[], hpos, ?_⟩
    rw [hcount, flatten_blocks hblank hk, heq, List.take_length, List.append_nil]
  · have hcount : (data.length + size - 1) / size = k + 1 :=
      Nat.div_eq_of_lt_le (by omega) (by omega)
    have hpiece : piece size data k = data.drop (k * size) := by
      refine List.take_of_length_le ?_
      rw [List.length_drop]
      omega
    refine ⟨(before blank size data k).drop (piece size data k).length, ?_, ?_⟩
    · have hbefore : (before blank size data k).length ≤ size := length_before hblank k
      rw [List.length_drop, hpiece, List.length_drop]
      omega
    · rw [hcount, List.range_succ, List.map_append, List.flatten_append, flatten_blocks hblank hk,
        List.map_singleton, List.flatten_singleton, block, hpiece, ← List.append_assoc,
        List.take_append_drop]

/-! ### The packets -/

/-- The packet a step sends. -/
def packetOf (p : Playback) : Action → Option Bytes
  | .copy act => p.poll.copy.packetOf act
  | _ => none

/-- The packets of the steps taken. -/
def packets (steps : List (Playback × Action)) : List Bytes :=
  steps.flatMap fun step => (step.1.packetOf step.2).toList

/-- Client `c` is on the playing list. -/
def tuned (p : Playback) (c : ℕ) : Bool :=
  (p.poll.copy.engine.playing.visit p.poll.copy.engine.clients.length).any fun visited => c ∈ visited

/-- The packets sent while client `c` was on the playing list. -/
def packetsWhile (c : ℕ) (steps : List (Playback × Action)) : List Bytes :=
  steps.flatMap fun step => if step.1.tuned c then (step.1.packetOf step.2).toList else []

/-- Somebody listens when a block is taken up, and the engine's users keep to its terms. -/
structure Attended (p : Playback) (a : Action) : Prop where
  listened : a = .copy .samples → p.poll.copy.engine.hasClients = true
  socket : ∀ socket, a = .copy (.newClient socket) → socket.sent = []
  plays : ∀ c, a = .copy (.play c) → p.poll.copy.engine.PlaysNew (.play (some c))

/-- What `audio_copy` does in a step, and what has been encoded then. -/
inductive Copies (p : Playback) : AudioCopy.Action → AudioCopy → List Bytes → Prop
  | samples (hloop : p.poll.copy.loop = .head) : Copies p .samples p.poll.copy.takeBlock p.poll.inputs
  | encode {b bytes : ℕ} {result : ℤ} {out : Bytes} {block : Reader.Block} {e : Engine}
      (hplace : p.poll.place = .working) (hloop : p.poll.copy.loop = .encoding b)
      (hencode : AudioCopy.encode p.poll.copy.engine b result
        (p.poll.copy.engine.codec.encoded (p.poll.reader.data block.data) out) = .ok (bytes, e)) :
      Copies p (.encode result out) ⟨e, .sending b bytes⟩
        (p.poll.inputs ++ [p.poll.reader.data block.data])
  | send {b bytes samples : ℕ} {results : ℕ → ℤ} {e : Engine} (hloop : p.poll.copy.loop = .sending b bytes)
      (hsamples : p.poll.copy.engine.codec.samplesPerPacket = .ok samples)
      (hsend : p.poll.copy.engine.send b bytes samples results = .ok e) :
      Copies p (.send results) ⟨e, .head⟩ p.poll.inputs
  | client {act : AudioCopy.Action} {copy : AudioCopy} (hown : Action.own (.copy act) = false)
      (hcopy : AudioCopy.Step p.poll.copy act copy) : Copies p act copy p.poll.inputs

variable {p p' : Playback} {a : Action}

theorem worked_copy (poll : Poll) (inputs : List Bytes) (copy : AudioCopy) :
    (poll.worked inputs copy).copy = copy ∧ (poll.worked inputs copy).inputs = inputs := by
  unfold Poll.worked
  split <;> exact ⟨rfl, rfl⟩

theorem copies_of_work {poll : Poll} {act act' : AudioCopy.Action} {inputs : List Bytes}
    (hwork : p.poll.work act inputs = some (.ok poll))
    (hcopies : ∀ copy, p.poll.place = .working → AudioCopy.Step p.poll.copy act copy →
      p.Copies act' copy inputs) :
    p.Copies act' poll.copy poll.inputs ∧ AudioCopy.Step p.poll.copy act poll.copy := by
  obtain ⟨hplace, copy, hcopy, rfl⟩ := Poll.work_eq_some hwork
  obtain ⟨hsame, hinputs⟩ := worked_copy p.poll inputs copy
  rw [hsame, hinputs]
  exact ⟨hcopies copy hplace hcopy, hcopy⟩

theorem copies_of_step {act : AudioCopy.Action} {poll : Poll}
    (hstep : Poll.Step p.poll (.copy (p.call act)) poll) :
    p.Copies act poll.copy poll.inputs ∧ AudioCopy.Step p.poll.copy (p.call act) poll.copy := by
  cases act with
  | samples =>
      refine copies_of_work hstep fun copy _ hcopy => ?_
      obtain ⟨hloop, rfl⟩ := AudioCopy.samples_eq_some hcopy
      exact .samples hloop
  | encode result out =>
      cases hconsumer : p.poll.reader.consumer with
      | waiting => simp [Poll.Step, Poll.exec, call, hconsumer] at hstep
      | holding block =>
          simp only [Poll.Step, Poll.exec, call, hconsumer] at hstep ⊢
          refine copies_of_work hstep fun copy hplace hcopy => ?_
          obtain ⟨b, bytes, e, hloop, hencode, rfl⟩ := AudioCopy.encode_eq_some hcopy
          exact .encode hplace hloop hencode
  | send results =>
      refine copies_of_work hstep fun copy _ hcopy => ?_
      obtain ⟨b, bytes, samples, e, hloop, hsamples, hsend, rfl⟩ := AudioCopy.send_eq_some hcopy
      exact .send hloop hsamples hsend
  | newClient socket | play c | remove c =>
      simp only [Poll.Step, Poll.exec, call] at hstep
      obtain ⟨r, hcopy, hpoll⟩ := Option.map_eq_some_iff.1 hstep
      obtain ⟨copy, rfl, hresult⟩ := bind_eq_ok.1 hpoll
      obtain rfl := Except.ok.inj hresult
      exact ⟨.client rfl hcopy, hcopy⟩

/-- A step is one of `audio_copy`, or leaves it alone. -/
theorem copies_or_same (hstep : Step p a p') :
    (∃ act, a = .copy act ∧ p.Copies act p'.poll.copy p'.poll.inputs ∧
        AudioCopy.Step p.poll.copy (p.call act) p'.poll.copy) ∨
      (∀ act, a ≠ .copy act) ∧ p'.poll.copy = p.poll.copy ∧ p'.poll.inputs = p.poll.inputs := by
  cases moves_of_step hstep with
  | copy poll hpoll => exact .inl ⟨_, rfl, copies_of_step hpoll⟩
  | halt hdead poll hpoll | acquire poll hpoll | read bytes source poll hfilling hread hpoll
  | put poll hpoll | get poll hpoll =>
      refine .inr ⟨?_, ?_⟩
      · intro act hact
        cases hact
      · cases hpoll
        exact ⟨rfl, rfl⟩

theorem client_frame {act : AudioCopy.Action} {copy : AudioCopy} (hattended : p.Attended (.copy act))
    (hown : Action.own (.copy act) = false) (hcopy : AudioCopy.Step p.poll.copy act copy) :
    copy.loop = p.poll.copy.loop ∧ copy.engine.pool = p.poll.copy.engine.pool ∧
      ∃ op : Engine.Op, op.sends = none ∧ p.poll.copy.engine.PlaysNew op ∧
        Engine.Step p.poll.copy.engine op copy.engine := by
  cases act with
  | samples | encode result out | send results => cases hown
  | newClient socket =>
      obtain rfl := Except.ok.inj (Option.some.inj hcopy)
      have hsent := hattended.socket socket rfl
      obtain ⟨ip, port, connected, sent⟩ := socket
      obtain rfl : sent = [] := hsent
      exact ⟨rfl, rfl, .newClient ip port connected, rfl, trivial, rfl⟩
  | play c =>
      obtain rfl := Except.ok.inj (Option.some.inj hcopy)
      exact ⟨rfl, rfl, .play (some c), rfl, hattended.plays c rfl, rfl⟩
  | remove c =>
      obtain ⟨e, hremove, hresult⟩ := bind_eq_ok.1 (Option.some.inj hcopy)
      obtain rfl := Except.ok.inj hresult
      obtain ⟨playing, hplaying⟩ := Engine.remove_eq_ok hremove
      refine ⟨rfl, ?_, .remove (some c), rfl, trivial, Engine.step_of_ok rfl hremove⟩
      rw [hplaying]

theorem Plays.length_data (h : Plays blank size data p taken) (hplace : p.poll.place = .working)
    (buff : ℕ) : (p.poll.reader.data buff).length = size := by
  obtain ⟨finished, pending, -, -, hstage⟩ := h.stage
  cases hstage with
  | working _ _ _ _ _ hread | encoding _ _ _ _ _ hread | sending _ _ _ _ hread =>
      rw [hread.data_eq]
      exact length_buffers h.length_blank _ buff
  | head hplace' | filling hplace' | putting hplace' | reading hplace' | done hplace' =>
      cases hplace.symm.trans hplace'

/-! ### From the blocks to the packets -/

variable {codec : AudioCodec} {n : ℕ} {steps : List (Playback × Action)}

/-- The payloads of the packets sent. -/
def payloads (steps : List (Playback × Action)) : List Bytes := (packets steps).map (List.drop 12)

/-- The packets sent are numbered and carry what has been encoded, but for the block at hand. -/
structure Airs (codec : AudioCodec) (n : ℕ) (p : Playback) (steps : List (Playback × Action)) : Prop where
  lends : p.poll.copy.engine.Lends n p.poll.copy.loop.held
  sized : p.poll.copy.Sized codec
  tally : p.poll.copy.engine.Tally codec (packets steps).length
  sent : (∀ b bytes, p.poll.copy.loop ≠ .sending b bytes) → p.poll.inputs = payloads steps
  sending : ∀ b bytes, p.poll.copy.loop = .sending b bytes → bytes = 1440 ∧ ∃ block,
    p.poll.copy.engine.pool[b]? = some block ∧ p.poll.inputs = payloads steps ++ [block.audio.take 1440]
  numbered : ∀ (k : ℕ) (packet : Bytes), (packets steps)[k]? = some packet →
    IsRtpPacket codec ((1 + k) % 2 ^ 16) (360 * k % 2 ^ 32) 1440 packet
  sentTo : ∀ c, p.poll.copy.engine.sentTo c = packetsWhile c steps
  taken : ∀ flag ∈ steps.flatMap fun step => step.1.flags step.2, flag = true

theorem packets_append (steps : List (Playback × Action)) (p : Playback) (a : Action) :
    packets (steps ++ [(p, a)]) = packets steps ++ (p.packetOf a).toList := by
  rw [packets, List.flatMap_append, List.flatMap_singleton]
  rfl

theorem packetsWhile_append (c : ℕ) (steps : List (Playback × Action)) (p : Playback) (a : Action) :
    packetsWhile c (steps ++ [(p, a)]) =
      packetsWhile c steps ++ if p.tuned c then (p.packetOf a).toList else [] := by
  rw [packetsWhile, List.flatMap_append, List.flatMap_singleton]
  rfl

theorem Airs.silent (h : Airs codec n p steps) (hpacket : p.packetOf a = none)
    (hflags : ∀ flag ∈ p.flags a, flag = true)
    (hlends : p'.poll.copy.engine.Lends n p'.poll.copy.loop.held) (hsized : p'.poll.copy.Sized codec)
    (htally : p'.poll.copy.engine.Tally codec (packets steps).length ∧
      ∀ c, p'.poll.copy.engine.sentTo c = p.poll.copy.engine.sentTo c)
    (hsent : (∀ b bytes, p'.poll.copy.loop ≠ .sending b bytes) → p'.poll.inputs = payloads steps)
    (hsending : ∀ b bytes, p'.poll.copy.loop = .sending b bytes → bytes = 1440 ∧ ∃ block,
      p'.poll.copy.engine.pool[b]? = some block ∧
        p'.poll.inputs = payloads steps ++ [block.audio.take 1440]) :
    Airs codec n p' (steps ++ [(p, a)]) := by
  have hpackets : packets (steps ++ [(p, a)]) = packets steps := by
    rw [packets_append, hpacket, Option.toList_none, List.append_nil]
  refine ⟨hlends, hsized, ?_, ?_, ?_, ?_, fun c => ?_, ?_⟩
  · rw [hpackets]
    exact htally.1
  · rw [payloads, hpackets]
    exact hsent
  · rw [payloads, hpackets]
    exact hsending
  · rw [hpackets]
    exact h.numbered
  · rw [packetsWhile_append, hpacket, Option.toList_none, ite_self, List.append_nil, htally.2, h.sentTo]
  · intro flag hflag
    rw [List.flatMap_append, List.flatMap_singleton] at hflag
    exact (List.mem_append.1 hflag).elim (h.taken flag) (hflags flag)

theorem packetOf_quiet {act : AudioCopy.Action} (hquiet : ∀ results, act ≠ .send results) :
    p.packetOf (.copy act) = none := by
  cases act with
  | send results => exact absurd rfl (hquiet results)
  | _ => rfl

theorem Airs.samples (h : Airs codec n p steps) (hn : 1 ≤ n) (hattended : p.Attended (.copy .samples))
    (hloop : p.poll.copy.loop = .head) (hcopy : p'.poll.copy = p.poll.copy.takeBlock)
    (hinputs : p'.poll.inputs = p.poll.inputs)
    (hlends : p'.poll.copy.engine.Lends n p'.poll.copy.loop.held) (hsized : p'.poll.copy.Sized codec) :
    Airs codec n p' (steps ++ [(p, .copy .samples)]) := by
  have hfree : p.poll.copy.engine.getFree.1.isSome = true := by
    have hall := h.lends
    rw [hloop] at hall
    exact Option.isSome_iff_ne_none.2 (AudioCopy.getFree_isSome hn hall)
  have hclients := hattended.listened rfl
  have hnext : ∀ b bytes, p'.poll.copy.loop ≠ .sending b bytes := by
    intro b bytes
    rw [hcopy]
    rcases takeBlock_loop p.poll.copy hloop with ⟨-, b', hb'⟩ | ⟨-, hhead⟩
    · rw [hb']
      exact Loop.noConfusion
    · rw [hhead]
      exact Loop.noConfusion
  have hprepares : ∀ op ∈ (if p.poll.copy.engine.hasClients then [Engine.Op.getFree] else []),
      op.prepares = true := by
    rw [if_pos hclients]
    exact List.forall_mem_singleton.2 rfl
  refine h.silent (packetOf_quiet fun _ => AudioCopy.Action.noConfusion) ?_ hlends hsized ?_ ?_ ?_
  · intro flag hflag
    rw [List.mem_singleton.1 hflag, hclients, hfree]
    rfl
  · rw [hcopy]
    exact h.tally.quiet hprepares (ServerThreads.takeBlock_run p.poll.copy)
  · intro _
    rw [hinputs]
    refine h.sent fun b bytes => ?_
    rw [hloop]
    exact Loop.noConfusion
  · intro b bytes hsending
    exact absurd hsending (hnext b bytes)

theorem Airs.encode {b bytes : ℕ} {result : ℤ} {out written : Bytes} {c : PcmCodec} {e : Engine}
    (h : Airs (.pcm c) n p steps) (hloop : p.poll.copy.loop = .encoding b) (hlength : written.length = 1440)
    (hencode : AudioCopy.encode p.poll.copy.engine b result written = .ok (bytes, e))
    (hcopy : p'.poll.copy = ⟨e, .sending b bytes⟩) (hinputs : p'.poll.inputs = p.poll.inputs ++ [written])
    (hlends : p'.poll.copy.engine.Lends n p'.poll.copy.loop.held) (hsized : p'.poll.copy.Sized (.pcm c)) :
    Airs (.pcm c) n p' (steps ++ [(p, .copy (.encode result out))]) := by
  obtain ⟨rfl, block, hblock, haudio⟩ := ServerThreads.pcm_encode h.tally.codec_eq hlength hencode
  obtain ⟨call, -, hencode⟩ := bind_eq_ok.1 hencode
  obtain ⟨reported, -, hencode⟩ := bind_eq_ok.1 hencode
  obtain ⟨e₁, hwrite, hresult⟩ := bind_eq_ok.1 hencode
  obtain ⟨-, rfl⟩ := Prod.mk.inj (Except.ok.inj hresult)
  have hbefore : p.poll.inputs = payloads steps := by
    refine h.sent fun b bytes => ?_
    rw [hloop]
    exact Loop.noConfusion
  refine h.silent (packetOf_quiet fun _ => AudioCopy.Action.noConfusion) (List.forall_mem_nil _) hlends
    hsized ?_ ?_ ?_
  · rw [hcopy]
    have hstep : Engine.Step p.poll.copy.engine (.writeAudio b _) e₁ := Engine.step_of_ok rfl hwrite
    refine h.tally.silent ?_ ?_ hstep
    · trivial
    · rfl
  · intro hnever
    rw [hcopy] at hnever
    exact absurd rfl (hnever b 1440)
  · intro b' bytes' hsending
    rw [hcopy] at hsending
    obtain ⟨rfl, rfl⟩ := Loop.sending.inj hsending
    refine ⟨rfl, block, ?_, ?_⟩
    · rw [hcopy]
      exact hblock
    · rw [hinputs, haudio, hbefore]

theorem Airs.send {b bytes samples : ℕ} {results : ℕ → ℤ} {c : PcmCodec} {e : Engine}
    (h : Airs (.pcm c) n p steps) (hloop : p.poll.copy.loop = .sending b bytes)
    (hsamples : p.poll.copy.engine.codec.samplesPerPacket = .ok samples)
    (hsend : p.poll.copy.engine.send b bytes samples results = .ok e) (hcopy : p'.poll.copy = ⟨e, .head⟩)
    (hinputs : p'.poll.inputs = p.poll.inputs)
    (hlends : p'.poll.copy.engine.Lends n p'.poll.copy.loop.held) (hsized : p'.poll.copy.Sized (.pcm c)) :
    Airs (.pcm c) n p' (steps ++ [(p, .copy (.send results))]) := by
  obtain ⟨rfl, block, hblock, hlast⟩ := h.sending b bytes hloop
  obtain rfl : 360 = samples := by
    rw [h.tally.codec_eq] at hsamples
    exact Except.ok.inj hsamples
  obtain ⟨htally, packet, hpacket, hrtp⟩ := h.tally.send hsend
  have hsome : p.packetOf (.copy (.send results)) = some packet :=
    (AudioCopy.packetOf_send hloop).trans hpacket
  have hpackets : packets (steps ++ [(p, .copy (.send results))]) = packets steps ++ [packet] := by
    rw [packets_append, hsome]
    rfl
  have hpayload : packet.drop 12 = block.audio.take 1440 := by
    rw [Engine.packetOf, hblock] at hpacket
    obtain rfl := Option.some.inj hpacket
    exact List.drop_left' Vector.length_toList
  refine ⟨hlends, hsized, ?_, ?_, ?_, ?_, fun client => ?_, ?_⟩
  · rw [hpackets, hcopy, List.length_append]
    exact htally
  · intro _
    rw [payloads, hpackets, List.map_append, List.map_singleton, hpayload, hinputs]
    exact hlast
  · intro b' bytes' hsending
    rw [hcopy] at hsending
    cases hsending
  · intro k packet' hk
    rw [hpackets] at hk
    rcases Nat.lt_or_ge k (packets steps).length with hlt | hge
    · rw [List.getElem?_append_left hlt] at hk
      exact h.numbered k packet' hk
    · rw [List.getElem?_append_right hge] at hk
      obtain ⟨hzero, rfl⟩ := List.getElem?_eq_some_iff.1 hk
      obtain rfl : k = (packets steps).length := by
        rw [List.length_singleton] at hzero
        omega
      simpa using hrtp
  · obtain ⟨xs, hstreams⟩ := h.tally.streams
    obtain ⟨packet', hpacket', -, -, -, -, -, hsent⟩ := hstreams.send hsend
    obtain rfl := Option.some.inj (hpacket.symm.trans hpacket')
    rw [packetsWhile_append, hcopy, hsent, h.sentTo, hsome, tuned, hstreams.playing.visit]
    simp
  · intro flag hflag
    rw [List.flatMap_append, List.flatMap_singleton] at hflag
    exact (List.mem_append.1 hflag).elim (h.taken flag) (fun hnone => by cases hnone)

theorem Airs.step {c : PcmCodec} (h : Airs (.pcm c) n p steps) (hn : 1 ≤ n)
    (hplays : Plays blank 1440 data p taken) (hattended : p.Attended a) (hstep : Step p a p') :
    Airs (.pcm c) n p' (steps ++ [(p, a)]) := by
  rcases copies_or_same hstep with ⟨act, rfl, hcopies, hcopy⟩ | ⟨hother, hcopy, hinputs⟩
  · have hlends := AudioCopy.lends_step h.lends hcopy
    have hsized := h.sized.step hcopy
    generalize hcopy₁ : p'.poll.copy = copy at hcopies
    generalize hinputs₁ : p'.poll.inputs = inputs at hcopies
    cases hcopies with
    | samples hloop => exact h.samples hn hattended hloop hcopy₁ hinputs₁ hlends hsized
    | encode hplace hloop hencode =>
        rw [h.tally.codec_eq] at hencode
        exact h.encode hloop (hplays.length_data hplace _) hencode hcopy₁ hinputs₁ hlends hsized
    | send hloop hsamples hsend => exact h.send hloop hsamples hsend hcopy₁ hinputs₁ hlends hsized
    | client hown hcopy' =>
        obtain ⟨hloop, hpool, op, hsends, hnew, hop⟩ := client_frame hattended hown hcopy'
        have hquiet : ∀ results, act ≠ .send results := by
          rintro results rfl
          cases hown
        have hflags : ∀ flag ∈ p.flags (.copy act), flag = true := by
          cases act with
          | samples => cases hown
          | _ => exact List.forall_mem_nil _
        refine h.silent (packetOf_quiet hquiet) hflags hlends hsized ?_ ?_ ?_
        · rw [hcopy₁]
          exact h.tally.silent hnew hsends hop
        · rw [hcopy₁, hinputs₁, hloop]
          exact h.sent
        · rw [hcopy₁, hinputs₁, hloop, hpool]
          exact h.sending
  · have hpacket : p.packetOf a = none := by
      cases a with
      | copy act => exact absurd rfl (hother act)
      | _ => rfl
    have hflags : ∀ flag ∈ p.flags a, flag = true := by
      cases a with
      | copy act => exact absurd rfl (hother act)
      | _ => exact List.forall_mem_nil _
    refine h.silent hpacket hflags ?_ ?_ ?_ ?_ ?_
    · rw [hcopy]
      exact h.lends
    · rw [hcopy]
      exact h.sized
    · rw [hcopy]
      exact ⟨h.tally, fun _ => rfl⟩
    · rw [hcopy, hinputs]
      exact h.sent
    · rw [hcopy, hinputs]
      exact h.sending

/-! ### Nothing goes wrong -/

theorem pcm_encode_ok {c : PcmCodec} {e : Engine} {b : ℕ} {block : Block} (hcodec : e.codec = .pcm c)
    (hblock : e.pool[b]? = some block) (hsize : block.maxPayload = 1440) (result : ℤ) (written : Bytes) :
    ∃ r, AudioCopy.encode e b result written = .ok r := by
  obtain ⟨hwrites, hencodes⟩ := ServerThreads.pcm_sizes c result
  have hfits : ¬block.maxPayload < (written.take 1440).length := by
    rw [hsize]
    exact Nat.not_lt_of_le (List.length_take_le _ _)
  obtain ⟨e', hwrite⟩ : ∃ e', e.writeAudio b (written.take 1440) = .ok e' := by
    refine ⟨{ e with pool := e.pool.set b { block with
      audio := written.take 1440 ++ block.audio.drop (written.take 1440).length } }, ?_⟩
    simp only [Engine.writeAudio, hblock, hfits, if_false]
    rfl
  refine ⟨(1440, e'), bind_eq_ok.2 ⟨_, ServerThreads.pcm_encodeCall hcodec b, ?_⟩⟩
  rw [hcodec, hwrites]
  exact bind_eq_ok.2 ⟨1440, hencodes, bind_eq_ok.2 ⟨e', hwrite, rfl⟩⟩

theorem Airs.block {c : PcmCodec} {b : ℕ} (h : Airs (.pcm c) n p steps)
    (hb : b < p.poll.copy.engine.pool.length) :
    ∃ block, p.poll.copy.engine.pool[b]? = some block ∧ block.maxPayload = 1440 :=
  ⟨_, List.getElem?_eq_getElem hb, h.sized.engine.maxPayload _ (List.getElem_mem hb)⟩

theorem Airs.copy_ok {c : PcmCodec} {act : AudioCopy.Action} {r : Except Fault AudioCopy}
    (h : Airs (.pcm c) n p steps) (hown : Action.own (.copy act) = true)
    (hexec : p.poll.copy.exec act = some r) : ∃ copy, r = .ok copy := by
  cases act with
  | samples =>
      simp only [AudioCopy.exec] at hexec
      split at hexec
      · exact ⟨_, (Option.some.inj hexec).symm⟩
      · cases hexec
  | encode result written =>
      simp only [AudioCopy.exec] at hexec
      split at hexec
      case h_1 b hloop =>
        obtain ⟨block, hblock, hsize⟩ := h.block (h.sized.encoding b hloop)
        obtain ⟨encoded, hencode⟩ := pcm_encode_ok h.tally.codec_eq hblock hsize result written
        rw [hencode] at hexec
        exact ⟨_, (Option.some.inj hexec).symm⟩
      case h_2 => cases hexec
  | send results =>
      simp only [AudioCopy.exec] at hexec
      split at hexec
      case h_1 b bytes hloop =>
        obtain ⟨rfl, -⟩ := h.sending b bytes hloop
        obtain ⟨block, hblock, hsize⟩ := h.block (h.sized.sending b 1440 hloop)
        obtain ⟨xs, hstreams⟩ := h.tally.streams
        have hsamples : p.poll.copy.engine.codec.samplesPerPacket = .ok 360 := by
          rw [h.tally.codec_eq]
          rfl
        obtain ⟨e, hsend⟩ : ∃ e, p.poll.copy.engine.send b 1440 360 results = .ok e :=
          ⟨_, Engine.send_eq_ok.2
            ⟨block, xs, hblock, Nat.le_of_eq hsize.symm, hstreams.playing.visit, rfl⟩⟩
        obtain rfl := Option.some.inj hexec
        exact ⟨⟨e, .head⟩, bind_eq_ok.2 ⟨360, hsamples, bind_eq_ok.2 ⟨e, hsend, rfl⟩⟩⟩
      case h_2 => cases hexec
  | newClient | play | remove => cases hown

theorem Airs.work_ok {c : PcmCodec} {act : AudioCopy.Action} {inputs : List Bytes} {r : Except Fault Poll}
    (h : Airs (.pcm c) n p steps) (hown : Action.own (.copy act) = true)
    (hwork : p.poll.work act inputs = some r) : ∃ poll, r = .ok poll := by
  unfold Poll.work at hwork
  split at hwork
  · obtain ⟨copied, hcopied, rfl⟩ := Option.map_eq_some_iff.1 hwork
    obtain ⟨copy, rfl⟩ := h.copy_ok hown hcopied
    exact ⟨_, rfl⟩
  · cases hwork

theorem poll_ok {poll : Poll} {act : Poll.Action} {r : Except Fault Poll} (hother : ∀ copy, act ≠ .copy copy)
    (hexec : poll.exec act = some r) : ∃ poll', r = .ok poll' := by
  cases act with
  | copy act => exact absurd rfl (hother act)
  | halt =>
      simp only [Poll.exec] at hexec
      split at hexec
      · exact ⟨_, (Option.some.inj hexec).symm⟩
      · cases hexec
  | acquire | read bytes | put | get =>
      simp only [Poll.exec] at hexec
      split at hexec
      · obtain ⟨r, -, rfl⟩ := Option.map_eq_some_iff.1 hexec
        exact ⟨_, rfl⟩
      · cases hexec

theorem polled_ok {act : Poll.Action} {r : Except Fault Playback}
    (hpoll : ∀ r, p.poll.exec act = some r → ∃ poll, r = .ok poll) (hpolled : p.polled act = some r) :
    ∃ p', r = .ok p' := by
  obtain ⟨r, hr, rfl⟩ := Option.map_eq_some_iff.1 hpolled
  obtain ⟨poll, rfl⟩ := hpoll r hr
  exact ⟨_, rfl⟩

theorem Airs.no_fault {c : PcmCodec} {r : Except Fault Playback} (h : Airs (.pcm c) n p steps)
    (hplays : Plays blank 1440 data p taken) (hown : a.own = true) (hexec : p.exec a = some r) :
    ∃ p', r = .ok p' := by
  cases a with
  | halt =>
      simp only [exec] at hexec
      split at hexec
      · exact polled_ok (fun _ => poll_ok fun _ => Poll.Action.noConfusion) hexec
      · cases hexec
  | acquire =>
      simp only [exec] at hexec
      split at hexec
      · cases hexec
      · exact polled_ok (fun _ => poll_ok fun _ => Poll.Action.noConfusion) hexec
  | read =>
      obtain ⟨file, hfile⟩ := hplays.opened
      simp only [exec] at hexec
      split at hexec
      case h_1 buff content hfilling =>
        obtain ⟨source, hread, -⟩ := RawSource.read_file hfile (p.poll.reader.todo content.length)
        rw [hread] at hexec
        exact polled_ok (fun _ => poll_ok fun _ => Poll.Action.noConfusion) hexec
      case h_2 => cases hexec
  | put => exact polled_ok (fun _ => poll_ok fun _ => Poll.Action.noConfusion) hexec
  | get => exact polled_ok (fun _ => poll_ok fun _ => Poll.Action.noConfusion) hexec
  | copy act =>
      refine polled_ok (fun r hr => ?_) hexec
      cases act with
      | samples => exact h.work_ok rfl hr
      | encode result out =>
          cases hconsumer : p.poll.reader.consumer with
          | waiting => simp [Poll.exec, call, hconsumer] at hr
          | holding block =>
              simp only [Poll.exec, call, hconsumer] at hr
              exact h.work_ok rfl hr
      | send results => exact h.work_ok rfl hr
      | newClient | play | remove => cases hown

/-! ### Whole runs -/

theorem Airs.run {c : PcmCodec} (h : Airs (.pcm c) n p []) (hn : 1 ≤ n) (hplays : Plays blank 1440 data p [])
    {as : List Action} (hrun : Run Step p as p') (halong : Along Step Attended p as) :
    Airs (.pcm c) n p' (trace next p as) ∧ Plays blank 1440 data p' (p.takenAlong as) := by
  rw [step_eq_next] at hrun halong
  refine hrun.trace_along (I := fun p steps => Airs (.pcm c) n p steps ∧
    Plays blank 1440 data p (steps.flatMap fun step => step.1.flags step.2)) halong ⟨h, hplays⟩ ?_
  rintro p a p' steps ⟨hairs, hplays⟩ hattended hnext
  have hstep : Step p a p' := by
    rw [step_eq_next]
    exact hnext
  refine ⟨hairs.step hn hplays hattended hstep, ?_⟩
  rw [List.flatMap_append, List.flatMap_singleton]
  exact hplays.step (by decide) hstep

theorem Airs.payloads_prefix (h : Airs codec n p steps) : payloads steps <+: p.poll.inputs := by
  by_cases hsending : ∃ b bytes, p.poll.copy.loop = .sending b bytes
  · obtain ⟨b, bytes, hloop⟩ := hsending
    obtain ⟨-, block, -, hinputs⟩ := h.sending b bytes hloop
    rw [hinputs]
    exact List.prefix_append _ _
  · rw [h.sent fun b bytes hloop => hsending ⟨b, bytes, hloop⟩]

theorem Plays.loop_of_done (h : Plays blank size data p taken) (hplace : p.poll.place = .done) :
    p.poll.copy.loop = .head := by
  obtain ⟨finished, pending, -, -, hstage⟩ := h.stage
  cases hstage with
  | done _ hloop => exact hloop
  | head hplace' | filling hplace' | putting hplace' | reading hplace' | working hplace'
  | encoding hplace' | sending hplace' => cases hplace'.symm.trans hplace

theorem Plays.inputs_prefix (h : Plays blank size data p taken) (hpos : 0 < size)
    (hall : ∀ flag ∈ taken, flag = true) :
    p.poll.inputs <+: (List.range ((data.length + size - 1) / size)).map (block blank size data) := by
  have hcount := h.count
  obtain ⟨finished, pending, rfl, hinputs, -⟩ := h.stage
  have hle : finished.length ≤ (data.length + size - 1) / size := by
    refine (Nat.le_div_iff_mul_le hpos).2 ?_
    rw [List.length_append, Nat.add_mul] at hcount
    omega
  rw [hinputs, chosen_of_all fun flag hflag => hall flag (List.mem_append_left _ hflag)]
  refine List.IsPrefix.map _ ?_
  rw [← Nat.min_eq_left hle, ← List.take_range]
  exact List.take_prefix _ _

theorem airs_new {config : PcmConfig} {rtp rtcp : ℤ} {numBuffers : ℕ} {source : RawSource}
    {memory : ℕ → ℕ → UInt8} {p₀ : Playback}
    (hnew : new (.new (AudioCodec.createPcm config) rtp rtcp numBuffers) source memory = .ok p₀) :
    Airs (AudioCodec.createPcm config) numBuffers p₀ [] := by
  obtain rfl := new_eq_ok (ServerThreads.pcm_rxBytes config rtp rtcp numBuffers) hnew
  refine ⟨Engine.lends_new _ _ _ _, AudioCopy.sized_new _ _ _ _, Engine.tally_new _ _ _ _, fun _ => rfl,
    ?_, ?_, fun _ => rfl, List.forall_mem_nil _⟩
  · intro b bytes hloop
    cases hloop
  · intro k packet hk
    cases hk

/-- What was recorded is heard: the file that any pieces leave is accepted, and in every run in which
it is played with somebody listening whenever a block is taken up, the loop neither fails nor waits and
is left after no more steps than the file allows for. The packets carry the bytes of the pieces in
order, all of them when the loop is left, with less than a packet behind them; they are numbered from 1
with timestamps 360 apart, and each client is sent those that go out while it is on the playing list. -/
theorem recording_heard (sink : RawSink) (hclosed : sink.file = none) (pieces : List Bytes)
    (hlength : WavFileHeader.size + pieces.flatten.length < 2 ^ 32) (config : PcmConfig) (rtp rtcp : ℤ)
    (numBuffers : ℕ) (hbuffers : 1 ≤ numBuffers) (onDone : Bool) (memory : ℕ → ℕ → UInt8) :
    ∃ sink' contents source p₀ padding,
    Run WavSink.Step sink (WavSink.recording pieces) sink' ∧ sink'.files = sink.files ++ [contents] ∧
    WavSource.open .new (.file contents) = (true, source) ∧
    new (.new (AudioCodec.createPcm config) rtp rtcp numBuffers) (source.setOnDone onDone) memory = .ok p₀ ∧
    padding.length < 1440 ∧ ∀ as p, Run Step p₀ as p → Along Step Attended p₀ as →
      as.countP Action.own ≤ 8 * pieces.flatten.length + 4 ∧
      (p.poll.place ≠ .done → ∃ a p', Action.own a = true ∧ Step p a p') ∧
      (∀ a r, Action.own a = true → p.exec a = some r → ∃ p', r = .ok p') ∧
      (payloads (trace next p₀ as)).flatten <+: pieces.flatten ++ padding ∧
      (p.poll.place = .done → (payloads (trace next p₀ as)).flatten = pieces.flatten ++ padding) ∧
      (∀ (k : ℕ) (packet : Bytes), (packets (trace next p₀ as))[k]? = some packet →
        IsRtpPacket (AudioCodec.createPcm config) ((1 + k) % 2 ^ 16) (360 * k % 2 ^ 32) 1440 packet) ∧
      ∀ c, p.poll.copy.engine.sentTo c = packetsWhile c (trace next p₀ as) := by
  obtain ⟨sink', hrecord, hfiles⟩ := WavSink.recorded hclosed pieces
  set dataSize := UInt32.ofNat (sink.written + pieces.flatten.length)
  set chunkSize := UInt32.ofNat (sink.written + pieces.flatten.length + 36)
  obtain ⟨source, stream, hopen, -, -⟩ := WavSource.open_file .new chunkSize dataSize pieces.flatten
  have hopened : Opened (source.setOnDone onDone) pieces.flatten := by
    rw [WavFileHeader.file_append] at hopen
    refine .wav onDone (WavFileHeader.length_header chunkSize dataSize) ?_ hopen
    rwa [List.length_append, WavFileHeader.length_header]
  have hsize := ServerThreads.pcm_rxBytes config rtp rtcp numBuffers
  obtain ⟨p₀, hnew⟩ : ∃ p₀, new (.new (AudioCodec.createPcm config) rtp rtcp numBuffers)
      (source.setOnDone onDone) memory = .ok p₀ := ⟨_, rfl⟩
  have hplays₀ : Plays p₀.poll.reader.data 1440 pieces.flatten p₀ [] :=
    plays_new hsize (by decide) hopened.fresh hnew
  obtain ⟨padding, hpadding, hblocks⟩ := blocks_of_file hplays₀.length_blank (by decide) pieces.flatten
  refine ⟨sink', _, source, p₀, padding, hrecord, hfiles, hopen, hnew, hpadding, ?_⟩
  intro as p hrun halong
  obtain ⟨hairs, hplays⟩ := Airs.run (airs_new hnew) hbuffers hplays₀ hrun halong
  have hall : ∀ flag ∈ p₀.takenAlong as, flag = true := hairs.taken
  rw [← hblocks]
  refine ⟨?_, ?_, fun a r hown hexec => hairs.no_fault hplays hown hexec, ?_, ?_, hairs.numbered,
    hairs.sentTo⟩
  · have hcount := (usesUp (by decide)).count_le hrun ⟨[], hplays₀⟩
    rw [left_new hsize hopened.fresh hnew] at hcount
    exact Nat.le_of_add_right_le hcount
  · intro hplace
    obtain ⟨a, hown, hturn⟩ := hplays.progress hplace
    obtain ⟨r, hexec⟩ := Option.isSome_iff_exists.1 hturn
    obtain ⟨p', rfl⟩ := hairs.no_fault hplays hown hexec
    exact ⟨a, p', hown, hexec⟩
  · obtain ⟨rest, hrest⟩ := hairs.payloads_prefix.trans (hplays.inputs_prefix (by decide) hall)
    rw [← hrest, List.flatten_append]
    exact List.prefix_append _ _
  · intro hdone
    have hloop := hplays.loop_of_done hdone
    have hsent : p.poll.inputs = payloads (trace next p₀ as) := by
      refine hairs.sent fun b bytes => ?_
      rw [hloop]
      exact Loop.noConfusion
    rw [← hsent, hplays.inputs_eq (.inr hdone), chosen_of_all hall,
      hplays.length_eq (by decide) hdone]

/-- The conditions of `Attended`, checked. -/
def attended (p : Playback) : Action → Bool
  | .copy .samples => p.poll.copy.engine.hasClients
  | .copy (.newClient socket) => socket.sent = []
  | .copy (.play c) => p.poll.copy.engine.playsNew (.play (some c))
  | _ => true

theorem attended_sound (h : p.attended a = true) : p.Attended a := by
  refine ⟨?_, ?_, ?_⟩
  · rintro rfl
    exact h
  · rintro socket rfl
    exact of_decide_eq_true h
  · rintro c rfl
    exact Engine.playsNew_sound h

/-- A client comes, and a file of one block is played to its end. -/
def oneBlock : List Action :=
  [.copy (.newClient ⟨none, 5000, true, []⟩), .copy (.play 0), .acquire, .read, .read, .put, .get, .copy .samples,
    .copy (.encode 0 []), .copy (.send fun _ => 1452), .halt]

/-- The loop plays a source as a client comes, and is left at the end of the file. -/
def playsOut (source : RawSource) : Bool :=
  (new (.new (AudioCodec.createPcm ⟨16, 2, 48000⟩) 6000 6001 4) (source.setOnDone true)
      fun _ _ => 0).toOption.all fun p₀ =>
    (execAll next p₀ oneBlock).any (fun p => p.poll.place = .done) && allAlong next attended p₀ oneBlock

/-- Two pieces that fill a part of one packet. -/
theorem recording_heard_two : ∃ (p₀ p : Playback) (padding : Bytes), Run Step p₀ oneBlock p ∧
    p.poll.place = .done ∧ padding.length < 1440 ∧
    (payloads (trace next p₀ oneBlock)).flatten = [1, 2, 3, 4] ++ padding := by
  obtain ⟨sink', contents, source, p₀, padding, hrecord, hfiles, hopen, hnew, hpadding, hheard⟩ :=
    recording_heard ⟨0, none, []⟩ rfl [[1, 2], [3, 4]] (by decide) ⟨16, 2, 48000⟩ 6000 6001 4 (by decide) true
      fun _ _ => 0
  have hplays : (execAll WavSink.exec ⟨0, none, []⟩ (WavSink.recording [[1, 2], [3, 4]])).all (fun sink =>
      sink.files.all fun contents => playsOut (WavSource.open .new (.file contents)).2) = true := by
    decide +kernel
  rw [execAll_of_run hrecord, Option.all_some, hfiles, List.nil_append, List.all_cons, List.all_nil,
    Bool.and_true, hopen, playsOut, hnew] at hplays
  obtain ⟨hdone, hattended⟩ := Bool.and_eq_true_iff.1 hplays
  obtain ⟨p, hp, hplace⟩ := run_of_any hdone
  have halong : Along Step Attended p₀ oneBlock := by
    rw [step_eq_next]
    exact along_of_allAlong (fun _ _ => attended_sound) hattended
  rw [← step_eq_next] at hp
  have hend := of_decide_eq_true hplace
  exact ⟨p₀, p, padding, hp, hend, hpadding, (hheard oneBlock p hp halong).2.2.2.2.1 hend⟩

end Playback

end WifiAudio
