import WifiAudio.Proof.Server.Broadcast
import WifiAudio.Proof.Server.Wire
import WifiAudio.Server.Running

/-!
# From the source to the listeners

The whole server: what the sessions do leaves the samples on their way alone, and what the two threads
do leaves the sessions alone. So a session hears, of the stream the source delivers, the pieces that are
sent while its client is on the playing list.
-/

namespace WifiAudio

open Except Transition

namespace Engine

variable {e e' : Engine}

/-- An operation of the encoder thread that sends nothing. -/
def Op.prepares : Op → Bool
  | .getFree => true
  | .writeAudio _ _ => true
  | _ => false

theorem prepares_frame {op : Op} (hop : op.prepares = true) (hstep : Step e op e') :
    ∃ pool blocks, e' = { e with pool := pool, blocks := blocks } := by
  cases op with
  | getFree =>
      obtain rfl := Option.some.inj hstep
      unfold getFree
      split
      · exact ⟨_, _, rfl⟩
      · exact ⟨e.pool, e.blocks, rfl⟩
  | writeAudio b bytes =>
      obtain ⟨block, -, -, rfl⟩ := writeAudio_found (ok_of_toOption hstep)
      exact ⟨_, _, rfl⟩
  | _ => cases hop

theorem prepares_run {ops : List Op} (hops : ∀ op ∈ ops, op.prepares = true) (hrun : Run Step e ops e') :
    ∃ pool blocks, e' = { e with pool := pool, blocks := blocks } := by
  induction hrun with
  | nil e => exact ⟨e.pool, e.blocks, rfl⟩
  | cons hstep _ ih =>
      obtain ⟨hop, hops⟩ := List.forall_mem_cons.1 hops
      obtain ⟨pool, blocks, rfl⟩ := prepares_frame hop hstep
      obtain ⟨pool', blocks', rfl⟩ := ih hops
      exact ⟨pool', blocks', rfl⟩

/-- The blocks can carry packets of `codec`, and `n` of 360 samples each have been sent. -/
structure Tally (codec : AudioCodec) (n : ℕ) (e : Engine) : Prop where
  codec_eq : e.codec = codec
  streams : ∃ xs, e.Streams xs
  packetSeq : e.packetSeq.toNat = (1 + n) % 2 ^ 16
  timestamp : e.timestamp.toNat = 360 * n % 2 ^ 32

variable {codec : AudioCodec} {n : ℕ}

theorem tally_new (codec : AudioCodec) (rtp rtcp : ℤ) (numBuffers : ℕ) :
    (new codec rtp rtcp numBuffers).Tally codec 0 :=
  ⟨rfl, ⟨[], streams_new codec rtp rtcp numBuffers⟩, rfl, rfl⟩

theorem Tally.silent {op : Op} (h : e.Tally codec n) (hnew : e.PlaysNew op) (hsends : op.sends = none)
    (hstep : Step e op e') : e'.Tally codec n ∧ ∀ c, e'.sentTo c = e.sentTo c := by
  obtain ⟨hcodec, ⟨xs, hstreams⟩, hseq, hts⟩ := h
  obtain ⟨-, hseq', hts', hstreams', hcodec', hsent⟩ := hstreams.quiet hnew hsends hstep
  exact ⟨⟨hcodec'.trans hcodec, hstreams', hseq' ▸ hseq, hts' ▸ hts⟩, hsent⟩

theorem Tally.quiet {ops : List Op} (h : e.Tally codec n) (hops : ∀ op ∈ ops, op.prepares = true)
    (hrun : Run Step e ops e') : e'.Tally codec n ∧ ∀ c, e'.sentTo c = e.sentTo c := by
  induction hrun with
  | nil => exact ⟨h, fun _ => rfl⟩
  | @cons e u e' op ops hstep _ ih =>
      obtain ⟨hop, hops⟩ := List.forall_mem_cons.1 hops
      have hsends : op.sends = none := by cases op <;> first | rfl | cases hop
      have hnew : e.PlaysNew op := by cases op <;> trivial
      obtain ⟨hsilent, hsent⟩ := h.silent hnew hsends hstep
      obtain ⟨hquiet, hsent'⟩ := ih hsilent hops
      exact ⟨hquiet, fun c => (hsent' c).trans (hsent c)⟩

theorem Tally.send (h : e.Tally codec n) {b bytes : ℕ} {results : ℕ → ℤ}
    (hsend : e.send b bytes 360 results = .ok e') : e'.Tally codec (n + 1) ∧
    ∃ packet, e.packetOf (.send b bytes 360 results) = some packet ∧
      IsRtpPacket codec ((1 + n) % 2 ^ 16) (360 * n % 2 ^ 32) bytes packet := by
  obtain ⟨hcodec, ⟨xs, hstreams⟩, hseq, hts⟩ := h
  obtain ⟨packet, hpacket, hrtp, hseq', hts', hstreams', hcodec', -⟩ := hstreams.send hsend
  rw [hcodec, hseq, hts] at hrtp
  refine ⟨⟨hcodec'.trans hcodec, ⟨xs, hstreams'⟩, ?_, ?_⟩, packet, hpacket, hrtp⟩
  · rw [hseq', UInt16.toNat_add, hseq]
    simp only [UInt16.reduceToNat]
    omega
  · rw [hts', UInt32.toNat_add, UInt32.toNat_ofNat', hts]
    omega

end Engine

namespace Server

variable {P : Lookup} {s s' : Server} {xs : List ℕ} {a : Action}

/-- What a session does leaves the packets and their numbers alone. -/
theorem session_frame (hsession : a.ofSession = true) (hstep : Step P s a s') :
    s'.engine.codec = s.engine.codec ∧ s'.engine.pool = s.engine.pool ∧
      s'.engine.blocks = s.engine.blocks ∧ s'.engine.packetSeq = s.engine.packetSeq ∧
      s'.engine.timestamp = s.engine.timestamp := by
  cases a with
  | connect ip sid =>
      obtain rfl := Option.some.inj hstep
      exact ⟨rfl, rfl, rfl, rfl, rfl⟩
  | request i net m size =>
      obtain ⟨conn, call, m', cmd, h, e, -, -, -, heffect, rfl⟩ := request_effect hstep
      cases heffect with
      | answered hanswer hout hclient hcmd => exact ⟨rfl, rfl, rfl, rfl, rfl⟩
      | setup hanswer socket hout hremove hclient =>
          obtain ⟨playing, rfl⟩ := Engine.remove_eq_ok hremove
          exact ⟨rfl, rfl, rfl, rfl, rfl⟩
      | play hdrs hanswer c hout hsetup hclient => exact ⟨rfl, rfl, rfl, rfl, rfl⟩
      | stop hanswer hout hcmd hclient hremove =>
          obtain ⟨playing, rfl⟩ := Engine.remove_eq_ok hremove
          exact ⟨rfl, rfl, rfl, rfl, rfl⟩
  | disconnect i =>
      obtain ⟨conn, e, -, -, hremove, rfl⟩ := disconnect_effect hstep
      obtain ⟨playing, rfl⟩ := Engine.remove_eq_ok hremove
      exact ⟨rfl, rfl, rfl, rfl, rfl⟩
  | destroy i =>
      obtain ⟨conn, -, -, rfl⟩ := destroy_effect hstep
      cases hclient : conn.handler.rtpClient <;> exact ⟨rfl, rfl, rfl, rfl, rfl⟩
  | _ => cases hsession

theorem OnAir.frame {e : Engine} (h : s.OnAir xs) (hplaying : e.playing = s.engine.playing)
    (hclients : e.clients = s.engine.clients) (hfreed : e.freed = s.engine.freed) :
    ({ s with engine := e } : Server).OnAir xs := by
  have hlength : e.clients.length = s.engine.clients.length := by rw [hclients]
  exact ⟨h.toInStep.frame (h.sound.frame hplaying hlength hfreed) hplaying,
    h.owned.accounts (.engine e hlength hfreed), h.latest⟩

end Server

namespace ServerThreads

variable {t t' : ServerThreads} {a : Action} {codec : AudioCodec} {stream : Bytes} {payloads : List Bytes}
  {e : Engine}

theorem Sound.withEngine (h : t.Sound) (hpool : e.pool = t.copy.engine.pool)
    (hblocks : e.blocks = t.copy.engine.blocks) :
    ({ t with copy := { t.copy with engine := e } } : ServerThreads).Sound where
  numBlocks_pos := h.numBlocks_pos
  queue_le := h.queue_le
  filling := h.filling
  working := h.working
  loop := h.loop
  dead := h.dead
  encoder := h.encoder
  reader := h.reader
  lends hengine := (h.lends hengine).frame (by rw [hpool]) hblocks
  deleted := h.deleted
  numbered := h.numbered

theorem engineOps_prepares (hown : a.own = true) (hquiet : ∀ results, a ≠ .copy (.send results)) :
    ∀ op ∈ t.engineOps a, op.prepares = true := by
  intro op hop
  cases a with
  | copy act =>
      cases act with
      | samples =>
          simp only [engineOps] at hop
          split at hop
          · rw [List.mem_singleton.1 hop]
            rfl
          · cases hop
      | encode result out =>
          simp only [engineOps] at hop
          split at hop
          · obtain ⟨call, -, rfl⟩ := List.mem_map.1 hop
            rfl
          · cases hop
      | send results => exact absurd rfl (hquiet results)
      | newClient socket | play c | remove c => cases hown
  | main =>
      simp only [engineOps] at hop
      split at hop
      · rw [List.eq_of_mem_replicate hop]
        rfl
      · cases hop
  | _ => cases hop

/-- A send of the encoder thread. -/
theorem send_moves {results : ℕ → ℤ} (hstep : Step t (.copy (.send results)) t') :
    ∃ b bytes samples e, t.copy.loop = .sending b bytes ∧
      t.copy.engine.codec.samplesPerPacket = .ok samples ∧
      t.copy.engine.send b bytes samples results = .ok e ∧ t'.copy.engine = e := by
  cases moves_of_step hstep with
  | work hworking copy hworks =>
      cases hworks with
      | @send b bytes samples _ e hloop hsamples hsend =>
          exact ⟨b, bytes, samples, e, hloop, hsamples, hsend,
            congrArg AudioCopy.engine (t.worked_copy ⟨e, .head⟩).1⟩
  | client hown => cases hown

end ServerThreads

namespace RunningServer

variable {P : Lookup} {r r' : RunningServer} {event : Event}

/-- The packet a step sends. -/
def packetOf (r : RunningServer) : Event → Option Bytes
  | .thread a => r.threads.packetOf a
  | .session _ => none

/-- What a step reads from the source. -/
def Event.bytes : Event → Bytes
  | .thread a => a.bytes
  | .session _ => []

/-- The packets sent in a run. -/
def wire (P : Lookup) (r : RunningServer) (events : List Event) : List Bytes :=
  labels (exec P) (fun r event => (r.packetOf event).toList) r events

/-- The packets sent in a run while the client of connection `i` was on the playing list. -/
def heard (P : Lookup) (i : ℕ) (r : RunningServer) (events : List Event) : List Bytes :=
  labels (exec P) (fun r event => if r.server.tuned i then (r.packetOf event).toList else []) r events

/-- The threads are steady, and no session carries out a PLAY or a SETUP in PLAY. -/
structure Steady (P : Lookup) (r : RunningServer) (event : Event) : Prop where
  thread : ∀ a, event = .thread a → r.threads.Steady a
  session : ∀ a, event = .session a → ¬Server.ReplacesPlaying P r.server a

/-- What the sessions and the threads keep between them. -/
structure Live (codec : AudioCodec) (r : RunningServer) (stream : Bytes) (payloads : List Bytes) : Prop where
  sound : r.threads.Sound
  contents : r.threads.reader.Contents
  flow : r.threads.Flow codec stream payloads
  tally : r.threads.copy.engine.Tally codec payloads.length
  onAir : ∃ xs, r.server.OnAir xs

theorem session_eq_some {a : Action} (hstep : Step P r (.session a) r') :
    a.ofSession = true ∧ ∃ s, Server.Step P r.server a s ∧ r' = r.withServer s := by
  simp only [Step, exec] at hstep
  split at hstep
  case isTrue hallowed =>
    obtain ⟨s, hs, hr'⟩ := Option.map_eq_some_iff.1 hstep
    exact ⟨hallowed.1, s, hs, hr'.symm⟩
  case isFalse => cases hstep

theorem thread_eq_some {a : ServerThreads.Action} (hstep : Step P r (.thread a) r') :
    a.own = true ∧ ∃ t, ServerThreads.Step r.threads a t ∧ r' = { r with threads := t } := by
  simp only [Step, exec] at hstep
  split at hstep
  case isTrue hown =>
    obtain ⟨t, ht, hr'⟩ := Option.map_eq_some_iff.1 hstep
    exact ⟨hown, t, by rwa [ServerThreads.step_eq_next], hr'.symm⟩
  case isFalse => cases hstep

variable {codec : AudioCodec} {stream : Bytes} {payloads : List Bytes}

/-- The payloads of the packets a step sends. -/
def payloadOf (r : RunningServer) (event : Event) : List Bytes :=
  (r.packetOf event).toList.map (List.drop 12)

theorem Live.session {a : Action} (h : r.Live codec stream payloads)
    (hreplace : ¬Server.ReplacesPlaying P r.server a) (hstep : Step P r (.session a) r') :
    r'.Live codec stream payloads ∧ ∀ i, r'.server.received i = r.server.received i := by
  obtain ⟨hsession, s, hserver, rfl⟩ := session_eq_some hstep
  obtain ⟨hcodec, hpool, hblocks, hseq, hts⟩ := Server.session_frame hsession hserver
  obtain ⟨xs, hair⟩ := h.onAir
  obtain ⟨ys, hair'⟩ := hair.step hreplace hserver
  have hquiet : r.server.packetOf a = none := by cases a <;> first | rfl | cases hsession
  obtain ⟨zs, hstreams⟩ := h.tally.streams
  refine ⟨⟨h.sound.withEngine hpool hblocks, h.contents, ?_, ?_, ys, hair'⟩,
    Server.received_step hair.owned hserver hquiet⟩
  · exact h.flow.frame rfl hcodec fun _ _ hloop => ⟨hloop, hpool⟩
  · refine ⟨hcodec.trans h.tally.codec_eq, ⟨ys, hair'.sound.playing, ?_⟩, ?_, ?_⟩
    · intro block hmem
      change block ∈ s.engine.pool at hmem
      change block.Ready s.engine.codec
      rw [hcodec]
      exact hstreams.ready block (hpool ▸ hmem)
    · exact (congrArg UInt16.toNat hseq).trans h.tally.packetSeq
    · exact (congrArg UInt32.toNat hts).trans h.tally.timestamp

theorem packetOf_quiet {a : ServerThreads.Action} (hquiet : ∀ results, a ≠ .copy (.send results)) :
    r.packetOf (.thread a) = none := by
  cases a with
  | copy act =>
      cases act with
      | send results => exact absurd rfl (hquiet results)
      | _ => rfl
  | _ => rfl

/-- What a step of the threads shows the sessions: nothing, or one more packet. -/
structure Shows (codec : AudioCodec) (n : ℕ) (r : RunningServer) (event : Event) (r' : RunningServer) :
    Prop where
  tally : r'.threads.copy.engine.Tally codec (n + (r.packetOf event).toList.length)
  onAir : ∃ xs, r'.server.OnAir xs
  received : ∀ i, r'.server.received i =
    r.server.received i ++ if r.server.tuned i then (r.packetOf event).toList else []
  numbered : ∀ packet, r.packetOf event = some packet →
    IsRtpPacket codec ((1 + n) % 2 ^ 16) (360 * n % 2 ^ 32) 1440 packet

theorem Live.shows_quiet {a : ServerThreads.Action} {t : ServerThreads}
    (h : r.Live codec stream payloads) (hown : a.own = true)
    (hsteady : r.threads.Steady a) (hquiet : ∀ results, a ≠ .copy (.send results))
    (hstep : ServerThreads.Step r.threads a t) :
    Shows codec payloads.length r (.thread a) { r with threads := t } := by
  have hops := ServerThreads.engine_run hsteady.socket hstep
  have hprepares := ServerThreads.engineOps_prepares (t := r.threads) hown hquiet
  obtain ⟨htally, -⟩ := h.tally.quiet hprepares hops
  obtain ⟨xs, hair⟩ := h.onAir
  obtain ⟨pool, blocks, hengine⟩ := Engine.prepares_run hprepares hops
  have hserver : ({ r with threads := t } : RunningServer).server =
      { r.server with engine := { r.threads.copy.engine with pool := pool, blocks := blocks } } := by
    rw [← hengine]
    rfl
  have hnone : r.packetOf (.thread a) = none := packetOf_quiet hquiet
  refine ⟨?_, ⟨xs, ?_⟩, fun i => ?_, fun packet hpacket => ?_⟩
  · rw [hnone]
    exact htally
  · rw [hserver]
    exact hair.frame rfl rfl rfl
  · rw [hserver, hnone, Option.toList_none, ite_self, List.append_nil]
    rfl
  · cases hnone.symm.trans hpacket

theorem Live.shows_send {results : ℕ → ℤ} {t : ServerThreads} (h : r.Live codec stream payloads)
    (hpcm : ∃ c, codec = .pcm c) (hstep : ServerThreads.Step r.threads (.copy (.send results)) t) :
    Shows codec payloads.length r (.thread (.copy (.send results))) { r with threads := t } := by
  obtain ⟨b, bytes, samples, e, hloop, hsamples, hsend, hengine⟩ := ServerThreads.send_moves hstep
  obtain ⟨rfl, -⟩ := h.flow.sending b bytes hloop
  obtain ⟨c, rfl⟩ := hpcm
  obtain rfl : 360 = samples := by
    rw [h.flow.codec_eq] at hsamples
    exact Except.ok.inj hsamples
  obtain ⟨htally, packet, hpacket, hrtp⟩ := h.tally.send hsend
  obtain ⟨xs, hair⟩ := h.onAir
  have hserver : ({ r with threads := t } : RunningServer).server = { r.server with engine := e } := by
    rw [← hengine]
    rfl
  have hexec : Server.Step Lookup.literal r.server (.send b 1440 360 results) { r.server with engine := e } := by
    have hsend' : r.server.engine.send b 1440 360 results = .ok e := hsend
    rw [Server.Step, Server.exec, hsend']
  obtain ⟨ys, hair'⟩ := hair.step id hexec
  obtain ⟨packet', hpacket', hreceived⟩ := hair.send hsend
  obtain rfl : packet = packet' := Option.some.inj (hpacket.symm.trans hpacket')
  have hsome : r.packetOf (.thread (.copy (.send results))) = some packet := by
    rw [← hpacket]
    exact AudioCopy.packetOf_send hloop
  refine ⟨?_, ⟨ys, ?_⟩, fun i => ?_, fun packet₁ hpacket₁ => ?_⟩
  · rw [hsome]
    change t.copy.engine.Tally _ _
    rw [hengine]
    exact htally
  · rw [hserver]
    exact hair'
  · rw [hserver, hsome]
    exact hreceived i
  · obtain rfl := Option.some.inj (hsome.symm.trans hpacket₁)
    exact hrtp

theorem Live.thread {a : ServerThreads.Action} (h : r.Live codec stream payloads)
    (hpcm : ∃ c, codec = .pcm c) (hsteady : r.threads.Steady a) (hstep : Step P r (.thread a) r') :
    r'.Live codec (stream ++ a.bytes) (payloads ++ r.payloadOf (.thread a)) ∧
      Shows codec payloads.length r (.thread a) r' := by
  obtain ⟨hown, t, ht, rfl⟩ := thread_eq_some hstep
  have hshows : Shows codec payloads.length r (.thread a) { r with threads := t } := by
    by_cases hsend : ∃ results, a = .copy (.send results)
    · obtain ⟨results, rfl⟩ := hsend
      exact h.shows_send hpcm ht
    · exact h.shows_quiet hown hsteady (fun results ha => hsend ⟨results, ha⟩) ht
  refine ⟨⟨h.sound.step ht, h.sound.contents h.contents hsteady ht,
    h.flow.step h.sound h.contents hpcm hsteady ht, ?_, hshows.onAir⟩, hshows⟩
  rw [List.length_append, payloadOf, List.length_map]
  exact hshows.tally

/-! ### Whole runs -/

theorem live_new {config : PcmConfig} {rtp rtcp : ℤ} {maxRead : ℕ} {memory : ℕ → ℕ → UInt8}
    (hnew : new (AudioCodec.createPcm config) rtp rtcp maxRead memory = .ok r) :
    r.Live (AudioCodec.createPcm config) [] [] ∧ ∀ i, r.server.received i = [] := by
  obtain ⟨t₀, ht₀, hr⟩ := bind_eq_ok.1 hnew
  obtain rfl := Except.ok.inj hr
  obtain ⟨size, hsize⟩ := ServerThreads.new_eq_ok ht₀
  refine ⟨⟨ServerThreads.sound_new ht₀, ?_, ServerThreads.flow_new ht₀, ?_, [], ?_⟩, fun i => ?_⟩
  all_goals subst hsize
  · exact Reader.contents_new size maxRead 2 memory
  · exact Engine.tally_new _ rtp rtcp _
  · exact Server.onAir_new _ rtp rtcp _
  · rfl

theorem Live.run (h : r.Live codec stream payloads) (hpcm : ∃ c, codec = .pcm c) {events : List Event}
    (hrun : Run (Step P) r events r') (hsteady : Along (Step P) (Steady P) r events) :
    r'.Live codec (stream ++ events.flatMap Event.bytes) (payloads ++ (wire P r events).map (List.drop 12)) ∧
      (∀ (k : ℕ) (packet : Bytes), (wire P r events)[k]? = some packet → IsRtpPacket codec
        ((1 + (payloads.length + k)) % 2 ^ 16) (360 * (payloads.length + k) % 2 ^ 32) 1440 packet) ∧
      ∀ i, r'.server.received i = r.server.received i ++ heard P i r events := by
  induction hrun generalizing stream payloads with
  | nil r => exact ⟨by simpa [wire] using h, by simp [wire], by simp [heard]⟩
  | @cons r u r' event events hstep _ ih =>
      have hstep' : r.exec P event = some u := hstep
      have hfirst : u.Live codec (stream ++ event.bytes) (payloads ++ r.payloadOf event) ∧
          (∀ packet, r.packetOf event = some packet → IsRtpPacket codec
            ((1 + payloads.length) % 2 ^ 16) (360 * payloads.length % 2 ^ 32) 1440 packet) ∧
          ∀ i, u.server.received i =
            r.server.received i ++ if r.server.tuned i then (r.packetOf event).toList else [] := by
        cases event with
        | session a =>
            obtain ⟨hlive, hreceived⟩ := h.session (hsteady.1.session a rfl) hstep
            refine ⟨?_, nofun, fun i => ?_⟩
            · change u.Live codec (stream ++ []) (payloads ++ [])
              rwa [List.append_nil, List.append_nil]
            · change _ = _ ++ if r.server.tuned i then [] else []
              rw [ite_self, List.append_nil, hreceived]
        | thread a =>
            obtain ⟨hlive, hshows⟩ := h.thread hpcm (hsteady.1.thread a rfl) hstep
            exact ⟨hlive, hshows.numbered, hshows.received⟩
      obtain ⟨hlive, hnumbered, hreceived⟩ := hfirst
      obtain ⟨hlive', hnumbered', hreceived'⟩ := ih hlive (hsteady.2 u hstep)
      rw [wire, labels_cons hstep', ← wire]
      refine ⟨?_, ?_, fun i => ?_⟩
      · rw [List.map_append, List.flatMap_cons, ← List.append_assoc, ← List.append_assoc]
        exact hlive'
      · intro k packet hk
        cases hpacket : r.packetOf event with
        | none =>
            have hsame : payloads ++ r.payloadOf event = payloads := by simp [payloadOf, hpacket]
            rw [hsame] at hnumbered'
            exact hnumbered' k packet (by simpa [hpacket] using hk)
        | some first =>
            have hnext : (payloads ++ r.payloadOf event).length = payloads.length + 1 := by
              simp [payloadOf, hpacket]
            rw [hnext] at hnumbered'
            rw [hpacket] at hk
            cases k with
            | zero =>
                obtain rfl := Option.some.inj hk
                exact hnumbered first hpacket
            | succ k =>
                have hk' : (wire P u events)[k]? = some packet := hk
                have hshift : payloads.length + (k + 1) = payloads.length + 1 + k := by omega
                rw [hshift]
                exact hnumbered' k packet hk'
      · rw [hreceived', hreceived, heard, heard, labels_cons hstep', List.append_assoc]

/-- The whole server with a PCM codec, from its start on, in every interleaving of its threads and
sessions. As long as the source delivers, the encoder thread keeps up and somebody listens, and no PLAY
and no SETUP is carried out in PLAY, the packets carry the source's stream in pieces of 1440 bytes, in
order and without a gap, at most two pieces behind; they are numbered from 1 with timestamps 360 apart;
and each session has received exactly those that were sent while its client was on the playing list: that
is, between two requests, while it is in PLAY. -/
theorem sessions_hear_source (P : Lookup) (config : PcmConfig) (rtp rtcp : ℤ) (maxRead : ℕ)
    (r₀ r : RunningServer) (events : List Event) {memory : ℕ → ℕ → UInt8}
    (hnew : new (AudioCodec.createPcm config) rtp rtcp maxRead memory = .ok r₀)
    (hrun : Run (Step P) r₀ events r) (hsteady : Along (Step P) (Steady P) r₀ events) :
    (wire P r₀ events).map (List.drop 12) <+: Poll.fullPieces 1440 (events.flatMap Event.bytes) ∧
      (events.flatMap Event.bytes).length ≤ 1440 * ((wire P r₀ events).length + 2) ∧
      (∀ (k : ℕ) (packet : Bytes), (wire P r₀ events)[k]? = some packet →
        IsRtpPacket (AudioCodec.createPcm config) ((1 + k) % 2 ^ 16) (360 * k % 2 ^ 32) 1440 packet) ∧
      (∀ i, r.server.received i = heard P i r₀ events) ∧
      ∀ (i : ℕ) (conn : Connection), r.server.connections[i]? = some conn →
        (r.server.tuned i = true ↔ conn.phase = .live ∧ conn.session.state = .play) := by
  obtain ⟨hlive₀, hstart⟩ := live_new hnew
  obtain ⟨hlive, hnumbered, hreceived⟩ := hlive₀.run ⟨_, rfl⟩ hrun hsteady
  have hflow := hlive.flow
  rw [List.nil_append, List.nil_append] at hflow
  obtain ⟨xs, hon⟩ := hlive.onAir
  refine ⟨?_, ?_, ?_, fun i => ?_, fun i conn hconn => hon.tuned_iff hconn⟩
  · rw [hflow.stream_eq, List.append_assoc, ServerThreads.fullPieces_flatten (by decide) hflow.pieces]
    exact List.prefix_append _ _
  · simpa using hflow.behind hlive.sound.toPlaced
  · simpa using hnumbered
  · rw [hreceived, hstart, List.nil_append]

/-- The conditions of `Steady`, checked. -/
def steady (P : Lookup) (r : RunningServer) : Event → Bool
  | .thread a => r.threads.steady a
  | .session a => Server.keepsPlaying P r.server a

theorem steady_sound (h : r.steady P event = true) : r.Steady P event := by
  constructor
  · rintro a rfl
    exact ServerThreads.steady_sound h
  · rintro a rfl
    exact Server.not_replacesPlaying h

/-- A listener that comes, plays while one block is sent, and pauses before the next one is sent. -/
def oneListener : List Event :=
  [.session (.connect (ascii "10.0.0.1") 7), .session (.connect (ascii "10.0.0.2") 8),
    .session (.ofText 0 Server.simulated Server.setupText),
    .session (.ofText 1 Server.simulated Server.setupText), .thread .acquire, .thread .loop,
    .session (.ofText 0 Server.simulated Server.playText), .thread (.read (List.replicate 1440 7)),
    .thread .put, .thread .get, .thread (.copy .samples), .thread (.copy (.encode 0 [])),
    .session (.ofText 1 Server.simulated Server.playText),
    .thread (.copy (.send fun _ => 1452)), .thread .acquire, .thread (.read (List.replicate 1440 8)),
    .thread .put, .thread .loop, .thread .get, .thread (.copy .samples),
    .session (.ofText 0 Server.simulated Server.pauseText), .thread (.copy (.encode 0 [])),
    .thread (.copy (.send fun _ => 1452))]

/-- Two blocks on the wire, of which the first session hears one and the second both. -/
theorem sessions_hear_source_two : ∃ r₀ r : RunningServer,
    new (AudioCodec.createPcm ⟨16, 2, 48000⟩) 6000 6001 2000 (fun _ _ => 0) = .ok r₀ ∧
    Run (Step Lookup.literal) r₀ oneListener r ∧ (r.server.received 0).length = 1 ∧
    r.server.received 1 = heard Lookup.literal 1 r₀ oneListener ∧
    (r.server.received 1).length = 2 := by
  obtain ⟨r₀, hnew⟩ : ∃ r₀, new (AudioCodec.createPcm ⟨16, 2, 48000⟩) 6000 6001 2000 (fun _ _ => 0) = .ok r₀ := ⟨_, rfl⟩
  have hruns : (execAll (exec Lookup.literal) r₀ oneListener).any (fun r =>
      (r.server.received 0).length = 1 ∧ (r.server.received 1).length = 2) = true ∧
      allAlong (exec Lookup.literal) (steady Lookup.literal) r₀ oneListener = true := by
    obtain rfl := Except.ok.inj hnew
    decide +kernel
  obtain ⟨hrun, hsteady⟩ := hruns
  obtain ⟨r, hrun, hlengths⟩ := run_of_any hrun
  obtain ⟨hfirst, hsecond⟩ := of_decide_eq_true hlengths
  have hsteady : Along (Step Lookup.literal) (Steady Lookup.literal) r₀ oneListener :=
    along_of_allAlong (fun _ _ => steady_sound) hsteady
  exact ⟨r₀, r, hnew, hrun, hfirst,
    (sessions_hear_source Lookup.literal _ _ _ _ r₀ r _ hnew hrun hsteady).2.2.2.1 1, hsecond⟩

end RunningServer

end WifiAudio
