import WifiAudio.Proof.Server.Playing
import WifiAudio.Proof.Rtp.Stream

/-!
# The RTP-Info header

The answer to a PLAY always names sequence number 1 and timestamp 0. The counters the next packet is
stamped with belong to the engine and are advanced by every send to anyone, so the answer is right
exactly when a multiple of the counters' range has gone out before.
-/

namespace WifiAudio

open Except Transition

/-- The numbers in the RTP-Info header of an answer. -/
def Response.rtpInfo (response : Response) : Option (ℤ × ℤ) :=
  response.findSome? fun
    | .rtpInfo _ seq rtptime => some (seq, rtptime)
    | _ => none

/-- The samples a step sends. -/
def Action.sends : Action → Option ℕ
  | .send _ _ samples _ => some samples
  | _ => none

theorem Action.of_sends {a : Action} {samples : ℕ} (h : a.sends = some samples) :
    ∃ b bytes results, a = .send b bytes samples results := by
  cases a with
  | send b bytes samples' results =>
      obtain rfl := Option.some.inj h
      exact ⟨b, bytes, results, rfl⟩
  | _ => cases h

namespace Server

variable {P : Lookup} {s s' : Server} {i c : ℕ} {conn : Connection} {e e' : Engine} {a : Action}
  {as : List Action}

/-! ### What steps leave alone -/

/-- Between the engines `e` and `e'` nothing has been sent; clients may have been made. -/
structure Quiet (e e' : Engine) : Prop where
  packetSeq : e'.packetSeq = e.packetSeq
  timestamp : e'.timestamp = e.timestamp
  clients : e.clients <+: e'.clients

theorem Quiet.refl (e : Engine) : Quiet e e := ⟨rfl, rfl, List.prefix_rfl⟩

theorem Quiet.trans {e'' : Engine} (h : Quiet e e') (h' : Quiet e' e'') : Quiet e e'' :=
  ⟨h'.packetSeq.trans h.packetSeq, h'.timestamp.trans h.timestamp, h.clients.trans h'.clients⟩

theorem Quiet.length_le (h : Quiet e e') : e.clients.length ≤ e'.clients.length := h.clients.length_le

theorem remove_quiet {client : Option ℕ} (hremove : e.remove client = .ok e') : Quiet e e' := by
  obtain ⟨playing, rfl⟩ := Engine.remove_eq_ok hremove
  exact ⟨rfl, rfl, List.prefix_rfl⟩

theorem effect_quiet {call : HandlerCall} {cmd : RtspCommand} {h h' : RtspHandler}
    (heffect : call.Effect P h e cmd h' e') : Quiet e e' := by
  cases heffect with
  | answered hanswer hout hclient hcmd => exact .refl e
  | setup hanswer socket hout hremove hclient =>
      exact (remove_quiet hremove).trans ⟨rfl, rfl, List.prefix_append _ _⟩
  | play hdrs hanswer c hout hsetup hclient => exact ⟨rfl, rfl, List.prefix_rfl⟩
  | stop hanswer hout hcmd hclient hremove => exact remove_quiet hremove

/-- Only the encoder thread's `send` advances the counters. -/
theorem step_quiet (hstep : Step P s a s') (hsends : a.sends = none) : Quiet s.engine s'.engine := by
  cases a with
  | connect ip sid => exact Option.some.inj hstep ▸ .refl _
  | request i net m size =>
      obtain ⟨conn, call, m', cmd, h', e, -, -, -, heffect, rfl⟩ := request_effect hstep
      exact effect_quiet heffect
  | disconnect i =>
      obtain ⟨conn, e, -, -, hremove, rfl⟩ := disconnect_effect hstep
      exact remove_quiet hremove
  | destroy i =>
      obtain ⟨conn, -, -, rfl⟩ := destroy_effect hstep
      change Quiet s.engine (s.engine.deleteClient _)
      cases conn.handler.rtpClient <;> exact ⟨rfl, rfl, List.prefix_rfl⟩
  | getFree =>
      obtain rfl := Option.some.inj hstep
      change Quiet s.engine s.engine.getFree.2
      unfold Engine.getFree
      cases s.engine.blocks.pop <;> exact ⟨rfl, rfl, List.prefix_rfl⟩
  | putFree b => exact Option.some.inj hstep ▸ ⟨rfl, rfl, List.prefix_rfl⟩
  | send b bytes samples results => cases hsends

theorem run_length_le (hrun : Run (Step P) s as s') :
    s.engine.clients.length ≤ s'.engine.clients.length := by
  induction hrun with
  | nil => exact le_rfl
  | @cons s t u a as hstep _ ih =>
      refine le_trans ?_ ih
      cases hsends : a.sends with
      | none => exact (step_quiet hstep hsends).length_le
      | some samples =>
          obtain ⟨b, bytes, results, rfl⟩ := Action.of_sends hsends
          obtain ⟨e, hsend, rfl⟩ := send_completes hstep
          obtain ⟨block, visited, -, -, -, rfl⟩ := Engine.send_eq_ok.1 hsend
          exact (Engine.length_sendAll _ _ _ _).ge

theorem run_counters (hrun : Run (Step P) s as s') :
    s'.engine.packetSeq.toNat =
        (s.engine.packetSeq.toNat + (as.filterMap Action.sends).length) % 2 ^ 16 ∧
      s'.engine.timestamp.toNat =
        (s.engine.timestamp.toNat + (as.filterMap Action.sends).sum) % 2 ^ 32 := by
  induction hrun with
  | nil s => simp [Nat.mod_eq_of_lt s.engine.packetSeq.toNat_lt, Nat.mod_eq_of_lt
      s.engine.timestamp.toNat_lt]
  | @cons s t u a as hstep _ ih =>
      cases hsends : a.sends with
      | none =>
          have hquiet := step_quiet hstep hsends
          rw [hquiet.packetSeq, hquiet.timestamp] at ih
          simpa [hsends] using ih
      | some samples =>
          obtain ⟨b, bytes, results, rfl⟩ := Action.of_sends hsends
          obtain ⟨e, hsend, rfl⟩ := send_completes hstep
          obtain ⟨block, visited, -, -, -, rfl⟩ := Engine.send_eq_ok.1 hsend
          have hseq : (s.engine.packetSeq + 1).toNat = (s.engine.packetSeq.toNat + 1) % 2 ^ 16 :=
            UInt16.toNat_add _ _
          have hts : (s.engine.timestamp + UInt32.ofNat samples).toNat =
              (s.engine.timestamp.toNat + samples) % 2 ^ 32 := by
            rw [UInt32.toNat_add, UInt32.toNat_ofNat']
            omega
          refine ⟨ih.1.trans ?_, ih.2.trans ?_⟩
          · change ((s.engine.packetSeq + 1).toNat + _) % 2 ^ 16 = _
            rw [hseq, List.filterMap_cons_some hsends, List.length_cons]
            omega
          · change ((s.engine.timestamp + UInt32.ofNat samples).toNat + _) % 2 ^ 32 = _
            rw [hts, List.filterMap_cons_some hsends, List.sum_cons]
            omega

/-! ### Handlers between two requests -/

/-- No handler has an unfinished answer, and every client that is set exists. -/
def Tidy (s : Server) : Prop :=
  ∀ (i : ℕ) (conn : Connection), s.connections[i]? = some conn → conn.handler.out = [] ∧
    ∀ c, conn.handler.rtpClient = some c → c < s.engine.clients.length

theorem effect_tidy {call : HandlerCall} {cmd : RtspCommand} {h h' : RtspHandler}
    (heffect : call.Effect P h e cmd h' e') (hout : h.out = [])
    (hexists : ∀ c, h.rtpClient = some c → c < e.clients.length) :
    h'.out = [] ∧ ∀ c, h'.rtpClient = some c → c < e'.clients.length := by
  have hle := (effect_quiet heffect).length_le
  have hkept (hclient : h'.rtpClient = h.rtpClient) :
      ∀ c, h'.rtpClient = some c → c < e'.clients.length := fun c hc =>
    (hexists c (hclient.symm.trans hc)).trans_le hle
  cases heffect with
  | answered hanswer _ hclient hcmd =>
      obtain ⟨response, hanswer⟩ := hanswer
      exact ⟨hanswer.out, hkept hclient⟩
  | setup hanswer socket _ hremove hclient =>
      obtain ⟨response, hanswer⟩ := hanswer
      refine ⟨hanswer.out, ?_⟩
      intro c hc
      obtain rfl := Option.some.inj (hclient.symm.trans hc)
      simp [Engine.newClient]
  | play hdrs hanswer c _ hsetup hclient => exact ⟨hanswer.out, hkept hclient⟩
  | stop hanswer _ hcmd hclient hremove =>
      refine ⟨?_, hkept hclient⟩
      split at hanswer
      · exact hanswer ▸ hout
      · obtain ⟨response, hanswer⟩ := hanswer
        exact hanswer.out

theorem Tidy.update (h : s.Tidy) {conn' : Connection} (hconn : s.connections[i]? = some conn)
    (hle : s.engine.clients.length ≤ e.clients.length) (hout : conn'.handler.out = [])
    (hexists : ∀ c, conn'.handler.rtpClient = some c → c < e.clients.length) :
    (s.update i conn' e).Tidy := by
  intro j conn₀ hj
  rcases update_cases hconn hj with ⟨-, rfl⟩ | ⟨-, hj⟩
  · exact ⟨hout, hexists⟩
  · exact ⟨(h j conn₀ hj).1, fun c hc => ((h j conn₀ hj).2 c hc).trans_le hle⟩

theorem Tidy.step (h : s.Tidy) (hstep : Step P s a s') : s'.Tidy := by
  cases a with
  | connect ip sid =>
      obtain rfl := Option.some.inj hstep
      intro i conn hi
      rcases connections_append_cases hi with hi | rfl
      · exact h i conn hi
      · exact ⟨rfl, nofun⟩
  | request i net m size =>
      obtain ⟨conn, call, m', cmd, h', e, hconn, -, -, heffect, rfl⟩ := request_effect hstep
      have htidy := effect_tidy heffect (h i conn hconn).1 (h i conn hconn).2
      exact h.update hconn (effect_quiet heffect).length_le htidy.1 htidy.2
  | disconnect i =>
      obtain ⟨conn, e, hconn, -, hremove, rfl⟩ := disconnect_effect hstep
      have hle := (remove_quiet hremove).length_le
      exact h.update hconn hle (h i conn hconn).1 fun c hc => ((h i conn hconn).2 c hc).trans_le hle
  | destroy i =>
      obtain ⟨conn, hconn, -, rfl⟩ := destroy_effect hstep
      have hclients := Engine.clients_deleteClient (e := s.engine) conn.handler.rtpClient
      refine h.update hconn (by rw [hclients]) (h i conn hconn).1 ?_
      rw [hclients]
      exact (h i conn hconn).2
  | getFree =>
      obtain rfl := Option.some.inj hstep
      intro i conn hi
      refine ⟨(h i conn hi).1, ?_⟩
      intro c hc
      change c < s.engine.getFree.2.clients.length
      rw [(Engine.getFree_frame s.engine).2.1]
      exact (h i conn hi).2 c hc
  | putFree b => exact Option.some.inj hstep ▸ h
  | send b bytes samples results =>
      obtain ⟨e, hsend, rfl⟩ := send_completes hstep
      obtain ⟨block, visited, -, -, -, rfl⟩ := Engine.send_eq_ok.1 hsend
      intro i conn hi
      refine ⟨(h i conn hi).1, ?_⟩
      intro c hc
      change c < (Engine.sendAll _ _ _ _).length
      rw [Engine.length_sendAll]
      exact (h i conn hi).2 c hc

/-! ### The answer and the next packet -/

theorem rtpInfo_playResponse (h : RtspHandler) (hdrs : RtspHeader) :
    Response.rtpInfo (h.playResponse P hdrs) = some (1, 0) := rfl

theorem play_answered {net : SocketCalls} {m : Bytes} {size : ℕ} (htidy : s.Tidy)
    (hconn : s.connections[i]? = some conn) (hplay : conn.session.carriesOut P m size = some .play)
    (hstep : Step P s (.request i net m size) s') :
    ∃ (conn' : Connection) (response : Response), s'.connections[i]? = some conn' ∧
      conn'.handler.sent = conn.handler.sent ++ [response] ∧ response.rtpInfo = some (1, 0) ∧
      ∃ text, Line.status ErrorCode.ok text ∈ response := by
  obtain ⟨conn₀, call, m', cmd, h', e, hconn₀, -, hrequest, heffect, rfl⟩ := request_effect hstep
  obtain rfl := Option.some.inj (hconn.symm.trans hconn₀)
  have hcall : call.carriesOut = some .play := by
    rw [Session.carriesOut, hrequest] at hplay
    exact hplay
  cases heffect with
  | answered hanswer hout hclient hcmd =>
      rw [hcall] at hout
      rcases hcmd with rfl | rfl | rfl <;> simp at hout
  | setup hanswer socket hout hremove hclient => cases hcall.symm.trans hout
  | play hdrs hanswer c hout hsetup hclient =>
      have hsent := hanswer.sent
      rw [(htidy i conn hconn).1, List.nil_append] at hsent
      exact ⟨_, _, update_self hconn, hsent, rtpInfo_playResponse conn.handler hdrs, _,
        List.mem_cons_self⟩
  | stop hanswer hout hcmd hclient hremove =>
      rw [hcall] at hout
      obtain rfl := Option.some.inj hout
      rcases hcmd with h | h | h <;> cases h

/-- The numbers of the packet a send gives to the clients of the playing list. -/
theorem send_numbers {b bytes samples : ℕ} {results : ℕ → ℤ}
    (hstep : Step P s (.send b bytes samples results) s') (hmem : s.engine.playing.Mem c)
    (hexists : c < s.engine.clients.length) :
    ∃ (head : RtpHeader) (payload : Bytes),
      s'.engine.sentTo c = s.engine.sentTo c ++ [head.toList ++ payload] ∧
        head.seq = s.engine.packetSeq.toNat ∧ head.timestamp = s.engine.timestamp.toNat := by
  obtain ⟨e, hsend, rfl⟩ := send_completes hstep
  obtain ⟨block, visited, -, -, hvisit, rfl⟩ := Engine.send_eq_ok.1 hsend
  have hholds := LinkedList.holds_of_visit hvisit
  refine ⟨(block.stamp s.engine.packetSeq s.engine.timestamp).head,
    (block.stamp s.engine.packetSeq s.engine.timestamp).audio.take bytes, ?_, by simp [Block.stamp],
    by simp [Block.stamp]⟩
  change Option.elim (Engine.sendAll _ _ _ _)[c]? _ _ = _
  rw [Engine.getElem?_sendAll hholds.nodup, Engine.sentTo]
  simp [List.getElem?_eq_getElem hexists, hholds.mem_iff.1 hmem, RtpClient.sendPacket, Block.packet]

/-- After any history, a PLAY that is carried out and any steps up to the first packet sent to its
client: the numbers announced in the answer are those of that packet if and only if the number of
packets sent before it, to anyone, is a multiple of 2^16 and the number of samples one of 2^32. -/
theorem rtpInfo_matches_iff (P : Lookup) (codec : AudioCodec) (rtp rtcp : ℤ) (numBuffers : ℕ)
    (as bs : List Action) (s s₁ s₂ s₃ : Server) (i c b bytes samples : ℕ) (conn : Connection)
    (net : SocketCalls) (m : Bytes) (size : ℕ) (results : ℕ → ℤ)
    (hhistory : Run (Step P) (new codec rtp rtcp numBuffers) as s)
    (hconn : s.connections[i]? = some conn) (hclient : conn.handler.rtpClient = some c)
    (hplay : conn.session.carriesOut P m size = some .play)
    (hstep : Step P s (.request i net m size) s₁) (hrun : Run (Step P) s₁ bs s₂)
    (hfirst : s₂.engine.sentTo c = s₁.engine.sentTo c) (hmem : s₂.engine.playing.Mem c)
    (hsend : Step P s₂ (.send b bytes samples results) s₃) :
    ∃ (conn₁ : Connection) (response : Response) (seq rtptime : ℤ) (head : RtpHeader)
      (payload : Bytes), s₁.connections[i]? = some conn₁ ∧
      conn₁.handler.sent = conn.handler.sent ++ [response] ∧
      (∃ text, Line.status ErrorCode.ok text ∈ response) ∧
      response.rtpInfo = some (seq, rtptime) ∧
      s₃.engine.sentTo c = s₁.engine.sentTo c ++ [head.toList ++ payload] ∧
      (seq = head.seq ∧ rtptime = head.timestamp ↔
        ((as ++ bs).filterMap Action.sends).length % 2 ^ 16 = 0 ∧
          ((as ++ bs).filterMap Action.sends).sum % 2 ^ 32 = 0) := by
  have htidy : s.Tidy := hhistory.invariant (fun _ _ _ h hstep => h.step hstep) (by
    intro i conn hi
    cases hi)
  obtain ⟨conn₁, response, hconn₁, hsent, hinfo, hstatus⟩ := play_answered htidy hconn hplay hstep
  have hquiet := step_quiet hstep rfl
  have hexists := ((htidy i conn hconn).2 c hclient).trans_le
    (hquiet.length_le.trans (run_length_le hrun))
  obtain ⟨head, payload, hpacket, hseq, hts⟩ := send_numbers hsend hmem hexists
  rw [hfirst] at hpacket
  refine ⟨conn₁, response, 1, 0, head, payload, hconn₁, hsent, hstatus, hinfo, hpacket, ?_⟩
  obtain ⟨hpackets, hsamples⟩ := run_counters hhistory
  obtain ⟨hpackets', hsamples'⟩ := run_counters hrun
  have hseq₀ : (new codec rtp rtcp numBuffers).engine.packetSeq.toNat = 1 := rfl
  have hts₀ : (new codec rtp rtcp numBuffers).engine.timestamp.toNat = 0 := rfl
  rw [hquiet.packetSeq, hpackets, hseq₀] at hpackets'
  rw [hquiet.timestamp, hsamples, hts₀] at hsamples'
  rw [hseq, hts, hpackets', hsamples', List.filterMap_append, List.length_append, List.sum_append]
  omega

/-- The sequence numbers and timestamps of the packets sent to client `c`. -/
def numbersTo (s : Server) (c : ℕ) : List (ℕ × ℕ) :=
  (s.engine.sentTo c).map fun packet => (bigEndian (packet.extract 2 4), bigEndian (packet.extract 4 8))

/-- The numbers in the last answer of connection `i`. -/
def lastRtpInfo (s : Server) (i : ℕ) : Option (ℤ × ℤ) :=
  s.connections[i]?.bind fun conn => conn.handler.sent.getLast?.bind Response.rtpInfo

/-- A client that joins a running stream is told 1 and 0, and gets packet 2 with timestamp 360. -/
theorem rtpInfo_running_stream : ∃ s₁ s₂ : Server, Run (Step Lookup.literal) pcmServer
      [.connect (ascii "10.0.0.1") 7, .connect (ascii "10.0.0.1") 8, .ofText 0 simulated setupText,
        .ofText 0 simulated playText, .getFree, .send 3 1440 360 fun _ => 1452,
        .ofText 1 simulated setupText, .ofText 1 simulated playText] s₁ ∧
    s₁.lastRtpInfo 1 = some (1, 0) ∧ Step Lookup.literal s₁ (.send 2 1440 360 fun _ => 1452) s₂ ∧
    s₂.numbersTo 1 = [(2, 360)] := by
  have hrun : (execAll (exec Lookup.literal) pcmServer
      [.connect (ascii "10.0.0.1") 7, .connect (ascii "10.0.0.1") 8, .ofText 0 simulated setupText,
        .ofText 0 simulated playText, .getFree, .send 3 1440 360 fun _ => 1452,
        .ofText 1 simulated setupText, .ofText 1 simulated playText]).any (fun s₁ =>
      s₁.lastRtpInfo 1 = some (1, 0) ∧ ((s₁.exec Lookup.literal (.send 2 1440 360 fun _ => 1452)).any
        fun s₂ => s₂.numbersTo 1 = [(2, 360)]) = true) = true := by
    decide +kernel
  obtain ⟨s₁, hs₁, hinfo⟩ := run_of_any hrun
  obtain ⟨hinfo, hsend⟩ := of_decide_eq_true hinfo
  obtain ⟨s₂, hs₂, hnumbers⟩ := (Option.any_eq_true _ _).1 hsend
  exact ⟨s₁, s₂, hs₁, hinfo, hs₂, of_decide_eq_true hnumbers⟩

/-- The first client of the server, whose PLAY is followed by another session's SETUP. -/
theorem rtpInfo_matches_first_client : ∃ s s₁ s₂ s₃ : Server, ∃ (conn conn₁ : Connection)
    (response : Response) (seq rtptime : ℤ) (head : RtpHeader) (payload : Bytes),
    Run (Step Lookup.literal) pcmServer
      [.connect (ascii "10.0.0.1") 7, .connect (ascii "10.0.0.1") 8, .ofText 0 simulated setupText] s ∧
    s.connections[0]? = some conn ∧ Step Lookup.literal s (.ofText 0 simulated playText) s₁ ∧
    Run (Step Lookup.literal) s₁ [.ofText 1 simulated setupText, .getFree] s₂ ∧
    Step Lookup.literal s₂ (.send 3 1440 360 fun _ => 1452) s₃ ∧
    s₁.connections[0]? = some conn₁ ∧ conn₁.handler.sent = conn.handler.sent ++ [response] ∧
    response.rtpInfo = some (seq, rtptime) ∧
    s₃.engine.sentTo 0 = s₁.engine.sentTo 0 ++ [head.toList ++ payload] ∧
    seq = head.seq ∧ rtptime = head.timestamp := by
  have hrun : (execAll (exec Lookup.literal) pcmServer
      [.connect (ascii "10.0.0.1") 7, .connect (ascii "10.0.0.1") 8,
        .ofText 0 simulated setupText]).any (fun s =>
      (s.connections[0]?.any fun conn => conn.handler.rtpClient = some 0 ∧
        conn.session.carriesOut Lookup.literal (playText ++ List.replicate (RtspClient.sz -
          playText.length) 0) playText.length = some .play) = true ∧
      ((s.exec Lookup.literal (.ofText 0 simulated playText)).any fun s₁ =>
        (execAll (exec Lookup.literal) s₁ [.ofText 1 simulated setupText, .getFree]).any fun s₂ =>
          s₂.engine.playing.head = some 0 ∧ s₂.engine.sentTo 0 = s₁.engine.sentTo 0 ∧
            (s₂.exec Lookup.literal (.send 3 1440 360 fun _ => 1452)).isSome = true) = true) =
      true := by
    decide +kernel
  obtain ⟨s, hs, hrun⟩ := run_of_any hrun
  obtain ⟨hconn, hrun⟩ := of_decide_eq_true hrun
  obtain ⟨conn, hconn, hsession⟩ := (Option.any_eq_true _ _).1 hconn
  obtain ⟨hclient, hplay⟩ := of_decide_eq_true hsession
  obtain ⟨s₁, hs₁, hrun⟩ := (Option.any_eq_true _ _).1 hrun
  obtain ⟨s₂, hs₂, hrun⟩ := run_of_any hrun
  obtain ⟨hhead, hfirst, hsend⟩ := of_decide_eq_true hrun
  obtain ⟨s₃, hs₃⟩ := Option.isSome_iff_exists.1 hsend
  have hmem : s₂.engine.playing.Mem 0 := ⟨0, hhead⟩
  obtain ⟨conn₁, response, seq, rtptime, head, payload, hconn₁, hsent, -, hinfo, hpacket, hiff⟩ :=
    rtpInfo_matches_iff Lookup.literal _ _ _ _ _ _ s s₁ s₂ s₃ 0 0 3 1440 360 conn simulated _ _
      (fun _ => 1452) hs hconn hclient hplay hs₁ hs₂ hfirst
      hmem hs₃
  obtain ⟨hseq, hts⟩ := hiff.2 ⟨rfl, rfl⟩
  exact ⟨s, s₁, s₂, s₃, conn, conn₁, response, seq, rtptime, head, payload, hs, hconn,
    hs₁, hs₂, hs₃, hconn₁, hsent, hinfo, hpacket, hseq, hts⟩

end Server

end WifiAudio
