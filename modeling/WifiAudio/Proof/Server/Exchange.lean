import WifiAudio.Proof.Rtsp.Reply
import WifiAudio.Proof.Server.Network

/-!
# Requests and answers on the wire

A client may send its next request before it has the answer to the last one. The answers come back in
the order of the requests, one for each: that of the call its session made of the request in the state it
was in then, with the status, the CSeq and the lines of the command that was carried out. Only a KILL is
not answered, and nothing comes behind it. The number that stands in the answers of a connection is the
one the connection was given.
-/

namespace WifiAudio

open Except Transition

/-! ### What does not change -/

namespace Engine

/-- What the answers tell of the engine. -/
structure SameService (e e' : Engine) : Prop where
  codec : e'.codec = e.codec
  rtpPort : e'.rtpPort = e.rtpPort
  rtcpPort : e'.rtcpPort = e.rtcpPort

variable {e e' : Engine}

theorem sameService_remove {client : Option ℕ} (h : e.remove client = .ok e') : e.SameService e' := by
  obtain ⟨playing, rfl⟩ | rfl : (∃ playing, e' = { e with playing := playing }) ∨ e' = e := by
    cases client with
    | none => exact .inr (Except.ok.inj h).symm
    | some c =>
        cases hremove : e.playing.remove e.clients.length c with
        | none => simp [remove, hremove] at h
        | some playing => exact .inl ⟨playing, by simpa [remove, hremove, eq_comm] using h⟩
  · exact ⟨rfl, rfl, rfl⟩
  · exact ⟨rfl, rfl, rfl⟩

theorem sameService_deleteClient (e : Engine) (client : Option ℕ) :
    e.SameService (e.deleteClient client) := by
  cases client <;> exact ⟨rfl, rfl, rfl⟩

theorem sameService_getFree (e : Engine) : e.SameService e.getFree.2 := by
  unfold getFree
  split <;> exact ⟨rfl, rfl, rfl⟩

theorem sameService_send {b bytes samples : ℕ} {results : ℕ → ℤ}
    (h : e.send b bytes samples results = .ok e') : e.SameService e' := by
  obtain ⟨block, visited, -, -, -, rfl⟩ := send_eq_ok.1 h
  exact ⟨rfl, rfl, rfl⟩

end Engine

theorem HandlerCall.Effect.sameService {P : Lookup} {call : HandlerCall} {h h' : RtspHandler}
    {e e' : Engine} {cmd : RtspCommand} (heffect : call.Effect P h e cmd h' e') :
    e.SameService e' := by
  cases heffect with
  | answered hanswer hout hclient hcmd => exact ⟨rfl, rfl, rfl⟩
  | setup hanswer socket hout hremove hclient =>
      have hsame := Engine.sameService_remove hremove
      exact ⟨hsame.codec, hsame.rtpPort, hsame.rtcpPort⟩
  | play hdrs hanswer c hout hsetup hclient => exact ⟨rfl, rfl, rfl⟩
  | stop hanswer hout hcmd hclient hremove => exact Engine.sameService_remove hremove

/-! ### The answer to a request -/

/-- The connection tells `v`, and has said nothing else. -/
structure SocketClient.Tells (P : Lookup) (v : Speaker) (w : SocketClient) : Prop where
  out : w.client.session.2.out = []
  version : w.client.session.2.sessionVersion = 1
  sid : w.client.session.2.sessionId = v.sid
  ip : w.client.session.2.ipAddr = v.ip
  replies : ∀ r ∈ w.client.session.2.sent, Reply P v r

/-- The requests `done` have been handed over, and what was sent are the answers to the calls they made,
one by one; the last one may be a KILL, which ends the loop without an answer. -/
structure SocketClient.Answered (P : Lookup) (v : Speaker) (w : SocketClient)
    (done : List Network.Exchange) : Prop where
  blocks : w.client.calls = done.map Network.Exchange.block
  sent : ∃ calls : List HandlerCall, done.map (Network.Exchange.call P) = calls.map some ∧
    w.client.session.2.sent = calls.filterMap (HandlerCall.reply P v) ∧
    (∀ call ∈ calls.dropLast, call.carriesOut ≠ some .kill) ∧
    (w.client.running = true → ∀ call ∈ calls, call.carriesOut ≠ some .kill)

namespace SocketClient

variable {P : Lookup} {v : Speaker} {w w' : SocketClient} {e : Engine} {done : List Network.Exchange}

theorem tells_new (P : Lookup) (v : Speaker) : (new v.ip v.sid).Tells P v :=
  ⟨rfl, rfl, rfl, rfl, List.forall_mem_nil _⟩

theorem answered_new (P : Lookup) (v : Speaker) (ip : Bytes) (sid : UInt32) :
    (new ip sid).Answered P v [] :=
  ⟨rfl, [], rfl, rfl, List.forall_mem_nil _, fun _ => List.forall_mem_nil _⟩

theorem Tells.quiet (h : w.Tells P v) (hhandler : w'.client.session.2 = w.client.session.2) :
    w'.Tells P v :=
  ⟨hhandler ▸ h.out, hhandler ▸ h.version, hhandler ▸ h.sid, hhandler ▸ h.ip, hhandler ▸ h.replies⟩

theorem Answered.quiet (h : w.Answered P v done) (hhandler : w'.client.session.2 = w.client.session.2)
    (hcalls : w'.client.calls = w.client.calls)
    (hrunning : w'.client.running = true → w.client.running = true) : w'.Answered P v done := by
  obtain ⟨calls, hmade, hsent, hbefore, hgoes⟩ := h.sent
  exact ⟨hcalls.trans h.blocks, calls, hmade, hhandler ▸ hsent, hbefore,
    fun hrun => hgoes (hrunning hrun)⟩

/-- A request is answered, or is a KILL, which ends the session. -/
theorem Tells.request (h : w.Tells P v) (hservice : v = w.client.session.2.speaker e)
    {net : SocketCalls} {m : Bytes} {size : ℕ} {r : Session.Processed HandlerState}
    (hprocess : w.client.session.1.process P (RtspHandler.handler P net)
      (w.client.session.2, e) m size = .ok r)
    (hhandler : w'.client.session.2 = r.handler.1) :
    w'.Tells P v ∧ ∃ call m', w.client.session.1.request P m size = .ok (call, m') ∧
      w'.client.session.2.sent = w.client.session.2.sent ++ (call.reply P v).toList ∧
      (call.carriesOut = some .kill → r.session.state = .dead) := by
  obtain ⟨cmd₀, session, ⟨h', e'⟩, mem⟩ := r
  obtain ⟨call, cmd, hrequest, hrun, htransition⟩ := Session.process_eq_ok.1 hprocess
  by_cases hkill : call.carriesOut = some .kill
  · -- the handler is left as it is
    have heffect := HandlerCall.run_effect hrun
    obtain rfl : h' = w.client.session.2 := by
      have hanswers := heffect.answers
      rwa [if_pos hkill] at hanswers
    obtain rfl : cmd = .kill := by
      cases heffect with
      | answered hanswer hout hclient hcmd =>
          rw [hout] at hkill
          rcases hcmd with rfl | rfl | rfl <;> simp at hkill
      | setup hanswer socket hout hremove hclient => simp [hout] at hkill
      | play hdrs hanswer c hout hsetup hclient => simp [hout] at hkill
      | stop hanswer hout hcmd hclient hremove => exact Option.some.inj (hout.symm.trans hkill)
    refine ⟨h.quiet hhandler, call, mem, hrequest, ?_, ?_⟩
    · rw [hhandler, HandlerCall.reply, if_pos hkill, Option.toList_none, List.append_nil]
    · intro _
      obtain ⟨-, rfl⟩ := Prod.mk.inj htransition
      rfl
  · obtain ⟨hsame, hanswer, hreply⟩ :=
      HandlerCall.run_says hrun (Session.request_coded hrequest) h.version hkill
    rw [← hservice] at hanswer hreply
    have hsent : h'.sent = w.client.session.2.sent ++ [call.answer P v] := by
      rw [hanswer.sent, h.out, List.nil_append]
    refine ⟨⟨hhandler ▸ hanswer.out, ?_, ?_, ?_, ?_⟩, call, mem, hrequest, ?_, fun hout => absurd hout hkill⟩
    · exact hhandler ▸ hsame.sessionVersion.trans h.version
    · exact hhandler ▸ hsame.sessionId.trans h.sid
    · exact hhandler ▸ hsame.ipAddr.trans h.ip
    · rw [hhandler, hsent]
      exact List.forall_mem_append.2 ⟨h.replies, List.forall_mem_singleton.2 hreply⟩
    · rw [hhandler, hsent, HandlerCall.reply, if_neg hkill]
      rfl

theorem Answered.request (h : w.Answered P v done) (hrunning : w.client.running = true) {m m' : Bytes}
    {size : ℕ} {call : HandlerCall} (hrequest : w.client.session.1.request P m size = .ok (call, m'))
    (hsent : w'.client.session.2.sent = w.client.session.2.sent ++ (call.reply P v).toList)
    (hcalls : w'.client.calls = w.client.calls ++ [m.take size])
    (hgoes : w'.client.running = true → call.carriesOut ≠ some .kill) :
    w'.Answered P v (done ++ [⟨w.client.session.1, m, size⟩]) := by
  obtain ⟨calls, hmade, hsent₀, -, hall⟩ := h.sent
  have hmakes : Network.Exchange.call P ⟨w.client.session.1, m, size⟩ = some call := by
    rw [Network.Exchange.call, hrequest]
    rfl
  refine ⟨?_, calls ++ [call], ?_, ?_, ?_, ?_⟩
  · rw [hcalls, h.blocks, List.map_append]
    rfl
  · rw [List.map_append, hmade, List.map_append, List.map_singleton, List.map_singleton, hmakes]
  · rw [hsent, hsent₀, List.filterMap_append]
    cases hreply : call.reply P v <;> simp [hreply]
  · rw [List.dropLast_concat]
    exact hall hrunning
  · intro hrun
    exact List.forall_mem_append.2 ⟨hall hrunning, List.forall_mem_singleton.2 (hgoes hrun)⟩

end SocketClient

/-! ### The network -/

namespace Network

variable {P : Lookup} {codec : AudioCodec} {rtp rtcp : ℤ} {ip : Bytes} {n n' : Network} {i : ℕ}
  {w w' : SocketClient} {e : Engine}

/-- What connection `i` tells. -/
def speaker (codec : AudioCodec) (rtp rtcp : ℤ) (ip : Bytes) (i : ℕ) : Speaker :=
  ⟨1111 + UInt32.ofNat i, ip, codec.sdpFmt, rtp, rtcp⟩

/-- The server offers one codec on one pair of ports, it numbers its connections, and each of them has
answered what it was asked. -/
structure Serves (P : Lookup) (codec : AudioCodec) (rtp rtcp : ℤ) (ip : Bytes) (n : Network) : Prop where
  offers : n.engine.codec = codec
  rtpPort : n.engine.rtpPort = rtp
  rtcpPort : n.engine.rtcpPort = rtcp
  address : n.factory.ip = ip
  sid : n.factory.sid = 1111 + UInt32.ofNat n.clients.length
  clients : ∀ (i : ℕ) (w : SocketClient), n.clients[i]? = some w →
    w.Tells P (speaker codec rtp rtcp ip i)

theorem serves_new (P : Lookup) (codec : AudioCodec) (rtp rtcp : ℤ) (numBuffers : ℕ) (ip : Bytes) :
    (new codec rtp rtcp numBuffers ip).Serves P codec rtp rtcp ip :=
  ⟨rfl, rfl, rfl, rfl, rfl, by simp [new]⟩

theorem Serves.frame (h : n.Serves P codec rtp rtcp ip) (he : n.engine.SameService e) :
    ({ n with engine := e } : Network).Serves P codec rtp rtcp ip :=
  ⟨he.codec.trans h.offers, he.rtpPort.trans h.rtpPort, he.rtcpPort.trans h.rtcpPort, h.address, h.sid,
    h.clients⟩

theorem Serves.set (h : n.Serves P codec rtp rtcp ip) (he : n.engine.SameService e)
    (hw : w'.Tells P (speaker codec rtp rtcp ip i)) :
    ({ n with engine := e, clients := n.clients.set i w' } : Network).Serves P codec rtp rtcp ip := by
  refine ⟨he.codec.trans h.offers, he.rtpPort.trans h.rtpPort, he.rtcpPort.trans h.rtcpPort, h.address, ?_, ?_⟩
  · change n.factory.sid = 1111 + UInt32.ofNat (n.clients.set i w').length
    rw [List.length_set]
    exact h.sid
  · intro j w hj
    change (n.clients.set i w')[j]? = some w at hj
    by_cases hij : i = j
    · subst hij
      have hlt := (List.getElem?_eq_some_iff.1 hj).1
      rw [List.getElem?_set_self (by rwa [List.length_set] at hlt)] at hj
      exact Option.some.inj hj ▸ hw
    · rw [List.getElem?_set_ne hij] at hj
      exact h.clients j w hj

theorem Serves.accept (h : n.Serves P codec rtp rtcp ip) : n.accept.Serves P codec rtp rtcp ip := by
  refine ⟨h.offers, h.rtpPort, h.rtcpPort, h.address, ?_, ?_⟩
  · change n.factory.sid + 1 =
      1111 + UInt32.ofNat (n.clients ++ [SocketClient.new n.factory.ip n.factory.sid]).length
    rw [h.sid, List.length_append, List.length_singleton, UInt32.ofNat_add, UInt32.add_assoc]
    rfl
  · intro i w hi
    change (n.clients ++ [SocketClient.new n.factory.ip n.factory.sid])[i]? = some w at hi
    rcases lt_or_ge i n.clients.length with hlt | hle
    · rw [List.getElem?_append_left hlt] at hi
      exact h.clients i w hi
    · rw [List.getElem?_append_right hle] at hi
      obtain ⟨hfirst, rfl⟩ : i - n.clients.length = 0 ∧
          SocketClient.new n.factory.ip n.factory.sid = w := by
        simpa [List.getElem?_singleton] using hi
      obtain rfl : i = n.clients.length := by omega
      rw [h.address, h.sid]
      exact SocketClient.tells_new P (speaker codec rtp rtcp ip n.clients.length)

theorem Serves.speaker_eq (h : n.Serves P codec rtp rtcp ip) (hw : n.clients[i]? = some w) :
    speaker codec rtp rtcp ip i = w.client.session.2.speaker n.engine := by
  have hclient := h.clients i w hw
  rw [RtspHandler.speaker, hclient.sid, hclient.ip, h.offers, h.rtpPort, h.rtcpPort]
  rfl

theorem Serves.step (h : n.Serves P codec rtp rtcp ip) {event : NetworkEvent}
    (hstep : Step P n event n') : n'.Serves P codec rtp rtcp ip := by
  cases event with
  | accept =>
      obtain rfl := Option.some.inj hstep
      exact h.accept
  | receive i net chunk =>
      obtain ⟨w, hw, hlive, hrunning, hreceives⟩ := receive_cases hstep
      cases hreceives with
      | @waits w' hhanded hsame hcalls hrun =>
          refine h.set ⟨rfl, rfl, rfl⟩ ((h.clients i w hw).quiet ?_)
          exact congrArg Connection.handler hsame
      | @request w' size r hhanded hprocess hnew hcalls hrun =>
          obtain ⟨call, cmd, -, hcall, -⟩ := Session.process_eq_ok.1 hprocess
          exact h.set (HandlerCall.run_effect hcall).sameService
            ((h.clients i w hw).request (h.speaker_eq hw) hprocess (congrArg Connection.handler hnew)).1
  | finish i =>
      obtain ⟨w, e, hw, -, -, hremove, rfl⟩ := finish_cases hstep
      exact h.set (Engine.sameService_remove hremove) ((h.clients i w hw).quiet rfl)
  | destroy i =>
      obtain ⟨w, hw, -, rfl⟩ := destroy_cases hstep
      exact h.set (Engine.sameService_deleteClient _ _) ((h.clients i w hw).quiet rfl)
  | getFree =>
      obtain rfl := Option.some.inj hstep
      exact h.frame (Engine.sameService_getFree _)
  | putFree b =>
      obtain rfl := Option.some.inj hstep
      exact h.frame ⟨rfl, rfl, rfl⟩
  | send b bytes samples results =>
      cases hsend : n.engine.send b bytes samples results with
      | error _ => simp [Step, exec, hsend] at hstep
      | ok e =>
          obtain rfl : ({ n with engine := e } : Network) = n' := by
            simpa [Step, exec, hsend] using hstep
          exact h.frame (Engine.sameService_send hsend)

theorem serves_run {events : List NetworkEvent} {numBuffers : ℕ}
    (hrun : Run (Step P) (new codec rtp rtcp numBuffers ip) events n) :
    n.Serves P codec rtp rtcp ip :=
  hrun.invariant (fun _ _ _ h hstep => h.step hstep) (serves_new P codec rtp rtcp numBuffers ip)

/-- Connection `i` has answered the requests `done`; there are none before it is made. -/
structure Replied (P : Lookup) (v : Speaker) (i : ℕ) (n : Network) (done : List Exchange) : Prop where
  client : ∀ w, n.clients[i]? = some w → w.Answered P v done
  none_yet : n.clients.length ≤ i → done = []

variable {v : Speaker} {done : List Exchange}

theorem Replied.set {j : ℕ} (h : n.Replied P v i done) (hw : n.clients[j]? = some w)
    (hanswered : ∀ done, w.Answered P v done → w'.Answered P v done) :
    ({ n with engine := e, clients := n.clients.set j w' } : Network).Replied P v i done := by
  refine ⟨?_, ?_⟩
  · intro x hx
    change (n.clients.set j w')[i]? = some x at hx
    by_cases hij : j = i
    · subst hij
      rw [List.getElem?_set_self (List.getElem?_eq_some_iff.1 hw).1] at hx
      exact Option.some.inj hx ▸ hanswered done (h.client w hw)
    · rw [List.getElem?_set_ne hij] at hx
      exact h.client x hx
  · intro hlength
    apply h.none_yet
    simpa using hlength

theorem Replied.accept (h : n.Replied P v i done) : n.accept.Replied P v i done := by
  refine ⟨?_, ?_⟩
  · intro w hw
    change (n.clients ++ [SocketClient.new n.factory.ip n.factory.sid])[i]? = some w at hw
    rcases lt_or_ge i n.clients.length with hlt | hle
    · rw [List.getElem?_append_left hlt] at hw
      exact h.client w hw
    · rw [List.getElem?_append_right hle] at hw
      obtain ⟨-, rfl⟩ : i - n.clients.length = 0 ∧
          SocketClient.new n.factory.ip n.factory.sid = w := by
        simpa [List.getElem?_singleton] using hw
      rw [h.none_yet hle]
      exact SocketClient.answered_new P v _ _
  · intro hlength
    apply h.none_yet
    have hgrown : n.accept.clients.length = n.clients.length + 1 := by
      simp [Network.accept, Factory.generate]
    omega

theorem Replied.receive (h : n.Replied P (speaker codec rtp rtcp ip i) i done)
    (hserves : n.Serves P codec rtp rtcp ip) {j : ℕ} {net : SocketCalls} {chunk : Bytes}
    (hw : n.clients[j]? = some w) (hrunning : w.client.running = true)
    (hreceives : n.Receives P j net chunk w n') :
    n'.Replied P (speaker codec rtp rtcp ip i) i (done ++ asks i n (.receive j net chunk)) := by
  cases hreceives with
  | @waits w' hhanded hsame hcalls hrun =>
      have hnone : asks i n (.receive j net chunk) = [] := by
        rw [asks]
        split
        · subst j
          simp only [hw, hhanded, Option.map_none, Option.toList_none]
        · rfl
      rw [hnone, List.append_nil]
      exact h.set hw fun done hanswered =>
        hanswered.quiet (congrArg Connection.handler hsame) hcalls hrun
  | @request w' size r hhanded hprocess hnew hcalls hrun =>
      have hhandler : w'.client.session.2 = r.handler.1 := congrArg Connection.handler hnew
      by_cases hij : j = i
      · subst j
        have hasks : asks i n (.receive i net chunk) =
            [⟨w.client.session.1, w.client.received chunk, size⟩] := by
          simp only [asks, if_true, hw, hhanded, Option.map_some, Option.toList_some]
        obtain ⟨-, call, m', hrequest, hsent, hkill⟩ :=
          (hserves.clients i w hw).request (hserves.speaker_eq hw) hprocess hhandler
        rw [hasks]
        have hlt := (List.getElem?_eq_some_iff.1 hw).1
        refine ⟨?_, ?_⟩
        · intro x hx
          change (n.clients.set i w')[i]? = some x at hx
          rw [List.getElem?_set_self hlt] at hx
          obtain rfl := Option.some.inj hx
          exact (h.client w hw).request hrunning hrequest hsent hcalls fun hgoes hout =>
            hrun hgoes (hkill hout)
        · intro hlength
          exact absurd hlength (by simpa using hlt)
      · rw [asks, if_neg hij, List.append_nil]
        have hother : ∀ x, (n.clients.set j w')[i]? = some x → n.clients[i]? = some x := by
          intro x hx
          rwa [List.getElem?_set_ne hij] at hx
        exact ⟨fun x hx => h.client x (hother x hx), fun hlength => h.none_yet (by simpa using hlength)⟩

theorem Replied.step (h : n.Replied P (speaker codec rtp rtcp ip i) i done)
    (hserves : n.Serves P codec rtp rtcp ip) {event : NetworkEvent} (hstep : n.exec P event = some n') :
    n'.Replied P (speaker codec rtp rtcp ip i) i (done ++ asks i n event) := by
  cases event with
  | receive j net chunk =>
      obtain ⟨w, hw, -, hrunning, hreceives⟩ := receive_cases hstep
      exact h.receive hserves hw hrunning hreceives
  | accept =>
      obtain rfl := Option.some.inj hstep
      rw [show asks i n .accept = [] from rfl, List.append_nil]
      exact h.accept
  | finish j =>
      obtain ⟨w, e, hw, -, -, -, rfl⟩ := finish_cases hstep
      rw [show asks i n (.finish j) = [] from rfl, List.append_nil]
      exact h.set hw fun done hanswered => hanswered.quiet rfl rfl id
  | destroy j =>
      obtain ⟨w, hw, -, rfl⟩ := destroy_cases hstep
      rw [show asks i n (.destroy j) = [] from rfl, List.append_nil]
      exact h.set hw fun done hanswered => hanswered.quiet rfl rfl id
  | getFree =>
      obtain rfl := Option.some.inj hstep
      rw [show asks i n .getFree = [] from rfl, List.append_nil]
      exact ⟨h.client, h.none_yet⟩
  | putFree b =>
      obtain rfl := Option.some.inj hstep
      rw [show asks i n (.putFree b) = [] from rfl, List.append_nil]
      exact ⟨h.client, h.none_yet⟩
  | send b bytes samples results =>
      cases hsend : n.engine.send b bytes samples results with
      | error _ => simp [exec, hsend] at hstep
      | ok e =>
          obtain rfl : ({ n with engine := e } : Network) = n' := by
            simpa [exec, hsend] using hstep
          rw [show asks i n (.send b bytes samples results) = [] from rfl, List.append_nil]
          exact ⟨h.client, h.none_yet⟩

/-- Pipelining is safe: on every connection the answers sent are those to the calls that its session
made of the requests handed over, in the state it was in then, one for each and in their order; what is
carried out decides what an answer says, with the connection's own number. A KILL may come last and has
none. -/
theorem requests_answered_in_order (P : Lookup) (codec : AudioCodec) (rtp rtcp : ℤ) (numBuffers : ℕ)
    (ip : Bytes) (events : List NetworkEvent) (n : Network)
    (hrun : Run (Step P) (new codec rtp rtcp numBuffers ip) events n) (i : ℕ) (w : SocketClient)
    (hw : n.clients[i]? = some w) : w.Answered P (speaker codec rtp rtcp ip i)
      (exchanges P i (new codec rtp rtcp numBuffers ip) events) := by
  have hboth : n.Serves P codec rtp rtcp ip ∧ n.Replied P (speaker codec rtp rtcp ip i) i
      ([] ++ labels (exec P) (asks i) (new codec rtp rtcp numBuffers ip) events) :=
    Run.labels_invariant
      (I := fun n done => n.Serves P codec rtp rtcp ip ∧ n.Replied P (speaker codec rtp rtcp ip i) i done)
      hrun ⟨serves_new P codec rtp rtcp numBuffers ip, ⟨by simp [new], fun _ => rfl⟩⟩
      fun n event n' done h hstep => ⟨h.1.step hstep, h.2.step h.1 hstep⟩
  exact hboth.2.client w hw

/-- The first connection sets up and plays. -/
theorem requests_answered_pieces : ∃ n w, Run (Step Lookup.literal) pcmNetwork twoListeners n ∧
    n.clients[0]? = some w ∧ w.client.calls = [Server.setupText, Server.playText] ∧
    w.Answered Lookup.literal
      (speaker (AudioCodec.createPcm ⟨16, 2, 48000⟩) 6000 6001 (ascii "10.0.0.1") 0)
      (exchanges Lookup.literal 0 pcmNetwork twoListeners) ∧
    (exchanges Lookup.literal 0 pcmNetwork twoListeners).map (fun x => x.session.state) =
      [.init, .ready] := by
  have hrun : (execAll (exec Lookup.literal) pcmNetwork twoListeners).any
      (fun n => n.clients[0]?.any fun w => w.client.calls = [Server.setupText, Server.playText]) =
        true := by
    decide +kernel
  obtain ⟨n, hn, hfound⟩ := run_of_any hrun
  obtain ⟨w, hw, hcalls⟩ := (Option.any_eq_true _ _).1 hfound
  exact ⟨n, w, hn, hw, of_decide_eq_true hcalls,
    requests_answered_in_order Lookup.literal _ _ _ _ _ _ n hn 0 w hw, by decide +kernel⟩

/-! ### Session numbers -/

/-- The session numbers in an answer. -/
def numbers (r : Response) : List ℤ := r.flatMap fun line =>
  match line with
  | .session id => [id]
  | .transport _ _ id => [id]
  | _ => []

theorem numbers_reply {v : Speaker} {r : Response} (hreply : Reply P v r) :
    ∀ id ∈ numbers r, id = v.id := by
  intro id hid
  cases hreply with
  | error code cseq hcode => cases cseq <;> simp [numbers] at hid
  | options hdrs => simp [numbers, RtspHandler.commonLines] at hid
  | describe hdrs => simp [numbers, RtspHandler.commonLines] at hid
  | setup hdrs => simpa [numbers, RtspHandler.commonLines] using hid
  | play hdrs => simpa [numbers, RtspHandler.commonLines] using hid
  | stop hdrs => simpa [numbers, RtspHandler.commonLines] using hid

theorem toInt_toNat_inj {a b : UInt32} (h : toInt a.toNat = toInt b.toNat) : a = b := by
  have ha := a.toNat_lt
  have hb := b.toNat_lt
  have hmod : (a.toNat : ℤ) % ((2 ^ 32 : ℕ) : ℤ) = (b.toNat : ℤ) % ((2 ^ 32 : ℕ) : ℤ) :=
    Int.bmod_emod.symm.trans ((congrArg (· % ((2 ^ 32 : ℕ) : ℤ)) h).trans Int.bmod_emod)
  apply UInt32.toNat_inj.1
  omega

/-- The numbers of two connections are the same only when 2^32 connections lie between them. -/
theorem speaker_id_inj {j : ℕ} (hi : i < 2 ^ 32) (hj : j < 2 ^ 32)
    (h : (speaker codec rtp rtcp ip i).id = (speaker codec rtp rtcp ip j).id) : i = j := by
  have hnumber : UInt32.ofNat i = UInt32.ofNat j := by
    have hsum : 1111 + UInt32.ofNat i = 1111 + UInt32.ofNat j := toInt_toNat_inj h
    have hcancel := congrArg (· - 1111) hsum
    simpa [UInt32.add_comm] using hcancel
  have hsame := congrArg UInt32.toNat hnumber
  rw [UInt32.toNat_ofNat', UInt32.toNat_ofNat'] at hsame
  omega

theorem Serves.replies (h : n.Serves P codec rtp rtcp ip) (hw : n.clients[i]? = some w) :
    ∀ r ∈ w.client.session.2.sent, Reply P (speaker codec rtp rtcp ip i) r :=
  (h.clients i w hw).replies

/-- Up to 2^32 connections, a session number is told on one connection only: two answers that hold the
same number were sent on the same connection. -/
theorem session_number_unique (P : Lookup) (codec : AudioCodec) (rtp rtcp : ℤ) (numBuffers : ℕ)
    (ip : Bytes) (events : List NetworkEvent) (n : Network)
    (hrun : Run (Step P) (new codec rtp rtcp numBuffers ip) events n)
    (hcount : n.clients.length ≤ 2 ^ 32) (i j : ℕ) (w w' : SocketClient)
    (hw : n.clients[i]? = some w) (hw' : n.clients[j]? = some w') (r r' : Response)
    (hr : r ∈ w.client.session.2.sent) (hr' : r' ∈ w'.client.session.2.sent) (id : ℤ)
    (hid : id ∈ numbers r) (hid' : id ∈ numbers r') : i = j := by
  have hserves := serves_run hrun
  have hi := (List.getElem?_eq_some_iff.1 hw).1
  have hj := (List.getElem?_eq_some_iff.1 hw').1
  have hown := numbers_reply (hserves.replies hw r hr) id hid
  have hother := numbers_reply (hserves.replies hw' r' hr') id hid'
  exact speaker_id_inj (by omega) (by omega) (hown.symm.trans hother)

theorem session_number_unique_first : ∃ n w r, Run (Step Lookup.literal) pcmNetwork twoListeners n ∧
    n.clients[0]? = some w ∧ r ∈ w.client.session.2.sent ∧ 1111 ∈ numbers r ∧
    ∀ (j : ℕ) (w' : SocketClient) (r' : Response), n.clients[j]? = some w' →
      r' ∈ w'.client.session.2.sent → 1111 ∈ numbers r' → 0 = j := by
  have hrun : (execAll (exec Lookup.literal) pcmNetwork twoListeners).any
      (fun n => n.clients.length = 2 ∧ n.clients[0]?.any fun w =>
        w.client.session.2.sent.head?.any fun r => 1111 ∈ numbers r) = true := by
    decide +kernel
  obtain ⟨n, hn, hfound⟩ := run_of_any hrun
  obtain ⟨hcount, hfirst⟩ := of_decide_eq_true hfound
  obtain ⟨w, hw, hhead⟩ := (Option.any_eq_true _ _).1 hfirst
  obtain ⟨r, hr, hid⟩ := (Option.any_eq_true _ _).1 hhead
  refine ⟨n, w, r, hn, hw, List.mem_of_head? hr, of_decide_eq_true hid, ?_⟩
  intro j w' r' hw' hr' hid'
  exact session_number_unique Lookup.literal _ _ _ _ _ _ n hn (by omega) 0 j w w' hw hw' r r'
    (List.mem_of_head? hr) hr' 1111 (of_decide_eq_true hid) hid'

end Network

end WifiAudio
