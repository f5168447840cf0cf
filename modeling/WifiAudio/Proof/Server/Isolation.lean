import WifiAudio.Proof.Server.Answers

/-!
# Sessions do not see each other

All sessions share the engine. What a request is answered and what it does to its session depend on
the engine only through the codec and the two server ports, which never change; the numbers of the
clients and the playing list show in no answer. So a connection gets the same answers and goes through
the same states as it would alone.
-/

namespace WifiAudio

open Except Transition

/-! ### One call on two handlers -/

/-- The handlers differ in the number of their client only. -/
def RtspHandler.Alike (h g : RtspHandler) : Prop :=
  ∃ client : Option ℕ, client.isSome = h.rtpClient.isSome ∧ g = { h with rtpClient := client }

/-- What the answers use of the engine. -/
structure Engine.Alike (e f : Engine) : Prop where
  codec : f.codec = e.codec
  ports : f.getServerPorts = e.getServerPorts

variable {P : Lookup} {net : SocketCalls} {h g h' : RtspHandler} {e f e' f' : Engine}
  {cmd : RtspCommand}

namespace RtspHandler

theorem Alike.refl (h : RtspHandler) : h.Alike h := ⟨h.rtpClient, rfl, rfl⟩

theorem Alike.printf (ha : h.Alike g) (line : Line) : (h.printf line).Alike (g.printf line) := by
  obtain ⟨client, hclient, rfl⟩ := ha
  exact ⟨client, hclient, rfl⟩

theorem Alike.flush (ha : h.Alike g) : h.flush.Alike g.flush := by
  obtain ⟨client, hclient, rfl⟩ := ha
  exact ⟨client, hclient, rfl⟩

theorem Alike.common (ha : h.Alike g) (hdrs : RtspHeader) (sid : Bool) :
    (h.common P hdrs sid).Alike (g.common P hdrs sid) := by
  have hstatus := (ha.printf (.status ErrorCode.ok (P.lut responseLut ErrorCode.ok))).printf
    (.cseq hdrs.cseq)
  cases sid with
  | false => exact hstatus
  | true =>
      obtain ⟨client, hclient, rfl⟩ := ha
      exact ⟨client, hclient, rfl⟩

theorem Alike.sendError (ha : h.Alike g) (hdrs : Option RtspHeader) (code : ℤ) :
    (h.sendError P hdrs code).2.Alike (g.sendError P hdrs code).2 := by
  obtain ⟨client, hclient, rfl⟩ := ha
  cases hdrs with
  | none => exact ⟨client, hclient, rfl⟩
  | some hdrs => exact ⟨client, hclient, rfl⟩

theorem Alike.sessionId (ha : h.Alike g) : g.sessionId = h.sessionId := by
  obtain ⟨client, -, rfl⟩ := ha
  rfl

theorem Alike.ipAddr (ha : h.Alike g) : g.ipAddr = h.ipAddr := by
  obtain ⟨client, -, rfl⟩ := ha
  rfl

theorem Alike.sent (ha : h.Alike g) : g.sent = h.sent := by
  obtain ⟨client, -, rfl⟩ := ha
  rfl

theorem Alike.sdp (ha : h.Alike g) (fmt : SdpFmt) : g.sdp fmt = h.sdp fmt := by
  obtain ⟨client, -, rfl⟩ := ha
  have htext : RtspHandler.sdpText { h with rtpClient := client } = h.sdpText := by
    funext part
    cases part with
    | _ => rfl
  rw [RtspHandler.sdp, htext]
  rfl

theorem Alike.describe (ha : h.Alike g) (codec : AudioCodec) (hdrs : RtspHeader) :
    (h.describe P codec hdrs).2.Alike (g.describe P codec hdrs).2 := by
  change RtspHandler.Alike _ ((((((g.common P hdrs false).printf .contentType).printf
    (.contentLength (g.sdp codec.sdpFmt).length)).printf .blank).printf
    (.body (g.sdp codec.sdpFmt))).flush)
  rw [ha.sdp]
  exact (((((ha.common hdrs false).printf _).printf _).printf _).printf _).flush

theorem Alike.none_iff (ha : h.Alike g) : g.rtpClient = none ↔ h.rtpClient = none := by
  obtain ⟨client, hclient, rfl⟩ := ha
  rw [← Option.isNone_iff_eq_none, ← Option.isNone_iff_eq_none, ← Option.not_isSome,
    ← Option.not_isSome, hclient]

end RtspHandler

namespace Engine

theorem remove_alike {c : Option ℕ} (hremove : e.remove c = .ok e') : e.Alike e' := by
  obtain ⟨playing, rfl⟩ := remove_eq_ok hremove
  exact ⟨rfl, rfl⟩

theorem deleteClient_alike (e : Engine) (c : Option ℕ) : e.Alike (e.deleteClient c) := by
  cases c with
  | none => exact ⟨rfl, rfl⟩
  | some c => exact ⟨rfl, rfl⟩

theorem Alike.remove (ha : e.Alike f) {c d : Option ℕ} (hremove : e.remove c = .ok e')
    (hremove' : f.remove d = .ok f') : e'.Alike f' := by
  obtain ⟨playing, rfl⟩ := remove_eq_ok hremove
  obtain ⟨playing', rfl⟩ := remove_eq_ok hremove'
  exact ⟨ha.codec, ha.ports⟩

theorem Alike.play (ha : e.Alike f) (c d : Option ℕ) : (e.play c).Alike (f.play d) := by
  cases c with
  | none => cases d with
    | none => exact ha
    | some d => exact ⟨ha.codec, ha.ports⟩
  | some c => cases d with
    | none => exact ⟨ha.codec, ha.ports⟩
    | some d => exact ⟨ha.codec, ha.ports⟩

end Engine

namespace HandlerCall

variable {hdrs : RtspHeader} {m : Bytes} {code : ℤ}

theorem setup_alike (hh : h.Alike g) (he : e.Alike f)
    (hreturns : ∀ t, RtspHandler.findTransport m hdrs (List.finRange maxTransports) = .ok (some t) →
      ∃ f', f.remove g.rtpClient = .ok f')
    (hrun : RtspHandler.setup P net hdrs m (h, e) = .ok (code, (h', e'))) :
    ∃ g' f', RtspHandler.setup P net hdrs m (g, f) = .ok (code, (g', f')) ∧ h'.Alike g' ∧
      e'.Alike f' := by
  obtain ⟨found, hfind, hrun⟩ := bind_eq_ok.1 hrun
  rw [RtspHandler.setup, hfind]
  cases found with
  | none =>
      obtain ⟨rfl, rfl, rfl⟩ : ErrorCode.unsupportedTransport = code ∧
          (h.sendError P (some hdrs) ErrorCode.unsupportedTransport).2 = h' ∧ e = e' := by
        simpa [RtspHandler.sendError] using hrun
      exact ⟨_, f, rfl, hh.sendError _ _, he⟩
  | some t =>
      by_cases hopen : net.openUdp
      · simp only [hopen, Bool.not_true, Bool.false_eq_true, if_false, pure_eq_ok] at hrun
        obtain ⟨removed, hremove, hrun⟩ := bind_eq_ok.1 hrun
        obtain ⟨rfl, rfl, rfl⟩ : ErrorCode.ok = code ∧ _ = h' ∧ _ = e' := by simpa using hrun
        obtain ⟨removed', hremove'⟩ := hreturns t hfind
        have hremoved := he.remove hremove hremove'
        simp only [ok_bind, hopen, Bool.not_true, Bool.false_eq_true, if_false, pure_eq_ok,
          RtspHandler.rtpClient_flush, RtspHandler.rtpClient_printf, RtspHandler.rtpClient_common,
          hremove']
        refine ⟨_, _, rfl, ?_, ⟨hremoved.codec, hremoved.ports⟩⟩
        have hcommon : (h.common P hdrs true).Alike (g.common P hdrs true) := hh.common hdrs true
        rw [he.ports, hcommon.sessionId]
        obtain ⟨client, -, hg⟩ := ((hcommon.printf (.transport e.getServerPorts.1
          e.getServerPorts.2 (toInt (h.common P hdrs true).sessionId.toNat))).printf .blank).flush
        rw [hg]
        exact ⟨some removed'.clients.length, rfl, rfl⟩
      · simp [hopen] at hrun

theorem stop_alike (hh : h.Alike g) (he : e.Alike f) (hreturns : ∃ f', f.remove g.rtpClient = .ok f')
    (hrun : RtspHandler.stop P hdrs (h, e) = .ok (code, (h', e'))) :
    ∃ g' f', RtspHandler.stop P hdrs (g, f) = .ok (code, (g', f')) ∧ h'.Alike g' ∧ e'.Alike f' := by
  obtain ⟨removed, hremove, hrun⟩ := bind_eq_ok.1 hrun
  obtain ⟨rfl, rfl, rfl⟩ : ErrorCode.ok = code ∧ _ = h' ∧ removed = e' := by simpa using hrun
  obtain ⟨removed', hremove'⟩ := hreturns
  rw [RtspHandler.stop]
  simp only [RtspHandler.rtpClient_flush, RtspHandler.rtpClient_printf, RtspHandler.rtpClient_common,
    hremove', ok_bind, pure_eq_ok]
  exact ⟨_, _, rfl, ((hh.common hdrs true).printf .blank).flush, he.remove hremove hremove'⟩

theorem play_alike (hh : h.Alike g) (he : e.Alike f)
    (hrun : RtspHandler.play P hdrs (h, e) = .ok (code, (h', e'))) :
    ∃ g' f', RtspHandler.play P hdrs (g, f) = .ok (code, (g', f')) ∧ h'.Alike g' ∧ e'.Alike f' := by
  have hclient : h.rtpClient ≠ none := by
    intro hnone
    simp [RtspHandler.play, hnone] at hrun
  have hclient' : g.rtpClient ≠ none := mt hh.none_iff.1 hclient
  rw [RtspHandler.play, if_neg hclient] at hrun
  rw [RtspHandler.play, if_neg hclient']
  obtain ⟨rfl, rfl, rfl⟩ : ErrorCode.ok = code ∧ _ = h' ∧ _ = e' := by simpa using hrun
  have hcommon : (h.common P hdrs true).Alike (g.common P hdrs true) := hh.common hdrs true
  refine ⟨_, _, rfl, ?_, he.play _ _⟩
  rw [hcommon.ipAddr]
  exact ((hcommon.printf _).printf .blank).flush

/-- The call takes the client off the playing list. -/
def Removes (call : HandlerCall) : Prop :=
  ∃ cmd, call.carriesOut = some cmd ∧ (cmd = .setup ∨ cmd.Stops)

theorem command_alike {uri : Option ℕ} (hh : h.Alike g) (he : e.Alike f)
    (hreturns : (HandlerCall.command cmd uri hdrs ErrorCode.ok m).Removes →
      ∃ f', f.remove g.rtpClient = .ok f')
    (hrun : RtspHandler.command P net cmd hdrs ErrorCode.ok m (h, e) = .ok (code, (h', e'))) :
    ∃ g' f', RtspHandler.command P net cmd hdrs ErrorCode.ok m (g, f) = .ok (code, (g', f')) ∧
      h'.Alike g' ∧ e'.Alike f' := by
  have hstops (hout : (HandlerCall.command cmd uri hdrs ErrorCode.ok m).carriesOut = some cmd)
      (hcmd : cmd.Stops) : ∃ f', f.remove g.rtpClient = .ok f' := hreturns ⟨cmd, hout, .inr hcmd⟩
  cases cmd with
  | unknown => cases hrun
  | options =>
      obtain ⟨rfl, rfl, rfl⟩ : ErrorCode.ok = code ∧ (h.options P hdrs).2 = h' ∧ e = e' := by
        simpa [RtspHandler.command, RtspHandler.options] using hrun
      exact ⟨_, f, rfl, (((hh.common hdrs false).printf _).printf .blank).flush, he⟩
  | describe =>
      by_cases hsdp : hdrs.acceptSdp
      · obtain ⟨rfl, rfl, rfl⟩ : ErrorCode.ok = code ∧ (h.describe P e.codec hdrs).2 = h' ∧ e = e' := by
          simpa [RtspHandler.command, RtspHandler.describe, hsdp] using hrun
        refine ⟨(g.describe P f.codec hdrs).2, f, ?_, he.codec.symm ▸ hh.describe e.codec hdrs, he⟩
        simp [RtspHandler.command, RtspHandler.describe, hsdp]
      · obtain ⟨rfl, rfl, rfl⟩ : ErrorCode.unsupportedMediaType = code ∧
            (h.sendError P (some hdrs) ErrorCode.unsupportedMediaType).2 = h' ∧ e = e' := by
          simpa [RtspHandler.command, RtspHandler.sendError, hsdp] using hrun
        refine ⟨(g.sendError P (some hdrs) ErrorCode.unsupportedMediaType).2, f, ?_,
          hh.sendError _ _, he⟩
        simp [RtspHandler.command, RtspHandler.sendError, hsdp]
  | setup =>
      refine setup_alike hh he ?_ hrun
      intro t hfind
      exact hreturns ⟨.setup, by simp [carriesOut, hfind], .inl rfl⟩
  | play => exact play_alike hh he hrun
  | pause => exact stop_alike hh he (hstops (by simp [carriesOut]) (.inl rfl)) hrun
  | teardown => exact stop_alike hh he (hstops (by simp [carriesOut]) (.inr (.inl rfl))) hrun
  | kill =>
      obtain ⟨s, hterminate, hrun⟩ := bind_eq_ok.1 hrun
      obtain ⟨removed, hremove, hs⟩ := bind_eq_ok.1 hterminate
      obtain ⟨rfl, rfl, rfl⟩ : ErrorCode.ok = code ∧ h = h' ∧ removed = e' := by
        obtain rfl := Except.ok.inj hs
        simpa using hrun
      obtain ⟨removed', hremove'⟩ := hstops (by simp [carriesOut]) (.inr (.inr rfl))
      refine ⟨g, removed', ?_, hh, he.remove hremove hremove'⟩
      simp [RtspHandler.command, RtspHandler.terminate, hremove']

/-- A call that completes on one handler does the same on a handler alike, as long as its list
operation returns. -/
theorem run_alike {call : HandlerCall} (hh : h.Alike g) (he : e.Alike f)
    (hreturns : call.Removes → ∃ f', f.remove g.rtpClient = .ok f')
    (hrun : call.run (RtspHandler.handler P net) (h, e) = .ok (cmd, (h', e'))) :
    ∃ g' f', call.run (RtspHandler.handler P net) (g, f) = .ok (cmd, (g', f')) ∧ h'.Alike g' ∧
      e'.Alike f' := by
  cases call with
  | error code =>
      obtain ⟨rfl, rfl, rfl⟩ : RtspCommand.unknown = cmd ∧ (h.sendError P none code).2 = h' ∧ e = e' := by
        simpa [run, RtspHandler.handler, RtspHandler.error] using hrun
      exact ⟨_, f, rfl, hh.sendError none code, he⟩
  | command asked uri hdrs errorCode m =>
      obtain ⟨⟨code, s⟩, hcommand, hresult⟩ := bind_eq_ok.1 hrun
      obtain ⟨rfl, rfl⟩ := Prod.mk.inj (Except.ok.inj hresult)
      by_cases herror : errorCode = ErrorCode.ok
      · subst herror
        obtain ⟨g', f', hcommand', halike⟩ := command_alike hh he hreturns hcommand
        refine ⟨g', f', ?_, halike⟩
        change (RtspHandler.command P net asked hdrs ErrorCode.ok m (g, f) >>= _) = _
        rw [hcommand']
        rfl
      · obtain ⟨rfl, rfl, rfl⟩ : errorCode = code ∧ (h.sendError P (some hdrs) errorCode).2 = h' ∧
            e = e' := by
          simpa [RtspHandler.handler, RtspHandler.command, RtspHandler.sendError, herror] using hcommand
        refine ⟨(g.sendError P (some hdrs) errorCode).2, f, ?_, hh.sendError _ _, he⟩
        simp [run, RtspHandler.handler, RtspHandler.command, RtspHandler.sendError, herror]

end HandlerCall

/-! ### A connection in company and alone -/

/-- The connections have answered the same and are in the same state. -/
structure Connection.Alike (conn conn' : Connection) : Prop where
  session : conn'.session = conn.session
  phase : conn'.phase = conn.phase
  handler : conn.handler.Alike conn'.handler

namespace Server

variable {s s' t : Server} {i j : ℕ} {conn conn' : Connection} {as : List Action} {a : Action}

/-- What is left of the actions for connection `i`, which then is the first one made; `n` connections
are made already. -/
def alone (i : ℕ) : ℕ → List Action → List Action
  | _, [] => []
  | n, .connect ip sid :: as =>
      if n = i then .connect ip sid :: alone i (n + 1) as else alone i (n + 1) as
  | n, .request j net m size :: as =>
      if j = i then .request 0 net m size :: alone i n as else alone i n as
  | n, .disconnect j :: as => if j = i then .disconnect 0 :: alone i n as else alone i n as
  | n, .destroy j :: as => if j = i then .destroy 0 :: alone i n as else alone i n as
  | n, _ :: as => alone i n as

/-- The list operation of the action returns. -/
def ListReturns (P : Lookup) (s : Server) : Action → Prop
  | .request i _ m size => ∀ (conn : Connection) (cmd : RtspCommand), s.connections[i]? = some conn →
      conn.session.carriesOut P m size = some cmd → cmd = .setup ∨ cmd.Stops →
      ∃ e, s.engine.remove conn.handler.rtpClient = .ok e
  | .disconnect i => ∀ conn : Connection, s.connections[i]? = some conn →
      ∃ e, s.engine.remove conn.handler.rtpClient = .ok e
  | _ => True

/-- Connection `i` of `s` is the only one of `t`. -/
inductive Mirrors (i : ℕ) (s t : Server) : Prop
  | before (hlt : s.connections.length ≤ i) (hnone : t.connections = []) (he : s.engine.Alike t.engine)
  | made (conn conn' : Connection) (hconn : s.connections[i]? = some conn)
      (honly : t.connections = [conn']) (halike : conn.Alike conn') (he : s.engine.Alike t.engine)

theorem Mirrors.engine (h : Mirrors i s t) : s.engine.Alike t.engine := by
  cases h with
  | before _ _ he => exact he
  | made _ _ _ _ _ he => exact he

theorem Mirrors.other (h : Mirrors i s t) (hlength : s'.connections.length = s.connections.length)
    (hconn : s'.connections[i]? = s.connections[i]?) (he : s.engine.Alike s'.engine) :
    Mirrors i s' t := by
  have he' : s'.engine.Alike t.engine :=
    ⟨h.engine.codec.trans he.codec.symm, h.engine.ports.trans he.ports.symm⟩
  cases h with
  | before hlt hnone _ => exact .before (hlength ▸ hlt) hnone he'
  | made conn conn' hi honly halike _ => exact .made conn conn' (hconn.trans hi) honly halike he'

theorem Mirrors.update_other {e : Engine} (h : Mirrors i s t) (hij : j ≠ i)
    (he : s.engine.Alike e) : Mirrors i (s.update j conn e) t :=
  h.other List.length_set (update_of_ne (Ne.symm hij)) he

theorem Mirrors.update_self {e f : Engine} {c c' : Connection} (hlt : i < s.connections.length)
    (honly : t.connections = [conn']) (halike : c.Alike c') (he : e.Alike f) :
    Mirrors i (s.update i c e) (t.update 0 c' f) := by
  refine .made c c' ?_ ?_ halike he
  · simp [update, hlt]
  · simp [update, honly]

theorem effect_alike {call : HandlerCall} (heffect : call.Effect P h e cmd h' e') : e.Alike e' := by
  cases heffect with
  | answered _ _ _ _ => exact ⟨rfl, rfl⟩
  | setup _ _ _ hremove _ =>
      have hremoved := Engine.remove_alike hremove
      exact ⟨hremoved.codec, hremoved.ports⟩
  | play _ _ _ _ _ _ => exact ⟨rfl, rfl⟩
  | stop _ _ _ _ hremove => exact Engine.remove_alike hremove

theorem Mirrors.own (h : Mirrors i s t) (hconn : s.connections[i]? = some conn) :
    ∃ conn', t.connections = [conn'] ∧ t.connections[0]? = some conn' ∧ conn.Alike conn' := by
  have hlt := (List.getElem?_eq_some_iff.1 hconn).1
  cases h with
  | before hle _ _ => exact absurd hlt (Nat.not_lt.2 hle)
  | made conn₀ conn' hmade honly halike _ =>
      obtain rfl := Option.some.inj (hmade.symm.trans hconn)
      refine ⟨conn', honly, ?_, halike⟩
      rw [honly]
      rfl

theorem Mirrors.connect (h : Mirrors i s t) (ip : Bytes) (sid : UInt32) :
    ∃ t', Run (Step P) t (alone i s.connections.length [.connect ip sid]) t' ∧
      Mirrors i { s with connections := s.connections ++ [⟨.new, .new ip sid, .live⟩] } t' := by
  rw [alone]
  split
  case isTrue heq =>
    cases h with
    | before hlt hnone he =>
        refine ⟨_, .single rfl, .made ⟨.new, .new ip sid, .live⟩ ⟨.new, .new ip sid, .live⟩ ?_ ?_
          ⟨rfl, rfl, .refl _⟩ he⟩
        · rw [List.getElem?_append_right heq.le, heq, Nat.sub_self]
          rfl
        · rw [hnone]
          rfl
    | made conn conn' hconn honly halike he =>
        have hlt := (List.getElem?_eq_some_iff.1 hconn).1
        exact absurd heq (by omega)
  case isFalse hne =>
    refine ⟨t, .nil t, ?_⟩
    cases h with
    | before hlt hnone he =>
        refine .before ?_ hnone he
        simp only [List.length_append, List.length_singleton]
        omega
    | made conn conn' hconn honly halike he =>
        have hlt := (List.getElem?_eq_some_iff.1 hconn).1
        exact .made conn conn' ((List.getElem?_append_left hlt).trans hconn) honly halike he

theorem Mirrors.request (h : Mirrors i s t) {net : SocketCalls} {m : Bytes} {size : ℕ}
    (hstep : Step P s (.request i net m size) s') (hreturns : ListReturns P t (.request 0 net m size)) :
    ∃ t', Step P t (.request 0 net m size) t' ∧ Mirrors i s' t' := by
  obtain ⟨conn, r, hconn, hactive, hprocess, rfl⟩ := request_completes hstep
  obtain ⟨call, cmd, hrequest, hrun, htransition⟩ := Session.process_eq_ok.1 hprocess
  obtain ⟨returned, session', ⟨h', e'⟩, mem⟩ := r
  obtain ⟨conn', honly, hfirst, halike⟩ := h.own hconn
  have hcarries : conn'.session.carriesOut P m size = call.carriesOut := by
    rw [halike.session, Session.carriesOut, hrequest]
  obtain ⟨g', f', hrun', halike', he'⟩ := HandlerCall.run_alike halike.handler h.engine
    (fun hremoves => by
      obtain ⟨cmd, hout, hcmd⟩ := hremoves
      exact hreturns conn' cmd hfirst (hcarries.trans hout) hcmd) hrun
  have hprocess' : conn'.session.process P (RtspHandler.handler P net)
      (conn'.handler, t.engine) m size = .ok ⟨returned, session', (g', f'), mem⟩ := by
    rw [halike.session]
    exact Session.process_eq_ok.2 ⟨call, cmd, hrequest, hrun', htransition⟩
  have hactive' : conn'.Active := by
    rw [Connection.Active, halike.phase, halike.session]
    exact hactive
  refine ⟨t.update 0 { conn' with session := session', handler := g' } f', ?_,
    .update_self (List.getElem?_eq_some_iff.1 hconn).1 honly ⟨rfl, halike.phase, halike'⟩ he'⟩
  change t.request P 0 net m size = _
  rw [Server.request, hfirst]
  simp only [if_pos hactive', hprocess']

theorem Mirrors.disconnect (h : Mirrors i s t) (hstep : Step P s (.disconnect i) s')
    (hreturns : ListReturns P t (.disconnect 0)) :
    ∃ t', Step P t (.disconnect 0) t' ∧ Mirrors i s' t' := by
  obtain ⟨conn, e', hconn, hlive, hremove, rfl⟩ := disconnect_effect hstep
  obtain ⟨conn', honly, hfirst, halike⟩ := h.own hconn
  obtain ⟨f', hremove'⟩ := hreturns conn' hfirst
  refine ⟨t.update 0 { conn' with phase := .terminated } f', ?_,
    .update_self (List.getElem?_eq_some_iff.1 hconn).1 honly ⟨halike.session, rfl, halike.handler⟩
      (h.engine.remove hremove hremove')⟩
  change t.disconnect 0 = _
  rw [Server.disconnect, hfirst]
  simp only [halike.phase, hlive, if_true, RtspHandler.terminate, hremove', ok_bind, pure_eq_ok]

theorem Mirrors.destroy (h : Mirrors i s t) (hstep : Step P s (.destroy i) s') :
    ∃ t', Step P t (.destroy 0) t' ∧ Mirrors i s' t' := by
  obtain ⟨conn, hconn, hphase, rfl⟩ := destroy_effect hstep
  obtain ⟨conn', honly, hfirst, halike⟩ := h.own hconn
  have he := h.engine
  have hs := s.engine.deleteClient_alike conn.handler.rtpClient
  have ht := t.engine.deleteClient_alike conn'.handler.rtpClient
  refine ⟨t.update 0 { conn' with phase := .destroyed } (t.engine.deleteClient conn'.handler.rtpClient),
    ?_, .update_self (List.getElem?_eq_some_iff.1 hconn).1 honly ⟨halike.session, rfl, halike.handler⟩
      ⟨ht.codec.trans (he.codec.trans hs.codec.symm), ht.ports.trans (he.ports.trans hs.ports.symm)⟩⟩
  change t.destroy 0 = _
  rw [Server.destroy, hfirst]
  simp only [halike.phase, hphase, if_true]

/-- A step of `s` is a step of `t` when it is one of connection `i`, and none otherwise. -/
theorem Mirrors.step (h : Mirrors i s t) (hstep : Step P s a s')
    (hreturns : ∀ a' ∈ alone i s.connections.length [a], ListReturns P t a') :
    ∃ t', Run (Step P) t (alone i s.connections.length [a]) t' ∧ Mirrors i s' t' := by
  cases a with
  | connect ip sid =>
      obtain rfl := Option.some.inj hstep
      exact h.connect ip sid
  | request j net m size =>
      rw [alone] at hreturns ⊢
      by_cases hij : j = i
      · subst hij
        rw [if_pos rfl] at hreturns ⊢
        obtain ⟨t', hrun, hmirrors⟩ := h.request hstep (hreturns _ List.mem_cons_self)
        exact ⟨t', .single hrun, hmirrors⟩
      · rw [if_neg hij]
        obtain ⟨conn, call, m', cmd, hd, e, -, -, -, heffect, rfl⟩ := request_effect hstep
        exact ⟨t, .nil t, h.update_other hij (effect_alike heffect)⟩
  | disconnect j =>
      rw [alone] at hreturns ⊢
      by_cases hij : j = i
      · subst hij
        rw [if_pos rfl] at hreturns ⊢
        obtain ⟨t', hrun, hmirrors⟩ := h.disconnect hstep (hreturns _ List.mem_cons_self)
        exact ⟨t', .single hrun, hmirrors⟩
      · rw [if_neg hij]
        obtain ⟨conn, e', -, -, hremove, rfl⟩ := disconnect_effect hstep
        exact ⟨t, .nil t, h.update_other hij (Engine.remove_alike hremove)⟩
  | destroy j =>
      rw [alone]
      by_cases hij : j = i
      · subst hij
        rw [if_pos rfl]
        obtain ⟨t', hrun, hmirrors⟩ := h.destroy hstep
        exact ⟨t', .single hrun, hmirrors⟩
      · rw [if_neg hij]
        obtain ⟨conn, -, -, rfl⟩ := destroy_effect hstep
        exact ⟨t, .nil t, h.update_other hij (s.engine.deleteClient_alike _)⟩
  | getFree =>
      obtain rfl := Option.some.inj hstep
      refine ⟨t, .nil t, h.other rfl rfl ?_⟩
      change s.engine.Alike s.engine.getFree.2
      unfold Engine.getFree
      split
      · exact ⟨rfl, rfl⟩
      · exact ⟨rfl, rfl⟩
  | putFree b =>
      obtain rfl := Option.some.inj hstep
      exact ⟨t, .nil t, h.other rfl rfl ⟨rfl, rfl⟩⟩
  | send b bytes samples results =>
      obtain ⟨e', hsend, rfl⟩ := send_completes hstep
      obtain ⟨block, visited, -, -, -, rfl⟩ := Engine.send_eq_ok.1 hsend
      exact ⟨t, .nil t, h.other rfl rfl ⟨rfl, rfl⟩⟩

/-! ### Whole runs -/

/-- How many connections an action makes. -/
def made : Action → ℕ
  | .connect _ _ => 1
  | _ => 0

theorem alone_cons (i n : ℕ) (a : Action) (as : List Action) :
    alone i n (a :: as) = alone i n [a] ++ alone i (n + made a) as := by
  cases a with
  | connect ip sid =>
      simp only [alone, made]
      split <;> rfl
  | request j net m size =>
      simp only [alone]
      split <;> rfl
  | disconnect j =>
      simp only [alone]
      split <;> rfl
  | destroy j =>
      simp only [alone]
      split <;> rfl
  | _ => rfl

theorem length_alone_single (i n : ℕ) (a : Action) : (alone i n [a]).length ≤ 1 := by
  cases a with
  | connect ip sid =>
      simp only [alone]
      split <;> simp
  | request j net m size =>
      simp only [alone]
      split <;> simp
  | disconnect j =>
      simp only [alone]
      split <;> simp
  | destroy j =>
      simp only [alone]
      split <;> simp
  | _ => simp [alone]

theorem length_connections (hstep : Step P s a s') :
    s'.connections.length = s.connections.length + made a := by
  cases a with
  | connect ip sid =>
      obtain rfl := Option.some.inj hstep
      exact List.length_append
  | request j net m size =>
      obtain ⟨_, _, _, _, _, _, _, _, _, _, rfl⟩ := request_effect hstep
      exact List.length_set
  | disconnect j =>
      obtain ⟨_, _, _, _, _, rfl⟩ := disconnect_effect hstep
      exact List.length_set
  | destroy j =>
      obtain ⟨_, _, _, rfl⟩ := destroy_effect hstep
      exact List.length_set
  | send b bytes samples results =>
      obtain ⟨_, _, rfl⟩ := send_completes hstep
      rfl
  | _ =>
      obtain rfl := Option.some.inj hstep
      rfl

theorem Mirrors.run (hrun : Run (Step P) s as s') (h : Mirrors i s t)
    (hreturns : Along (Step P) (ListReturns P) t (alone i s.connections.length as)) :
    ∃ t', Run (Step P) t (alone i s.connections.length as) t' ∧ Mirrors i s' t' := by
  induction hrun generalizing t with
  | nil s => exact ⟨t, .nil t, h⟩
  | @cons s u s' a as hstep _ ih =>
      rw [alone_cons] at hreturns ⊢
      obtain ⟨hfirst, hrest⟩ := hreturns.of_append
      obtain ⟨v, hv, hmirrors⟩ := h.step hstep (hfirst.of_length_le (length_alone_single i _ a))
      have hreturns' := hrest v hv
      rw [← length_connections hstep] at hreturns' ⊢
      obtain ⟨t', ht', hmirrors'⟩ := ih hmirrors hreturns'
      exact ⟨t', hv.append ht', hmirrors'⟩

/-- In every run of the server the connection `i` has sent what it sends in the run with its own
actions alone, and its session has gone through the same states: the run of its own actions completes
when its list operations return. -/
theorem session_isolated (P : Lookup) (codec : AudioCodec) (rtp rtcp : ℤ) (numBuffers : ℕ)
    (as : List Action) (s : Server) (hrun : Run (Step P) (new codec rtp rtcp numBuffers) as s) (i : ℕ)
    (hreturns : Along (Step P) (ListReturns P) (new codec rtp rtcp numBuffers) (alone i 0 as)) :
    ∃ t, Run (Step P) (new codec rtp rtcp numBuffers) (alone i 0 as) t ∧
      ∀ conn, s.connections[i]? = some conn → ∃ conn', t.connections[0]? = some conn' ∧
        conn'.handler.sent = conn.handler.sent ∧ conn'.session.reports = conn.session.reports ∧
        conn'.session.state = conn.session.state := by
  obtain ⟨t, ht, hmirrors⟩ :=
    Mirrors.run hrun (.before (Nat.zero_le i) rfl ⟨rfl, rfl⟩) hreturns
  refine ⟨t, ht, ?_⟩
  intro conn hconn
  cases hmirrors with
  | before hle hnone he =>
      have hlt := (List.getElem?_eq_some_iff.1 hconn).1
      exact absurd hlt (by omega)
  | made c conn' hc honly halike he =>
      obtain rfl := Option.some.inj (hconn.symm.trans hc)
      refine ⟨conn', by rw [honly]; rfl, halike.handler.sent, ?_, ?_⟩
      · rw [halike.session]
      · rw [halike.session]

/-! ### Two sessions -/

/-- The connection of the action could take its client off the playing list. -/
def listReturns (s : Server) : Action → Bool
  | .request i _ _ _ => s.connections[i]?.all fun conn =>
      (s.engine.remove conn.handler.rtpClient).toOption.isSome
  | .disconnect i => s.connections[i]?.all fun conn =>
      (s.engine.remove conn.handler.rtpClient).toOption.isSome
  | _ => true

theorem listReturns_sound (h : listReturns s a = true) : ListReturns P s a := by
  have hremove : ∀ {i : ℕ} {conn : Connection}, s.connections[i]? = some conn →
      (s.connections[i]?.all fun conn =>
        (s.engine.remove conn.handler.rtpClient).toOption.isSome) = true →
      ∃ e, s.engine.remove conn.handler.rtpClient = .ok e := by
    intro i conn hconn hall
    rw [hconn, Option.all_some] at hall
    cases hremove : s.engine.remove conn.handler.rtpClient with
    | error _ => simp [hremove, Except.toOption] at hall
    | ok e => exact ⟨e, rfl⟩
  cases a with
  | request i net m size => exact fun conn cmd hconn _ _ => hremove hconn h
  | disconnect i => exact fun conn hconn => hremove hconn h
  | _ => trivial

/-- The second of two sessions whose requests alternate. -/
theorem session_isolated_two_sessions : ∃ s t conn conn', Run (Step Lookup.literal) pcmServer
      [.connect (ascii "10.0.0.1") 7, .ofText 0 simulated setupText, .connect (ascii "10.0.0.1") 8,
        .ofText 1 simulated setupText, .ofText 0 simulated playText, .ofText 1 simulated playText,
        .disconnect 0, .ofText 1 simulated pauseText] s ∧
    Run (Step Lookup.literal) pcmServer [.connect (ascii "10.0.0.1") 8, .ofText 0 simulated setupText,
      .ofText 0 simulated playText, .ofText 0 simulated pauseText] t ∧
    s.connections[1]? = some conn ∧ t.connections[0]? = some conn' ∧
    conn'.handler.sent = conn.handler.sent ∧ conn'.session.reports = conn.session.reports := by
  have hrun : (execAll (exec Lookup.literal) pcmServer
      [.connect (ascii "10.0.0.1") 7, .ofText 0 simulated setupText, .connect (ascii "10.0.0.1") 8,
        .ofText 1 simulated setupText, .ofText 0 simulated playText, .ofText 1 simulated playText,
        .disconnect 0, .ofText 1 simulated pauseText]).any
      (fun s => s.connections[1]?.isSome) = true := by
    decide +kernel
  obtain ⟨s, hs, hfound⟩ := run_of_any hrun
  obtain ⟨conn, hconn⟩ := Option.isSome_iff_exists.1 hfound
  obtain ⟨t, ht, hsame⟩ := session_isolated Lookup.literal _ _ _ _ _ s hs 1
    (along_of_allAlong (fun _ _ => listReturns_sound) (by decide +kernel))
  obtain ⟨conn', hconn', hsent, hreports, -⟩ := hsame conn hconn
  exact ⟨s, t, conn, conn', hs, ht, hconn, hconn', hsent, hreports⟩

end Server

end WifiAudio
