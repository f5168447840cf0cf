import WifiAudio.Server.System
import WifiAudio.Proof.Rtsp.Request

/-!
# What a step of the server does

A request that completes is a call of the handler with its effect; the session moves on with the
command the call returns. These are the only facts about parsing the invariants of the server need.
-/

namespace WifiAudio

open Except

namespace Server

variable {P : Lookup} {s s' : Server} {i j : ℕ} {conn conn' : Connection} {e : Engine}

theorem request_completes {net : SocketCalls} {m : Bytes} {size : ℕ}
    (hstep : s.request P i net m size = some s') :
    ∃ conn r, s.connections[i]? = some conn ∧ conn.Active ∧
      conn.session.process P (RtspHandler.handler P net) (conn.handler, s.engine) m size = .ok r ∧
      s' = s.update i { conn with session := r.session, handler := r.handler.1 } r.handler.2 := by
  unfold request at hstep
  cases hconn : s.connections[i]? with
  | none => simp [hconn] at hstep
  | some conn =>
      simp only [hconn] at hstep
      by_cases hactive : conn.Active
      · rw [if_pos hactive] at hstep
        cases hprocess : conn.session.process P (RtspHandler.handler P net) (conn.handler, s.engine) m
            size with
        | error _ => simp [hprocess] at hstep
        | ok r =>
            rw [hprocess] at hstep
            exact ⟨conn, r, rfl, hactive, hprocess, (Option.some.inj hstep).symm⟩
      · simp [hactive] at hstep

/-- A request that completes has the effect of its call. -/
theorem request_effect {net : SocketCalls} {m : Bytes} {size : ℕ}
    (hstep : s.request P i net m size = some s') :
    ∃ conn call m' cmd h e, s.connections[i]? = some conn ∧ conn.Active ∧
      conn.session.request P m size = .ok (call, m') ∧
      call.Effect P conn.handler s.engine cmd h e ∧
      s' = s.update i { conn with session := (conn.session.transition cmd).2, handler := h } e := by
  obtain ⟨conn, r, hconn, hactive, hprocess, rfl⟩ := request_completes hstep
  obtain ⟨call, cmd, hrequest, hrun, htransition⟩ := Session.process_eq_ok.1 hprocess
  refine ⟨conn, call, r.memory, cmd, r.handler.1, r.handler.2, hconn, hactive, hrequest,
    HandlerCall.run_effect hrun, ?_⟩
  rw [htransition]

theorem disconnect_effect (hstep : s.disconnect i = some s') :
    ∃ conn e, s.connections[i]? = some conn ∧ conn.phase = .live ∧
      s.engine.remove conn.handler.rtpClient = .ok e ∧
      s' = s.update i { conn with phase := .terminated } e := by
  unfold disconnect at hstep
  cases hconn : s.connections[i]? with
  | none => simp [hconn] at hstep
  | some conn =>
      by_cases hlive : conn.phase = .live
      · cases hremove : s.engine.remove conn.handler.rtpClient with
        | error _ => simp [hconn, hlive, RtspHandler.terminate, hremove] at hstep
        | ok e =>
            refine ⟨conn, e, rfl, hlive, hremove, ?_⟩
            simpa [hconn, hlive, RtspHandler.terminate, hremove, eq_comm] using hstep
      · simp [hconn, hlive] at hstep

theorem destroy_effect (hstep : s.destroy i = some s') :
    ∃ conn, s.connections[i]? = some conn ∧ conn.phase = .terminated ∧
      s' = s.update i { conn with phase := .destroyed }
        (s.engine.deleteClient conn.handler.rtpClient) := by
  unfold destroy at hstep
  cases hconn : s.connections[i]? with
  | none => simp [hconn] at hstep
  | some conn =>
      by_cases hphase : conn.phase = .terminated
      · exact ⟨conn, rfl, hphase, by simpa [hconn, hphase, eq_comm] using hstep⟩
      · simp [hconn, hphase] at hstep

theorem send_completes {b bytes samples : ℕ} {results : ℕ → ℤ}
    (hstep : s.exec P (.send b bytes samples results) = some s') :
    ∃ e, s.engine.send b bytes samples results = .ok e ∧ s' = { s with engine := e } := by
  cases hsend : s.engine.send b bytes samples results with
  | error _ => simp [exec, hsend] at hstep
  | ok e => exact ⟨e, rfl, by simpa [exec, hsend, eq_comm] using hstep⟩

/-! ### The connections after a step of one of them -/

theorem update_self (hconn : s.connections[i]? = some conn) :
    (s.update i conn' e).connections[i]? = some conn' := by
  have hlt : i < s.connections.length := (List.getElem?_eq_some_iff.1 hconn).1
  simp [update, hlt]

theorem update_of_ne (hij : j ≠ i) : (s.update i conn' e).connections[j]? = s.connections[j]? := by
  simp [update, List.getElem?_set_ne (Ne.symm hij)]

theorem update_cases (hconn : s.connections[i]? = some conn) {c : Connection}
    (hc : (s.update i conn' e).connections[j]? = some c) :
    j = i ∧ c = conn' ∨ j ≠ i ∧ s.connections[j]? = some c := by
  by_cases hij : j = i
  · subst hij
    rw [update_self hconn] at hc
    exact .inl ⟨rfl, (Option.some.inj hc).symm⟩
  · rw [update_of_ne hij] at hc
    exact .inr ⟨hij, hc⟩

end Server

end WifiAudio
