import WifiAudio.Server.Network
import WifiAudio.Proof.Server.Search
import WifiAudio.Proof.Server.Machine

/-!
# The network drives the server

What happens on the wire amounts to steps of the server: an iteration of a connection loop that hands
over a request is that request, and one that goes on waiting is no step at all. So whatever holds of
every run of the server holds of the server on the network, where the requests are those that the
loops cut out of what was received.
-/

namespace WifiAudio

open Except Transition

namespace Network

variable {P : Lookup} {n n' : Network} {s : Server} {i : ℕ} {w : SocketClient}

/-! ### What an event does -/

/-- An iteration on connection `i`, whose client is `w`, waits, closes the loop, or hands a request
to the session. -/
inductive Receives (P : Lookup) (n : Network) (i : ℕ) (net : SocketCalls) (chunk : Bytes)
    (w : SocketClient) : Network → Prop
  | waits {w' : SocketClient} (hhanded : handed w chunk = none)
      (hconn : w'.connection = w.connection) (hcalls : w'.client.calls = w.client.calls)
      (hrunning : w'.client.running = true → w.client.running = true) :
      Receives P n i net chunk w { n with clients := n.clients.set i w' }
  | request {w' : SocketClient} {size : ℕ} {r : Session.Processed HandlerState}
      (hhanded : handed w chunk = some size)
      (hprocess : w.client.session.1.process P (RtspHandler.handler P net)
        (w.client.session.2, n.engine) (w.client.received chunk) size = .ok r)
      (hconn : w'.connection = ⟨r.session, r.handler.1, w.phase⟩)
      (hcalls : w'.client.calls = w.client.calls ++ [(w.client.received chunk).take size])
      (hrunning : w'.client.running = true → r.session.state ≠ .dead) :
      Receives P n i net chunk w
        { n with engine := r.handler.2, clients := n.clients.set i w' }

theorem receive_cases {net : SocketCalls} {chunk : Bytes}
    (hstep : n.receive P i net chunk = some n') :
    ∃ w, n.clients[i]? = some w ∧ w.phase = .live ∧ w.client.running = true ∧
      n.Receives P i net chunk w n' := by
  unfold receive at hstep
  cases hw : n.clients[i]? with
  | none => simp [hw] at hstep
  | some w =>
      by_cases hlive : w.phase = .live
      · cases hexec : (w.plug n.engine).exec (RtspSession.create P net) chunk with
        | none => simp [hw, hlive, hexec] at hstep
        | some c =>
            simp only [hw, hlive, if_true, hexec, Option.some.injEq] at hstep
            subst hstep
            have hrunning : w.client.running = true := (RtspClient.step_iff.1 hexec).1.1
            refine ⟨w, rfl, hlive, hrunning, ?_⟩
            rcases RtspClient.step_cases hexec with
              ⟨rfl, rfl⟩ | ⟨hchunk, hframe, rfl⟩ | ⟨size, cmd, x, m, hchunk, hframe, hprocess, rfl⟩
            · refine .waits (if_pos rfl) rfl rfl ?_
              intro hfalse
              cases hfalse
            · have hframe' : RtspClient.frame (w.client.received chunk) = .ok .wait := hframe
              refine .waits ?_ rfl rfl id
              rw [handed, if_neg hchunk, hframe']
            · have hframe' : RtspClient.frame (w.client.received chunk) = .ok (.block size) := hframe
              obtain ⟨r, hr, hresult⟩ := bind_eq_ok.1 hprocess
              obtain ⟨rfl, rfl, rfl⟩ : r.cmd = cmd ∧ (r.session, r.handler) = x ∧ r.memory = m := by
                simpa using hresult
              refine .request ?_ hr rfl rfl ?_
              · rw [handed, if_neg hchunk, hframe']
              · intro hgoes
                exact (of_decide_eq_true hgoes).2
      · simp [hw, hlive] at hstep

theorem finish_cases (hstep : n.finish i = some n') :
    ∃ w e, n.clients[i]? = some w ∧ w.phase = .live ∧ w.client.running = false ∧
      n.engine.remove w.client.session.2.rtpClient = .ok e ∧
      n' = { n with engine := e, clients := n.clients.set i { w with phase := .terminated } } := by
  unfold finish at hstep
  cases hw : n.clients[i]? with
  | none => simp [hw] at hstep
  | some w =>
      by_cases hleft : w.phase = .live ∧ ¬w.client.running
      · cases hremove : n.engine.remove w.client.session.2.rtpClient with
        | error _ => simp [hw, hleft, hremove] at hstep
        | ok e =>
            refine ⟨w, e, rfl, hleft.1, by simpa using hleft.2, hremove, ?_⟩
            simpa [hw, hleft, hremove, eq_comm] using hstep
      · simp only [hw, hleft, if_false] at hstep
        cases hstep

theorem destroy_cases (hstep : n.destroy i = some n') :
    ∃ w, n.clients[i]? = some w ∧ w.phase = .terminated ∧
      n' = { n with
        engine := n.engine.deleteClient w.client.session.2.rtpClient
        clients := n.clients.set i { w with phase := .destroyed } } := by
  unfold destroy at hstep
  cases hw : n.clients[i]? with
  | none => simp [hw] at hstep
  | some w =>
      by_cases hphase : w.phase = .terminated
      · exact ⟨w, rfl, hphase, by simpa [hw, hphase, eq_comm] using hstep⟩
      · simp [hw, hphase] at hstep

/-! ### The step of the server -/

/-- The server as the network holds it: the same engine, the connections the clients stand for, and
no loop that runs on a DEAD session. -/
structure Matches (n : Network) (s : Server) : Prop where
  engine : s.engine = n.engine
  connections : s.connections = n.clients.map SocketClient.connection
  alive : ∀ (i : ℕ) (w : SocketClient), n.clients[i]? = some w → w.client.running = true →
    w.client.session.1.state ≠ .dead

theorem Matches.connection (h : n.Matches s) (hw : n.clients[i]? = some w) :
    s.connections[i]? = some w.connection := by
  rw [h.connections, List.getElem?_map, hw]
  rfl

theorem Matches.set (h : n.Matches s) {e : Engine} {conn : Connection} {w' : SocketClient}
    (hconn : w'.connection = conn) (halive : w'.client.running = true → conn.session.state ≠ .dead) :
    ({ n with engine := e, clients := n.clients.set i w' } : Network).Matches (s.update i conn e) where
  engine := rfl
  connections := by
    change s.connections.set i conn = (n.clients.set i w').map SocketClient.connection
    rw [h.connections, List.map_set, hconn]
  alive j w hj hrunning := by
    by_cases hij : j = i
    · subst hij
      have hlt : j < n.clients.length := by
        have hlt := (List.getElem?_eq_some_iff.1 hj).1
        rwa [List.length_set] at hlt
      change (n.clients.set j w')[j]? = some w at hj
      rw [List.getElem?_set_self hlt] at hj
      obtain rfl := Option.some.inj hj
      have hstate := halive hrunning
      rw [← hconn] at hstate
      exact hstate
    · change (n.clients.set i w')[j]? = some w at hj
      rw [List.getElem?_set_ne (Ne.symm hij)] at hj
      exact h.alive j w hj hrunning

theorem Matches.frame (h : n.Matches s) (e : Engine) :
    ({ n with engine := e } : Network).Matches { s with engine := e } :=
  ⟨rfl, h.connections, h.alive⟩

theorem Matches.accept (h : n.Matches s) :
    n.accept.Matches { s with connections := s.connections ++
      [⟨.new, .new n.factory.ip n.factory.sid, .live⟩] } where
  engine := h.engine
  connections := by
    change s.connections ++ _ = (n.clients ++ [SocketClient.new n.factory.ip n.factory.sid]).map _
    rw [h.connections, List.map_append]
    rfl
  alive i w hi hrunning := by
    change (n.clients ++ [SocketClient.new n.factory.ip n.factory.sid])[i]? = some w at hi
    rcases List.mem_append.1 (List.mem_of_getElem? hi) with hmem | hmem
    · obtain ⟨j, hj⟩ := List.mem_iff_getElem?.1 hmem
      exact h.alive j w hj hrunning
    · obtain rfl := List.mem_singleton.1 hmem
      simp [SocketClient.new, Session.new, Session.setState]

theorem Matches.receive (h : n.Matches s) {net : SocketCalls} {chunk : Bytes}
    (hw : n.clients[i]? = some w) (hlive : w.phase = .live) (hrunning : w.client.running = true)
    (hreceives : n.Receives P i net chunk w n') :
    ∃ s', Run (Server.Step P) s (n.actions (.receive i net chunk)) s' ∧ n'.Matches s' := by
  have hconn := h.connection hw
  cases hreceives with
  | @waits w' hhanded hsame hcalls hrun =>
      refine ⟨s, ?_, ?_⟩
      · simp only [actions, hw, hhanded]
        exact .nil s
      · -- nothing the server knows of has changed
        have hset := h.set (i := i) (e := n.engine) hsame fun hgoes => h.alive i w hw (hrun hgoes)
        refine ⟨h.engine, ?_, hset.alive⟩
        have hlist : (n.clients.set i w').map SocketClient.connection =
            n.clients.map SocketClient.connection := by
          obtain ⟨hlt, hget⟩ := List.getElem?_eq_some_iff.1 hconn
          rw [List.map_set, hsame, ← h.connections, ← hget, List.set_getElem_self]
        exact h.connections.trans hlist.symm
  | @request w' size r hhanded hprocess hnew hcalls hrun =>
      refine ⟨s.update i ⟨r.session, r.handler.1, w.phase⟩ r.handler.2, ?_, h.set hnew hrun⟩
      simp only [actions, hw, hhanded, Option.map_some, Option.toList_some]
      apply Run.single
      have hactive : w.connection.Active := ⟨hlive, h.alive i w hw hrunning⟩
      have hresult : w.connection.session.process P (RtspHandler.handler P net)
          (w.connection.handler, s.engine) (w.client.received chunk) size = .ok r := by
        rw [h.engine]
        exact hprocess
      simp only [Server.Step, Server.exec, Server.request, hconn, if_pos hactive, hresult]
      rfl

/-- Every event is the step of the server it amounts to. -/
theorem simulation (P : Lookup) :
    Simulation (exec P) (Server.Step P) Matches (fun _ _ => True) actions where
  forward n event n' s h _ hstep := by
    cases event with
    | accept =>
        obtain rfl := Option.some.inj hstep
        exact ⟨_, .single rfl, h.accept⟩
    | receive i net chunk =>
        obtain ⟨w, hw, hlive, hrunning, hreceives⟩ := receive_cases hstep
        exact h.receive hw hlive hrunning hreceives
    | finish i =>
        obtain ⟨w, e, hw, hlive, hrunning, hremove, rfl⟩ := finish_cases hstep
        refine ⟨s.update i ⟨w.client.session.1, w.client.session.2, .terminated⟩ e, .single ?_,
          h.set rfl ?_⟩
        · have hlive' : w.connection.phase = .live := hlive
          have hremove' : s.engine.remove w.connection.handler.rtpClient = .ok e := by
            rw [h.engine]
            exact hremove
          simp only [Server.Step, Server.exec, Server.disconnect, h.connection hw, hlive', if_true,
            RtspHandler.terminate, hremove', ok_bind, pure_eq_ok]
          rfl
        · intro hgoes
          rw [hrunning] at hgoes
          cases hgoes
    | destroy i =>
        obtain ⟨w, hw, hphase, rfl⟩ := destroy_cases hstep
        refine ⟨s.update i ⟨w.client.session.1, w.client.session.2, .destroyed⟩
          (n.engine.deleteClient w.client.session.2.rtpClient), .single ?_,
          h.set rfl fun hgoes => h.alive i w hw hgoes⟩
        have hphase' : w.connection.phase = .terminated := hphase
        simp only [Server.Step, Server.exec, Server.destroy, h.connection hw, hphase', if_true,
          h.engine]
        rfl
    | getFree =>
        obtain rfl := Option.some.inj hstep
        refine ⟨{ s with engine := n.engine.getFree.2 }, .single ?_, h.frame _⟩
        rw [← h.engine]
        rfl
    | putFree b =>
        obtain rfl := Option.some.inj hstep
        refine ⟨{ s with engine := n.engine.putFree b }, .single ?_, h.frame _⟩
        rw [← h.engine]
        rfl
    | send b bytes samples results =>
        cases hsend : n.engine.send b bytes samples results with
        | error _ => simp [exec, hsend] at hstep
        | ok e =>
            obtain rfl : ({ n with engine := e } : Network) = n' := by
              simpa [exec, hsend] using hstep
            refine ⟨{ s with engine := e }, .single ?_, h.frame e⟩
            simp only [Server.Step, Server.exec, h.engine, hsend]

/-! ### The requests of a connection -/

/-- The block a step hands to the session of connection `i`. -/
def blockOf (i : ℕ) : Action → Option Bytes
  | .request j _ m size => if j = i then some (m.take size) else none
  | _ => none

/-- The blocks handed over in `done` are those the loops have recorded. -/
structure Recorded (n : Network) (done : List Action) : Prop where
  calls : ∀ (i : ℕ) (w : SocketClient), n.clients[i]? = some w →
    done.filterMap (blockOf i) = w.client.calls
  none_yet : ∀ i, n.clients.length ≤ i → done.filterMap (blockOf i) = []

variable {done : List Action}

theorem Recorded.quiet (h : n.Recorded done) {a : Action} (ha : ∀ i, blockOf i a = none)
    (hlength : n'.clients.length = n.clients.length)
    (hcalls : ∀ (i : ℕ) (w' : SocketClient), n'.clients[i]? = some w' →
      ∃ w, n.clients[i]? = some w ∧ w'.client.calls = w.client.calls) :
    n'.Recorded (done ++ [a]) := by
  have hsame : ∀ i, (done ++ [a]).filterMap (blockOf i) = done.filterMap (blockOf i) := by
    intro i
    rw [List.filterMap_append, List.filterMap_cons_none (ha i), List.filterMap_nil, List.append_nil]
  refine ⟨?_, ?_⟩
  · intro i w' hw'
    obtain ⟨w, hw, hkept⟩ := hcalls i w' hw'
    rw [hsame, h.calls i w hw, hkept]
  · intro i hi
    rw [hsame]
    exact h.none_yet i (hlength ▸ hi)

theorem calls_set {w' : SocketClient} (hw : n.clients[i]? = some w)
    (hcalls : w'.client.calls = w.client.calls) {j : ℕ} {x : SocketClient}
    (hx : (n.clients.set i w')[j]? = some x) :
    ∃ w, n.clients[j]? = some w ∧ x.client.calls = w.client.calls := by
  by_cases hij : i = j
  · subst hij
    have hlt := (List.getElem?_eq_some_iff.1 hw).1
    rw [List.getElem?_set_self hlt] at hx
    exact ⟨w, hw, Option.some.inj hx ▸ hcalls⟩
  · rw [List.getElem?_set_ne hij] at hx
    exact ⟨x, hx, rfl⟩

theorem Recorded.accept (h : n.Recorded done) :
    n.accept.Recorded (done ++ [.connect n.factory.ip n.factory.sid]) := by
  have hsame : ∀ i, (done ++ [Action.connect n.factory.ip n.factory.sid]).filterMap (blockOf i) =
      done.filterMap (blockOf i) := by
    intro i
    rw [List.filterMap_append]
    exact List.append_nil _
  refine ⟨?_, ?_⟩
  · intro i w hi
    change (n.clients ++ [SocketClient.new n.factory.ip n.factory.sid])[i]? = some w at hi
    rw [hsame]
    rcases lt_or_ge i n.clients.length with hlt | hle
    · rw [List.getElem?_append_left hlt] at hi
      exact h.calls i w hi
    · rw [List.getElem?_append_right hle] at hi
      obtain ⟨-, rfl⟩ : i - n.clients.length = 0 ∧
          SocketClient.new n.factory.ip n.factory.sid = w := by
        simpa [List.getElem?_singleton] using hi
      exact h.none_yet i hle
  · intro i hi
    rw [hsame]
    apply h.none_yet
    have hlength : n.accept.clients.length = n.clients.length + 1 := by
      simp [Network.accept, Factory.generate]
    omega

theorem Recorded.receive (h : n.Recorded done) {net : SocketCalls} {chunk : Bytes}
    (hw : n.clients[i]? = some w) (hreceives : n.Receives P i net chunk w n') :
    n'.Recorded (done ++ n.actions (.receive i net chunk)) := by
  cases hreceives with
  | @waits w' hhanded hsame hcalls hrun =>
      simp only [actions, hw, hhanded, Option.map_none, Option.toList_none, List.append_nil]
      refine ⟨?_, ?_⟩
      · intro j x hx
        obtain ⟨w₀, hw₀, hkept⟩ := calls_set hw hcalls hx
        rw [h.calls j w₀ hw₀, hkept]
      · intro j hj
        exact h.none_yet j (by simpa using hj)
  | @request w' size r hhanded hprocess hnew hcalls hrun =>
      simp only [actions, hw, hhanded, Option.map_some, Option.toList_some]
      refine ⟨?_, ?_⟩
      · intro j x hx
        change (n.clients.set i w')[j]? = some x at hx
        rw [List.filterMap_append]
        by_cases hij : i = j
        · subst hij
          have hlt := (List.getElem?_eq_some_iff.1 hw).1
          rw [List.getElem?_set_self hlt] at hx
          obtain rfl := Option.some.inj hx
          rw [h.calls i w hw, hcalls]
          simp [blockOf]
        · rw [List.getElem?_set_ne hij] at hx
          rw [h.calls j x hx]
          simp [blockOf, hij]
      · intro j hj
        have hlt := (List.getElem?_eq_some_iff.1 hw).1
        have hj' : n.clients.length ≤ j := by simpa using hj
        have hij : i ≠ j := by omega
        rw [List.filterMap_append, h.none_yet j hj']
        simp [blockOf, hij]

theorem Recorded.step (h : n.Recorded done) {event : NetworkEvent} (hstep : n.exec P event = some n') :
    n'.Recorded (done ++ n.actions event) := by
  cases event with
  | accept =>
      obtain rfl := Option.some.inj hstep
      exact h.accept
  | receive i net chunk =>
      obtain ⟨w, hw, -, -, hreceives⟩ := receive_cases hstep
      exact h.receive hw hreceives
  | finish i =>
      obtain ⟨w, e, hw, -, -, -, rfl⟩ := finish_cases hstep
      have hkept : ({ w with phase := .terminated } : SocketClient).client.calls = w.client.calls := rfl
      exact h.quiet (fun _ => rfl) (by simp) fun j x hx => calls_set hw hkept hx
  | destroy i =>
      obtain ⟨w, hw, -, rfl⟩ := destroy_cases hstep
      have hkept : ({ w with phase := .destroyed } : SocketClient).client.calls = w.client.calls := rfl
      exact h.quiet (fun _ => rfl) (by simp) fun j x hx => calls_set hw hkept hx
  | getFree =>
      obtain rfl := Option.some.inj hstep
      exact h.quiet (fun _ => rfl) rfl fun j x hx => ⟨x, hx, rfl⟩
  | putFree b =>
      obtain rfl := Option.some.inj hstep
      exact h.quiet (fun _ => rfl) rfl fun j x hx => ⟨x, hx, rfl⟩
  | send b bytes samples results =>
      cases hsend : n.engine.send b bytes samples results with
      | error _ => simp [exec, hsend] at hstep
      | ok e =>
          obtain rfl : ({ n with engine := e } : Network) = n' := by
            simpa [exec, hsend] using hstep
          exact h.quiet (fun _ => rfl) rfl fun j x hx => ⟨x, hx, rfl⟩

/-- Every run of the server on the network is a run of the server: the engine and the connections are
the same, and the requests of a connection are the blocks its loop has cut out of what it received. -/
theorem network_refines_server (P : Lookup) (codec : AudioCodec) (rtp rtcp : ℤ) (numBuffers : ℕ)
    (ip : Bytes) (events : List NetworkEvent) (n : Network)
    (hrun : Run (Step P) (new codec rtp rtcp numBuffers ip) events n) :
    ∃ s, Run (Server.Step P) (Server.new codec rtp rtcp numBuffers)
        ((new codec rtp rtcp numBuffers ip).serverRun P events) s ∧
      s.engine = n.engine ∧ s.connections = n.clients.map SocketClient.connection ∧
      ∀ (i : ℕ) (w : SocketClient), n.clients[i]? = some w →
        ((new codec rtp rtcp numBuffers ip).serverRun P events).filterMap (blockOf i) =
          w.client.calls := by
  have hmatches : (new codec rtp rtcp numBuffers ip).Matches (Server.new codec rtp rtcp numBuffers) :=
    ⟨rfl, rfl, by simp [new]⟩
  obtain ⟨s, hserver, hs⟩ := (simulation P).run hrun (along_true _ _) hmatches
  have hrecorded : n.Recorded ([] ++ (new codec rtp rtcp numBuffers ip).serverRun P events) :=
    Run.labels_invariant (I := Recorded) hrun ⟨by simp [new], fun _ _ => rfl⟩
      fun _ _ _ _ h hstep => h.step hstep
  exact ⟨s, hserver, hs.engine, hs.connections, hrecorded.calls⟩

/-- A SETUP that comes in two pieces, a PLAY on the same connection, and a second connection. -/
def twoListeners : List NetworkEvent :=
  [.accept, .receive 0 Server.simulated (Server.setupText.take 30),
    .receive 0 Server.simulated (Server.setupText.drop 30), .accept,
    .receive 0 Server.simulated Server.playText]

def pcmNetwork : Network := new (AudioCodec.createPcm ⟨16, 2, 48000⟩) 6000 6001 4 (ascii "10.0.0.1")

theorem network_refines_server_pieces : ∃ n s w, Run (Step Lookup.literal) pcmNetwork twoListeners n ∧
    Run (Server.Step Lookup.literal) Server.pcmServer (pcmNetwork.serverRun Lookup.literal twoListeners) s ∧
    s.engine = n.engine ∧ n.clients[0]? = some w ∧ w.client.session.1.state = .play ∧
    (pcmNetwork.serverRun Lookup.literal twoListeners).filterMap (blockOf 0) = w.client.calls := by
  have hrun : (execAll (exec Lookup.literal) pcmNetwork twoListeners).any
      (fun n => n.clients[0]?.any fun w => w.client.session.1.state = .play) = true := by
    decide +kernel
  obtain ⟨n, hn, hfound⟩ := run_of_any hrun
  obtain ⟨w, hw, hstate⟩ := (Option.any_eq_true _ _).1 hfound
  obtain ⟨s, hs, hengine, -, hcalls⟩ := network_refines_server Lookup.literal _ _ _ _ _ _ n hn
  exact ⟨n, s, w, hn, hs, hengine, hw, of_decide_eq_true hstate, hcalls 0 w hw⟩

end Network

end WifiAudio
