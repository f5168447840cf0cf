import WifiAudio.Server.Callback
import WifiAudio.Proof.Server.InStep

/-!
# What the status callback holds

All sessions report to one variable, and nothing counts them: it holds the state of the session that
reported last, whatever the others do. Where no session reports while another is in READY or PLAY, the
one in READY or PLAY is the one that reported last.
-/

namespace WifiAudio

open Transition

/-- The state of a connection's session, DEAD once its loop has ended. -/
def Connection.status (conn : Connection) : State :=
  if conn.phase = .live then conn.session.state else .dead

namespace Server

variable {P : Lookup} {s s' : Server} {i : ℕ} {conn conn' : Connection}

def status (s : Server) (i : ℕ) : Option State := (s.connections[i]?).map Connection.status

/-- The loop of connection `i` runs. -/
def Live (s : Server) (i : ℕ) : Prop := ∃ conn, s.connections[i]? = some conn ∧ conn.phase = .live

/-- Session `i` is in READY or PLAY. -/
def Busy (s : Server) (i : ℕ) : Prop := s.status i = some .ready ∨ s.status i = some .play

/-- What a step changes, and what it reports: nothing, or the new state of the connection that took
it. -/
inductive Changes (s s' : Server) : Action → List (ℕ × State) → Prop
  | quiet {a : Action} (hstatus : ∀ i, s'.status i = s.status i)
      (hlive : ∀ i, s'.Live i → s.Live i) : Changes s s' a []
  | connected {ip : Bytes} {sid : UInt32} (conn : Connection)
      (hconns : s'.connections = s.connections ++ [conn]) :
      Changes s s' (.connect ip sid) [(s.connections.length, conn.status)]
  | moved {a : Action} {i : ℕ} {conn : Connection} (conn' : Connection)
      (hconn : s.connections[i]? = some conn) (hlive : conn.phase = .live)
      (hconns : s'.connections = s.connections.set i conn') :
      Changes s s' a [(i, conn'.status)]

end Server

/-! ### Reports -/

namespace Session

/-- A session reports its state when it is set. -/
theorem transition_reports (session : Session) (cmd : RtspCommand) :
    (session.transition cmd).2 = session ∨
      ∃ state, (session.transition cmd).2 = session.setState state := by
  obtain ⟨state, reports⟩ := session
  unfold transition
  split
  · exact .inr ⟨_, rfl⟩
  split
  · exact .inr ⟨_, rfl⟩
  cases state with
  | dead => exact .inr ⟨_, rfl⟩
  | _ =>
      simp only []
      split
      · exact .inr ⟨_, rfl⟩
      · exact .inl rfl

end Session

namespace Server

variable {P : Lookup} {s s' : Server} {i : ℕ} {conn conn' : Connection} {e : Engine}

theorem newReports_update (hconn : s.connections[i]? = some conn) {states : List State}
    (hreports : conn'.session.reports = conn.session.reports ++ states) :
    s.newReports (s.update i conn' e) i = states.map fun state => (i, state) := by
  rw [newReports, reportsOf, reportsOf, hconn, update_self hconn, Option.elim_some, Option.elim_some,
    hreports, List.drop_left]

theorem changes_quiet (hconn : s.connections[i]? = some conn) (hstatus : conn'.status = conn.status)
    (hphase : conn'.phase = .live → conn.phase = .live) (a : Action) :
    Changes s (s.update i conn' e) a [] := by
  refine .quiet (fun j => ?_) ?_
  · by_cases hij : j = i
    · subst hij
      rw [status, status, update_self hconn, hconn, Option.map_some, Option.map_some, hstatus]
    · rw [status, status, update_of_ne hij]
  · rintro j ⟨c, hc, hlive⟩
    rcases update_cases hconn hc with ⟨rfl, rfl⟩ | ⟨-, hc⟩
    · exact ⟨conn, hconn, hphase hlive⟩
    · exact ⟨c, hc, hlive⟩

theorem request_sets {net : SocketCalls} {m : Bytes} {size : ℕ}
    (hstep : s.request P i net m size = some s') : ∃ conn conn' e, s.connections[i]? = some conn ∧
      conn.phase = .live ∧ conn'.phase = .live ∧ s' = s.update i conn' e ∧
      (conn'.session = conn.session ∨ ∃ state, conn'.session = conn.session.setState state) := by
  obtain ⟨conn, call, m', cmd, h, e, hconn, ⟨hlive, -⟩, -, -, rfl⟩ := request_effect hstep
  exact ⟨conn, ⟨(conn.session.transition cmd).2, h, conn.phase⟩, e, hconn, hlive, hlive, rfl,
    conn.session.transition_reports cmd⟩

theorem request_changes {net : SocketCalls} {m : Bytes} {size : ℕ}
    (hstep : s.request P i net m size = some s') :
    Changes s s' (.request i net m size) (s.newReports s' i) := by
  obtain ⟨conn, conn', e, hconn, hlive, hlive', rfl, hsame | ⟨state, hset⟩⟩ := request_sets hstep
  · have hnone : conn'.session.reports = conn.session.reports ++ [] := by
      rw [hsame, List.append_nil]
    have hstatus : conn'.status = conn.status := by
      rw [Connection.status, Connection.status, hlive, hlive', hsame]
    rw [newReports_update hconn hnone]
    exact changes_quiet hconn hstatus (fun _ => hlive) _
  · have hone : conn'.session.reports = conn.session.reports ++ [state] := by
      rw [hset]
      rfl
    have hstatus : conn'.status = state := by
      rw [Connection.status, if_pos hlive', hset]
      rfl
    rw [newReports_update hconn hone, ← hstatus]
    exact .moved conn' hconn hlive rfl

/-- Every step reports what it changes. -/
theorem step_changes {a : Action} (hstep : s.Step P a s') : Changes s s' a (s.reported s' a) := by
  cases a with
  | connect ip sid =>
      obtain rfl := Option.some.inj hstep
      have hnew : s.newReports { s with connections := s.connections ++ [⟨.new, .new ip sid, .live⟩] }
          s.connections.length = [(s.connections.length, .init)] := by
        simp [newReports, reportsOf, Session.new, Session.setState]
      rw [reported, hnew]
      exact .connected ⟨.new, .new ip sid, .live⟩ rfl
  | request i net m size => exact request_changes hstep
  | disconnect i =>
      obtain ⟨conn, e, hconn, hlive, -, rfl⟩ := disconnect_effect hstep
      exact .moved { conn with phase := .terminated } hconn hlive rfl
  | destroy i =>
      obtain ⟨conn, hconn, hphase, rfl⟩ := destroy_effect hstep
      refine changes_quiet hconn ?_ (fun h => by cases h) _
      rw [Connection.status, Connection.status, hphase]
      rfl
  | getFree =>
      obtain rfl := Option.some.inj hstep
      exact .quiet (fun i => rfl) fun i h => h
  | putFree b =>
      obtain rfl := Option.some.inj hstep
      exact .quiet (fun i => rfl) fun i h => h
  | send b bytes samples results =>
      obtain ⟨e, -, rfl⟩ := send_completes hstep
      exact .quiet (fun i => rfl) fun i h => h

theorem Changes.live_cases {a : Action} {reports : List (ℕ × State)} (h : Changes s s' a reports)
    (hlive : s'.Live i) : s.Live i ∨ ∃ state, reports = [(i, state)] := by
  obtain ⟨c, hc, hphase⟩ := hlive
  cases h with
  | quiet _ hlive => exact .inl (hlive i ⟨c, hc, hphase⟩)
  | connected conn hconns =>
      rw [hconns] at hc
      rcases Nat.lt_or_ge i s.connections.length with hlt | hge
      · rw [List.getElem?_append_left hlt] at hc
        exact .inl ⟨c, hc, hphase⟩
      · have hlength := (List.getElem?_eq_some_iff.1 hc).1
        rw [List.length_append, List.length_singleton] at hlength
        obtain rfl : i = s.connections.length := by omega
        exact .inr ⟨_, rfl⟩
  | @moved _ j conn conn' hconn hlive hconns =>
      rw [hconns] at hc
      by_cases hij : i = j
      · exact .inl (hij ▸ ⟨conn, hconn, hlive⟩)
      · rw [List.getElem?_set_ne (Ne.symm hij)] at hc
        exact .inl ⟨c, hc, hphase⟩

theorem Changes.reporter_live {a : Action} {state : State} (h : Changes s s' a [(i, state)]) :
    (∃ ip sid, a = .connect ip sid) ∨ s.Live i := by
  cases h with
  | connected conn _ => exact .inl ⟨_, _, rfl⟩
  | moved conn' hconn hlive _ => exact .inr ⟨_, hconn, hlive⟩

/-- A step reports nothing and leaves every status, or it reports one status as it is afterwards and
leaves the others. -/
theorem Changes.status_cases {a : Action} {reports : List (ℕ × State)} (h : Changes s s' a reports) :
    (reports = [] ∧ ∀ i, s'.status i = s.status i) ∨
      ∃ i state, reports = [(i, state)] ∧ s'.status i = some state ∧
        ∀ j, j ≠ i → s'.status j = s.status j := by
  cases h with
  | quiet hstatus _ => exact .inl ⟨rfl, hstatus⟩
  | connected conn hconns =>
      refine .inr ⟨_, _, rfl, ?_, fun j hj => ?_⟩
      · rw [status, hconns, List.getElem?_concat_length]
        rfl
      · rw [status, status, hconns]
        rcases Nat.lt_or_ge j s.connections.length with hlt | hge
        · rw [List.getElem?_append_left hlt]
        · rw [List.getElem?_eq_none hge, List.getElem?_eq_none]
          rw [List.length_append, List.length_singleton]
          omega
  | moved conn' hconn _ hconns =>
      have hlt := (List.getElem?_eq_some_iff.1 hconn).1
      refine .inr ⟨_, _, rfl, ?_, fun j hj => ?_⟩
      · rw [status, hconns, List.getElem?_set_self hlt]
        rfl
      · rw [status, status, hconns, List.getElem?_set_ne hj.symm]

theorem Busy.live (h : s.Busy i) : s.Live i := by
  obtain ⟨state, hstatus, hdead⟩ : ∃ state, s.status i = some state ∧ state ≠ .dead := by
    rcases h with hready | hplay
    · exact ⟨.ready, hready, by decide⟩
    · exact ⟨.play, hplay, by decide⟩
  obtain ⟨conn, hconn, rfl⟩ := Option.map_eq_some_iff.1 hstatus
  refine ⟨conn, hconn, ?_⟩
  by_contra hphase
  exact hdead (if_neg hphase)

end Server

/-! ### The callback -/

variable {τ : Type}

namespace Callback

theorem setState_state (cb : Callback τ) (state : State) : (cb.setState state).state = cb.state := by
  rw [setState]
  cases toRgb state <;> rfl

theorem onIdle_state (cb : Callback τ) (io : Idle τ) (poll : Poll) :
    (cb.onIdle io poll).2.state = cb.state := by
  cases poll with
  | waiting =>
      unfold onIdle
      simp only []
      repeat' split
      all_goals rfl
  | blinking => exact setState_state _ _
  | comparing =>
      rw [onIdle]
      split <;> rfl
  | storing => rfl
  | showing => exact setState_state _ _

end Callback

namespace StatusServer

variable {P : Lookup} {s s' : StatusServer τ}

/-- The callback holds the state of the session that reported last, DEAD while none has. -/
structure LastShown (s : StatusServer τ) : Prop where
  unreported : s.log = [] → s.callback.state = .dead ∧ ∀ i, s.server.status i = none
  reported : ∀ i state, s.log.getLast? = some (i, state) →
    s.callback.state = state ∧ s.server.status i = some state

/-- The callback holds PLAY if a session is in PLAY, and DEAD only if none is in READY or PLAY. -/
def Shows (s : StatusServer τ) : Prop :=
  ((∃ i, s.server.status i = some .play) → s.callback.state = .play) ∧
    (s.callback.state = .dead →
      ∀ i, s.server.status i ≠ some .ready ∧ s.server.status i ≠ some .play)

/-- No session reports while another one is in READY or PLAY. -/
def Alone (P : Lookup) (s : StatusServer τ) : StatusAction τ → Prop
  | .server a => ∀ server, s.server.Step P a server → ∀ report ∈ s.server.reported server a,
      ∀ i, i ≠ report.1 → ¬s.server.Busy i
  | .idle _ => True

/-- A session in READY or PLAY reported last. -/
def OneBusy (s : StatusServer τ) : Prop :=
  ∀ i, s.server.Busy i → ∃ state, s.log.getLast? = some (i, state)

/-! ### One step -/

theorem step_cases {a : StatusAction τ} (hstep : s.Step P a s') :
    (∃ io, a = .idle io ∧ s' = { s with
      callback := (s.callback.onIdle io s.poll).2, poll := (s.callback.onIdle io s.poll).1 }) ∨
      ∃ act server, a = .server act ∧ s.server.Step P act server ∧
        s.server.Changes server act (s.server.reported server act) ∧
        s' = s.report server (s.server.reported server act) := by
  cases a with
  | idle io => exact .inl ⟨io, rfl, (Option.some.inj hstep).symm⟩
  | server act =>
      obtain ⟨server, hserver, rfl⟩ := Option.map_eq_some_iff.1 hstep
      exact .inr ⟨act, server, rfl, hserver, Server.step_changes hserver, rfl⟩

theorem report_nil (s : StatusServer τ) (server : Server) :
    s.report server [] = { s with server := server } := by
  rw [report, List.append_nil]
  rfl

theorem report_getLast (s : StatusServer τ) (server : Server) (report : ℕ × State) :
    (s.report server [report]).log.getLast? = some report := List.getLast?_concat

theorem LastShown.step {a : StatusAction τ} (h : s.LastShown) (hstep : s.Step P a s') :
    s'.LastShown := by
  rcases step_cases hstep with ⟨io, -, rfl⟩ | ⟨act, server, -, -, hchanges, rfl⟩
  · refine ⟨fun hlog => ?_, fun i state hlast => ?_⟩
    · rw [Callback.onIdle_state]
      exact h.unreported hlog
    · rw [Callback.onIdle_state]
      exact h.reported i state hlast
  · rcases hchanges.status_cases with ⟨hquiet, hstatus⟩ | ⟨i, state, hone, hstatus, -⟩
    · rw [hquiet, report_nil]
      refine ⟨fun hlog => ⟨(h.unreported hlog).1, fun i => ?_⟩, fun i state hlast => ?_⟩
      · exact (hstatus i).trans ((h.unreported hlog).2 i)
      · obtain ⟨hstate, hlast⟩ := h.reported i state hlast
        exact ⟨hstate, (hstatus i).trans hlast⟩
    · rw [hone]
      refine ⟨fun hlog => absurd hlog (by simp [report]), fun j state' hlast => ?_⟩
      rw [report_getLast] at hlast
      obtain ⟨rfl, rfl⟩ := Prod.mk.inj (Option.some.inj hlast)
      exact ⟨rfl, hstatus⟩

theorem OneBusy.step {a : StatusAction τ} (h : s.OneBusy) (halone : s.Alone P a) (hstep : s.Step P a s') :
    s'.OneBusy := by
  rcases step_cases hstep with ⟨io, -, rfl⟩ | ⟨act, server, rfl, hserver, hchanges, rfl⟩
  · exact h
  · intro i hbusy
    rcases hchanges.status_cases with ⟨hquiet, hstatus⟩ | ⟨j, state, hone, -, hothers⟩
    · rw [hquiet, report_nil] at hbusy ⊢
      refine h i ?_
      rw [Server.Busy, ← hstatus]
      exact hbusy
    · rw [hone]
      by_cases hij : i = j
      · exact ⟨state, hij ▸ report_getLast s server (j, state)⟩
      · -- nobody else may have been busy when `j` reported
        refine absurd ?_ (halone server hserver (j, state) (by rw [hone]; exact List.mem_singleton_self _)
          i hij)
        rw [Server.Busy, ← hothers i hij]
        exact hbusy

theorem LastShown.shows (h : s.LastShown) (hone : s.OneBusy) : s.Shows := by
  have hshown : ∀ i state, s.server.status i = some state → s.server.Busy i → s.callback.state = state := by
    intro i state hstatus hbusy
    obtain ⟨state', hlast⟩ := hone i hbusy
    obtain ⟨hstate, hstatus'⟩ := h.reported i state' hlast
    exact hstate.trans (Option.some.inj (hstatus'.symm.trans hstatus))
  refine ⟨fun ⟨i, hplay⟩ => hshown i .play hplay (.inr hplay), fun hdead i => ⟨?_, ?_⟩⟩
  · intro hready
    cases hdead.symm.trans (hshown i .ready hready (.inl hready))
  · intro hplay
    cases hdead.symm.trans (hshown i .play hplay (.inr hplay))

theorem oneBusy_new (codec : AudioCodec) (rtp rtcp : ℤ) (numBuffers : ℕ) (t : τ) :
    (new (.new codec rtp rtcp numBuffers) t).OneBusy := by
  intro i hbusy
  rcases hbusy with hready | hplay
  · cases hready
  · cases hplay

/-! ### One connection at a time -/

/-- No connection is made while the loop of another runs. -/
def ConnectsAlone (s : StatusServer τ) : StatusAction τ → Prop
  | .server (.connect _ _) => ∀ i, ¬s.server.Live i
  | _ => True

/-- The loop of at most one connection runs. -/
def OneLive (s : StatusServer τ) : Prop := ∀ i j, s.server.Live i → s.server.Live j → i = j

theorem reporter_live {act : Action} {server : Server} {i : ℕ} {state : State}
    (hconnects : s.ConnectsAlone (.server act)) (hchanges : s.server.Changes server act [(i, state)]) :
    s.server.Live i ∨ ∀ j, ¬s.server.Live j := by
  rcases hchanges.reporter_live with ⟨ip, sid, rfl⟩ | hlive
  · exact .inr hconnects
  · exact .inl hlive

theorem OneLive.step {a : StatusAction τ} (h : s.OneLive) (hconnects : s.ConnectsAlone a)
    (hstep : s.Step P a s') : s'.OneLive := by
  rcases step_cases hstep with ⟨io, -, rfl⟩ | ⟨act, server, rfl, -, hchanges, rfl⟩
  · exact h
  · have hnew : ∀ i j state, s.server.Live i → s.server.reported server act = [(j, state)] → i = j := by
      intro i j state hlive hreport
      rw [hreport] at hchanges
      rcases reporter_live hconnects hchanges with hreporter | hnone
      · exact h i j hlive hreporter
      · exact absurd hlive (hnone i)
    intro i j hi hj
    rcases hchanges.live_cases hi with hi | ⟨state, hi⟩ <;> rcases hchanges.live_cases hj with hj | ⟨state', hj⟩
    · exact h i j hi hj
    · exact hnew i j state' hi hj
    · exact (hnew j i state hj hi).symm
    · exact (Prod.mk.inj (List.cons.inj (hi.symm.trans hj)).1).1

theorem OneLive.alone {a : StatusAction τ} (h : s.OneLive) (hconnects : s.ConnectsAlone a) : s.Alone P a := by
  cases a with
  | idle io => trivial
  | server act =>
      rintro server hserver ⟨j, state⟩ hreport i hi hbusy
      have hchanges := Server.step_changes hserver
      rcases hchanges.status_cases with ⟨hquiet, -⟩ | ⟨k, state', hone, -⟩
      · rw [hquiet] at hreport
        cases hreport
      · rw [hone] at hreport hchanges
        obtain ⟨rfl, rfl⟩ := Prod.mk.inj (List.mem_singleton.1 hreport)
        rcases reporter_live hconnects hchanges with hreporter | hnone
        · exact hi (h i j hbusy.live hreporter)
        · exact hnone i hbusy.live

/-- Where one connection at a time is made, no session reports while another is in READY or PLAY. -/
theorem alone_of_connectsAlone {as : List (StatusAction τ)} (h : Along (Step P) ConnectsAlone s as)
    (hnone : ∀ i, ¬s.server.Live i) : Along (Step P) (Alone P) s as :=
  (Along.congr (I := OneLive) (fun _ _ _ h hconnects hstep => h.step hconnects hstep)
    (fun _ _ h hconnects => ⟨fun _ => h.alone hconnects, fun _ => hconnects⟩)
    (fun i _ hi _ => absurd hi (hnone i)) h).1 h

/-! ### Runs -/

theorem lastShown_run {codec : AudioCodec} {rtp rtcp : ℤ} {numBuffers : ℕ} {t : τ}
    {as : List (StatusAction τ)} (hrun : Run (Step P) (new (.new codec rtp rtcp numBuffers) t) as s) :
    s.LastShown := by
  have hnew : (new (.new codec rtp rtcp numBuffers) t).LastShown :=
    ⟨fun _ => ⟨rfl, fun _ => rfl⟩, fun i state hlast => by cases hlast⟩
  exact hrun.invariant (fun _ _ _ h hstep => LastShown.step h hstep) hnew

theorem oneBusy_run {codec : AudioCodec} {rtp rtcp : ℤ} {numBuffers : ℕ} {t : τ}
    {as : List (StatusAction τ)} (hrun : Run (Step P) (new (.new codec rtp rtcp numBuffers) t) as s)
    (halone : Along (Step P) (Alone P) (new (.new codec rtp rtcp numBuffers) t) as) : s.OneBusy :=
  hrun.invariant_along (fun _ _ _ h halone hstep => OneBusy.step h halone hstep) halone
    (oneBusy_new codec rtp rtcp numBuffers t)

/-- In every run the callback holds the state of the session that reported last. Where no session reports
while another is in READY or PLAY, it shows PLAY whenever a session is in PLAY, and DEAD only when none is
in READY or PLAY. -/
theorem last_report_shown (P : Lookup) (codec : AudioCodec) (rtp rtcp : ℤ) (numBuffers : ℕ) (t : τ)
    (as : List (StatusAction τ)) (s : StatusServer τ)
    (hrun : Run (Step P) (new (.new codec rtp rtcp numBuffers) t) as s) : s.LastShown ∧
      (Along (Step P) (Alone P) (new (.new codec rtp rtcp numBuffers) t) as → s.Shows) := by
  have hlast := lastShown_run hrun
  exact ⟨hlast, fun halone => hlast.shows (oneBusy_run hrun halone)⟩

def connectsAlone (s : StatusServer τ) : StatusAction τ → Bool
  | .server (.connect _ _) => s.server.connections.all fun conn => conn.phase ≠ .live
  | _ => true

theorem connectsAlone_sound {a : StatusAction τ} (h : connectsAlone s a = true) : s.ConnectsAlone a := by
  cases a with
  | server act =>
      cases act with
      | connect ip sid =>
          rintro i ⟨conn, hconn, hlive⟩
          have hphase := List.all_eq_true.1 h conn (List.mem_of_getElem? hconn)
          exact of_decide_eq_true hphase hlive
      | _ => trivial
  | idle io => trivial

/-- One session in PLAY, and another connection is made, and ends: the callback holds INIT, then DEAD. -/
theorem connect_hides_playing : ∃ s s' : StatusServer Unit,
    Run (Step Lookup.literal) (new Server.pcmServer ())
      [.server (.connect (ascii "10.0.0.1") 7), .server (.ofText 0 Server.simulated Server.setupText),
        .server (.ofText 0 Server.simulated Server.playText), .server (.connect (ascii "10.0.0.1") 8)] s ∧
    Run (Step Lookup.literal) s [.server (.disconnect 1)] s' ∧
    s.server.status 0 = some .play ∧ s.callback.state = .init ∧ ¬s.Shows ∧
    s'.server.status 0 = some .play ∧ s'.callback.state = .dead ∧ ¬s'.Shows := by
  have hrun : (execAll (exec Lookup.literal) (new Server.pcmServer ())
      [.server (.connect (ascii "10.0.0.1") 7), .server (.ofText 0 Server.simulated Server.setupText),
        .server (.ofText 0 Server.simulated Server.playText),
        .server (.connect (ascii "10.0.0.1") 8)]).any (fun s =>
      (s.server.status 0 = some .play ∧ s.callback.state = .init) ∧
        (execAll (exec Lookup.literal) s [.server (.disconnect 1)]).any fun s' =>
          s'.server.status 0 = some .play ∧ s'.callback.state = .dead) = true := by decide +kernel
  obtain ⟨s, hs, hstate⟩ := run_of_any hrun
  obtain ⟨⟨hplay, hinit⟩, hend⟩ := of_decide_eq_true hstate
  obtain ⟨s', hs', hstate'⟩ := run_of_any hend
  obtain ⟨hplay', hdead⟩ := of_decide_eq_true hstate'
  refine ⟨s, s', hs, hs', hplay, hinit, ?_, hplay', hdead, ?_⟩
  · rintro ⟨hshows, -⟩
    cases hinit.symm.trans (hshows ⟨0, hplay⟩)
  · rintro ⟨hshows, -⟩
    cases hdead.symm.trans (hshows ⟨0, hplay'⟩)

/-- Two sessions that play one after the other, with a poll. -/
theorem last_report_shown_in_turn : ∃ s : StatusServer Unit,
    Run (Step Lookup.literal) (new Server.pcmServer ())
      [.server (.connect (ascii "10.0.0.1") 7), .server (.ofText 0 Server.simulated Server.setupText),
        .server (.ofText 0 Server.simulated Server.playText), .server (.disconnect 0),
        .server (.connect (ascii "10.0.0.1") 8), .server (.ofText 1 Server.simulated Server.setupText),
        .idle ⟨true, 4, (), fun _ _ => true⟩, .server (.ofText 1 Server.simulated Server.playText)] s ∧
    s.LastShown ∧ s.Shows := by
  obtain ⟨s, hs⟩ := Option.isSome_iff_exists.1 (show (execAll (exec Lookup.literal) (new Server.pcmServer ())
      [.server (.connect (ascii "10.0.0.1") 7), .server (.ofText 0 Server.simulated Server.setupText),
        .server (.ofText 0 Server.simulated Server.playText), .server (.disconnect 0),
        .server (.connect (ascii "10.0.0.1") 8), .server (.ofText 1 Server.simulated Server.setupText),
        .idle ⟨true, 4, (), fun _ _ => true⟩,
        .server (.ofText 1 Server.simulated Server.playText)]).isSome = true by decide +kernel)
  obtain ⟨hlast, hshows⟩ :=
    last_report_shown Lookup.literal _ _ _ _ () _ s (run_of_execAll hs)
  refine ⟨s, run_of_execAll hs, hlast, hshows (alone_of_connectsAlone ?_ ?_)⟩
  · exact along_of_allAlong (fun _ _ => connectsAlone_sound) (by decide +kernel)
  · rintro i ⟨conn, hconn, -⟩
    cases hconn

end StatusServer

end WifiAudio
