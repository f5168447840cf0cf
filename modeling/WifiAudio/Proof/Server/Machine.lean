import WifiAudio.Proof.Rtsp.Response
import WifiAudio.Proof.Server.Answers
import WifiAudio.Proof.Server.Search

/-!
# The state machine of a session

The state of a session moves with the commands that are carried out, and a command is carried out
only where the table of the state allows it. So the state changes along five kinds of edges, never on
an error, and the two assertions that depend on it cannot fail: a session that may PLAY has a client,
and the connection loop ends when its session is DEAD.
-/

namespace WifiAudio

open Except Transition

/-- The changes of a session's state, each with the command that makes it. -/
inductive State.Moves : State → RtspCommand → State → Prop
  | setup : Moves .init .setup .ready
  | play : Moves .ready .play .play
  | pause : Moves .play .pause .ready
  | teardown {state : State} (hstate : state = .ready ∨ state = .play) : Moves state .teardown .dead
  | kill (state : State) : Moves state .kill .dead

/-! ### The commands a request may be carried out as -/

/-- The calls a parser makes when the commands `allowable` are allowed. -/
inductive HandlerCall.Permitted (allowable : List RtspCommand) : HandlerCall → Prop
  | error : Permitted allowable (.error ErrorCode.badRequest)
  | refused {cmd uri hdrs code m} (hcode : code ≠ ErrorCode.ok) :
      Permitted allowable (.command cmd uri hdrs code m)
  | command {cmd uri hdrs m} (hcmd : cmd ∈ allowable) :
      Permitted allowable (.command cmd uri hdrs ErrorCode.ok m)
  | kill {uri hdrs m} : Permitted allowable (.command .kill uri hdrs ErrorCode.ok m)

namespace Parser

variable {P : Lookup} {allowable : List RtspCommand}

/-- The call that was recorded is permitted. -/
def Permits (allowable : List RtspCommand) (r : RtspCommand × Option HandlerCall × Bytes) : Prop :=
  ∀ call ∈ r.2.1, call.Permitted allowable

theorem reject_permits (m : Bytes) :
    Ensures (reject HandlerCall.recorder ErrorCode.badRequest m none) (Permits allowable) := by
  apply Ensures.ok
  intro call hcall
  obtain rfl := Option.some.inj hcall
  exact .error

theorem parseCommand_permits (m : Bytes) (lp : LineParser) (uri : Option ℕ) {cmd : RtspCommand}
    {code : ℤ} (hcode : code = ErrorCode.ok → cmd = .kill ∨ cmd ∈ allowable) :
    Ensures (parseCommand HandlerCall.recorder m lp uri cmd code none) (Permits allowable) := by
  refine .bind_any fun r => .ok ?_
  intro call hcall
  obtain rfl := Option.some.inj hcall
  by_cases hok : code = ErrorCode.ok
  · subst hok
    rcases hcode rfl with rfl | hcmd
    · exact .kill
    · exact .command hcmd
  · exact .refused hok

theorem parseMethod_permits (m : Bytes) (lp : LineParser) (cmd : ℕ) (save : Option ℕ) :
    Ensures (parseMethod P HandlerCall.recorder allowable m lp cmd save none) (Permits allowable) := by
  refine .bind_any fun text => .ite (fun _ => reject_permits m) fun _ => .bind_any fun r =>
    .bind_any ?_
  intro r'
  obtain ⟨version, save', m'⟩ := r'
  cases version with
  | none => exact .error _
  | some version =>
      refine .bind_any ?_
      intro supported
      -- the later tests only ever replace the code by another error
      have hallowed : ∀ {cmd : RtspCommand} {uri : Option ℕ}, cmd ≠ .unknown →
          (if !supported then ErrorCode.versionNotSupported
            else if uri = none then ErrorCode.badRequest
            else if (if cmd = .unknown then ErrorCode.notImplemented else ErrorCode.ok) = ErrorCode.ok ∧
              !isAllowable allowable cmd then ErrorCode.methodNotValidInThisState
            else if cmd = .unknown then ErrorCode.notImplemented else ErrorCode.ok) = ErrorCode.ok →
          cmd = .kill ∨ cmd ∈ allowable := by
        intro cmd uri hcmd hcode
        rw [if_neg hcmd] at hcode
        refine .inr ?_
        by_contra hnot
        have hallow : isAllowable allowable cmd = false := by
          rw [isAllowable, List.contains_eq_mem]
          exact decide_eq_false hnot
        simp only [hallow, Bool.not_false, and_self, if_true] at hcode
        split at hcode
        · exact absurd hcode (by decide)
        · split at hcode
          · exact absurd hcode (by decide)
          · exact absurd hcode (by decide)
      cases hlookup : lookupCommand P text with
      | unknown => exact reject_permits m'
      | kill => exact parseCommand_permits m' lp r.1 fun _ => .inl rfl
      | _ => exact parseCommand_permits m' lp r.1 (hallowed (by simp))

theorem parse_permits (m : Bytes) (data sz : ℕ) :
    Ensures (parse P HandlerCall.recorder allowable m data sz none) (Permits allowable) := by
  refine .ite (fun _ => reject_permits m) fun _ => .bind_any fun r => .bind_any ?_
  intro r'
  obtain ⟨line, lp, m'⟩ := r'
  cases line with
  | none => exact reject_permits m'
  | some line =>
      refine .bind_any ?_
      intro r
      obtain ⟨cmd, save, m''⟩ := r
      cases cmd with
      | none => exact .bind_any fun _ => .error _
      | some cmd => exact parseMethod_permits m'' lp cmd save

theorem request_permitted {m m' : Bytes} {data sz : ℕ} {call : HandlerCall}
    (hrequest : request P allowable m data sz = .ok (call, m')) : call.Permitted allowable := by
  obtain ⟨⟨cmd, recorded, m''⟩, hparse, hcall⟩ := bind_eq_ok.1 hrequest
  cases recorded with
  | none => cases hcall
  | some call' =>
      obtain ⟨rfl, rfl⟩ := Prod.mk.inj (Except.ok.inj hcall)
      exact parse_permits m data sz _ hparse call' rfl

end Parser

namespace Session

variable {P : Lookup} {session : Session} {m m' : Bytes} {size : ℕ} {call : HandlerCall}
  {cmd : RtspCommand}

theorem request_permitted (hrequest : session.request P m size = .ok (call, m')) :
    call.Permitted (allowed session.state) := by
  obtain ⟨allowable, hallowable, hrequest⟩ := bind_eq_ok.1 hrequest
  have hallowed : allowed session.state = allowable := by
    rw [allowed, hallowable]
    rfl
  rw [hallowed]
  exact Parser.request_permitted hrequest

theorem carriesOut_allowed (hpermitted : call.Permitted (allowed session.state))
    (hout : call.carriesOut = some cmd) : cmd = .kill ∨ cmd ∈ allowed session.state := by
  have hself : ∀ {asked : RtspCommand} {uri : Option ℕ} {hdrs : RtspHeader} {m : Bytes},
      (HandlerCall.command asked uri hdrs ErrorCode.ok m).carriesOut = some cmd → cmd = asked := by
    intro asked uri hdrs m hout
    cases asked with
    | setup =>
        simp only [HandlerCall.carriesOut, ne_eq, not_true, if_false] at hout
        split at hout
        · exact (Option.some.inj hout).symm
        · cases hout
    | describe =>
        simp only [HandlerCall.carriesOut, ne_eq, not_true, if_false] at hout
        split at hout
        · exact (Option.some.inj hout).symm
        · cases hout
    | _ => exact (Option.some.inj hout).symm
  cases hpermitted with
  | error => cases hout
  | refused hcode => simp [HandlerCall.carriesOut, hcode] at hout
  | command hcmd => exact .inr (hself hout ▸ hcmd)
  | kill => exact .inl (hself hout)

theorem teardown_allowed {state : State} (hteardown : RtspCommand.teardown ∈ allowed state) :
    state = .ready ∨ state = .play := by
  cases state with
  | ready => exact .inl rfl
  | play => exact .inr rfl
  | _ => exact absurd hteardown (by decide)

theorem transition_moves (hdead : session.state ≠ .dead)
    (hcmd : cmd = .teardown → session.state = .ready ∨ session.state = .play) :
    (session.transition cmd).2.state = session.state ∨
      session.state.Moves cmd (session.transition cmd).2.state := by
  obtain ⟨state, reports⟩ := session
  cases cmd with
  | kill => exact .inr (.kill state)
  | teardown => exact .inr (.teardown (hcmd rfl))
  | setup =>
      cases state with
      | init => exact .inr .setup
      | dead => exact absurd rfl hdead
      | _ => exact .inl rfl
  | play =>
      cases state with
      | ready => exact .inr .play
      | dead => exact absurd rfl hdead
      | _ => exact .inl rfl
  | pause =>
      cases state with
      | play => exact .inr .pause
      | dead => exact absurd rfl hdead
      | _ => exact .inl rfl
  | _ =>
      cases state with
      | dead => exact absurd rfl hdead
      | _ => exact .inl rfl

end Session

/-! ### The server -/

namespace Server

variable {P : Lookup} {s s' : Server} {i : ℕ} {conn conn' : Connection}

/-- No answer is left half printed. -/
def Flushed (s : Server) : Prop :=
  ∀ (i : ℕ) (conn : Connection), s.connections[i]? = some conn → conn.handler.out = []

theorem Flushed.update {e : Engine} (h : s.Flushed) (hconn : s.connections[i]? = some conn)
    (hout : conn'.handler.out = []) : (s.update i conn' e).Flushed := by
  intro j conn₀ hj
  rcases update_cases hconn hj with ⟨rfl, rfl⟩ | ⟨-, hj⟩
  · exact hout
  · exact h j conn₀ hj

theorem effect_flushed {call : HandlerCall} {cmd : RtspCommand} {h h' : RtspHandler} {e e' : Engine}
    (heffect : call.Effect P h e cmd h' e') (hout : h.out = []) : h'.out = [] := by
  cases heffect with
  | answered hanswer _ _ _ =>
      obtain ⟨response, hanswer⟩ := hanswer
      exact hanswer.out
  | setup hanswer _ _ _ _ =>
      obtain ⟨response, hanswer⟩ := hanswer
      exact hanswer.out
  | play hdrs hanswer _ _ _ _ => exact hanswer.out
  | @stop cmd _ _ hanswer _ _ _ _ =>
      by_cases hkill : cmd = .kill
      · rw [if_pos hkill] at hanswer
        exact hanswer ▸ hout
      · rw [if_neg hkill] at hanswer
        obtain ⟨response, hanswer⟩ := hanswer
        exact hanswer.out

theorem Flushed.step (h : s.Flushed) {a : Action} (hstep : Step P s a s') : s'.Flushed := by
  cases a with
  | connect ip sid =>
      obtain rfl := Option.some.inj hstep
      intro i conn hi
      rcases connections_append_cases hi with hi | rfl
      · exact h i conn hi
      · rfl
  | request i net m size =>
      obtain ⟨conn, call, m', cmd, hd, e, hconn, -, -, heffect, rfl⟩ := request_effect hstep
      exact h.update hconn (effect_flushed heffect (h i conn hconn))
  | disconnect i =>
      obtain ⟨conn, e, hconn, -, -, rfl⟩ := disconnect_effect hstep
      exact h.update hconn (h i conn hconn)
  | destroy i =>
      obtain ⟨conn, hconn, -, rfl⟩ := destroy_effect hstep
      exact h.update hconn (h i conn hconn)
  | getFree =>
      obtain rfl := Option.some.inj hstep
      exact h
  | putFree b =>
      obtain rfl := Option.some.inj hstep
      exact h
  | send b bytes samples results =>
      obtain ⟨e, -, rfl⟩ := send_completes hstep
      exact h

theorem session_kept {a : Action} (hstep : Step P s a s')
    (hrequest : ∀ net m size, a ≠ .request i net m size) (hconn : s.connections[i]? = some conn)
    (hconn' : s'.connections[i]? = some conn') : conn'.session = conn.session := by
  have hupdate : ∀ {j : ℕ} {c c' : Connection} {e : Engine}, s.connections[j]? = some c →
      (s.update j c' e).connections[i]? = some conn' → (j = i → c'.session = c.session) →
      conn'.session = conn.session := by
    intro j c c' e hj hi hsame
    rcases update_cases hj hi with ⟨rfl, rfl⟩ | ⟨-, hi⟩
    · obtain rfl := Option.some.inj (hconn.symm.trans hj)
      exact hsame rfl
    · obtain rfl := Option.some.inj (hconn.symm.trans hi)
      rfl
  have hsame : s.connections[i]? = some conn' → conn'.session = conn.session := by
    intro hi
    obtain rfl := Option.some.inj (hconn.symm.trans hi)
    rfl
  cases a with
  | connect ip sid =>
      obtain rfl := Option.some.inj hstep
      have hlt := (List.getElem?_eq_some_iff.1 hconn).1
      exact hsame ((List.getElem?_append_left hlt).symm.trans hconn')
  | request j net m size =>
      obtain ⟨c, call, m', cmd, hd, e, hj, -, -, -, rfl⟩ := request_effect hstep
      refine hupdate hj hconn' ?_
      rintro rfl
      exact absurd rfl (hrequest net m size)
  | disconnect j =>
      obtain ⟨c, e, hj, -, -, rfl⟩ := disconnect_effect hstep
      exact hupdate hj hconn' fun _ => rfl
  | destroy j =>
      obtain ⟨c, hj, -, rfl⟩ := destroy_effect hstep
      exact hupdate hj hconn' fun _ => rfl
  | getFree =>
      obtain rfl := Option.some.inj hstep
      exact hsame hconn'
  | putFree b =>
      obtain rfl := Option.some.inj hstep
      exact hsame hconn'
  | send b bytes samples results =>
      obtain ⟨e, -, rfl⟩ := send_completes hstep
      exact hsame hconn'

/-- The answer of a request that is carried out: none to a KILL, else it starts with 200. -/
def Confirmed (cmd : RtspCommand) (h h' : RtspHandler) : Prop :=
  if cmd = .kill then h'.sent = h.sent
  else ∃ text rest, h'.sent = h.sent ++ [.status ErrorCode.ok text :: rest]

theorem run_confirmed {net : SocketCalls} {call : HandlerCall} {cmd : RtspCommand} {h h' : RtspHandler}
    {e e' : Engine} (hrun : call.run (RtspHandler.handler P net) (h, e) = .ok (cmd, (h', e')))
    (hcode : ∀ code, call = .error code → code ≠ ErrorCode.ok) (hout : h.out = [])
    (hcarries : call.carriesOut = some cmd) : Confirmed cmd h h' := by
  rw [Confirmed]
  split
  case isTrue hkill =>
    have hanswers := (HandlerCall.run_effect hrun).answers
    rw [hcarries, if_pos (by rw [hkill])] at hanswers
    exact congrArg RtspHandler.sent hanswers
  case isFalse hkill =>
    obtain ⟨rest, hanswer, -⟩ := HandlerCall.run_answered hrun (by simpa [hcarries] using hkill)
    have hstatus := (HandlerCall.status_eq_ok hcode).2 (by rw [hcarries]; simp)
    refine ⟨P.lut responseLut call.status, call.cseqLines ++ rest, ?_⟩
    rw [hanswer.sent, hout, hstatus]
    rfl

/-- A request that changes the state makes a move of the command it is carried out as, and it is
confirmed. -/
theorem request_moves {net : SocketCalls} {m : Bytes} {size : ℕ} (hflushed : s.Flushed)
    (hstep : Step P s (.request i net m size) s') (hconn : s.connections[i]? = some conn)
    (hconn' : s'.connections[i]? = some conn')
    (hchanged : conn'.session.state ≠ conn.session.state) :
    ∃ cmd, conn.session.carriesOut P m size = some cmd ∧
      conn.session.state.Moves cmd conn'.session.state ∧ Confirmed cmd conn.handler conn'.handler := by
  obtain ⟨c, ⟨returned, session', ⟨h', e'⟩, mem⟩, hc, hactive, hprocess, rfl⟩ :=
    request_completes hstep
  obtain rfl := Option.some.inj (hconn.symm.trans hc)
  obtain ⟨call, cmd, hrequest, hrun, htransition⟩ := Session.process_eq_ok.1 hprocess
  obtain rfl := Option.some.inj ((update_self hconn).symm.trans hconn')
  obtain rfl : (conn.session.transition cmd).2 = session' := by rw [htransition]
  have hpermitted := Session.request_permitted hrequest
  have hcode : ∀ code, call = .error code → code ≠ ErrorCode.ok := by
    rintro code rfl
    cases hpermitted with
    | error => decide
  have hcarries : conn.session.carriesOut P m size = call.carriesOut := by
    rw [Session.carriesOut, hrequest]
  have heffect := HandlerCall.run_effect hrun
  have hout : call.carriesOut = some cmd := by
    cases heffect with
    | answered hanswer hout hclient hcmd =>
        rcases hcmd with rfl | rfl | rfl
        · refine absurd ?_ hchanged
          cases hstate : conn.session.state with
          | dead => exact absurd hstate hactive.2
          | _ => simp [Session.transition, hstate]
        · exact hout
        · exact hout
    | setup hanswer socket hout hremove hclient => exact hout
    | play hdrs hanswer c hout hsetup hclient => exact hout
    | stop hanswer hout hcmd hclient hremove => exact hout
  have hmoves := (Session.transition_moves hactive.2 fun hteardown => by
    subst hteardown
    exact Session.teardown_allowed
      ((Session.carriesOut_allowed hpermitted hout).resolve_left (by simp))).resolve_left hchanged
  exact ⟨cmd, hcarries.trans hout, hmoves,
    run_confirmed hrun hcode (hflushed i conn hconn) hout⟩

/-- A PLAY that is passed on finds a client. -/
theorem play_completes (hallocated : s.Allocated) (hconn : s.connections[i]? = some conn) {m m' mem : Bytes}
    {size : ℕ} {uri : Option ℕ} {hdrs : RtspHeader}
    (hrequest : conn.session.request P m size =
      .ok (.command .play uri hdrs ErrorCode.ok mem, m')) :
    ∃ r, RtspHandler.play P hdrs (conn.handler, s.engine) = .ok r := by
  have hallowed : RtspCommand.play ∈ Session.allowed conn.session.state := by
    cases Session.request_permitted hrequest with
    | refused hcode => exact absurd rfl hcode
    | command hcmd => exact hcmd
  have hclient := hallocated.made i conn hconn (Session.play_allowed hallowed)
  simp [RtspHandler.play, hclient]

end Server

/-- While the loop runs its session is not DEAD. -/
theorem RtspClient.running_alive {σ : Type} {S : RtspSession σ} {c c' : RtspClient σ} {chunk : Bytes}
    (h : c.running = true → S.state c.session ≠ .dead) (hstep : Step S c chunk c') :
    c'.running = true → S.state c'.session ≠ .dead := by
  rcases RtspClient.step_cases hstep with ⟨-, rfl⟩ | ⟨-, -, rfl⟩ | ⟨size, cmd, s, m, -, -, -, rfl⟩
  · intro hrunning
    cases hrunning
  · exact h
  · intro hrunning
    exact (of_decide_eq_true hrunning).2

open Server in
/-- In every run of the server: a session in READY or PLAY has a client, so a PLAY does not fail its
assertion; the state of a session changes only by the moves, in a request of its own that is carried
out as the command of the move and confirmed; and every connection loop calls `process` only in states
`allowable` knows. -/
theorem session_state_machine (P : Lookup) (codec : AudioCodec) (rtp rtcp : ℤ) (numBuffers : ℕ)
    (as : List Action) (s : Server) (hrun : Run (Step P) (new codec rtp rtcp numBuffers) as s) :
    (∀ (i : ℕ) (conn : Connection), s.connections[i]? = some conn →
      (conn.session.state = .ready ∨ conn.session.state = .play → conn.handler.rtpClient ≠ none) ∧
      ∀ m size uri hdrs mem m',
        conn.session.request P m size = .ok (.command .play uri hdrs ErrorCode.ok mem, m') →
        ∃ r, RtspHandler.play P hdrs (conn.handler, s.engine) = .ok r) ∧
    (∀ (a : Action) (s' : Server) (i : ℕ) (conn conn' : Connection), Step P s a s' →
      s.connections[i]? = some conn → s'.connections[i]? = some conn' →
      conn'.session.state ≠ conn.session.state →
      ∃ net m size cmd, a = .request i net m size ∧ conn.session.carriesOut P m size = some cmd ∧
        conn.session.state.Moves cmd conn'.session.state ∧
        Confirmed cmd conn.handler conn'.handler) ∧
    ∀ (σ : Type) (S : RtspSession σ) (x : σ) (chunks : List Bytes) (c : RtspClient σ),
      Run (RtspClient.Step S) (RtspClient.new S x) chunks c → c.running = true →
      ∃ allowable, Session.allowable (S.state c.session) = .ok allowable := by
  have hallocated := allocated_run hrun
  have hflushed : s.Flushed :=
    hrun.invariant (fun _ _ _ h hstep => h.step hstep) fun i conn hconn => by cases hconn
  refine ⟨?_, ?_, ?_⟩
  · intro i conn hconn
    refine ⟨hallocated.made i conn hconn, ?_⟩
    intro m size uri hdrs mem m' hrequest
    exact play_completes hallocated hconn hrequest
  · intro a s' i conn conn' hstep hconn hconn' hchanged
    by_cases hrequest : ∃ net m size, a = .request i net m size
    · obtain ⟨net, m, size, rfl⟩ := hrequest
      obtain ⟨cmd, hcarries, hmoves, hconfirmed⟩ :=
        request_moves hflushed hstep hconn hconn' hchanged
      exact ⟨net, m, size, cmd, rfl, hcarries, hmoves, hconfirmed⟩
    · refine absurd (congrArg Session.state (session_kept hstep ?_ hconn hconn')) hchanged
      intro net m size ha
      exact hrequest ⟨net, m, size, ha⟩
  · intro σ S x chunks c hclient hrunning
    have halive : S.state c.session ≠ .dead :=
      hclient.invariant (I := fun c => c.running = true → S.state c.session ≠ .dead)
        (fun _ _ _ h hstep => RtspClient.running_alive h hstep)
        (fun hstart => of_decide_eq_true hstart) hrunning
    exact ⟨_, Session.allowable_allowed (s := ⟨S.state c.session, []⟩) halive⟩

open Server in
/-- A session that was set up and plays has a client. -/
theorem session_state_machine_playing : ∃ (s : Server) (conn : Connection),
    Run (Step Lookup.literal) pcmServer
      [.connect (ascii "10.0.0.1") 7, .ofText 0 simulated setupText, .ofText 0 simulated playText] s ∧
    s.connections[0]? = some conn ∧ conn.session.state = .play ∧ conn.handler.rtpClient ≠ none := by
  have hrun : (execAll (exec Lookup.literal) pcmServer
      [.connect (ascii "10.0.0.1") 7, .ofText 0 simulated setupText, .ofText 0 simulated playText]).any
      (fun s => s.connections[0]?.any fun conn => conn.session.state = .play) = true := by
    decide +kernel
  obtain ⟨s, hs, hfound⟩ := run_of_any hrun
  obtain ⟨conn, hconn, hstate⟩ := (Option.any_eq_true _ _).1 hfound
  have hplay := of_decide_eq_true hstate
  have hclient := ((session_state_machine Lookup.literal _ _ _ _ _ s hs).1 0 conn
    hconn).1 (.inr hplay)
  exact ⟨s, conn, hs, hconn, hplay, hclient⟩

end WifiAudio
