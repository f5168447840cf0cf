import WifiAudio.Lib.Transition
import WifiAudio.Proof.Rtsp.Totality
import WifiAudio.Proof.Server.Playing

/-!
# Every request is answered once

A block the connection loop hands over is processed to its end and answered once, a KILL not at all,
as long as its request line has what the parser takes for granted: a method, and behind a method it
knows of a URI and a version. Stopping a stream needs the playing list to end as well.
-/

namespace WifiAudio

open Except CString Transition

namespace Parser

variable {P : Lookup} {allowable : List RtspCommand} {block : Bytes}

/-- There is no request line, its method is refused by itself, or a URI and a version follow. -/
def Answerable (P : Lookup) (block : Bytes) : Prop :=
  requestLine block = [] ∨ ∃ method rest, tokens space (requestLine block) = method :: rest ∧
    (lookupCommand P method = .unknown ∧ unsupported method = false ∨ 2 ≤ rest.length)

theorem askedMethod_eq_none {method : Bytes} {rest : List Bytes} :
    askedMethod P allowable method rest = none ↔
      ¬(lookupCommand P method = .unknown ∧ unsupported method = false ∨ 2 ≤ rest.length) := by
  unfold askedMethod
  by_cases hrefused : lookupCommand P method = .unknown ∧ unsupported method = false
  · simp [hrefused]
  · rw [if_neg (by simpa using hrefused), or_iff_right hrefused]
    match rest with
    | [] => simp
    | [_] => simp
    | _ :: version :: more => cases lookupCommand P method <;> simp

theorem asked_eq_none : asked P allowable block = none ↔ ¬Answerable P block := by
  unfold asked Answerable
  by_cases hline : requestLine block = []
  · simp [hline]
  · rw [if_neg hline, or_iff_right hline]
    cases tokens space (requestLine block) with
    | nil => simp
    | cons method rest => simp [askedMethod_eq_none]

/-- The command the request line names. -/
def named (P : Lookup) (block : Bytes) : Option RtspCommand :=
  (tokens space (requestLine block)).head?.map (lookupCommand P)

theorem askedMethod_command {method : Bytes} {rest : List Bytes} {cmd : RtspCommand} {code : ℤ}
    (hasked : askedMethod P allowable method rest = some (.command cmd code)) :
    lookupCommand P method = cmd ∧ cmd ≠ .unknown ∧ (cmd = .kill → code = ErrorCode.ok) ∧
      (code = ErrorCode.ok → cmd ≠ .kill → cmd ∈ allowable) := by
  unfold askedMethod at hasked
  split at hasked
  · cases hasked
  · match rest with
    | [] => cases hasked
    | [_] => cases hasked
    | _ :: version :: more =>
        have hallowed : ∀ cmd, (if version ≠ ascii "RTSP/1.0" then ErrorCode.versionNotSupported
            else if !isAllowable allowable cmd then ErrorCode.methodNotValidInThisState
            else ErrorCode.ok) = ErrorCode.ok → cmd ∈ allowable := by
          intro cmd hcode
          split at hcode
          · exact absurd hcode (by decide)
          · by_contra hnot
            have hallow : isAllowable allowable cmd = false := by
              rw [isAllowable, List.contains_eq_mem]
              exact decide_eq_false hnot
            rw [hallow] at hcode
            exact absurd hcode (by decide)
        cases hcmd : lookupCommand P method with
        | unknown => simp [hcmd] at hasked
        | kill =>
            obtain ⟨rfl, rfl⟩ := by simpa [hcmd] using hasked
            exact ⟨rfl, by simp, fun _ => rfl, fun _ h => absurd rfl h⟩
        | _ =>
            simp only [hcmd, Option.some.injEq, Asked.command.injEq] at hasked
            obtain ⟨rfl, rfl⟩ := hasked
            exact ⟨rfl, by simp, by simp, fun hcode _ => hallowed _ hcode⟩

/-- A command that is asked for is known, and it is carried out only where the session allows it. -/
theorem asked_command {cmd : RtspCommand} {code : ℤ}
    (hasked : asked P allowable block = some (.command cmd code)) :
    named P block = some cmd ∧ cmd ≠ .unknown ∧ (cmd = .kill → code = ErrorCode.ok) ∧
      (code = ErrorCode.ok → cmd ≠ .kill → cmd ∈ allowable) := by
  unfold asked at hasked
  split at hasked
  · cases hasked
  · cases htokens : tokens space (requestLine block) with
    | nil => simp [htokens] at hasked
    | cons method rest =>
        rw [htokens] at hasked
        obtain ⟨hmethod, hrest⟩ := askedMethod_command hasked
        exact ⟨by rw [named, htokens, ← hmethod]; rfl, hrest⟩

theorem asked_rejected {cmd : RtspCommand} (hasked : asked P allowable block = some .rejected)
    (hnamed : named P block = some cmd) : cmd = .unknown := by
  unfold asked at hasked
  unfold named at hnamed
  by_cases hline : requestLine block = []
  · rw [hline] at hnamed
    cases hnamed
  · rw [if_neg hline] at hasked
    cases htokens : tokens space (requestLine block) with
    | nil =>
      rw [htokens] at hnamed
      cases hnamed
    | cons method rest =>
        rw [htokens] at hnamed
        simp only [htokens] at hasked
        obtain rfl : lookupCommand P method = cmd := Option.some.inj hnamed
        by_contra hknown
        unfold askedMethod at hasked
        rw [if_neg fun hcond => hknown hcond.1] at hasked
        match rest with
        | [] => cases hasked
        | [_] => cases hasked
        | _ :: version :: more =>
            cases hcmd : lookupCommand P method with
            | unknown => exact hknown hcmd
            | _ => simp [hcmd] at hasked

/-! ### The call the parser makes -/

section Request

variable (hblock : Block block) (htransport : NoTransport block) (back : Bytes)
include hblock htransport

theorem request_fails (hasked : asked P allowable block = none) (x : HandlerCall × Bytes) :
    request P allowable (block ++ back) 0 block.length ≠ .ok x := by
  have hmakes := parse_makes P allowable hblock htransport back
  rw [hasked] at hmakes
  intro hrequest
  obtain ⟨r, hparse, -⟩ := bind_eq_ok.1 hrequest
  exact hmakes r hparse

theorem request_rejected (hasked : asked P allowable block = some .rejected) :
    ∃ m, request P allowable (block ++ back) 0 block.length =
      .ok (.error ErrorCode.badRequest, m) := by
  have hmakes := parse_makes P allowable hblock htransport back
  rw [hasked] at hmakes
  obtain ⟨m, hparse⟩ := hmakes
  exact ⟨m, by rw [request, hparse]; rfl⟩

theorem request_command {cmd : RtspCommand} {code : ℤ}
    (hasked : asked P allowable block = some (.command cmd code)) :
    ∃ uri hdrs m, request P allowable (block ++ back) 0 block.length =
      .ok (.command cmd uri hdrs code m, m) ∧ hdrs.transport = fun _ => {} := by
  have hmakes := parse_makes P allowable hblock htransport back
  rw [hasked] at hmakes
  obtain ⟨_, uri, hdrs, m, hparse, hdrs_eq⟩ := hmakes
  exact ⟨uri, hdrs, m, by rw [request, hparse]; rfl, hdrs_eq⟩

end Request

end Parser

/-! ### The call -/

/-- The command takes the client off the playing list. -/
def RtspCommand.Stops (cmd : RtspCommand) : Prop := cmd = .pause ∨ cmd = .teardown ∨ cmd = .kill

namespace HandlerCall

variable {P : Lookup} {net : SocketCalls} {h : RtspHandler} {e : Engine}

/-- A call completes when the playing list ends where it has to be searched. -/
theorem run_completes_iff {cmd : RtspCommand} {uri : Option ℕ} {hdrs : RtspHeader} {code : ℤ}
    {m : Bytes} (hcmd : cmd ≠ .unknown) (hdrs_eq : hdrs.transport = fun _ => {})
    (hplay : code = ErrorCode.ok → cmd = .play → h.rtpClient ≠ none) :
    (∃ r, (HandlerCall.command cmd uri hdrs code m).run (RtspHandler.handler P net) (h, e) = .ok r) ↔
      (code = ErrorCode.ok → cmd.Stops → ∃ e', e.remove h.rtpClient = .ok e') := by
  by_cases hcode : code = ErrorCode.ok
  · subst hcode
    cases cmd with
    | unknown => exact absurd rfl hcmd
    | describe =>
        cases hsdp : hdrs.acceptSdp <;>
          simp [run, RtspHandler.handler, RtspHandler.command, hsdp, RtspCommand.Stops]
    | options => simp [run, RtspHandler.handler, RtspHandler.command, RtspCommand.Stops]
    | setup =>
        have hnone : RtspHandler.findTransport m hdrs (List.finRange maxTransports) = .ok none := by
          simp [List.finRange_succ, RtspHandler.findTransport, RtspHandler.usable, hdrs_eq]
        simp [run, RtspHandler.handler, RtspHandler.command, RtspHandler.setup, hnone,
          RtspCommand.Stops]
    | play =>
        have hclient := hplay rfl rfl
        simp [run, RtspHandler.handler, RtspHandler.command, RtspHandler.play, hclient,
          RtspCommand.Stops]
    | pause =>
        cases hremove : e.remove h.rtpClient <;>
          simp [run, RtspHandler.handler, RtspHandler.command, RtspHandler.pause, RtspHandler.stop,
            hremove, RtspCommand.Stops]
    | teardown =>
        cases hremove : e.remove h.rtpClient <;>
          simp [run, RtspHandler.handler, RtspHandler.command, RtspHandler.teardown,
            RtspHandler.stop, hremove, RtspCommand.Stops]
    | kill =>
        cases hremove : e.remove h.rtpClient <;>
          simp [run, RtspHandler.handler, RtspHandler.command, RtspHandler.terminate, hremove,
            RtspCommand.Stops]
  · refine iff_of_true ?_ fun h => absurd h hcode
    simp [run, RtspHandler.handler, RtspHandler.command, hcode]

theorem carriesOut_kill {cmd : RtspCommand} {uri : Option ℕ} {hdrs : RtspHeader} {code : ℤ}
    {m : Bytes} (hkill : cmd = .kill → code = ErrorCode.ok) :
    (HandlerCall.command cmd uri hdrs code m).carriesOut = some .kill ↔ cmd = .kill := by
  by_cases hcode : code = ErrorCode.ok
  · subst hcode
    cases cmd with
    | setup =>
        cases hfind : RtspHandler.findTransport m hdrs (List.finRange maxTransports) with
        | error _ => simp [carriesOut, hfind]
        | ok found => cases found <;> simp [carriesOut, hfind]
    | describe => cases hsdp : hdrs.acceptSdp <;> simp [carriesOut, hsdp]
    | _ => simp [carriesOut]
  · have hne : cmd ≠ .kill := mt hkill hcode
    simp [carriesOut, hcode, hne]

/-- Every completed call sends one answer, except for a KILL that is carried out. -/
theorem Effect.answers {call : HandlerCall} {cmd : RtspCommand} {h' : RtspHandler} {e' : Engine}
    (heffect : call.Effect P h e cmd h' e') :
    if call.carriesOut = some .kill then h' = h else ∃ response, h'.sent = h.sent ++ [response] := by
  have hone : ∀ {response}, h.Answers h' response → ∃ response, h'.sent = h.sent ++ [response] :=
    fun hanswer => ⟨_, hanswer.sent⟩
  cases heffect with
  | answered hanswer hout hclient hcmd =>
      obtain ⟨response, hanswer⟩ := hanswer
      rw [if_neg]
      · exact hone hanswer
      · rw [hout]
        rcases hcmd with rfl | rfl | rfl <;> simp
  | setup hanswer socket hout hremove hclient =>
      obtain ⟨response, hanswer⟩ := hanswer
      rw [hout, if_neg (by simp)]
      exact hone hanswer
  | play hdrs hanswer c hout hsetup hclient =>
      rw [hout, if_neg (by simp)]
      exact hone hanswer
  | stop hanswer hout hcmd hclient hremove =>
      rw [hout]
      by_cases hkill : cmd = .kill
      · rw [if_pos hkill] at hanswer
        rw [if_pos (congrArg some hkill)]
        exact hanswer
      · rw [if_neg hkill] at hanswer
        rw [if_neg (by simpa using hkill)]
        obtain ⟨response, hanswer⟩ := hanswer
        exact hone hanswer

end HandlerCall

/-! ### The session -/

namespace Session

/-- The commands a session allows, none when it is DEAD. -/
def allowed (state : State) : List RtspCommand := (allowable state).toOption.getD []

/-- `process` completes on the block, and the handler sends one answer, or none to a KILL. -/
def AnswersOnce (P : Lookup) (net : SocketCalls) (s : Session) (h : RtspHandler) (e : Engine)
    (block back : Bytes) : Prop :=
  ∃ r, s.process P (RtspHandler.handler P net) (h, e) (block ++ back) block.length = .ok r ∧
    if Parser.named P block = some .kill then r.handler.1.sent = h.sent
    else ∃ response, r.handler.1.sent = h.sent ++ [response]

variable {P : Lookup} {net : SocketCalls} {s : Session} {h : RtspHandler} {e : Engine}
  {block back : Bytes}

theorem allowable_allowed (hstate : s.state ≠ .dead) :
    allowable s.state = .ok (allowed s.state) := by
  cases hs : s.state with
  | dead => exact absurd hs hstate
  | _ => rfl

theorem play_allowed {state : State} (hplay : RtspCommand.play ∈ allowed state) :
    state = .ready ∨ state = .play := by
  cases state with
  | ready => exact .inl rfl
  | play => exact .inr rfl
  | _ => exact absurd hplay (by decide)

theorem answersOnce_iff_run (hstate : s.state ≠ .dead) {call : HandlerCall} {m : Bytes}
    (hrequest : Parser.request P (allowed s.state) (block ++ back) 0 block.length = .ok (call, m))
    (hkill : call.carriesOut = some .kill ↔ Parser.named P block = some .kill) :
    s.AnswersOnce P net h e block back ↔
      ∃ r, call.run (RtspHandler.handler P net) (h, e) = .ok r := by
  have hcall : s.request P (block ++ back) block.length = .ok (call, m) := by
    rw [Session.request, allowable_allowed hstate]
    exact hrequest
  constructor
  · rintro ⟨r, hprocess, -⟩
    obtain ⟨call', cmd, hcall', hrun, -⟩ := process_eq_ok.1 hprocess
    obtain ⟨rfl, -⟩ := Prod.mk.inj (Except.ok.inj (hcall.symm.trans hcall'))
    exact ⟨_, hrun⟩
  · rintro ⟨⟨cmd, h', e'⟩, hrun⟩
    refine ⟨⟨(s.transition cmd).1, (s.transition cmd).2, (h', e'), m⟩,
      process_eq_ok.2 ⟨call, cmd, hcall, hrun, rfl⟩, ?_⟩
    have hanswers := (HandlerCall.run_effect hrun).answers
    by_cases hnamed : Parser.named P block = some .kill
    · rw [if_pos (hkill.2 hnamed)] at hanswers
      rw [if_pos hnamed]
      exact congrArg RtspHandler.sent hanswers
    · rw [if_neg (mt hkill.1 hnamed)] at hanswers
      rw [if_neg hnamed]
      exact hanswers

theorem answersOnce_iff (hstate : s.state ≠ .dead)
    (hclient : s.state = .ready ∨ s.state = .play → h.rtpClient ≠ none)
    (hblock : Parser.Block block) (htransport : Parser.NoTransport block) :
    s.AnswersOnce P net h e block back ↔ Parser.Answerable P block ∧
      ∀ cmd, Parser.asked P (allowed s.state) block = some (.command cmd ErrorCode.ok) →
        cmd.Stops → ∃ e', e.remove h.rtpClient = .ok e' := by
  cases hasked : Parser.asked P (allowed s.state) block with
  | none =>
      refine iff_of_false ?_ fun hanswerable => Parser.asked_eq_none.1 hasked hanswerable.1
      rintro ⟨r, hprocess, -⟩
      obtain ⟨call, cmd, hcall, -, -⟩ := process_eq_ok.1 hprocess
      rw [Session.request, allowable_allowed hstate] at hcall
      exact Parser.request_fails hblock htransport back hasked _ hcall
  | some a =>
      have hanswerable : Parser.Answerable P block := by
        by_contra hnot
        cases hasked.symm.trans (Parser.asked_eq_none.2 hnot)
      rw [and_iff_right hanswerable]
      cases a with
      | rejected =>
          obtain ⟨m, hrequest⟩ := Parser.request_rejected hblock htransport back hasked
          rw [answersOnce_iff_run hstate hrequest
            (iff_of_false (by simp [HandlerCall.carriesOut]) fun hnamed =>
              absurd (Parser.asked_rejected hasked hnamed) (by decide))]
          exact iff_of_true ⟨_, rfl⟩ fun cmd h => by simp at h
      | command cmd code =>
          obtain ⟨hnamed, hcmd, hkill, hallowed⟩ := Parser.asked_command hasked
          obtain ⟨uri, hdrs, m, hrequest, hdrs_eq⟩ :=
            Parser.request_command hblock htransport back hasked
          have hcarried : (HandlerCall.command cmd uri hdrs code m).carriesOut = some .kill ↔
              Parser.named P block = some .kill := by
            rw [hnamed, Option.some.injEq]
            exact HandlerCall.carriesOut_kill hkill
          have hplay : code = ErrorCode.ok → cmd = .play → h.rtpClient ≠ none := by
            rintro hcode rfl
            exact hclient (play_allowed (hallowed hcode (by simp)))
          rw [answersOnce_iff_run hstate hrequest hcarried,
            HandlerCall.run_completes_iff hcmd hdrs_eq hplay]
          constructor
          · intro hstops cmd' hsame
            obtain ⟨rfl, rfl⟩ := Parser.Asked.command.inj (Option.some.inj hsame)
            exact hstops rfl
          · rintro hstops rfl
            exact hstops cmd rfl

end Session

/-! ### The server -/

namespace Server

variable {P : Lookup} {s s' : Server}

/-- A session beyond INIT has a client, and every pointer to a client leads to one that was made. -/
structure Allocated (s : Server) : Prop where
  made : ∀ (i : ℕ) (conn : Connection), s.connections[i]? = some conn →
    conn.session.state = .ready ∨ conn.session.state = .play → conn.handler.rtpClient ≠ none
  client : ∀ (i : ℕ) (conn : Connection) (c : ℕ), s.connections[i]? = some conn →
    conn.handler.rtpClient = some c → c < s.engine.clients.length
  links : ∀ c, s.engine.playing.Links c → c < s.engine.clients.length

theorem allocated_new (codec : AudioCodec) (rtp rtcp : ℤ) (numBuffers : ℕ) :
    (new codec rtp rtcp numBuffers).Allocated where
  made i conn hconn := by cases hconn
  client i conn c hconn := by cases hconn
  links c hc := by
    rcases hc with hhead | ⟨d, hd⟩
    · cases hhead
    · cases hd

theorem Allocated.update {i : ℕ} {conn conn' : Connection} {e : Engine} (h : s.Allocated)
    (hconn : s.connections[i]? = some conn)
    (hmade : conn'.session.state = .ready ∨ conn'.session.state = .play →
      conn'.handler.rtpClient ≠ none)
    (hclient : ∀ c, conn'.handler.rtpClient = some c → c < e.clients.length)
    (hlength : s.engine.clients.length ≤ e.clients.length)
    (hlinks : ∀ c, e.playing.Links c → c < e.clients.length) : (s.update i conn' e).Allocated where
  made j conn₀ hj := by
    rcases update_cases hconn hj with ⟨rfl, rfl⟩ | ⟨-, hj⟩
    · exact hmade
    · exact h.made j conn₀ hj
  client j conn₀ c hj hc := by
    rcases update_cases hconn hj with ⟨rfl, rfl⟩ | ⟨-, hj⟩
    · exact hclient c hc
    · exact (h.client j conn₀ c hj hc).trans_le hlength
  links := hlinks

theorem transition_init {session : Session} {cmd : RtspCommand}
    (hstate : (session.transition cmd).2.state = .ready ∨ (session.transition cmd).2.state = .play)
    (hcmd : cmd ≠ .setup) : session.state = .ready ∨ session.state = .play := by
  unfold Session.transition at hstate
  split at hstate
  · simp [Session.setState] at hstate
  · split at hstate
    · simp [Session.setState] at hstate
    · cases hsession : session.state with
      | init => simp [hsession] at hstate
      | ready => exact .inl rfl
      | play => exact .inr rfl
      | dead => simp [hsession, Session.setState] at hstate

theorem Allocated.effect {call : HandlerCall} {cmd : RtspCommand} {hd : RtspHandler} {e : Engine}
    (h : s.Allocated) (hconn : s.connections[i]? = some conn)
    (heffect : call.Effect P conn.handler s.engine cmd hd e) :
    (s.update i ⟨(conn.session.transition cmd).2, hd, conn.phase⟩ e).Allocated := by
  have hkept (hcmd : cmd ≠ .setup) (hclient : hd.rtpClient = conn.handler.rtpClient)
      (hlength : e.clients.length = s.engine.clients.length)
      (hlinks : ∀ c, e.playing.Links c → c < s.engine.clients.length) :
      (s.update i ⟨(conn.session.transition cmd).2, hd, conn.phase⟩ e).Allocated := by
    refine h.update hconn ?_ ?_ hlength.ge (hlength ▸ hlinks)
    · intro hstate
      exact hclient ▸ h.made i conn hconn (transition_init hstate hcmd)
    · intro c hc
      rw [hlength]
      exact h.client i conn c hconn (hclient ▸ hc)
  cases heffect with
  | answered hanswer hout hclient hcmd =>
      refine hkept ?_ hclient rfl h.links
      rcases hcmd with rfl | rfl | rfl <;> simp
  | @setup _ removed hanswer socket hout hremove hclient =>
      have hclients := Engine.remove_clients hremove
      have hlength : (removed.newClient socket).2.clients.length =
          s.engine.clients.length + 1 := by
        change (removed.clients ++ [RtpClient.new socket]).length = _
        rw [List.length_append, hclients]
        rfl
      refine h.update hconn ?_ ?_ (by omega) ?_
      · intro _
        rw [hclient]
        simp
      · intro c hc
        obtain rfl := Option.some.inj (hclient.symm.trans hc)
        rw [hlength, hclients]
        exact Nat.lt_succ_self _
      · intro c hc
        rw [hlength]
        exact Nat.lt_succ_of_lt (h.links c (Engine.remove_links hremove hc))
  | play hdrs hanswer c hout hsetup hclient =>
      refine hkept (by simp) hclient rfl ?_
      intro d hd
      rcases LinkedList.links_push hd with rfl | hd
      · exact h.client i conn d hconn hsetup
      · exact h.links d hd
  | stop hanswer hout hcmd hclient hremove =>
      refine hkept ?_ hclient ?_ fun c hc => h.links c (Engine.remove_links hremove hc)
      · rcases hcmd with rfl | rfl | rfl <;> simp
      · rw [Engine.remove_clients hremove]

theorem Allocated.step (h : s.Allocated) {a : Action} (hstep : Step P s a s') : s'.Allocated := by
  cases a with
  | connect ip sid =>
      obtain rfl := Option.some.inj hstep
      refine ⟨?_, ?_, h.links⟩
      · intro i conn hconn hstate
        obtain hconn | rfl := connections_append_cases hconn
        · exact h.made i conn hconn hstate
        · simp [Session.new, Session.setState] at hstate
      · intro i conn c hconn hc
        obtain hconn | rfl := connections_append_cases hconn
        · exact h.client i conn c hconn hc
        · cases hc
  | request i net m size =>
      obtain ⟨conn, call, m', cmd, hd, e, hconn, -, -, heffect, rfl⟩ := request_effect hstep
      exact h.effect hconn heffect
  | disconnect i =>
      obtain ⟨conn, e, hconn, -, hremove, rfl⟩ := disconnect_effect hstep
      have hclients := Engine.remove_clients hremove
      refine h.update hconn (h.made i conn hconn) ?_ (by rw [hclients]) ?_
      · intro c hc
        rw [hclients]
        exact h.client i conn c hconn hc
      · intro c hc
        rw [hclients]
        exact h.links c (Engine.remove_links hremove hc)
  | destroy i =>
      obtain ⟨conn, hconn, -, rfl⟩ := destroy_effect hstep
      refine h.update hconn (h.made i conn hconn) ?_ (by simp) ?_
      · intro c hc
        rw [Engine.clients_deleteClient]
        exact h.client i conn c hconn hc
      · intro c hc
        rw [Engine.playing_deleteClient] at hc
        rw [Engine.clients_deleteClient]
        exact h.links c hc
  | getFree =>
      obtain rfl := Option.some.inj hstep
      obtain ⟨hplaying, hclients, -⟩ := s.engine.getFree_frame
      refine ⟨h.made, ?_, ?_⟩
      · intro i conn c hconn hc
        change c < s.engine.getFree.2.clients.length
        rw [hclients]
        exact h.client i conn c hconn hc
      · intro c hc
        change s.engine.getFree.2.playing.Links c at hc
        change c < s.engine.getFree.2.clients.length
        rw [hplaying] at hc
        rw [hclients]
        exact h.links c hc
  | putFree b =>
      obtain rfl := Option.some.inj hstep
      exact ⟨h.made, h.client, h.links⟩
  | send b bytes samples results =>
      obtain ⟨e, hsend, rfl⟩ := send_completes hstep
      obtain ⟨block, visited, -, -, -, rfl⟩ := Engine.send_eq_ok.1 hsend
      refine ⟨h.made, ?_, ?_⟩
      · intro i conn c hconn hc
        exact (h.client i conn c hconn hc).trans_eq (Engine.length_sendAll _ _ _ _).symm
      · intro c hc
        exact (h.links c hc).trans_eq (Engine.length_sendAll _ _ _ _).symm

theorem allocated_run {codec : AudioCodec} {rtp rtcp : ℤ} {numBuffers : ℕ} {as : List Action}
    (hrun : Run (Step P) (new codec rtp rtcp numBuffers) as s) : s.Allocated :=
  hrun.invariant (fun _ _ _ h hstep => h.step hstep) (allocated_new codec rtp rtcp numBuffers)

/-- In every state of the server, a block without a Transport header is processed to its end and
answered once exactly when its request line is answerable and, where it stops a stream, the playing
list leads to the client or ends. -/
theorem request_answered_iff (P : Lookup) (codec : AudioCodec) (rtp rtcp : ℤ) (numBuffers : ℕ)
    (as : List Action) (s : Server) (hrun : Run (Step P) (new codec rtp rtcp numBuffers) as s)
    (i : ℕ) (conn : Connection) (hconn : s.connections[i]? = some conn)
    (hstate : conn.session.state ≠ .dead) (net : SocketCalls) (block back : Bytes)
    (hblock : Parser.Block block) (htransport : Parser.NoTransport block) :
    conn.session.AnswersOnce P net conn.handler s.engine block back ↔
      Parser.Answerable P block ∧
      ∀ cmd, Parser.asked P (Session.allowed conn.session.state) block =
          some (.command cmd ErrorCode.ok) →
        cmd.Stops → ∀ c, conn.handler.rtpClient = some c →
          s.engine.playing.Ends ∨ s.engine.playing.Mem c := by
  have hallocated := allocated_run hrun
  rw [Session.answersOnce_iff hstate (hallocated.made i conn hconn) hblock htransport]
  simp only [Engine.remove_completes_iff hallocated.links]

/-- An OPTIONS without URI and version: the version is compared through a null pointer. -/
theorem options_without_version : Parser.Block (ascii "OPTIONS\r\n\r\n") ∧
    Parser.NoTransport (ascii "OPTIONS\r\n\r\n") ∧
    ∃ s conn, Run (Step Lookup.literal) pcmServer [.connect (ascii "10.0.0.1") 7] s ∧
      s.connections[0]? = some conn ∧ conn.Active ∧
      ¬conn.session.AnswersOnce Lookup.literal simulated conn.handler s.engine
        (ascii "OPTIONS\r\n\r\n") [0] := by
  refine ⟨⟨by decide +kernel, by decide +kernel⟩, by decide +kernel, _, _, .single rfl, rfl,
    by decide +kernel, ?_⟩
  rintro ⟨r, hr, -⟩
  have hfails : (Session.new.process Lookup.literal (RtspHandler.handler Lookup.literal simulated)
      (.new (ascii "10.0.0.1") 7, pcmServer.engine) (ascii "OPTIONS\r\n\r\n" ++ [0]) 11).toOption.isNone =
        true := by
    decide +kernel
  have hr' : Session.new.process Lookup.literal (RtspHandler.handler Lookup.literal simulated)
      (.new (ascii "10.0.0.1") 7, pcmServer.engine) (ascii "OPTIONS\r\n\r\n" ++ [0]) 11 = .ok r := hr
  rw [hr'] at hfails
  cases hfails

/-- A PAUSE of a playing session. -/
theorem request_answered_pause : ∃ s conn, Run (Step Lookup.literal) pcmServer
      [.connect (ascii "10.0.0.1") 7, .ofText 0 simulated setupText, .ofText 0 simulated playText] s ∧
    s.connections[0]? = some conn ∧ conn.session.state = .play ∧
    conn.session.AnswersOnce Lookup.literal simulated conn.handler s.engine pauseText [0] := by
  have hrun : (execAll (exec Lookup.literal) pcmServer
      [.connect (ascii "10.0.0.1") 7, .ofText 0 simulated setupText, .ofText 0 simulated playText]).any
      (fun s => s.connections[0]?.any fun conn => conn.session.state = .play ∧
        s.engine.playing.head = some 0 ∧ s.engine.playing.next 0 = none) = true := by
    decide +kernel
  obtain ⟨s, hs, hfound⟩ := run_of_any hrun
  obtain ⟨conn, hconn, hplaying⟩ := (Option.any_eq_true _ _).1 hfound
  obtain ⟨hstate, hhead, hnext⟩ := of_decide_eq_true hplaying
  have hends : s.engine.playing.Ends := ⟨1, by
    rw [LinkedList.nodeAt, LinkedList.nodeAt, hhead, Option.bind_some, hnext]⟩
  refine ⟨s, conn, hs, hconn, hstate, ?_⟩
  have hline : tokens space (Parser.requestLine pauseText) =
      [ascii "PAUSE", ascii "rtsp://a/b", ascii "RTSP/1.0"] := by decide +kernel
  refine (request_answered_iff Lookup.literal _ _ _ _ _ s hs 0 conn hconn
    (by simp [hstate]) simulated pauseText [0] ⟨by decide +kernel, by decide +kernel⟩
    (by decide +kernel)).2 ⟨.inr ⟨_, _, hline, .inr (by decide)⟩, fun _ _ _ _ _ => .inl hends⟩

end Server

end WifiAudio
