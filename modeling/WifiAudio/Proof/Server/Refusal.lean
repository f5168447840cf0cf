import WifiAudio.Proof.Server.Status

/-!
# Requests whose headers cannot be read

`read_headers` gives up at a header it cannot parse, and `Parser::parse` hands the command to the
handler all the same, with the headers in front of that one. So such a request is refused only when
it would be refused for another reason.
-/

namespace WifiAudio

open CString Except

/-- The request is answered with an error and nothing is carried out. -/
def Session.Refuses (P : Lookup) (net : SocketCalls) (s : Session) (h : RtspHandler) (e : Engine)
    (block back : Bytes) : Prop :=
  ∃ r code text rest,
    s.process P (RtspHandler.handler P net) (h, e) (block ++ back) block.length = .ok r ∧
    h.Answers r.handler.1 (.status code text :: rest) ∧ code ≠ ErrorCode.ok ∧
    r.session.state = s.state ∧ r.handler.1.rtpClient = h.rtpClient ∧
    r.handler.2.playing = e.playing

/-- What is asked for is an error already, or the headers that were read have no transport for a SETUP,
or exclude the description from the answer to a DESCRIBE. -/
def Parser.Asked.Unserved (hdrs : RtspHeader) (m : Bytes) : Parser.Asked → Prop
  | .rejected => True
  | .command cmd code => code ≠ ErrorCode.ok ∨
      (cmd = .setup ∧ RtspHandler.findTransport m hdrs (List.finRange maxTransports) = .ok none) ∨
      (cmd = .describe ∧ hdrs.acceptSdp = false)

/-! ### The call -/

section Call

variable {P : Lookup} {net : SocketCalls} {s : Session} {h : RtspHandler} {e : Engine}
  {block back m : Bytes} {hdrs : RtspHeader} {call : HandlerCall}

theorem HandlerCall.unserved_of_run {cmd : RtspCommand} {uri : Option ℕ} {code : ℤ}
    {r : RtspCommand × HandlerState}
    (hrun : (HandlerCall.command cmd uri hdrs code m).run (RtspHandler.handler P net) (h, e) = .ok r)
    (hout : (HandlerCall.command cmd uri hdrs code m).carriesOut = none) :
    (Parser.Asked.command cmd code).Unserved hdrs m := by
  by_cases hcode : code = ErrorCode.ok
  · subst hcode
    cases cmd with
    | setup =>
        refine .inr (.inl ⟨rfl, ?_⟩)
        cases hfind : RtspHandler.findTransport m hdrs (List.finRange maxTransports) with
        | error f => simp [run, RtspHandler.handler, RtspHandler.command, RtspHandler.setup, hfind] at hrun
        | ok found =>
            cases found with
            | none => rfl
            | some t => simp [carriesOut, hfind] at hout
    | describe =>
        refine .inr (.inr ⟨rfl, ?_⟩)
        cases hsdp : hdrs.acceptSdp with
        | false => rfl
        | true => simp [carriesOut, hsdp] at hout
    | _ => simp [carriesOut] at hout
  · exact .inl hcode

theorem HandlerCall.run_unserved {cmd : RtspCommand} {code : ℤ} (uri : Option ℕ)
    (hunserved : (Parser.Asked.command cmd code).Unserved hdrs m) :
    (HandlerCall.command cmd uri hdrs code m).carriesOut = none ∧
      ∃ r, (HandlerCall.command cmd uri hdrs code m).run (RtspHandler.handler P net) (h, e) = .ok r := by
  by_cases hcode : code = ErrorCode.ok
  · subst hcode
    obtain hne | ⟨rfl, hfind⟩ | ⟨rfl, hsdp⟩ := hunserved
    · exact absurd rfl hne
    · simp [carriesOut, run, RtspHandler.handler, RtspHandler.command, RtspHandler.setup, hfind]
    · simp [carriesOut, run, RtspHandler.handler, RtspHandler.command, hsdp]
  · simp [carriesOut, run, RtspHandler.handler, RtspHandler.command, hcode]

/-- A request is refused exactly when its call completes without carrying out a command. -/
theorem Session.refuses_iff_run (hrequest : s.request P (block ++ back) block.length = .ok (call, m))
    (hcode : ∀ code, call = .error code → code ≠ ErrorCode.ok) :
    s.Refuses P net h e block back ↔ call.carriesOut = none ∧
      ∃ r, call.run (RtspHandler.handler P net) (h, e) = .ok r := by
  constructor
  · rintro ⟨r, code, text, rest, hprocess, hanswer, hne, hstate, -, -⟩
    obtain ⟨call', cmd, hcall, hrun, htransition⟩ := process_eq_ok.1 hprocess
    obtain ⟨rfl, -⟩ := Prod.mk.inj (Except.ok.inj (hrequest.symm.trans hcall))
    refine ⟨?_, _, hrun⟩
    by_cases hkill : call.carriesOut = some .kill
    · -- a KILL ends the session, and it is not answered
      have hanswers := (HandlerCall.run_effect hrun).answers
      rw [if_pos hkill] at hanswers
      have hsent := hanswer.sent
      rw [hanswers] at hsent
      simp at hsent
    · obtain ⟨lines, hlines, -⟩ := HandlerCall.run_answered hrun hkill
      have hstatus := hanswer.status_unique hlines
      by_contra hout
      exact hne (hstatus.trans ((HandlerCall.status_eq_ok hcode).2 hout))
  · rintro ⟨hout, ⟨cmd, h', e'⟩, hrun⟩
    obtain ⟨rest, hanswer, -⟩ := HandlerCall.run_answered hrun (by simp [hout])
    have hstatus : call.status ≠ ErrorCode.ok := fun hok =>
      (HandlerCall.status_eq_ok hcode).1 hok hout
    have hunknown : cmd = .unknown ∧ h'.rtpClient = h.rtpClient ∧ e' = e := by
      cases HandlerCall.run_effect hrun with
      | answered _ hcmd hclient =>
          refine ⟨?_, hclient, rfl⟩
          by_contra hne
          rw [if_neg hne, hout] at hcmd
          cases hcmd
      | setup _ _ hcmd => cases hout.symm.trans hcmd
      | play _ _ _ hcmd => cases hout.symm.trans hcmd
      | stop _ hcmd => cases hout.symm.trans hcmd
    obtain ⟨rfl, hclient, rfl⟩ := hunknown
    refine ⟨⟨_, _, (h', e'), m⟩, call.status, _, _, process_eq_ok.2 ⟨call, .unknown, hrequest, hrun, rfl⟩,
      hanswer, hstatus, ?_, hclient, rfl⟩
    cases hs : s.state <;> simp [hs, setState]

end Call

/-! ### The request -/

/-- A request with a header that `read_headers` gives up at is refused exactly when the session is not
DEAD and what the request asks for is an error, or cannot be served with the headers in front. -/
theorem Session.unread_headers_refused_iff (P : Lookup) (net : SocketCalls) (s : Session)
    (h : RtspHandler) (e : Engine) {block : Bytes} (hblock : Parser.Block block) (back : Bytes)
    {hdrs : RtspHeader} {m : Bytes}
    (hheaders : Parser.headers (block ++ back) 0 block.length = .ok (false, hdrs, m)) :
    s.Refuses P net h e block back ↔ s.state ≠ .dead ∧
      ∃ a, Parser.asked P (allowed s.state) block = some a ∧ a.Unserved hdrs m := by
  by_cases hstate : s.state = .dead
  · refine iff_of_false ?_ fun hcond => hcond.1 hstate
    rintro ⟨r, code, text, rest, hprocess, -⟩
    simp [process, allowable, hstate] at hprocess
  rw [and_iff_right hstate]
  cases hasked : Parser.asked P (allowed s.state) block with
  | none =>
      refine iff_of_false ?_ (by simp)
      rintro ⟨r, code, text, rest, hprocess, -⟩
      obtain ⟨call, cmd, hcall, -, -⟩ := process_eq_ok.1 hprocess
      obtain ⟨a, ha⟩ := asked_of_request hstate hblock back hcall
      cases hasked.symm.trans ha
  | some a =>
      simp only [Option.some.injEq, exists_eq_left']
      cases a with
      | rejected =>
          obtain ⟨m', hrequest⟩ := request_of_rejected hstate hblock back hasked
          have hbad : ∀ code, HandlerCall.error ErrorCode.badRequest = .error code →
              code ≠ ErrorCode.ok := by
            intro code hcode
            obtain rfl := HandlerCall.error.inj hcode
            decide
          rw [refuses_iff_run hrequest hbad]
          exact iff_of_true ⟨rfl, _, rfl⟩ trivial
      | command cmd code =>
          obtain ⟨uri, hrequest⟩ := request_of_asked hstate hblock back hasked hheaders
          rw [refuses_iff_run hrequest (by simp)]
          constructor
          · rintro ⟨hout, r, hrun⟩
            exact HandlerCall.unserved_of_run hrun hout
          · exact HandlerCall.run_unserved _

/-- A SETUP with a CSeq header without a value. -/
def unreadSetup : Bytes :=
  requestText "SETUP" ["Transport: RTP/AVP;unicast;client_port=5000-5001", "CSeq:"]

/-- It is carried out. -/
theorem Session.unread_setup_carried_out : Parser.Block unreadSetup ∧
    (∃ hdrs m, Parser.headers (unreadSetup ++ [0]) 0 unreadSetup.length = .ok (false, hdrs, m)) ∧
    ¬Session.new.Refuses Lookup.literal Server.simulated (.new (ascii "10.0.0.1") 7)
      Server.pcmServer.engine unreadSetup [0] := by
  have hready : ((Session.new.process Lookup.literal (RtspHandler.handler Lookup.literal
      Server.simulated) (.new (ascii "10.0.0.1") 7, Server.pcmServer.engine) (unreadSetup ++ [0])
      unreadSetup.length).toOption.all fun r => r.session.state = .ready) = true := by decide +kernel
  refine ⟨⟨by decide +kernel, by decide +kernel⟩, Session.headers_of_check false (by decide +kernel), ?_⟩
  rintro ⟨r, code, text, rest, hprocess, -, -, hstate, -⟩
  rw [hprocess] at hready
  have hready := of_decide_eq_true hready
  rw [hready] at hstate
  cases hstate

/-- A PLAY with a CSeq header without a value, in the state INIT. -/
theorem Session.unread_play_refused :
    Session.new.Refuses Lookup.literal Server.simulated (.new (ascii "10.0.0.1") 7)
      Server.pcmServer.engine (requestText "PLAY" ["CSeq:"]) [0] := by
  have hblock : Parser.Block (requestText "PLAY" ["CSeq:"]) := ⟨by decide +kernel, by decide +kernel⟩
  obtain ⟨hdrs, m, hheaders⟩ : ∃ hdrs m, Parser.headers (requestText "PLAY" ["CSeq:"] ++ [0]) 0
      (requestText "PLAY" ["CSeq:"]).length = .ok (false, hdrs, m) :=
    Session.headers_of_check false (by decide +kernel)
  refine (Session.unread_headers_refused_iff Lookup.literal Server.simulated Session.new
    (.new (ascii "10.0.0.1") 7) Server.pcmServer.engine hblock [0] hheaders).2 ⟨by decide, ?_⟩
  exact ⟨.command .play ErrorCode.methodNotValidInThisState, by decide +kernel, .inl (by decide)⟩

end WifiAudio
