import WifiAudio.Rtsp.Request

/-!
# A request is one call of the handler

Parsing with a handler is parsing with the recorder and making the recorded call. So what a request
does to the handler's state is known from the call alone, and for `RTSP_Handler` there are four
cases: an answer and nothing else, a SETUP, a PLAY, or a command that takes the client off the
playing list.
-/

namespace WifiAudio

open Except CString

variable {η : Type} (P : Lookup) (handler : Handler η)

namespace Parser

/-- The computation `x` on the handler completes as the recorded one, `r`, does when the recorded
call is made. -/
def Replays (h : η) (x : Except Fault (RtspCommand × η × Bytes))
    (r : Except Fault (RtspCommand × Option HandlerCall × Bytes)) : Prop :=
  ∀ cmd h' m', x = .ok (cmd, h', m') ↔
    ∃ cmd' call, r = .ok (cmd', some call, m') ∧ call.run handler h = .ok (cmd, h')

variable {handler} {h : η}

theorem Replays.error (e e' : Fault) : Replays handler h (.error e) (.error e') := by
  simp [Replays]

theorem Replays.bind {β : Type} {x : Except Fault β} {f : β → Except Fault (RtspCommand × η × Bytes)}
    {g : β → Except Fault (RtspCommand × Option HandlerCall × Bytes)}
    (hfg : ∀ b, Replays handler h (f b) (g b)) : Replays handler h (x >>= f) (x >>= g) := by
  cases x with
  | error e => exact .error e e
  | ok b => exact hfg b

theorem Replays.ite {c : Prop} [Decidable c] {x y : Except Fault (RtspCommand × η × Bytes)}
    {r t : Except Fault (RtspCommand × Option HandlerCall × Bytes)}
    (hx : c → Replays handler h x r) (hy : ¬c → Replays handler h y t) :
    Replays handler h (if c then x else y) (if c then r else t) := by
  split
  · exact hx ‹_›
  · exact hy ‹_›

theorem reject_replays (code : ℤ) (m : Bytes) :
    Replays handler h (reject handler code m h) (reject HandlerCall.recorder code m none) := by
  intro cmd h' m'
  simp only [reject, HandlerCall.recorder, ok_bind, pure_eq_ok, bind_eq_ok, Except.ok.injEq,
    Prod.mk.injEq, Option.some.injEq]
  constructor
  · rintro ⟨⟨cmd, h'⟩, hrun, rfl, rfl, rfl⟩
    exact ⟨.unknown, .error code, ⟨rfl, rfl, rfl⟩, hrun⟩
  · rintro ⟨_, _, ⟨-, rfl, rfl⟩, hrun⟩
    exact ⟨(cmd, h'), hrun, rfl, rfl, rfl⟩

theorem parseCommand_replays (m : Bytes) (lp : LineParser) (uri : Option ℕ) (cmd : RtspCommand)
    (errorCode : ℤ) :
    Replays handler h (parseCommand handler m lp uri cmd errorCode h)
      (parseCommand HandlerCall.recorder m lp uri cmd errorCode none) := by
  refine .bind ?_
  intro r cmd' h' m'
  simp only [HandlerCall.recorder, ok_bind, pure_eq_ok, bind_eq_ok, Except.ok.injEq, Prod.mk.injEq,
    Option.some.injEq]
  constructor
  · rintro ⟨⟨code, h'⟩, hrun, rfl, rfl, rfl⟩
    refine ⟨_, .command cmd uri r.2.1 errorCode r.2.2, ⟨rfl, rfl, rfl⟩, ?_⟩
    rw [HandlerCall.run, hrun]
    rfl
  · rintro ⟨_, _, ⟨-, rfl, rfl⟩, hrun⟩
    obtain ⟨⟨code, h'⟩, hcommand, hresult⟩ := bind_eq_ok.1 hrun
    obtain ⟨rfl, rfl⟩ := Prod.mk.inj (Except.ok.inj hresult)
    exact ⟨(code, h'), hcommand, rfl, rfl, rfl⟩

theorem parseMethod_replays (allowable : List RtspCommand) (m : Bytes) (lp : LineParser) (cmd : ℕ)
    (save : Option ℕ) :
    Replays handler h (parseMethod P handler allowable m lp cmd save h)
      (parseMethod P HandlerCall.recorder allowable m lp cmd save none) := by
  refine .bind fun text => .ite (fun _ => reject_replays _ m) fun _ => .bind fun r => .bind ?_
  intro r'
  obtain ⟨version, save', m'⟩ := r'
  cases version with
  | none => exact .error _ _
  | some version =>
      refine .bind ?_
      intro supported
      cases lookupCommand P text with
      | unknown => exact reject_replays _ m'
      | _ => exact parseCommand_replays m' lp r.1 _ _

theorem parse_replays (allowable : List RtspCommand) (m : Bytes) (data sz : ℕ) :
    Replays handler h (parse P handler allowable m data sz h)
      (parse P HandlerCall.recorder allowable m data sz none) := by
  refine .ite (fun _ => reject_replays _ m) fun _ => .bind fun r => .bind ?_
  intro r'
  obtain ⟨line, lp, m'⟩ := r'
  cases line with
  | none => exact reject_replays _ m'
  | some line =>
      refine .bind ?_
      intro r
      obtain ⟨cmd, save, m''⟩ := r
      cases cmd with
      | none =>
          intro cmd h' m'
          cases handler.error ErrorCode.badRequest h <;> simp [HandlerCall.recorder]
      | some cmd => exact parseMethod_replays P allowable m'' lp cmd save

/-- Parsing completes when the request asks for a call and the call completes. -/
theorem parse_eq_ok {allowable : List RtspCommand} {m m' : Bytes} {data sz : ℕ} {cmd : RtspCommand}
    {h' : η} : parse P handler allowable m data sz h = .ok (cmd, h', m') ↔
      ∃ call, request P allowable m data sz = .ok (call, m') ∧ call.run handler h = .ok (cmd, h') := by
  rw [parse_replays P allowable m data sz cmd h' m']
  simp only [request, bind_eq_ok]
  constructor
  · rintro ⟨cmd', call, hparse, hrun⟩
    exact ⟨call, ⟨_, hparse, rfl⟩, hrun⟩
  · rintro ⟨call, ⟨⟨cmd', recorded, m''⟩, hparse, hcall⟩, hrun⟩
    cases recorded with
    | none => cases hcall
    | some call' =>
        obtain ⟨rfl, rfl⟩ := Prod.mk.inj (Except.ok.inj hcall)
        exact ⟨cmd', _, hparse, hrun⟩

end Parser

variable {P handler}

theorem Session.process_eq_ok {s : Session} {h : η} {m : Bytes} {size : ℕ} {r : Processed η} :
    s.process P handler h m size = .ok r ↔
      ∃ call cmd, s.request P m size = .ok (call, r.memory) ∧
        call.run handler h = .ok (cmd, r.handler) ∧ s.transition cmd = (r.cmd, r.session) := by
  cases hallow : allowable s.state with
  | error e => simp [process, request, hallow]
  | ok commands =>
      simp only [process, request, hallow, ok_bind, bind_eq_ok, pure_eq_ok, Except.ok.injEq]
      constructor
      · rintro ⟨⟨cmd, h', m'⟩, hparse, rfl⟩
        obtain ⟨call, hrequest, hrun⟩ := (Parser.parse_eq_ok P).1 hparse
        exact ⟨call, cmd, hrequest, hrun, rfl⟩
      · rintro ⟨call, cmd, hrequest, hrun, htransition⟩
        refine ⟨(cmd, r.handler, r.memory), (Parser.parse_eq_ok P).2 ⟨call, hrequest, hrun⟩, ?_⟩
        rw [htransition]

theorem Session.process_of_run {s : Session} {h h' : η} {m m' : Bytes} {size : ℕ} {call : HandlerCall}
    {cmd : RtspCommand} (hrequest : s.request P m size = .ok (call, m'))
    (hrun : call.run handler h = .ok (cmd, h')) : s.process P handler h m size =
      .ok ⟨(s.transition cmd).1, (s.transition cmd).2, h', m'⟩ :=
  process_eq_ok.2 ⟨call, cmd, hrequest, hrun, rfl⟩

/-! ### What a call does -/

namespace RtspHandler

/-- `h'` is `h` with more lines printed. -/
def Prints (h h' : RtspHandler) (lines : List Line) : Prop :=
  h'.out = h.out ++ lines ∧ h'.sent = h.sent

/-- `h'` is `h` after one more answer has gone out. -/
structure Answers (h h' : RtspHandler) (response : Response) : Prop where
  sent : h'.sent = h.sent ++ [h.out ++ response]
  out : h'.out = []

variable {h h' : RtspHandler} {lines : List Line}

theorem Prints.printf (hp : h.Prints h' lines) (line : Line) :
    h.Prints (h'.printf line) (lines ++ [line]) :=
  ⟨by rw [← List.append_assoc, ← hp.1]; rfl, hp.2⟩

theorem Prints.flush (hp : h.Prints h' lines) : h.Answers h'.flush lines :=
  ⟨by rw [← hp.1, ← hp.2]; rfl, rfl⟩

theorem printf_prints (h : RtspHandler) (line : Line) : h.Prints (h.printf line) [line] := ⟨rfl, rfl⟩

/-- The lines of `common`. -/
def commonLines (P : Lookup) (hdrs : RtspHeader) : List Line :=
  [.status ErrorCode.ok (P.lut responseLut ErrorCode.ok), .cseq hdrs.cseq]

theorem common_prints (P : Lookup) (h : RtspHandler) (hdrs : RtspHeader) :
    h.Prints (h.common P hdrs false) (commonLines P hdrs) :=
  (h.printf_prints _).printf _

theorem common_prints_session (P : Lookup) (h : RtspHandler) (hdrs : RtspHeader) :
    h.Prints (h.common P hdrs true) (commonLines P hdrs ++ [.session (toInt h.sessionId.toNat)]) :=
  (h.common_prints P hdrs).printf _

/-- The lines of the answer to a PLAY. -/
def playResponse (P : Lookup) (h : RtspHandler) (hdrs : RtspHeader) : Response :=
  commonLines P hdrs ++ [.session (toInt h.sessionId.toNat), .rtpInfo h.ipAddr 1 0, .blank]

theorem sendError_answers (P : Lookup) (h : RtspHandler) (hdrs : Option RtspHeader) (code : ℤ) :
    ∃ response, h.Answers (h.sendError P hdrs code).2 response := by
  have hstatus := h.printf_prints (.status code (P.lut responseLut code))
  cases hdrs with
  | none =>
      have hanswer := (hstatus.printf .blank).flush
      exact ⟨_, hanswer.sent, hanswer.out⟩
  | some hdrs =>
      have hanswer := ((hstatus.printf (.cseq hdrs.cseq)).printf .blank).flush
      exact ⟨_, hanswer.sent, hanswer.out⟩

end RtspHandler

namespace HandlerCall

/-- What a completed call leaves behind: the command returned to the session, the handler and the
engine. Every call but a KILL sends one answer. -/
inductive Effect (P : Lookup) (call : HandlerCall) (h : RtspHandler) (e : Engine) :
    RtspCommand → RtspHandler → Engine → Prop
  | answered {cmd h'} (hanswer : ∃ response, h.Answers h' response)
      (hout : call.carriesOut = if cmd = .unknown then none else some cmd)
      (hclient : h'.rtpClient = h.rtpClient)
      (hcmd : cmd = .unknown ∨ cmd = .options ∨ cmd = .describe) : Effect P call h e cmd h' e
  | setup {h' e'} (hanswer : ∃ response, h.Answers h' response) (socket : UdpSocket)
      (hout : call.carriesOut = some .setup) (hremove : e.remove h.rtpClient = .ok e')
      (hclient : h'.rtpClient = some e'.clients.length) :
      Effect P call h e .setup h' (e'.newClient socket).2
  | play {h'} (hdrs : RtspHeader) (hanswer : h.Answers h' (h.playResponse P hdrs)) (c : ℕ)
      (hout : call.carriesOut = some .play) (hsetup : h.rtpClient = some c)
      (hclient : h'.rtpClient = h.rtpClient) : Effect P call h e .play h' (e.play (some c))
  | stop {cmd h' e'} (hanswer : if cmd = .kill then h' = h else ∃ response, h.Answers h' response)
      (hout : call.carriesOut = some cmd) (hcmd : cmd = .pause ∨ cmd = .teardown ∨ cmd = .kill)
      (hclient : h'.rtpClient = h.rtpClient) (hremove : e.remove h.rtpClient = .ok e') :
      Effect P call h e cmd h' e'

variable {net : SocketCalls} {h h' : RtspHandler} {e e' : Engine} {cmd : RtspCommand}

theorem setup_cases {hdrs : RtspHeader} {m : Bytes} {code : ℤ}
    (hrun : RtspHandler.setup P net hdrs m (h, e) = .ok (code, (h', e'))) :
    (∃ response, h.Answers h' response) ∧
      ((code = ErrorCode.unsupportedTransport ∧
          RtspHandler.findTransport m hdrs (List.finRange maxTransports) = .ok none ∧
          h'.rtpClient = h.rtpClient ∧ e' = e) ∨
        ∃ t removed, code = ErrorCode.ok ∧
          RtspHandler.findTransport m hdrs (List.finRange maxTransports) = .ok (some t) ∧
          e.remove h.rtpClient = .ok removed ∧ h'.rtpClient = some removed.clients.length ∧
          e' = (removed.newClient ⟨RtspHandler.getIp net, t.clientPort.1, net.connect, []⟩).2) := by
  obtain ⟨found, hfind, hrun⟩ := bind_eq_ok.1 hrun
  cases found with
  | none =>
      obtain ⟨rfl, rfl, rfl⟩ : ErrorCode.unsupportedTransport = code ∧
          (h.sendError P (some hdrs) ErrorCode.unsupportedTransport).2 = h' ∧ e = e' := by
        simpa [RtspHandler.sendError] using hrun
      exact ⟨h.sendError_answers P _ _, .inl ⟨rfl, hfind, rfl, rfl⟩⟩
  | some t =>
      by_cases hopen : net.openUdp
      · simp only [hopen, Bool.not_true, Bool.false_eq_true, if_false, pure_eq_ok] at hrun
        obtain ⟨removed, hremove, hrun⟩ := bind_eq_ok.1 hrun
        obtain ⟨rfl, hh, he⟩ : ErrorCode.ok = code ∧ _ = h' ∧ _ = e' := by simpa using hrun
        subst hh
        have hanswer := (((h.common_prints_session P hdrs).printf (.transport e.getServerPorts.1
          e.getServerPorts.2 (toInt h.sessionId.toNat))).printf .blank).flush
        exact ⟨⟨_, hanswer.sent, hanswer.out⟩,
          .inr ⟨t, removed, rfl, hfind, hremove, rfl, he.symm⟩⟩
      · simp [hopen] at hrun

theorem stop_cases {hdrs : RtspHeader} {code : ℤ}
    (hrun : RtspHandler.stop P hdrs (h, e) = .ok (code, (h', e'))) :
    (∃ response, h.Answers h' response) ∧ code = ErrorCode.ok ∧ h'.rtpClient = h.rtpClient ∧
      e.remove h.rtpClient = .ok e' := by
  obtain ⟨removed, hremove, hrun⟩ := bind_eq_ok.1 hrun
  obtain ⟨rfl, hh, rfl⟩ : ErrorCode.ok = code ∧ _ = h' ∧ removed = e' := by simpa using hrun
  subst hh
  exact ⟨⟨_, ((h.common_prints_session P hdrs).printf .blank).flush⟩, rfl, rfl, hremove⟩

theorem play_cases {hdrs : RtspHeader} {code : ℤ}
    (hrun : RtspHandler.play P hdrs (h, e) = .ok (code, (h', e'))) :
    ∃ c, h.rtpClient = some c ∧ code = ErrorCode.ok ∧ h.Answers h' (h.playResponse P hdrs) ∧
      h'.rtpClient = h.rtpClient ∧ e' = e.play (some c) := by
  cases hsetup : h.rtpClient with
  | none => simp [RtspHandler.play, hsetup] at hrun
  | some c =>
      simp only [RtspHandler.play, hsetup, if_false, reduceCtorEq, RtspHandler.rtpClient_flush,
        RtspHandler.rtpClient_printf, RtspHandler.rtpClient_common, pure_eq_ok, Except.ok.injEq,
        Prod.mk.injEq] at hrun
      obtain ⟨rfl, rfl, rfl⟩ := hrun
      have hanswer := (((h.common_prints_session P hdrs).printf (.rtpInfo h.ipAddr 1 0)).printf
        .blank).flush
      exact ⟨c, rfl, rfl, hanswer, hsetup, rfl⟩

/-- A command that fails is answered with an error, one that is carried out has its effect. -/
theorem command_effect {call : HandlerCall} {asked : RtspCommand} {uri : Option ℕ}
    {hdrs : RtspHeader} {m : Bytes} {code : ℤ} (hcall : call = .command asked uri hdrs ErrorCode.ok m)
    (hrun : RtspHandler.command P net asked hdrs ErrorCode.ok m (h, e) = .ok (code, (h', e'))) :
    Effect P call h e (if code = ErrorCode.ok then asked else .unknown) h' e' := by
  subst hcall
  cases asked with
  | unknown => cases hrun
  | options =>
      obtain ⟨rfl, rfl, rfl⟩ : ErrorCode.ok = code ∧ (h.options P hdrs).2 = h' ∧ e = e' := by
        simpa [RtspHandler.command, RtspHandler.options] using hrun
      have hanswer := (((h.common_prints P hdrs).printf (.methods (cmdLut.entries.map
        Prod.fst))).printf .blank).flush
      exact .answered ⟨_, hanswer⟩ (by simp [carriesOut]) rfl (.inr (.inl rfl))
  | describe =>
      by_cases hsdp : hdrs.acceptSdp
      · obtain ⟨rfl, rfl, rfl⟩ : ErrorCode.ok = code ∧ (h.describe P e.codec hdrs).2 = h' ∧ e = e' := by
          simpa [RtspHandler.command, RtspHandler.describe, hsdp] using hrun
        have hanswer := (((((h.common_prints P hdrs).printf .contentType).printf
          (.contentLength (h.sdp e.codec.sdpFmt).length)).printf .blank).printf
          (.body (h.sdp e.codec.sdpFmt))).flush
        exact .answered ⟨_, hanswer⟩ (by simp [carriesOut, hsdp]) rfl (.inr (.inr rfl))
      · obtain ⟨rfl, rfl, rfl⟩ : ErrorCode.unsupportedMediaType = code ∧
            (h.sendError P (some hdrs) ErrorCode.unsupportedMediaType).2 = h' ∧ e = e' := by
          simpa [RtspHandler.command, RtspHandler.sendError, hsdp] using hrun
        exact .answered (h.sendError_answers P _ _)
          (by simp [carriesOut, hsdp, ErrorCode.ok, ErrorCode.unsupportedMediaType]) rfl (.inl rfl)
  | setup =>
      obtain ⟨hanswer, ⟨rfl, hfind, hclient, rfl⟩ | ⟨t, removed, rfl, hfind, hremove, hclient, rfl⟩⟩ :=
        setup_cases hrun
      · exact .answered hanswer
          (by simp [carriesOut, hfind, ErrorCode.ok, ErrorCode.unsupportedTransport]) hclient (.inl rfl)
      · refine .setup hanswer _ ?_ hremove hclient
        simp [carriesOut, hfind]
  | play =>
      obtain ⟨c, hsetup, rfl, hanswer, hclient, rfl⟩ := play_cases hrun
      exact .play hdrs hanswer c (by simp [carriesOut]) hsetup hclient
  | pause =>
      obtain ⟨hanswer, rfl, hclient, hremove⟩ := stop_cases hrun
      exact .stop hanswer (by simp [carriesOut]) (.inl rfl) hclient hremove
  | teardown =>
      obtain ⟨hanswer, rfl, hclient, hremove⟩ := stop_cases hrun
      exact .stop hanswer (by simp [carriesOut]) (.inr (.inl rfl)) hclient hremove
  | kill =>
      obtain ⟨s, hterminate, hrun⟩ := bind_eq_ok.1 hrun
      obtain ⟨removed, hremove, hs⟩ := bind_eq_ok.1 hterminate
      obtain ⟨rfl, rfl, rfl⟩ : ErrorCode.ok = code ∧ h = h' ∧ removed = e' := by
        obtain rfl := Except.ok.inj hs
        simpa using hrun
      exact .stop rfl (by simp [carriesOut]) (.inr (.inr rfl)) rfl hremove

/-- What any completed call does. -/
theorem run_effect {call : HandlerCall}
    (hrun : call.run (RtspHandler.handler P net) (h, e) = .ok (cmd, (h', e'))) :
    Effect P call h e cmd h' e' := by
  cases call with
  | error code =>
      obtain ⟨rfl, rfl, rfl⟩ : RtspCommand.unknown = cmd ∧ (h.sendError P none code).2 = h' ∧ e = e' := by
        simpa [run, RtspHandler.handler, RtspHandler.error] using hrun
      exact .answered (h.sendError_answers P _ _) rfl rfl (.inl rfl)
  | command asked uri hdrs errorCode m =>
      obtain ⟨⟨code, s⟩, hcommand, hresult⟩ := bind_eq_ok.1 hrun
      obtain ⟨rfl, rfl⟩ := Prod.mk.inj (Except.ok.inj hresult)
      by_cases herror : errorCode = ErrorCode.ok
      · subst herror
        simpa using command_effect rfl hcommand
      · obtain ⟨rfl, rfl, rfl⟩ : errorCode = code ∧ (h.sendError P (some hdrs) errorCode).2 = h' ∧
            e = e' := by
          simpa [RtspHandler.handler, RtspHandler.command, RtspHandler.sendError, herror] using hcommand
        exact .answered (h.sendError_answers P _ _) (by simp [carriesOut, herror]) rfl
          (.inl (by simp [herror]))

end HandlerCall

end WifiAudio
