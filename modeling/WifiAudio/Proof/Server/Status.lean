import WifiAudio.Proof.Rtsp.Response
import WifiAudio.Proof.Server.Answers

/-!
# The status of an answer

Four checks of the request line decide the status, and where all pass, the handler of the command
does. `Parser::parse` keeps the outcome of the checks in one variable, but for a method it does not
support it answers 400 whatever that variable holds.
-/

namespace WifiAudio

open CString Except

/-- The status the request line is to be answered with; none where that is left to the command's
handler. -/
def Parser.lineStatus (P : Lookup) (allowable : List RtspCommand) (method version : Bytes) : Option ℤ :=
  if lookupCommand P method = .unknown ∧ !unsupported method then some ErrorCode.badRequest
  else if version ≠ ascii "RTSP/1.0" then some ErrorCode.versionNotSupported
  else if lookupCommand P method = .unknown then some ErrorCode.notImplemented
  else if lookupCommand P method ∉ allowable then some ErrorCode.methodNotValidInThisState
  else none

/-- The request is answered with `code`. -/
def Session.AnsweredWith (P : Lookup) (net : SocketCalls) (s : Session) (h : RtspHandler) (e : Engine)
    (block back : Bytes) (code : ℤ) : Prop :=
  ∃ r text rest,
    s.process P (RtspHandler.handler P net) (h, e) (block ++ back) block.length = .ok r ∧
    h.Answers r.handler.1 (.status code text :: rest)

/-- The request is answered with the status its line is to be answered with, or else with the one that
the handler of its command returns, given the headers `hdrs`. -/
def Session.Decided (P : Lookup) (net : SocketCalls) (s : Session) (h : RtspHandler) (e : Engine)
    (block back method version : Bytes) (hdrs : RtspHeader) (m : Bytes) : Prop :=
  match Parser.lineStatus P (allowed s.state) method version with
  | some code => s.AnsweredWith P net h e block back code
  | none => ∀ code hs, RtspHandler.command P net (Parser.lookupCommand P method) hdrs ErrorCode.ok m
      (h, e) = .ok (code, hs) → s.AnsweredWith P net h e block back code

namespace HandlerCall

variable {P : Lookup} {net : SocketCalls} {h h' : RtspHandler} {e e' : Engine} {cmd : RtspCommand}
  {uri : Option ℕ} {hdrs : RtspHeader} {m : Bytes} {code : ℤ}

theorem command_status
    (hrun : RtspHandler.command P net cmd hdrs ErrorCode.ok m (h, e) = .ok (code, (h', e')))
    (hkill : cmd ≠ .kill) : (HandlerCall.command cmd uri hdrs ErrorCode.ok m).status = code := by
  cases cmd with
  | unknown => cases hrun
  | kill => exact absurd rfl hkill
  | options =>
      obtain ⟨rfl, -⟩ : ErrorCode.ok = code ∧ _ := Prod.mk.inj (Except.ok.inj hrun)
      simp [status, carriesOut]
  | describe =>
      by_cases hsdp : hdrs.acceptSdp
      · obtain ⟨rfl, -⟩ : ErrorCode.ok = code ∧ (h.describe P e.codec hdrs).2 = h' ∧ e = e' := by
          simpa [RtspHandler.command, RtspHandler.describe, hsdp] using hrun
        simp [status, carriesOut, hsdp]
      · obtain ⟨rfl, -⟩ : ErrorCode.unsupportedMediaType = code ∧
            (h.sendError P (some hdrs) ErrorCode.unsupportedMediaType).2 = h' ∧ e = e' := by
          simpa [RtspHandler.command, RtspHandler.sendError, hsdp] using hrun
        simp [status, carriesOut, hsdp]
  | setup =>
      obtain ⟨-, ⟨rfl, hfind, -⟩ | ⟨t, removed, rfl, hfind, -⟩⟩ := setup_cases hrun
      · simp [status, carriesOut, hfind]
      · simp [status, carriesOut, hfind]
  | play =>
      obtain ⟨c, -, rfl, -⟩ := play_cases hrun
      simp [status, carriesOut]
  | pause =>
      obtain ⟨-, rfl, -⟩ := stop_cases hrun
      simp [status, carriesOut]
  | teardown =>
      obtain ⟨-, rfl, -⟩ := stop_cases hrun
      simp [status, carriesOut]

theorem carriesOut_ne_kill (hkill : cmd ≠ .kill) :
    (HandlerCall.command cmd uri hdrs code m).carriesOut ≠ some .kill := by
  intro hout
  by_cases hcode : code = ErrorCode.ok
  · subst hcode
    cases cmd with
    | kill => exact hkill rfl
    | setup =>
        cases hfind : RtspHandler.findTransport m hdrs (List.finRange maxTransports) with
        | error f => simp [carriesOut, hfind] at hout
        | ok t => cases t <;> simp [carriesOut, hfind] at hout
    | describe => cases hsdp : hdrs.acceptSdp <;> simp [carriesOut, hsdp] at hout
    | _ => simp [carriesOut] at hout
  · simp [carriesOut, hcode] at hout

end HandlerCall

namespace Session

variable {P : Lookup} {net : SocketCalls} {s : Session} {h : RtspHandler} {e : Engine}
  {block back m m' method version : Bytes} {call : HandlerCall} {code : ℤ}

theorem answeredWith_of_run {cmd : RtspCommand} {hs : HandlerState}
    (hrequest : s.request P (block ++ back) block.length = .ok (call, m))
    (hrun : call.run (RtspHandler.handler P net) (h, e) = .ok (cmd, hs))
    (hkill : call.carriesOut ≠ some .kill) :
    s.AnsweredWith P net h e block back call.status := by
  obtain ⟨h', e'⟩ := hs
  obtain ⟨lines, hlines, -⟩ := HandlerCall.run_answered hrun hkill
  exact ⟨_, _, _, process_of_run hrequest hrun, hlines⟩

theorem AnsweredWith.unique {code' : ℤ} (hanswer : s.AnsweredWith P net h e block back code)
    (hanswer' : s.AnsweredWith P net h e block back code') : code = code' := by
  obtain ⟨r, text, rest, hprocess, hlines⟩ := hanswer
  obtain ⟨r', text', rest', hprocess', hlines'⟩ := hanswer'
  obtain rfl := Except.ok.inj (hprocess.symm.trans hprocess')
  exact hlines.status_unique hlines'

/-- A SETUP that is called for is answered 461 when no transport is found. Otherwise it is answered 200,
and the session has a new client on a socket connected to the port that was found. -/
theorem setup_processed {m₀ : Bytes} {size : ℕ} {uri : Option ℕ} {hdrs : RtspHeader}
    {r : Processed HandlerState}
    (hrequest : s.request P m₀ size = .ok (.command .setup uri hdrs ErrorCode.ok m, m))
    (hprocess : s.process P (RtspHandler.handler P net) (h, e) m₀ size = .ok r) :
    (RtspHandler.findTransport m hdrs (List.finRange maxTransports) = .ok none ∧
      ∃ text rest, h.Answers r.handler.1 (.status ErrorCode.unsupportedTransport text :: rest)) ∨
    ∃ t removed, RtspHandler.findTransport m hdrs (List.finRange maxTransports) = .ok (some t) ∧
      e.remove h.rtpClient = .ok removed ∧
      (∃ text rest, h.Answers r.handler.1 (.status ErrorCode.ok text :: rest)) ∧
      r.handler.1.rtpClient = some removed.clients.length ∧
      r.handler.2.clients[removed.clients.length]? =
        some (RtpClient.new ⟨RtspHandler.getIp net, t.clientPort.1, net.connect, []⟩) := by
  obtain ⟨call, cmd, hcall, hrun, -⟩ := process_eq_ok.1 hprocess
  obtain ⟨rfl, -⟩ := Prod.mk.inj (Except.ok.inj (hrequest.symm.trans hcall))
  obtain ⟨lines, hlines, -⟩ :=
    HandlerCall.run_answered hrun (HandlerCall.carriesOut_ne_kill (by decide))
  obtain ⟨⟨code, h', e'⟩, hsetup, hresult⟩ := bind_eq_ok.1 hrun
  obtain ⟨-, hhandler⟩ := Prod.mk.inj (Except.ok.inj hresult)
  have hcommand : RtspHandler.command P net .setup hdrs ErrorCode.ok m (h, e) =
      .ok (code, (h', e')) := hsetup
  have hstatus : (HandlerCall.command .setup uri hdrs ErrorCode.ok m).status = code :=
    HandlerCall.command_status hcommand (by decide)
  rw [hstatus] at hlines
  obtain ⟨-, ⟨rfl, hnone, -⟩ | ⟨t, removed, rfl, hsome, hremove, hlast, rfl⟩⟩ :=
    HandlerCall.setup_cases hsetup
  · exact .inl ⟨hnone, _, _, hlines⟩
  · right
    refine ⟨t, removed, hsome, hremove, ⟨_, _, hlines⟩, ?_, ?_⟩
    · rw [← hhandler]
      exact hlast
    · rw [← hhandler]
      change (removed.clients ++ [_])[removed.clients.length]? = _
      rw [List.getElem?_append_right le_rfl, Nat.sub_self]
      rfl

theorem lookupCommand_unsupported (hunsupported : unsupported method = true) :
    Parser.lookupCommand P method = .unknown := by
  obtain ⟨name, hname, hsame⟩ := List.any_eq_true.1 hunsupported
  have hlower : name.map toLower = method.map toLower := by
    simpa [strcasecmpEq] using hsame
  have hmiss : ∀ table : Lut RtspCommand, (∀ entry ∈ table.entries,
      ∀ name ∈ [ascii "ANNOUNCE", ascii "GET_PARAMETER", ascii "PLAY_NOTIFY", ascii "RECORD",
        ascii "REDIRECT", ascii "SET_PARAMETER"], entry.1.map toLower ≠ name.map toLower) →
      P.rlut table method = table.last := by
    intro table htable
    obtain hlast | ⟨entry, hentry, hfound, -⟩ := P.rlut_cases table method
    · exact hlast
    · have hentry' : entry.1.map toLower = method.map toLower := by
        simpa [strcasecmpEq] using hfound
      exact absurd (hentry'.trans hlower.symm) (htable entry hentry name hname)
  rw [Parser.lookupCommand, hmiss cmdLut (by decide +kernel), hmiss cmdPlusLut (by decide +kernel)]
  rfl

theorem asked_of_line {allowable : List RtspCommand} {words : List Bytes}
    (hline : tokens space (Parser.requestLine block) = method :: words) :
    Parser.asked P allowable block = Parser.askedMethod P allowable method words := by
  have hne : Parser.requestLine block ≠ [] := by
    intro hnil
    rw [hnil] at hline
    cases hline
  rw [Parser.asked, if_neg hne, hline]

/-- The line of a command that is supported asks for the command with the status it is to be answered
with. -/
theorem askedMethod_lineStatus {allowable : List RtspCommand} {uri : Bytes} {words : List Bytes}
    (hknown : Parser.lookupCommand P method ≠ .unknown) (hkill : Parser.lookupCommand P method ≠ .kill) :
    Parser.askedMethod P allowable method (uri :: version :: words) =
      some (.command (Parser.lookupCommand P method)
        ((Parser.lineStatus P allowable method version).getD ErrorCode.ok)) := by
  have hallowed : Parser.isAllowable allowable (Parser.lookupCommand P method) = true ↔
      Parser.lookupCommand P method ∈ allowable := by
    rw [Parser.isAllowable, List.contains_iff_mem]
  unfold Parser.askedMethod Parser.lineStatus
  rw [if_neg fun hcond => hknown hcond.1, if_neg fun hcond => hknown hcond.1, if_neg hknown]
  have hcode : (if version ≠ ascii "RTSP/1.0" then ErrorCode.versionNotSupported
      else if !Parser.isAllowable allowable (Parser.lookupCommand P method)
        then ErrorCode.methodNotValidInThisState
      else ErrorCode.ok) = ((if version ≠ ascii "RTSP/1.0" then some ErrorCode.versionNotSupported
      else if Parser.lookupCommand P method ∉ allowable then some ErrorCode.methodNotValidInThisState
      else none).getD ErrorCode.ok) := by
    split
    · rfl
    · by_cases hmem : Parser.lookupCommand P method ∈ allowable
      · rw [hallowed.2 hmem, if_neg (not_not.2 hmem)]
        rfl
      · rw [Bool.eq_false_iff.2 (mt hallowed.1 hmem), if_pos hmem]
        rfl
  cases hcmd : Parser.lookupCommand P method with
  | unknown => exact absurd hcmd hknown
  | kill => exact absurd hcmd hkill
  | _ =>
      rw [hcmd] at hcode
      exact congrArg (fun code => some (Parser.Asked.command _ code)) hcode

theorem lineStatus_ne_ok {allowable : List RtspCommand}
    (hstatus : Parser.lineStatus P allowable method version = some code) : code ≠ ErrorCode.ok := by
  have herror : ∀ status ∈ Parser.lineStatus P allowable method version, status ∈
      [ErrorCode.badRequest, ErrorCode.versionNotSupported, ErrorCode.notImplemented,
        ErrorCode.methodNotValidInThisState] := by
    unfold Parser.lineStatus
    split_ifs <;> simp
  have hmem := herror code hstatus
  rintro rfl
  exact absurd hmem (by decide)

/-- The call a block makes when its request line asks for a command. -/
theorem request_of_asked {cmd : RtspCommand} (hstate : s.state ≠ .dead) (hblock : Parser.Block block)
    (back : Bytes) (hasked : Parser.asked P (allowed s.state) block = some (.command cmd code))
    {read : Bool} {hdrs : RtspHeader}
    (hheaders : Parser.headers (block ++ back) 0 block.length = .ok (read, hdrs, m)) :
    ∃ uri, s.request P (block ++ back) block.length = .ok (.command cmd uri hdrs code m, m) := by
  obtain ⟨left, -, hleads⟩ := Parser.block_leads P (allowed s.state) HandlerCall.recorder none hblock back
  rw [hasked] at hleads
  obtain ⟨m', lp, uri, text, hparse, hopened, -, -⟩ := hleads
  rw [Parser.headers, hopened] at hheaders
  change Parser.readHeaders m' lp {} = _ at hheaders
  refine ⟨some uri, ?_⟩
  rw [request, allowable_allowed hstate]
  simp only [ok_bind]
  rw [Parser.request, hparse, Parser.parseCommand, hheaders]
  rfl

theorem headers_of_request {cmd : RtspCommand} (hstate : s.state ≠ .dead) (hblock : Parser.Block block)
    (back : Bytes) (hasked : Parser.asked P (allowed s.state) block = some (.command cmd code))
    {r : HandlerCall × Bytes} (hrequest : s.request P (block ++ back) block.length = .ok r) :
    ∃ read hdrs m, Parser.headers (block ++ back) 0 block.length = .ok (read, hdrs, m) := by
  obtain ⟨left, -, hleads⟩ := Parser.block_leads P (allowed s.state) HandlerCall.recorder none hblock back
  rw [hasked] at hleads
  obtain ⟨m', lp, uri, text, hparse, hopened, -, -⟩ := hleads
  rw [request, allowable_allowed hstate] at hrequest
  simp only [ok_bind] at hrequest
  obtain ⟨x, hx, -⟩ := bind_eq_ok.1 hrequest
  rw [hparse] at hx
  obtain ⟨⟨read, hdrs, m⟩, hread, -⟩ := bind_eq_ok.1 hx
  refine ⟨read, hdrs, m, ?_⟩
  rw [Parser.headers, hopened]
  exact hread

theorem opened_of_asked {allowable : List RtspCommand} {cmd : RtspCommand} {left : Bytes}
    (hblock : Parser.Block block) (back : Bytes)
    (hasked : Parser.asked P allowable block = some (.command cmd code))
    (hlines : Parser.skipEmpty block = Parser.requestLine block ++ crlf ++ left) :
    ∃ uri lp m, Parser.opened (block ++ back) 0 block.length = .ok (uri, lp, m) ∧
      LineParser.At m lp left back := by
  obtain ⟨left', hleft, hleads⟩ := Parser.block_leads P allowable HandlerCall.recorder none hblock back
  rw [hasked] at hleads
  obtain ⟨m, lp, uri, text, -, hopen, hopened, -⟩ := hleads
  rw [hleft _ _ hasked] at hlines
  have hat := hopened.lines
  rw [List.append_cancel_left hlines] at hat
  exact ⟨some uri, lp, m, hopen, hat⟩

theorem request_of_rejected (hstate : s.state ≠ .dead) (hblock : Parser.Block block) (back : Bytes)
    (hasked : Parser.asked P (allowed s.state) block = some .rejected) :
    ∃ m, s.request P (block ++ back) block.length = .ok (.error ErrorCode.badRequest, m) := by
  obtain ⟨left, -, hleads⟩ := Parser.block_leads P (allowed s.state) HandlerCall.recorder none hblock back
  rw [hasked] at hleads
  obtain ⟨m, hparse⟩ := hleads
  refine ⟨m, ?_⟩
  rw [request, allowable_allowed hstate]
  simp only [ok_bind]
  rw [Parser.request, hparse]
  rfl

theorem asked_of_request (hstate : s.state ≠ .dead) (hblock : Parser.Block block) (back : Bytes)
    {r : HandlerCall × Bytes} (hrequest : s.request P (block ++ back) block.length = .ok r) :
    ∃ a, Parser.asked P (allowed s.state) block = some a := by
  obtain ⟨left, -, hleads⟩ := Parser.block_leads P (allowed s.state) HandlerCall.recorder none hblock back
  cases hasked : Parser.asked P (allowed s.state) block with
  | some a => exact ⟨a, rfl⟩
  | none =>
      rw [hasked] at hleads
      rw [request, allowable_allowed hstate] at hrequest
      simp only [ok_bind] at hrequest
      obtain ⟨x, hparse, -⟩ := bind_eq_ok.1 hrequest
      exact absurd hparse (hleads x)

/-- Outside DEAD, a request line with a method, a URI and a version is answered with the status of the
table exactly when the method is not one of the valid but unsupported ones. -/
theorem decided_iff (P : Lookup) (net : SocketCalls) (s : Session) (hstate : s.state ≠ .dead)
    (h : RtspHandler) (e : Engine) {block : Bytes} (hblock : Parser.Block block) (back : Bytes)
    {method uri version : Bytes} {words : List Bytes}
    (hline : tokens space (Parser.requestLine block) = method :: uri :: version :: words)
    (hkill : Parser.lookupCommand P method ≠ .kill) {read : Bool} {hdrs : RtspHeader} {m : Bytes}
    (hheaders : Parser.headers (block ++ back) 0 block.length = .ok (read, hdrs, m)) :
    s.Decided P net h e block back method version hdrs m ↔ unsupported method = false := by
  by_cases hknown : Parser.lookupCommand P method = .unknown
  · -- the request is rejected
    have hasked : Parser.askedMethod P (allowed s.state) method (uri :: version :: words) =
        some .rejected := by
      unfold Parser.askedMethod
      split
      · rfl
      · simp only [hknown]
    obtain ⟨m', hcall⟩ := request_of_rejected hstate hblock back ((asked_of_line hline).trans hasked)
    have hbad : s.AnsweredWith P net h e block back ErrorCode.badRequest :=
      answeredWith_of_run hcall rfl (by simp [HandlerCall.carriesOut])
    unfold Decided Parser.lineStatus
    cases hunsupported : unsupported method with
    | false =>
        rw [if_pos ⟨hknown, rfl⟩]
        exact iff_of_true hbad rfl
    | true =>
        rw [if_neg fun hcond => Bool.noConfusion hcond.2]
        refine iff_of_false ?_ (by simp)
        intro hdecided
        by_cases hversion : version ≠ ascii "RTSP/1.0"
        · rw [if_pos hversion] at hdecided
          exact absurd (hbad.unique hdecided) (by decide)
        · rw [if_neg hversion, if_pos hknown] at hdecided
          exact absurd (hbad.unique hdecided) (by decide)
  · -- the command goes to the handler
    have hunsupported : unsupported method = false := by
      rw [Bool.eq_false_iff]
      exact fun htrue => hknown (lookupCommand_unsupported htrue)
    refine iff_of_true ?_ hunsupported
    have hasked : Parser.asked P (allowed s.state) block = some (.command (Parser.lookupCommand P method)
        ((Parser.lineStatus P (allowed s.state) method version).getD ErrorCode.ok)) :=
      (asked_of_line hline).trans (askedMethod_lineStatus hknown hkill)
    obtain ⟨uri', hcall⟩ := request_of_asked hstate hblock back hasked hheaders
    unfold Decided
    cases hstatus : Parser.lineStatus P (allowed s.state) method version with
    | some code =>
        rw [hstatus] at hcall
        simp only [Option.getD_some] at hcall
        have hcode := lineStatus_ne_ok hstatus
        have hcommand : RtspHandler.command P net (Parser.lookupCommand P method) hdrs code m (h, e) =
            .ok (code, ((h.sendError P (some hdrs) code).2, e)) := if_pos hcode
        have hanswer := answeredWith_of_run hcall
          (bind_eq_ok.2 ⟨_, hcommand, rfl⟩) (by simp [HandlerCall.carriesOut, hcode])
        rwa [HandlerCall.status, if_pos hcode] at hanswer
    | none =>
        rw [hstatus] at hcall
        simp only [Option.getD_none] at hcall
        intro code hs hcommand
        obtain ⟨h', e'⟩ := hs
        have hanswer := answeredWith_of_run hcall
          (bind_eq_ok.2 ⟨(code, h', e'), hcommand, rfl⟩) (HandlerCall.carriesOut_ne_kill hkill)
        rwa [HandlerCall.command_status hcommand hkill] at hanswer

theorem headers_of_check (read : Bool)
    (hcheck : ((Parser.headers (block ++ [0]) 0 block.length).toOption.any fun r => r.1 = read) = true) :
    ∃ hdrs m, Parser.headers (block ++ [0]) 0 block.length = .ok (read, hdrs, m) := by
  obtain ⟨⟨read', hdrs, m⟩, hheaders, hread⟩ := eq_ok_of_any hcheck
  obtain rfl : read' = read := of_decide_eq_true hread
  exact ⟨hdrs, m, hheaders⟩

/-- What a new session answers to a text. -/
theorem answers_of_check (block : Bytes) (response : Response)
    (hcheck : ((new.process Lookup.literal (RtspHandler.handler Lookup.literal
      Server.simulated) (.new (ascii "10.0.0.1") 7, Server.pcmServer.engine) (block ++ [0])
      block.length).toOption.any fun r => r.handler.1.sent = [response] ∧ r.handler.1.out = []) = true) :
    ∃ r, new.process Lookup.literal (RtspHandler.handler Lookup.literal Server.simulated)
        (.new (ascii "10.0.0.1") 7, Server.pcmServer.engine) (block ++ [0]) block.length = .ok r ∧
      (RtspHandler.new (ascii "10.0.0.1") 7).Answers r.handler.1 response := by
  obtain ⟨r, hprocess, hsame⟩ := eq_ok_of_any hcheck
  obtain ⟨hsent, hout⟩ := of_decide_eq_true hsame
  exact ⟨r, hprocess, hsent, hout⟩

/-- An OPTIONS request with another version. -/
theorem options_decided : ∃ hdrs m,
    Parser.headers (ascii "OPTIONS rtsp://a/b RTSP/2.0\r\n\r\n" ++ [0]) 0 31 = .ok (true, hdrs, m) ∧
    Session.new.Decided Lookup.literal Server.simulated (.new (ascii "10.0.0.1") 7)
      Server.pcmServer.engine (ascii "OPTIONS rtsp://a/b RTSP/2.0\r\n\r\n") [0] (ascii "OPTIONS")
      (ascii "RTSP/2.0") hdrs m := by
  have hblock : Parser.Block (ascii "OPTIONS rtsp://a/b RTSP/2.0\r\n\r\n") :=
    ⟨by decide +kernel, by decide +kernel⟩
  obtain ⟨hdrs, m, hheaders⟩ : ∃ hdrs m, Parser.headers
      (ascii "OPTIONS rtsp://a/b RTSP/2.0\r\n\r\n" ++ [0]) 0
      (ascii "OPTIONS rtsp://a/b RTSP/2.0\r\n\r\n").length = .ok (true, hdrs, m) :=
    headers_of_check true (by decide +kernel)
  have hline : tokens space (Parser.requestLine (ascii "OPTIONS rtsp://a/b RTSP/2.0\r\n\r\n")) =
      [ascii "OPTIONS", ascii "rtsp://a/b", ascii "RTSP/2.0"] := by decide +kernel
  exact ⟨hdrs, m, hheaders, (decided_iff Lookup.literal Server.simulated Session.new (by decide)
    (.new (ascii "10.0.0.1") 7) Server.pcmServer.engine hblock [0] hline (by decide +kernel)
    hheaders).2 (by decide +kernel)⟩

/-- A RECORD request is answered 400, not 501. -/
theorem record_not_decided :
    Parser.Block (ascii "RECORD rtsp://a/b RTSP/1.0\r\n\r\n") ∧
    tokens space (Parser.requestLine (ascii "RECORD rtsp://a/b RTSP/1.0\r\n\r\n")) =
      [ascii "RECORD", ascii "rtsp://a/b", ascii "RTSP/1.0"] ∧
    ∃ hdrs m, Parser.headers (ascii "RECORD rtsp://a/b RTSP/1.0\r\n\r\n" ++ [0]) 0 30 =
        .ok (true, hdrs, m) ∧
      ¬Session.new.Decided Lookup.literal Server.simulated (.new (ascii "10.0.0.1") 7)
        Server.pcmServer.engine (ascii "RECORD rtsp://a/b RTSP/1.0\r\n\r\n") [0] (ascii "RECORD")
        (ascii "RTSP/1.0") hdrs m := by
  obtain ⟨hdrs, m, hheaders⟩ : ∃ hdrs m, Parser.headers
      (ascii "RECORD rtsp://a/b RTSP/1.0\r\n\r\n" ++ [0]) 0
      (ascii "RECORD rtsp://a/b RTSP/1.0\r\n\r\n").length = .ok (true, hdrs, m) :=
    headers_of_check true (by decide +kernel)
  refine ⟨⟨by decide +kernel, by decide +kernel⟩, by decide +kernel, hdrs, m, hheaders, ?_⟩
  have hstatus : Parser.lineStatus Lookup.literal (allowed Session.new.state) (ascii "RECORD")
      (ascii "RTSP/1.0") = some ErrorCode.notImplemented := by decide +kernel
  unfold Decided
  rw [hstatus]
  rintro ⟨r, text, rest, hprocess, hanswer⟩
  have hsent : ((Session.new.process Lookup.literal (RtspHandler.handler Lookup.literal
      Server.simulated) (.new (ascii "10.0.0.1") 7, Server.pcmServer.engine)
      (ascii "RECORD rtsp://a/b RTSP/1.0\r\n\r\n" ++ [0])
      (ascii "RECORD rtsp://a/b RTSP/1.0\r\n\r\n").length).toOption.all fun r =>
        r.handler.1.sent = [[.status 400 (ascii "Bad Request"), .blank]]) = true := by decide +kernel
  rw [hprocess] at hsent
  have hsent := of_decide_eq_true hsent
  rw [hanswer.sent] at hsent
  have hlines := (List.cons.inj hsent).1
  have hcode := (Line.status.inj (List.cons.inj hlines).1).1
  exact absurd hcode (by decide)

end Session

end WifiAudio
