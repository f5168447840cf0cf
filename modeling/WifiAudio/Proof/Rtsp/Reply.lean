import WifiAudio.Proof.Audio.Description
import WifiAudio.Proof.Rtsp.Response

/-!
# The grammar of answers

Every answer has one of six shapes, and what stands in it besides the status and the CSeq belongs to
the session and the server: the session's number, the address and the ports of the server, and the
description of its codec. None of these changes while the session lives.
-/

namespace WifiAudio

open Except

/-- What the answers of a session tell of the session and the server. -/
structure Speaker where
  sid : UInt32
  ip : Bytes
  fmt : SdpFmt
  rtpPort : ℤ
  rtcpPort : ℤ

namespace Speaker

/-- The session's number as it is printed. -/
def id (v : Speaker) : ℤ := toInt v.sid.toNat

/-- The description. -/
def sdp (v : Speaker) : Bytes := (RtspHandler.new v.ip v.sid).sdp v.fmt

end Speaker

/-- The codes of the errors a request may be answered with. -/
def errorCodes : List ℤ :=
  [ErrorCode.badRequest, ErrorCode.unsupportedMediaType, ErrorCode.methodNotValidInThisState,
    ErrorCode.unsupportedTransport, ErrorCode.notImplemented, ErrorCode.versionNotSupported]

/-- The shapes of an answer. -/
inductive Reply (P : Lookup) (v : Speaker) : Response → Prop
  | error (code : ℤ) (cseq : Option ℤ) (hcode : code ∈ errorCodes) (hcseq : ∀ n ∈ cseq, InRange n) :
      Reply P v (.status code (P.lut responseLut code) :: ((cseq.map Line.cseq).toList ++ [.blank]))
  | options (hdrs : RtspHeader) (hcseq : InRange hdrs.cseq) : Reply P v (RtspHandler.commonLines P hdrs ++
      [.methods (cmdLut.entries.map Prod.fst), .blank])
  | describe (hdrs : RtspHeader) (hcseq : InRange hdrs.cseq) : Reply P v (RtspHandler.commonLines P hdrs ++
      [.contentType, .contentLength v.sdp.length, .blank, .body v.sdp])
  | setup (hdrs : RtspHeader) (hcseq : InRange hdrs.cseq) : Reply P v (RtspHandler.commonLines P hdrs ++
      [.session v.id, .transport v.rtpPort v.rtcpPort v.id, .blank])
  | play (hdrs : RtspHeader) (hcseq : InRange hdrs.cseq) : Reply P v (RtspHandler.commonLines P hdrs ++
      [.session v.id, .rtpInfo v.ip 1 0, .blank])
  | stop (hdrs : RtspHeader) (hcseq : InRange hdrs.cseq) :
      Reply P v (RtspHandler.commonLines P hdrs ++ [.session v.id, .blank])

/-! ### The codes -/

/-- The code a call carries is one of those the parser uses, and its number one that the parser read. -/
inductive HandlerCall.Coded : HandlerCall → Prop
  | error : Coded (.error ErrorCode.badRequest)
  | command {cmd uri hdrs code m} (hcode : code = ErrorCode.ok ∨ code ∈ errorCodes)
      (hcseq : InRange hdrs.cseq) : Coded (.command cmd uri hdrs code m)

namespace Parser

variable {P : Lookup} {allowable : List RtspCommand}

theorem getNumber_inRange (m : Bytes) (line : Option ℕ) (base : ℕ) :
    Ensures (getNumber m line base) fun r => ∀ read ∈ r, InRange read.1 := by
  cases line with
  | none => exact .ok nofun
  | some p =>
      refine .bind_any fun text => .ok ?_
      intro read hread
      obtain rfl := Option.some.inj hread
      exact toInt_bounds _

theorem parseSpecs_cseq (specs : List (Fin maxTransports × ℕ)) (m : Bytes) (hdr : RtspHeader) :
    Ensures (parseSpecs specs m hdr) fun r => r.2.1.cseq = hdr.cseq := by
  induction specs generalizing m hdr with
  | nil => exact .ok rfl
  | cons spec specs ih =>
      refine .bind_any fun r => .ite (fun _ => .ok rfl) fun _ => ?_
      exact ih _ _

theorem readHeader_inRange (m : Bytes) (header : ℕ) (save : Option ℕ) {hdr : RtspHeader}
    (h : InRange hdr.cseq) : Ensures (readHeader m header save hdr) fun r => InRange r.2.1.cseq := by
  refine .bind_any fun name => .ite (fun _ => ?_) fun _ => .ite (fun _ => ?_) fun _ =>
    .ite (fun _ => ?_) fun _ => .ite (fun _ => ?_) fun _ => .ok h
  · refine .bind_any fun r => (getNumber_inRange _ _ _).bind fun number hnumber => ?_
    cases number with
    | none => exact .ok h
    | some read => exact .ok (hnumber read rfl)
  · refine .bind_any fun r => .bind_any fun number => ?_
    cases number <;> exact .ok h
  · exact .bind_any fun r => .ok h
  · cases save with
    | none => exact .error _
    | some ss =>
        refine .bind_any fun n => .bind_any fun r => ?_
        refine (parseSpecs_cseq _ _ _).mono fun r hr => ?_
        rw [hr]
        exact h

theorem readLines_inRange (fuel : ℕ) (m : Bytes) (lp : LineParser) {hdr : RtspHeader} (h : InRange hdr.cseq) :
    Ensures (readLines fuel m lp hdr) fun r => InRange r.2.1.cseq := by
  induction fuel generalizing m lp hdr with
  | zero => exact .error _
  | succ fuel ih =>
      refine .bind_any fun r => ?_
      obtain ⟨line, lp', m'⟩ := r
      cases line with
      | none => exact .ok h
      | some line =>
          refine .bind_any fun r => ?_
          obtain ⟨header, save, m''⟩ := r
          cases header with
          | none => exact .ok h
          | some header =>
              refine (readHeader_inRange m'' header save h).bind fun r hr => ?_
              exact .ite (fun _ => .ok hr) fun _ => ih _ _ hr

def RecordsCoded (r : RtspCommand × Option HandlerCall × Bytes) : Prop := ∀ call ∈ r.2.1, call.Coded

theorem reject_coded (m : Bytes) :
    Ensures (reject HandlerCall.recorder ErrorCode.badRequest m none) RecordsCoded := by
  apply Ensures.ok
  intro call hcall
  obtain rfl := Option.some.inj hcall
  exact .error

theorem parseCommand_coded (m : Bytes) (lp : LineParser) (uri : Option ℕ) (cmd : RtspCommand)
    {code : ℤ} (hcode : code = ErrorCode.ok ∨ code ∈ errorCodes) :
    Ensures (parseCommand HandlerCall.recorder m lp uri cmd code none) RecordsCoded := by
  have hzero : InRange ({ acceptSdp := true } : RtspHeader).cseq := ⟨by decide, by decide⟩
  refine (readLines_inRange (lp.size + 1) m lp hzero).bind fun r hcseq => .ok ?_
  intro call hcall
  obtain rfl := Option.some.inj hcall
  exact .command hcode hcseq

theorem parseMethod_coded (m : Bytes) (lp : LineParser) (cmd : ℕ) (save : Option ℕ) :
    Ensures (parseMethod P HandlerCall.recorder allowable m lp cmd save none) RecordsCoded := by
  refine .bind_any fun text => .ite (fun _ => reject_coded m) fun _ => .bind_any fun r =>
    .bind_any ?_
  intro r'
  obtain ⟨version, save', m'⟩ := r'
  cases version with
  | none => exact .error _
  | some version =>
      refine .bind_any ?_
      intro supported
      have hcode : ∀ code ∈ [ErrorCode.versionNotSupported, ErrorCode.badRequest,
          ErrorCode.methodNotValidInThisState, ErrorCode.notImplemented, ErrorCode.ok],
          code = ErrorCode.ok ∨ code ∈ errorCodes := by decide
      cases hlookup : lookupCommand P text with
      | unknown => exact reject_coded m'
      | kill => exact parseCommand_coded m' lp r.1 .kill (.inl rfl)
      | _ =>
          refine parseCommand_coded m' lp r.1 _ (hcode _ ?_)
          split_ifs <;> decide

theorem parse_coded (m : Bytes) (data sz : ℕ) :
    Ensures (parse P HandlerCall.recorder allowable m data sz none) RecordsCoded := by
  refine .ite (fun _ => reject_coded m) fun _ => .bind_any fun r => .bind_any ?_
  intro r'
  obtain ⟨line, lp, m'⟩ := r'
  cases line with
  | none => exact reject_coded m'
  | some line =>
      refine .bind_any ?_
      intro r
      obtain ⟨cmd, save, m''⟩ := r
      cases cmd with
      | none => exact .bind_any fun _ => .error _
      | some cmd => exact parseMethod_coded m'' lp cmd save

end Parser

theorem Session.request_coded {P : Lookup} {s : Session} {m m' : Bytes} {size : ℕ}
    {call : HandlerCall} (hrequest : s.request P m size = .ok (call, m')) : call.Coded := by
  obtain ⟨allowable, -, hrequest⟩ := bind_eq_ok.1 hrequest
  obtain ⟨⟨cmd, recorded, m''⟩, hparse, hcall⟩ := bind_eq_ok.1 hrequest
  cases recorded with
  | none => cases hcall
  | some call' =>
      obtain ⟨rfl, -⟩ := Prod.mk.inj (Except.ok.inj hcall)
      exact Parser.parse_coded m 0 size _ hparse call' rfl

/-! ### The answer to a call -/

namespace HandlerCall

/-- The lines behind the status and the CSeq. -/
def tells (v : Speaker) (call : HandlerCall) : List Line :=
  match call.carriesOut with
  | some .options => [.methods (cmdLut.entries.map Prod.fst), .blank]
  | some .describe => [.contentType, .contentLength v.sdp.length, .blank, .body v.sdp]
  | some .setup => [.session v.id, .transport v.rtpPort v.rtcpPort v.id, .blank]
  | some .play => [.session v.id, .rtpInfo v.ip 1 0, .blank]
  | some .pause => [.session v.id, .blank]
  | some .teardown => [.session v.id, .blank]
  | _ => [.blank]

/-- The answer to a call that is not a KILL: what is carried out decides its shape. -/
def answer (P : Lookup) (v : Speaker) (call : HandlerCall) : Response :=
  .status call.status (P.lut responseLut call.status) :: (call.cseqLines ++ call.tells v)

/-- A KILL that is carried out is not answered. -/
def reply (P : Lookup) (v : Speaker) (call : HandlerCall) : Option Response :=
  if call.carriesOut = some .kill then none else some (call.answer P v)

variable {P : Lookup} {v : Speaker} {call : HandlerCall} {cmd : RtspCommand} {uri : Option ℕ}
  {hdrs : RtspHeader} {m : Bytes}

theorem answer_refused (hout : call.carriesOut = none) : call.answer P v =
    .status call.status (P.lut responseLut call.status) :: (call.cseqLines ++ [.blank]) := by
  rw [answer, tells, hout]

theorem answer_carried (hout : (command cmd uri hdrs ErrorCode.ok m).carriesOut ≠ none) :
    (command cmd uri hdrs ErrorCode.ok m).answer P v =
      RtspHandler.commonLines P hdrs ++ (command cmd uri hdrs ErrorCode.ok m).tells v := by
  have hstatus := (status_eq_ok fun code hcode => by cases hcode).2 hout
  rw [answer, hstatus]
  rfl

end HandlerCall

/-! ### What a handler says -/

namespace RtspHandler

/-- What the answers of a handler tell when they are printed with `e`. -/
def speaker (h : RtspHandler) (e : Engine) : Speaker :=
  ⟨h.sessionId, h.ipAddr, e.codec.sdpFmt, e.rtpPort, e.rtcpPort⟩

variable {P : Lookup} {net : SocketCalls} {h h' : RtspHandler} {e e' : Engine} {hdrs : RtspHeader}
  {m : Bytes} {code : ℤ}

/-- The handler tells the same of itself. -/
structure SameSpeaker (h h' : RtspHandler) : Prop where
  sessionId : h'.sessionId = h.sessionId
  sessionVersion : h'.sessionVersion = h.sessionVersion
  ipAddr : h'.ipAddr = h.ipAddr

theorem SameSpeaker.printf (hs : h.SameSpeaker h') (line : Line) : h.SameSpeaker (h'.printf line) :=
  ⟨hs.sessionId, hs.sessionVersion, hs.ipAddr⟩

theorem SameSpeaker.flush (hs : h.SameSpeaker h') : h.SameSpeaker h'.flush :=
  ⟨hs.sessionId, hs.sessionVersion, hs.ipAddr⟩

theorem sameSpeaker_common (P : Lookup) (h : RtspHandler) (hdrs : RtspHeader) (sid : Bool) :
    h.SameSpeaker (h.common P hdrs sid) := by
  cases sid <;> exact ⟨rfl, rfl, rfl⟩

theorem sameSpeaker_sendError (P : Lookup) (h : RtspHandler) (hdrs : Option RtspHeader) (code : ℤ) :
    h.SameSpeaker (h.sendError P hdrs code).2 := by
  cases hdrs <;> exact ⟨rfl, rfl, rfl⟩

/-- A description depends on what the handler tells of itself and on nothing else. -/
theorem sdp_speaker (hversion : h.sessionVersion = 1) : h.sdp e.codec.sdpFmt = (h.speaker e).sdp := by
  have hpart : h.sdpText = (RtspHandler.new h.ipAddr h.sessionId).sdpText := by
    funext part
    cases part with
    | sessionVersion => exact congrArg decimal hversion
    | _ => rfl
  rw [sdp, hpart]
  rfl

/-- The handler sends the answer to the call, which is one of the grammar. -/
structure Says (P : Lookup) (h : RtspHandler) (e : Engine) (call : HandlerCall) (h' : RtspHandler) :
    Prop where
  same : h.SameSpeaker h'
  answers : h.Answers h' (call.answer P (h.speaker e))
  reply : Reply P (h.speaker e) (call.answer P (h.speaker e))

theorem says_of_answers {call : HandlerCall} {r : Response} (hsame : h.SameSpeaker h')
    (hanswers : h.Answers h' r) (hreply : Reply P (h.speaker e) r)
    (hr : call.answer P (h.speaker e) = r) : h.Says P e call h' := by
  subst hr
  exact ⟨hsame, hanswers, hreply⟩

theorem says_error {call : HandlerCall} (hdrs : Option RtspHeader) (hout : call.carriesOut = none)
    (hstatus : call.status = code)
    (hcseqLines : call.cseqLines = (hdrs.map fun hdrs => Line.cseq hdrs.cseq).toList)
    (hcode : code ∈ errorCodes) (hcseq : ∀ n ∈ hdrs.map RtspHeader.cseq, InRange n) :
    h.Says P e call (h.sendError P hdrs code).2 := by
  have hreply := Reply.error (P := P) (v := h.speaker e) code (hdrs.map RtspHeader.cseq) hcode hcseq
  rw [Option.map_map] at hreply
  refine says_of_answers (sameSpeaker_sendError P h hdrs code) (HandlerCall.sendError_lines h hdrs code)
    hreply ?_
  rw [HandlerCall.answer_refused hout, hstatus, hcseqLines]

theorem inRange_of_none : ∀ n ∈ (none : Option RtspHeader).map RtspHeader.cseq, InRange n := by
  intro n hn
  cases hn

theorem inRange_of_some (hcseq : InRange hdrs.cseq) : ∀ n ∈ (some hdrs).map RtspHeader.cseq, InRange n := by
  intro n hn
  obtain rfl := Option.some.inj hn
  exact hcseq

theorem says_setup {uri : Option ℕ} (hcseq : InRange hdrs.cseq)
    (hrun : setup P net hdrs m (h, e) = .ok (code, (h', e'))) :
    h.Says P e (.command .setup uri hdrs ErrorCode.ok m) h' := by
  obtain ⟨found, hfind, hrun⟩ := bind_eq_ok.1 hrun
  cases found with
  | none =>
      obtain ⟨-, rfl, -⟩ : ErrorCode.unsupportedTransport = code ∧
          (h.sendError P (some hdrs) ErrorCode.unsupportedTransport).2 = h' ∧ e = e' := by
        simpa [sendError] using hrun
      have hout : (HandlerCall.command .setup uri hdrs ErrorCode.ok m).carriesOut = none := by
        simp [HandlerCall.carriesOut, hfind]
      exact says_error (some hdrs) hout (by simp [HandlerCall.status, hout]) rfl (by decide)
        (inRange_of_some hcseq)
  | some t =>
      by_cases hopen : net.openUdp
      · simp only [hopen, Bool.not_true, Bool.false_eq_true, if_false, pure_eq_ok] at hrun
        obtain ⟨removed, hremove, hrun⟩ := bind_eq_ok.1 hrun
        obtain ⟨-, rfl, -⟩ : ErrorCode.ok = code ∧ _ = h' ∧ _ = e' := by simpa using hrun
        have hid := (sameSpeaker_common P h hdrs true).sessionId
        have hanswer := (((h.common_prints_session P hdrs).printf (.transport e.getServerPorts.1
          e.getServerPorts.2 (toInt (h.common P hdrs true).sessionId.toNat))).printf .blank).flush
        have hsame := (((sameSpeaker_common P h hdrs true).printf (.transport e.getServerPorts.1
          e.getServerPorts.2 (toInt (h.common P hdrs true).sessionId.toNat))).printf .blank).flush
        simp only [List.append_assoc, hid] at hanswer
        simp only [hid] at hsame
        have hout : (HandlerCall.command .setup uri hdrs ErrorCode.ok m).carriesOut = some .setup := by
          simp [HandlerCall.carriesOut, hfind]
        refine says_of_answers ⟨hsame.sessionId, hsame.sessionVersion, hsame.ipAddr⟩
          ⟨hanswer.sent, hanswer.out⟩ (.setup hdrs hcseq) ?_
        rw [HandlerCall.answer_carried (by simp [hout]), HandlerCall.tells, hout]
        rfl
      · simp [hopen] at hrun

theorem says_play {uri : Option ℕ} (hcseq : InRange hdrs.cseq)
    (hrun : play P hdrs (h, e) = .ok (code, (h', e'))) :
    h.Says P e (.command .play uri hdrs ErrorCode.ok m) h' := by
  cases hclient : h.rtpClient with
  | none => simp [play, hclient] at hrun
  | some c =>
      obtain ⟨-, -, -, hanswer, -⟩ := HandlerCall.play_cases hrun
      simp only [play, hclient, if_false, reduceCtorEq, pure_eq_ok, Except.ok.injEq,
        Prod.mk.injEq] at hrun
      obtain ⟨-, rfl, -⟩ := hrun
      exact says_of_answers (((sameSpeaker_common P h hdrs true).printf _).printf _).flush hanswer
        (.play hdrs hcseq) (HandlerCall.answer_carried (by simp [HandlerCall.carriesOut]))

theorem says_stop {cmd : RtspCommand} {uri : Option ℕ} (hcseq : InRange hdrs.cseq)
    (hcmd : cmd = .pause ∨ cmd = .teardown)
    (hrun : stop P hdrs (h, e) = .ok (code, (h', e'))) :
    h.Says P e (.command cmd uri hdrs ErrorCode.ok m) h' := by
  obtain ⟨removed, -, hrun⟩ := bind_eq_ok.1 hrun
  obtain ⟨-, rfl, -⟩ : ErrorCode.ok = code ∧ _ = h' ∧ removed = e' := by simpa using hrun
  have hanswer := ((h.common_prints_session P hdrs).printf .blank).flush
  simp only [List.append_assoc] at hanswer
  refine says_of_answers ((sameSpeaker_common P h hdrs true).printf _).flush hanswer (.stop hdrs hcseq) ?_
  obtain rfl | rfl := hcmd
  · exact HandlerCall.answer_carried (by simp [HandlerCall.carriesOut])
  · exact HandlerCall.answer_carried (by simp [HandlerCall.carriesOut])

theorem says_describe {uri : Option ℕ} (hcseq : InRange hdrs.cseq) (hversion : h.sessionVersion = 1)
    (hsdp : hdrs.acceptSdp = true) :
    h.Says P e (.command .describe uri hdrs ErrorCode.ok m) (h.describe P e.codec hdrs).2 := by
  have hsame := ((((sameSpeaker_common P h hdrs false).printf .contentType).printf
    (.contentLength (h.sdp e.codec.sdpFmt).length)).printf .blank).printf
      (.body (h.sdp e.codec.sdpFmt))
  have hanswer := h.describe_answers P e.codec hdrs
  rw [sdp_speaker hversion] at hanswer
  have hout : (HandlerCall.command .describe uri hdrs ErrorCode.ok m).carriesOut = some .describe := by
    simp [HandlerCall.carriesOut, hsdp]
  refine says_of_answers hsame.flush hanswer (.describe hdrs hcseq) ?_
  rw [HandlerCall.answer_carried (by simp [hout]), HandlerCall.tells, hout]

theorem says_options (P : Lookup) (h : RtspHandler) (e : Engine) {uri : Option ℕ}
    (hcseq : InRange hdrs.cseq) :
    h.Says P e (.command .options uri hdrs ErrorCode.ok m) (h.options P hdrs).2 := by
  have hanswer := (((h.common_prints P hdrs).printf (.methods (cmdLut.entries.map
    Prod.fst))).printf .blank).flush
  simp only [List.append_assoc] at hanswer
  exact says_of_answers ⟨rfl, rfl, rfl⟩ hanswer (.options hdrs hcseq)
    (HandlerCall.answer_carried (by simp [HandlerCall.carriesOut]))

theorem says_command {cmd : RtspCommand} {uri : Option ℕ} (hcseq : InRange hdrs.cseq)
    (hversion : h.sessionVersion = 1)
    (hrun : command P net cmd hdrs ErrorCode.ok m (h, e) = .ok (code, (h', e')))
    (hkill : cmd ≠ .kill) : h.Says P e (.command cmd uri hdrs ErrorCode.ok m) h' := by
  cases cmd with
  | unknown => cases hrun
  | kill => exact absurd rfl hkill
  | options =>
      obtain ⟨-, rfl, -⟩ : ErrorCode.ok = code ∧ (h.options P hdrs).2 = h' ∧ e = e' := by
        simpa [command, options] using hrun
      exact says_options P h e hcseq
  | describe =>
      by_cases hsdp : hdrs.acceptSdp
      · obtain ⟨-, rfl, -⟩ : ErrorCode.ok = code ∧ (h.describe P e.codec hdrs).2 = h' ∧ e = e' := by
          simpa [command, describe, hsdp] using hrun
        exact says_describe hcseq hversion hsdp
      · obtain ⟨-, rfl, -⟩ : ErrorCode.unsupportedMediaType = code ∧
            (h.sendError P (some hdrs) ErrorCode.unsupportedMediaType).2 = h' ∧ e = e' := by
          simpa [command, sendError, hsdp] using hrun
        have hout : (HandlerCall.command .describe uri hdrs ErrorCode.ok m).carriesOut = none := by
          simp [HandlerCall.carriesOut, hsdp]
        exact says_error (some hdrs) hout (by simp [HandlerCall.status, hout]) rfl (by decide)
          (inRange_of_some hcseq)
  | setup => exact says_setup hcseq hrun
  | play => exact says_play hcseq hrun
  | pause => exact says_stop hcseq (.inl rfl) hrun
  | teardown => exact says_stop hcseq (.inr rfl) hrun

end RtspHandler

namespace HandlerCall

variable {P : Lookup} {net : SocketCalls} {h h' : RtspHandler} {e e' : Engine} {cmd : RtspCommand}
  {call : HandlerCall}

/-- A call that completes is answered, unless it is a KILL that is carried out. -/
theorem run_says (hrun : call.run (RtspHandler.handler P net) (h, e) = .ok (cmd, (h', e')))
    (hcoded : call.Coded) (hversion : h.sessionVersion = 1) (hkill : call.carriesOut ≠ some .kill) :
    h.Says P e call h' := by
  cases hcoded with
  | error =>
      obtain ⟨-, rfl, -⟩ : RtspCommand.unknown = cmd ∧
          (h.sendError P none ErrorCode.badRequest).2 = h' ∧ e = e' := by
        simpa [run, RtspHandler.handler, RtspHandler.error] using hrun
      exact RtspHandler.says_error none rfl rfl rfl (by decide) RtspHandler.inRange_of_none
  | @command asked uri hdrs errorCode m hcode hcseq =>
      obtain ⟨⟨code, s⟩, hcommand, hresult⟩ := bind_eq_ok.1 hrun
      obtain ⟨-, rfl⟩ := Prod.mk.inj (Except.ok.inj hresult)
      rcases hcode with rfl | herror
      · apply RtspHandler.says_command hcseq hversion hcommand
        rintro rfl
        exact hkill (by simp [carriesOut])
      · have hne : errorCode ≠ ErrorCode.ok := by
          rintro rfl
          exact absurd herror (by decide)
        obtain ⟨-, rfl, -⟩ : errorCode = code ∧ (h.sendError P (some hdrs) errorCode).2 = h' ∧
            e = e' := by
          simpa [RtspHandler.handler, RtspHandler.command, RtspHandler.sendError, hne] using hcommand
        exact RtspHandler.says_error (some hdrs) (by simp [carriesOut, hne])
          (by rw [status, if_pos hne]) rfl herror (RtspHandler.inRange_of_some hcseq)

end HandlerCall

end WifiAudio
