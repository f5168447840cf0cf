import WifiAudio.Proof.Rtsp.Request

/-!
# The answer to a call

Every answer starts with its status. The CSeq line comes next, when the call has the request's
headers: `handler->error` has none. Both are known from the call alone.
-/

namespace WifiAudio

open Except

/-- The status line of an answer is known from what was sent. -/
theorem RtspHandler.Answers.status_unique {h h' : RtspHandler} {code code' : ℤ} {text text' : Bytes}
    {rest rest' : List Line} (hanswer : h.Answers h' (.status code text :: rest))
    (hanswer' : h.Answers h' (.status code' text' :: rest')) : code = code' := by
  have hsame := List.append_cancel_left (hanswer.sent.symm.trans hanswer'.sent)
  obtain ⟨hstatus, -⟩ := List.cons.inj (List.append_cancel_left (List.cons.inj hsame).1)
  exact (Line.status.inj hstatus).1

theorem RtspHandler.describe_answers (P : Lookup) (h : RtspHandler) (codec : AudioCodec)
    (hdrs : RtspHeader) :
    h.Answers (h.describe P codec hdrs).2 (commonLines P hdrs ++ [.contentType,
      .contentLength (h.sdp codec.sdpFmt).length, .blank, .body (h.sdp codec.sdpFmt)]) := by
  have hanswer := (((((h.common_prints P hdrs).printf .contentType).printf
    (.contentLength (h.sdp codec.sdpFmt).length)).printf .blank).printf
    (.body (h.sdp codec.sdpFmt))).flush
  simp only [List.append_assoc] at hanswer
  exact ⟨hanswer.sent, hanswer.out⟩

namespace HandlerCall

/-- The status a call is answered with. -/
def status (call : HandlerCall) : ℤ :=
  match call with
  | error code => code
  | command cmd _ _ errorCode _ =>
      if errorCode ≠ ErrorCode.ok then errorCode
      else if call.carriesOut ≠ none then ErrorCode.ok
      else if cmd = .setup then ErrorCode.unsupportedTransport
      else ErrorCode.unsupportedMediaType

def cseqLines : HandlerCall → List Line
  | error _ => []
  | command _ _ hdrs _ _ => [.cseq hdrs.cseq]

/-- `call` is answered: its status and CSeq lines, then lines of other kinds. -/
def Answered (P : Lookup) (call : HandlerCall) (h h' : RtspHandler) : Prop :=
  ∃ rest, h.Answers h' (.status call.status (P.lut responseLut call.status) :: (call.cseqLines ++ rest)) ∧
    ∀ n, .cseq n ∉ rest

variable {P : Lookup} {net : SocketCalls} {h h' : RtspHandler} {e e' : Engine} {cmd : RtspCommand}
  {call : HandlerCall} {uri : Option ℕ} {hdrs : RtspHeader} {m : Bytes} {code : ℤ}

theorem status_eq_ok (hcode : ∀ code, call = .error code → code ≠ ErrorCode.ok) :
    call.status = ErrorCode.ok ↔ call.carriesOut ≠ none := by
  cases call with
  | error code => exact iff_of_false (hcode code rfl) fun h => h rfl
  | command cmd uri hdrs errorCode m =>
      by_cases herror : errorCode = ErrorCode.ok
      · subst herror
        by_cases hout : carriesOut (.command cmd uri hdrs ErrorCode.ok m) = none
        · refine iff_of_false ?_ fun h => h hout
          rw [status, if_neg (by simp), if_neg (by simpa using hout)]
          split <;> decide
        · refine iff_of_true ?_ hout
          rw [status, if_neg (by simp), if_pos hout]
      · rw [status, if_pos herror]
        refine iff_of_false herror fun h => h ?_
        simp [carriesOut, herror]

theorem sendError_lines (h : RtspHandler) (hdrs : Option RtspHeader) (code : ℤ) :
    h.Answers (h.sendError P hdrs code).2 (.status code (P.lut responseLut code) ::
      ((hdrs.map fun hdrs => Line.cseq hdrs.cseq).toList ++ [.blank])) := by
  have hstatus := h.printf_prints (.status code (P.lut responseLut code))
  cases hdrs with
  | none =>
      have hanswer := (hstatus.printf .blank).flush
      exact ⟨hanswer.sent, hanswer.out⟩
  | some hdrs =>
      have hanswer := ((hstatus.printf (.cseq hdrs.cseq)).printf .blank).flush
      exact ⟨hanswer.sent, hanswer.out⟩

theorem answered_error (hstatus : (HandlerCall.command cmd uri hdrs ErrorCode.ok m).status = code) :
    Answered P (.command cmd uri hdrs ErrorCode.ok m) h (h.sendError P (some hdrs) code).2 := by
  subst hstatus
  exact ⟨[.blank], sendError_lines h (some hdrs) _, by simp⟩

theorem answered_ok {rest : List Line}
    (hout : (HandlerCall.command cmd uri hdrs ErrorCode.ok m).carriesOut ≠ none)
    (hanswer : h.Answers h' (RtspHandler.commonLines P hdrs ++ rest)) (hrest : ∀ n, .cseq n ∉ rest) :
    Answered P (.command cmd uri hdrs ErrorCode.ok m) h h' := by
  have hstatus := (status_eq_ok fun code hcode => by cases hcode).2 hout
  refine ⟨rest, ?_, hrest⟩
  rw [hstatus]
  exact hanswer

theorem setup_answered (hrun : RtspHandler.setup P net hdrs m (h, e) = .ok (code, (h', e'))) :
    Answered P (.command .setup uri hdrs ErrorCode.ok m) h h' := by
  obtain ⟨found, hfind, hrun⟩ := bind_eq_ok.1 hrun
  cases found with
  | none =>
      obtain ⟨-, rfl, -⟩ : ErrorCode.unsupportedTransport = code ∧
          (h.sendError P (some hdrs) ErrorCode.unsupportedTransport).2 = h' ∧ e = e' := by
        simpa [RtspHandler.sendError] using hrun
      apply answered_error
      simp [status, carriesOut, hfind]
  | some t =>
      by_cases hopen : net.openUdp
      · simp only [hopen, Bool.not_true, Bool.false_eq_true, if_false, pure_eq_ok] at hrun
        obtain ⟨removed, hremove, hrun⟩ := bind_eq_ok.1 hrun
        obtain ⟨-, rfl, -⟩ : ErrorCode.ok = code ∧ _ = h' ∧ _ = e' := by simpa using hrun
        have hanswer := (((h.common_prints_session P hdrs).printf (.transport e.getServerPorts.1
          e.getServerPorts.2 (toInt h.sessionId.toNat))).printf .blank).flush
        simp only [List.append_assoc] at hanswer
        exact answered_ok (by simp [carriesOut, hfind]) ⟨hanswer.sent, hanswer.out⟩ (by simp)
      · simp [hopen] at hrun

theorem stop_answered (hrun : RtspHandler.stop P hdrs (h, e) = .ok (code, (h', e')))
    (hout : (HandlerCall.command cmd uri hdrs ErrorCode.ok m).carriesOut ≠ none) :
    Answered P (.command cmd uri hdrs ErrorCode.ok m) h h' := by
  obtain ⟨removed, hremove, hrun⟩ := bind_eq_ok.1 hrun
  obtain ⟨-, rfl, -⟩ : ErrorCode.ok = code ∧ _ = h' ∧ removed = e' := by simpa using hrun
  have hanswer := ((h.common_prints_session P hdrs).printf .blank).flush
  simp only [List.append_assoc] at hanswer
  exact answered_ok hout ⟨hanswer.sent, hanswer.out⟩ (by simp)

theorem command_answered
    (hrun : RtspHandler.command P net cmd hdrs ErrorCode.ok m (h, e) = .ok (code, (h', e')))
    (hkill : cmd ≠ .kill) : Answered P (.command cmd uri hdrs ErrorCode.ok m) h h' := by
  cases cmd with
  | unknown => cases hrun
  | kill => exact absurd rfl hkill
  | options =>
      obtain ⟨-, rfl, -⟩ : ErrorCode.ok = code ∧ (h.options P hdrs).2 = h' ∧ e = e' := by
        simpa [RtspHandler.command, RtspHandler.options] using hrun
      have hanswer := (((h.common_prints P hdrs).printf (.methods (cmdLut.entries.map
        Prod.fst))).printf .blank).flush
      simp only [List.append_assoc] at hanswer
      exact answered_ok (by simp [carriesOut]) ⟨hanswer.sent, hanswer.out⟩ (by simp)
  | describe =>
      by_cases hsdp : hdrs.acceptSdp
      · obtain ⟨-, rfl, -⟩ : ErrorCode.ok = code ∧ (h.describe P e.codec hdrs).2 = h' ∧ e = e' := by
          simpa [RtspHandler.command, RtspHandler.describe, hsdp] using hrun
        exact answered_ok (by simp [carriesOut, hsdp]) (h.describe_answers P e.codec hdrs) (by simp)
      · obtain ⟨-, rfl, -⟩ : ErrorCode.unsupportedMediaType = code ∧
            (h.sendError P (some hdrs) ErrorCode.unsupportedMediaType).2 = h' ∧ e = e' := by
          simpa [RtspHandler.command, RtspHandler.sendError, hsdp] using hrun
        apply answered_error
        simp [status, carriesOut, hsdp]
  | setup => exact setup_answered hrun
  | play =>
      obtain ⟨c, -, -, hanswer, -⟩ := play_cases hrun
      exact answered_ok (by simp [carriesOut]) hanswer (by simp)
  | pause => exact stop_answered hrun (by simp [carriesOut])
  | teardown => exact stop_answered hrun (by simp [carriesOut])

/-- A call that completes is answered, unless it is a KILL that is carried out. -/
theorem run_answered (hrun : call.run (RtspHandler.handler P net) (h, e) = .ok (cmd, (h', e')))
    (hkill : call.carriesOut ≠ some .kill) : Answered P call h h' := by
  cases call with
  | error code =>
      obtain ⟨-, rfl, -⟩ : RtspCommand.unknown = cmd ∧ (h.sendError P none code).2 = h' ∧ e = e' := by
        simpa [run, RtspHandler.handler, RtspHandler.error] using hrun
      exact ⟨[.blank], sendError_lines h none code, by simp⟩
  | command asked uri hdrs errorCode m =>
      obtain ⟨⟨code, s⟩, hcommand, hresult⟩ := bind_eq_ok.1 hrun
      obtain ⟨-, rfl⟩ := Prod.mk.inj (Except.ok.inj hresult)
      by_cases herror : errorCode = ErrorCode.ok
      · subst herror
        apply command_answered hcommand
        rintro rfl
        exact hkill (by simp [carriesOut])
      · obtain ⟨-, rfl, -⟩ : errorCode = code ∧ (h.sendError P (some hdrs) errorCode).2 = h' ∧
            e = e' := by
          simpa [RtspHandler.handler, RtspHandler.command, RtspHandler.sendError, herror] using hcommand
        refine ⟨[.blank], ?_, by simp⟩
        rw [status, if_pos herror]
        exact sendError_lines h (some hdrs) errorCode

end HandlerCall

end WifiAudio
