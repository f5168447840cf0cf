import WifiAudio.Rtsp.Handler

/-!
# What a request asks for

The parser calls the handler once. Which call that is depends on the request and on the commands
allowed, not on the handler: it is found by parsing with a handler that does nothing but record the
call.
-/

namespace WifiAudio

inductive HandlerCall
  | error (code : ℤ)
  | command (cmd : RtspCommand) (uri : Option ℕ) (hdrs : RtspHeader) (errorCode : ℤ) (m : Bytes)

namespace HandlerCall

/-- The call made on a handler, with the command the parser returns for it. -/
def run {η : Type} (handler : Handler η) (h : η) : HandlerCall → Except Fault (RtspCommand × η)
  | error code => handler.error code h
  | command cmd uri hdrs errorCode m => do
      let (code, h) ← handler.command cmd uri hdrs errorCode m h
      return (if code = ErrorCode.ok ∧ errorCode = ErrorCode.ok then cmd else .unknown, h)

def recorder : Handler (Option HandlerCall) where
  error code _ := .ok (.unknown, some (.error code))
  command cmd uri hdrs errorCode m _ := .ok (ErrorCode.ok, some (.command cmd uri hdrs errorCode m))

/-- The command that is carried out: none when the answer is an error. -/
def carriesOut : HandlerCall → Option RtspCommand
  | error _ => none
  | command cmd _ hdrs errorCode m =>
      if errorCode ≠ ErrorCode.ok then none
      else
        match cmd with
        | .setup =>
            match RtspHandler.findTransport m hdrs (List.finRange maxTransports) with
            | .ok (some _) => some .setup
            | _ => none
        | .describe => if hdrs.acceptSdp then some .describe else none
        | _ => some cmd

end HandlerCall

variable (P : Lookup)

/-- The call `Parser::parse` makes, and the request's memory afterwards. -/
def Parser.request (allowable : List RtspCommand) (m : Bytes) (data sz : ℕ) :
    Except Fault (HandlerCall × Bytes) := do
  let (_, call, m) ← parse P HandlerCall.recorder allowable m data sz none
  match call with
  | some call => return (call, m)
  | none => throw .nullPointer

/-- The parser in front of the headers: the request line is cut off and cut into its words, the second
of which is the uri. -/
def Parser.opened (m : Bytes) (data sz : ℕ) : Except Fault (Option ℕ × LineParser × Bytes) := do
  let (lp, m) ← LineParser.new m data sz
  let (line, lp, m) ← LineParser.getline m lp
  let (_, save, m) ← CString.strtok_r m line space none
  let (uri, save, m) ← CString.strtok_r m none space save
  let (_, _, m) ← CString.strtok_r m none space save
  return (uri, lp, m)

/-- What `read_headers` returns for a request. -/
def Parser.headers (m : Bytes) (data sz : ℕ) : Except Fault (Bool × RtspHeader × Bytes) := do
  let (_, lp, m) ← opened m data sz
  readHeaders m lp {}

/-- The call `Session::process` makes. -/
def Session.request (s : Session) (m : Bytes) (size : ℕ) : Except Fault (HandlerCall × Bytes) := do
  Parser.request P (← allowable s.state) m 0 size

/-- The command a request is carried out as. -/
def Session.carriesOut (s : Session) (m : Bytes) (size : ℕ) : Option RtspCommand :=
  match s.request P m size with
  | .ok (call, _) => call.carriesOut
  | .error _ => none

/-- The text of a well formed request with the given method and header lines. -/
def requestText (method : String) (headers : List String) : Bytes :=
  ascii (method ++ " rtsp://a/b RTSP/1.0") ++ crlf ++
    headers.flatMap (fun header => ascii header ++ crlf) ++ crlf

end WifiAudio
