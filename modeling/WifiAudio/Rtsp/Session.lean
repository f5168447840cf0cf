import WifiAudio.Rtsp.Parser

/-!
# The session

`Session` of `rtsp.cpp`: the state machine that decides which commands a request may carry and what
they lead to. It works on any handler.
-/

namespace WifiAudio

/-- A session: its state, and the states it has reported to the status callback. -/
structure Session where
  state : State
  reports : List State
  deriving DecidableEq, Repr

namespace Session

def setState (s : Session) (state : State) : Session :=
  { s with state := state, reports := s.reports ++ [state] }

/-- The constructor reports the state `INIT`. -/
def new : Session := setState ⟨.init, []⟩ .init

def allowable : State → Except Fault (List RtspCommand)
  | .init => .ok [.setup, .options, .describe]
  | .ready => .ok [.teardown, .setup, .options, .describe, .play, .pause]
  | .play => .ok [.teardown, .setup, .options, .describe, .play, .pause]
  | .dead => .error .assertFailed

/-- What the command returned by the parser does to the session, and what `process` returns. -/
def transition (s : Session) (cmd : RtspCommand) : RtspCommand × Session :=
  if cmd = .kill then (.kill, s.setState .dead)
  else if cmd = .teardown then (.unknown, s.setState .dead)
  else
    match s.state with
    | .init => (cmd, if cmd = .setup then s.setState .ready else s)
    | .ready => (cmd, if cmd = .play then s.setState .play else s)
    | .play => (cmd, if cmd = .pause then s.setState .ready else s)
    | .dead => (.unknown, s.setState .dead)

/-- What a call of `process` leaves behind: its result, the session, the state of the handler and
the memory of the request. -/
structure Processed (η : Type) where
  cmd : RtspCommand
  session : Session
  handler : η
  memory : Bytes

variable {η : Type} (P : Lookup) (handler : Handler η)

/-- `Session::process` of the `size` bytes at the start of `m`. -/
def process (s : Session) (h : η) (m : Bytes) (size : ℕ) : Except Fault (Processed η) := do
  let (cmd, h, m) ← Parser.parse P handler (← allowable s.state) m 0 size h
  let (cmd, s) := s.transition cmd
  return ⟨cmd, s, h, m⟩

end Session

end WifiAudio
