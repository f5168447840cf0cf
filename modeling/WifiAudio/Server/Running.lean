import WifiAudio.Server.System
import WifiAudio.Server.Threads

/-!
# The running server

`_server` with everything that runs under it: the reader thread, the encoder thread and the sessions
of the connected clients, all on one engine, in any order.
-/

namespace WifiAudio

/-- The threads with the connections; `owner` records whose SETUP made each client. -/
structure RunningServer where
  threads : ServerThreads
  connections : List Connection
  owner : List ℕ

/-- A step of a client's connection, not of the encoder thread. -/
def Action.ofSession : Action → Bool
  | .connect _ _ => true
  | .request _ _ _ _ => true
  | .disconnect _ => true
  | .destroy _ => true
  | _ => false

namespace RunningServer

inductive Event
  | session (a : Action)
  | thread (a : ServerThreads.Action)

variable (P : Lookup)

/-- The sessions' part: what they see of it is the engine. -/
def server (r : RunningServer) : Server := ⟨r.threads.copy.engine, r.connections, r.owner⟩

def new (codec : AudioCodec) (rtp rtcp : ℤ) (maxRead : ℕ) (memory : ℕ → ℕ → UInt8) :
    Except Fault RunningServer := do
  return ⟨← ServerThreads.new codec rtp rtcp maxRead memory, [], []⟩

/-- The threads as a step of a session leaves them. -/
def withServer (r : RunningServer) (s : Server) : RunningServer where
  threads := { r.threads with copy := { r.threads.copy with engine := s.engine } }
  connections := s.connections
  owner := s.owner

/-- One step; nothing when it cannot be taken or does not complete, as a session's step on an engine
that is deleted. -/
def exec (r : RunningServer) : Event → Option RunningServer
  | .session a =>
      if a.ofSession ∧ r.threads.hasEngine then (r.server.exec P a).map r.withServer else none
  | .thread a =>
      if a.own then (r.threads.next a).map fun t => { r with threads := t } else none

def Step (r : RunningServer) (event : Event) (r' : RunningServer) : Prop := r.exec P event = some r'

end RunningServer

end WifiAudio
