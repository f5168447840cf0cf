import WifiAudio.Lib.Transition
import WifiAudio.Rtsp.Protocol

/-!
# The connection loop

`RtspClient::run` of `rtsp_server.cpp`: bytes are received into a buffer until it holds a blank
line, and what lies before is handed to the session. The loop works on any `RTSP_Session`.
-/

namespace WifiAudio

open CString

/-- `RTSP_Session`: the state of a session, and `process`, which is handed the buffer and the size
of the request at its start. All it writes into the buffer is NUL. -/
structure RtspSession (σ : Type) where
  state : σ → State
  process : σ → Bytes → ℕ → Except Fault (RtspCommand × σ × Bytes)
  scrubs : ∀ {s s' : σ} {m m' : Bytes} {size : ℕ} {cmd : RtspCommand},
    process s m size = .ok (cmd, s', m') → Scrubbed m m'

/-- A connection: its buffer and session, whether the loop goes on, and the blocks handed to
`process` so far. -/
structure RtspClient (σ : Type) where
  buff : Bytes
  idx : ℕ
  session : σ
  running : Bool
  calls : List Bytes

/-- What an iteration finds in the buffer: it has to wait for more, or a block of that many bytes
is complete. -/
inductive Framed
  | wait
  | block (size : ℕ)
  deriving DecidableEq, Repr

namespace RtspClient

/-- The size of the buffer. -/
def sz : ℕ := 2048

/-- The end of a request. -/
def blankLine : Bytes := ascii "\r\n\r\n"

def contentLength : Bytes := ascii "Content-Length: "

variable {σ : Type} (S : RtspSession σ)

/-- The constructor clears the buffer. -/
def new (s : σ) : RtspClient σ where
  buff := List.replicate sz 0
  idx := 0
  session := s
  running := S.state s ≠ .dead
  calls := []

/-- The buffer after `recv` has written `chunk` behind the bytes it holds already. -/
def received (c : RtspClient σ) (chunk : Bytes) : Bytes :=
  c.buff.take c.idx ++ chunk ++ c.buff.drop (c.idx + chunk.length)

/-- The searches of one iteration. -/
def frame (buff : Bytes) : Except Fault Framed := do
  match ← strstr buff 0 blankLine with
  | none => return .wait
  | some block =>
      match ← strstr buff 0 contentLength with
      | some _ => .error .assertFailed
      -- ASSERT(end) cannot fail
      | none => return .block (block + 4)

/-- One iteration, `chunk` being what `recv` returned: no bytes when the connection is closed. -/
def iterate (c : RtspClient σ) (chunk : Bytes) : Except Fault (RtspClient σ) := do
  if chunk = [] then return { c with running := false }
  let buff := c.received chunk
  match ← frame buff with
  | .wait => return { c with buff := buff, idx := c.idx + chunk.length }
  | .block size =>
      let (cmd, s, m) ← S.process c.session buff size
      let calls := c.calls ++ [buff.take size]
      if cmd = .kill then
        return { c with buff := m, session := s, running := false, calls := calls }
      else
        return { buff := m, idx := 0, session := s, running := S.state s ≠ .dead, calls := calls }

/-- `recv` may return `chunk`: at most the length asked for. -/
def Receives (c : RtspClient σ) (chunk : Bytes) : Prop :=
  c.running ∧ chunk.length ≤ c.buff.length - c.idx

instance (c : RtspClient σ) (chunk : Bytes) : Decidable (c.Receives chunk) :=
  inferInstanceAs (Decidable (_ ∧ _))

/-- One iteration; nothing when it does not complete. -/
def exec (c : RtspClient σ) (chunk : Bytes) : Option (RtspClient σ) :=
  if c.Receives chunk then (c.iterate S chunk).toOption else none

/-- The loop as a transition system over the results of `recv`. -/
def Step (c : RtspClient σ) (chunk : Bytes) (c' : RtspClient σ) : Prop := c.exec S chunk = some c'

end RtspClient

end WifiAudio
