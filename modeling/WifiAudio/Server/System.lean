import WifiAudio.Server.Client
import WifiAudio.Rtsp.Request

/-!
# The server

Any number of connections share one engine. A connection's client thread hands requests to its
session, calls `terminate` when its loop ends and is destroyed later by the socket server; the
encoder thread sends packets. The steps of all of them interleave freely, but a request is one step: it
stands where the handler changes the playing list, under the lock of the list. In the source the answer
goes out before that and the state of the session is set after it, and a packet may be sent in between;
what is said of packets and sessions below is said by the list, and of the states between two requests.
-/

namespace WifiAudio

/-- The life of an `RtspClient`: its loop runs, has ended with `terminate`, or it is deleted. -/
inductive Phase
  | live
  | terminated
  | destroyed
  deriving DecidableEq, Repr

structure Connection where
  session : Session
  handler : RtspHandler
  phase : Phase

/-- The loop runs: `terminate` has not been called, and the session is not DEAD. -/
def Connection.Active (conn : Connection) : Prop :=
  conn.phase = .live ∧ conn.session.state ≠ .dead

instance (conn : Connection) : Decidable conn.Active := inferInstanceAs (Decidable (_ ∧ _))

/-- The engine and every connection made so far. `owner` records whose SETUP made each client. -/
structure Server where
  engine : Engine
  connections : List Connection
  owner : List ℕ

/-- A step: a connection is made, a request is processed, the loop of a connection ends, a
connection is deleted; the encoder thread takes a block, returns it or sends it. -/
inductive Action
  | connect (ip : Bytes) (sid : UInt32)
  | request (i : ℕ) (net : SocketCalls) (m : Bytes) (size : ℕ)
  | disconnect (i : ℕ)
  | destroy (i : ℕ)
  | getFree
  | putFree (b : ℕ)
  | send (b bytes samples : ℕ) (results : ℕ → ℤ)

/-- The step that processes `text`, received into a buffer that was clear. -/
def Action.ofText (i : ℕ) (net : SocketCalls) (text : Bytes) : Action :=
  .request i net (text ++ List.replicate (RtspClient.sz - text.length) 0) text.length

namespace Server

variable (P : Lookup)

def new (codec : AudioCodec) (rtp rtcp : ℤ) (numBuffers : ℕ) : Server where
  engine := .new codec rtp rtcp numBuffers
  connections := []
  owner := []

/-- Put the result of a step of connection `i` in place; clients made by it belong to `i`. -/
def update (s : Server) (i : ℕ) (conn : Connection) (e : Engine) : Server where
  engine := e
  connections := s.connections.set i conn
  owner := s.owner ++ List.replicate (e.clients.length - s.engine.clients.length) i

/-- A request is processed while the loop of the connection runs. -/
def request (s : Server) (i : ℕ) (net : SocketCalls) (m : Bytes) (size : ℕ) : Option Server :=
  match s.connections[i]? with
  | some conn =>
      if conn.Active then
        match conn.session.process P (RtspHandler.handler P net) (conn.handler, s.engine) m size with
        | .ok r =>
            some (s.update i { conn with session := r.session, handler := r.handler.1 } r.handler.2)
        | .error _ => none
      else none
  | none => none

/-- The loop ends: `terminate`. -/
def disconnect (s : Server) (i : ℕ) : Option Server :=
  match s.connections[i]? with
  | some conn =>
      if conn.phase = .live then
        match RtspHandler.terminate (conn.handler, s.engine) with
        | .ok (h, e) => some (s.update i { conn with handler := h, phase := .terminated } e)
        | .error _ => none
      else none
  | none => none

/-- `~RtspClient`: the session and the handler, and with it its RTP client, are deleted. -/
def destroy (s : Server) (i : ℕ) : Option Server :=
  match s.connections[i]? with
  | some conn =>
      if conn.phase = .terminated then
        some (s.update i { conn with phase := .destroyed }
          (s.engine.deleteClient conn.handler.rtpClient))
      else none
  | none => none

/-- One step; nothing when it cannot be taken or does not complete. -/
def exec (s : Server) : Action → Option Server
  | .connect ip sid =>
      some { s with connections := s.connections ++ [⟨.new, .new ip sid, .live⟩] }
  | .request i net m size => s.request P i net m size
  | .disconnect i => s.disconnect i
  | .destroy i => s.destroy i
  | .getFree => some { s with engine := s.engine.getFree.2 }
  | .putFree b => some { s with engine := s.engine.putFree b }
  | .send b bytes samples results =>
      match s.engine.send b bytes samples results with
      | .ok e => some { s with engine := e }
      | .error _ => none

def Step (s : Server) (a : Action) (s' : Server) : Prop := s.exec P a = some s'

end Server

end WifiAudio
