import WifiAudio.Lib.Simulation
import WifiAudio.Server.Session
import WifiAudio.Server.System

/-!
# The server on the network

`rtsp_server` as the socket server of panglos drives it: the factory makes an `RtspClient` for every
connection, each with a buffer and a session of its own, and all of them work on one engine. What
happens is that a connection is accepted, that bytes arrive on one, that its loop is left, that it is
deleted, and that the encoder thread uses the engine, in any order.
-/

namespace WifiAudio

/-- `Factory`: the address the server is bound to, and the next number of the `SidGenerator`. -/
structure Factory where
  ip : Bytes
  sid : UInt32

/-- An `RtspClient` with its session and handler, and how far its life has got. -/
structure SocketClient where
  client : RtspClient (Session × RtspHandler)
  phase : Phase

structure Network where
  engine : Engine
  factory : Factory
  clients : List SocketClient

/-- What happens next; `chunk` is what `recv` returned on connection `i`, no bytes when the other end
has closed it, and `net` answers the socket calls of the request that it completes, if it does. -/
inductive NetworkEvent
  | accept
  | receive (i : ℕ) (net : SocketCalls) (chunk : Bytes)
  | finish (i : ℕ)
  | destroy (i : ℕ)
  | getFree
  | putFree (b : ℕ)
  | send (b bytes samples : ℕ) (results : ℕ → ℤ)

/-- `SID::generate`, which starts at 1111. -/
def Factory.generate (f : Factory) : UInt32 × Factory := (f.sid, { f with sid := f.sid + 1 })

namespace SocketClient

/-- `create_client`. -/
def new (ip : Bytes) (sid : UInt32) : SocketClient where
  client := {
    buff := List.replicate RtspClient.sz 0
    idx := 0
    session := (.new, .new ip sid)
    running := Session.new.state ≠ .dead
    calls := [] }
  phase := .live

/-- The client with the engine its handler points to. -/
def plug (w : SocketClient) (e : Engine) : RtspClient (Session × HandlerState) where
  buff := w.client.buff
  idx := w.client.idx
  session := (w.client.session.1, (w.client.session.2, e))
  running := w.client.running
  calls := w.client.calls

/-- The client without the engine. -/
def unplug (w : SocketClient) (c : RtspClient (Session × HandlerState)) : SocketClient :=
  { w with client := {
      buff := c.buff
      idx := c.idx
      session := (c.session.1, c.session.2.1)
      running := c.running
      calls := c.calls } }

/-- The connection as the server sees it. -/
def connection (w : SocketClient) : Connection := ⟨w.client.session.1, w.client.session.2, w.phase⟩

end SocketClient

namespace Network

variable (P : Lookup)

def new (codec : AudioCodec) (rtp rtcp : ℤ) (numBuffers : ℕ) (ip : Bytes) : Network where
  engine := .new codec rtp rtcp numBuffers
  factory := ⟨ip, 1111⟩
  clients := []

def accept (n : Network) : Network :=
  let (sid, factory) := n.factory.generate
  { n with factory := factory, clients := n.clients ++ [.new n.factory.ip sid] }

/-- An iteration of the loop of connection `i`. -/
def receive (n : Network) (i : ℕ) (net : SocketCalls) (chunk : Bytes) : Option Network :=
  match n.clients[i]? with
  | some w =>
      if w.phase = .live then
        match (w.plug n.engine).exec (RtspSession.create P net) chunk with
        | some c => some { n with
            engine := c.session.2.2
            clients := n.clients.set i (w.unplug c) }
        | none => none
      else none
  | none => none

/-- The loop of connection `i` has been left: `terminate`. -/
def finish (n : Network) (i : ℕ) : Option Network :=
  match n.clients[i]? with
  | some w =>
      if w.phase = .live ∧ ¬w.client.running then
        match n.engine.remove w.client.session.2.rtpClient with
        | .ok e => some { n with
            engine := e
            clients := n.clients.set i { w with phase := .terminated } }
        | .error _ => none
      else none
  | none => none

/-- The socket server deletes the client. -/
def destroy (n : Network) (i : ℕ) : Option Network :=
  match n.clients[i]? with
  | some w =>
      if w.phase = .terminated then
        some { n with
          engine := n.engine.deleteClient w.client.session.2.rtpClient
          clients := n.clients.set i { w with phase := .destroyed } }
      else none
  | none => none

/-- What happens is carried out; nothing when it cannot happen or does not complete. -/
def exec (n : Network) : NetworkEvent → Option Network
  | .accept => some n.accept
  | .receive i net chunk => n.receive P i net chunk
  | .finish i => n.finish i
  | .destroy i => n.destroy i
  | .getFree => some { n with engine := n.engine.getFree.2 }
  | .putFree b => some { n with engine := n.engine.putFree b }
  | .send b bytes samples results =>
      match n.engine.send b bytes samples results with
      | .ok e => some { n with engine := e }
      | .error _ => none

def Step (n : Network) (event : NetworkEvent) (n' : Network) : Prop := n.exec P event = some n'

/-! ### The requests on the wire -/

/-- The request an iteration hands over: none when the connection is closed, or more has to come. -/
def handed (w : SocketClient) (chunk : Bytes) : Option ℕ :=
  if chunk = [] then none
  else
    match RtspClient.frame (w.client.received chunk) with
    | .ok (.block size) => some size
    | _ => none

/-- A request: the session it is handed to, the buffer and its size. -/
structure Exchange where
  session : Session
  buff : Bytes
  size : ℕ

def Exchange.block (x : Exchange) : Bytes := x.buff.take x.size

/-- The call the request makes. -/
def Exchange.call (x : Exchange) : Option HandlerCall :=
  (x.session.request P x.buff x.size).toOption.map Prod.fst

/-- The step of the server that an event amounts to. -/
def actions (n : Network) : NetworkEvent → List Action
  | .accept => [.connect n.factory.ip n.factory.sid]
  | .receive i net chunk =>
      match n.clients[i]? with
      | some w => ((handed w chunk).map fun size =>
          Action.request i net (w.client.received chunk) size).toList
      | none => []
  | .finish i => [.disconnect i]
  | .destroy i => [.destroy i]
  | .getFree => [.getFree]
  | .putFree b => [.putFree b]
  | .send b bytes samples results => [.send b bytes samples results]

/-- The steps of the server that a run amounts to. -/
def serverRun (n : Network) (events : List NetworkEvent) : List Action :=
  Transition.labels (exec P) actions n events

/-- The request that an event hands to the session of connection `i`, as the session is then. -/
def asks (i : ℕ) (n : Network) : NetworkEvent → List Exchange
  | .receive j _ chunk =>
      if j = i then
        match n.clients[i]? with
        | some w => ((handed w chunk).map fun size =>
            ⟨w.client.session.1, w.client.received chunk, size⟩).toList
        | none => []
      else []
  | _ => []

/-- The requests of connection `i` in a run. -/
def exchanges (i : ℕ) (n : Network) (events : List NetworkEvent) : List Exchange :=
  Transition.labels (exec P) (asks i) n events

end Network

end WifiAudio
