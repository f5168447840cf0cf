import WifiAudio.Lib.LinkedList
import WifiAudio.Lib.Transition
import WifiAudio.Rtp.Packet
import WifiAudio.Audio.Codec

/-!
# The RTP engine

`RTP_Engine` of `rtp.cpp`: the clients that are playing, the pool of packet buffers and the two
counters every packet is stamped with. The clients and the buffers are objects in memory, named by
their number; both the playing list and the free list are intrusive lists through them.
-/

namespace WifiAudio

/-- A UDP socket: the address and port given to `connect`, whether that connected it, and what was
sent. -/
structure UdpSocket where
  ip : Option Bytes
  port : ℤ
  connected : Bool
  sent : List Bytes
  deriving DecidableEq, Repr

/-- `RTP_Client`, without its link. -/
structure RtpClient where
  socket : UdpSocket
  numPackets : ℤ
  numErrors : ℤ
  deriving DecidableEq, Repr

/-- `RTP_Engine::Block` with the packet it points to: the header and the payload behind it. -/
structure Block where
  head : RtpHeader
  audio : Bytes
  maxPayload : ℕ
  deriving DecidableEq

/-- The engine, every RTP_Client made so far (`clients`) and those deleted again (`freed`), and
every block the constructor made (`pool`). -/
structure Engine where
  codec : AudioCodec
  rtpPort : ℤ
  rtcpPort : ℤ
  playing : LinkedList ℕ
  packetSeq : UInt16
  timestamp : UInt32
  blocks : LinkedList ℕ
  clients : List RtpClient
  freed : List ℕ
  pool : List Block

namespace RtpClient

def new (socket : UdpSocket) : RtpClient := ⟨socket, 0, 0⟩

/-- `send_packet`: the packet goes to the client's socket, whose `send` returns `result`. -/
def sendPacket (data : Bytes) (result : ℤ) (c : RtpClient) : RtpClient where
  socket := { c.socket with sent := c.socket.sent ++ [data] }
  numPackets := toInt (c.numPackets + 1)
  numErrors := if result = data.length then c.numErrors else toInt (c.numErrors + 1)

end RtpClient

namespace Block

/-- The block as the constructor makes it. -/
def new (codec : AudioCodec) : Block where
  head := .initial codec.payloadType
  audio := List.replicate codec.maxPayloadSize 0
  maxPayload := codec.maxPayloadSize

/-- The block with its running header fields written. -/
def stamp (b : Block) (seq : UInt16) (timestamp : UInt32) : Block :=
  { b with head := (b.head.setSeq seq).setTimestamp timestamp }

/-- The first `12 + bytes` bytes of the packet. -/
def packet (b : Block) (bytes : ℕ) : Bytes := b.head.toList ++ b.audio.take bytes

end Block

namespace Engine

def new (codec : AudioCodec) (rtp rtcp : ℤ) (numBuffers : ℕ) : Engine where
  codec := codec
  rtpPort := rtp
  rtcpPort := rtcp
  playing := .empty
  packetSeq := 1
  timestamp := 0
  blocks := (List.range numBuffers).foldl LinkedList.push .empty
  clients := []
  freed := []
  pool := List.replicate numBuffers (Block.new codec)

def rxBytes (e : Engine) : Except Fault ℕ := do
  return toSize ((← e.codec.samplesPerPacket) * e.codec.numChans * e.codec.sampleSize)

def getServerPorts (e : Engine) : ℤ × ℤ := (e.rtpPort, e.rtcpPort)

/-- `new RTP_Client(socket)`. -/
def newClient (e : Engine) (socket : UdpSocket) : ℕ × Engine :=
  (e.clients.length, { e with clients := e.clients ++ [.new socket] })

/-- `delete client`, which may be null. -/
def deleteClient (e : Engine) : Option ℕ → Engine
  | none => e
  | some c => { e with freed := e.freed ++ [c] }

def play (e : Engine) : Option ℕ → Engine
  | none => e
  | some c => { e with playing := e.playing.push c }

def remove (e : Engine) : Option ℕ → Except Fault Engine
  | none => .ok e
  | some c =>
      match e.playing.remove e.clients.length c with
      | some playing => .ok { e with playing := playing }
      | none => .error .diverges

def hasClients (e : Engine) : Bool := e.playing.head.isSome

def getFree (e : Engine) : Option ℕ × Engine :=
  match e.blocks.pop with
  | some (b, blocks) => (some b, { e with blocks := blocks })
  | none => (none, e)

def putFree (e : Engine) (b : ℕ) : Engine := { e with blocks := e.blocks.push b }

/-- The loop of `~RTP_Engine`: the blocks are taken from the free list and deleted. -/
def deleteBlocks (fuel : ℕ) (e : Engine) : Except Fault (List ℕ × Engine) :=
  match e.getFree with
  | (none, e) => .ok ([], e)
  | (some b, e) =>
      match fuel with
      | 0 => .error .diverges
      | fuel + 1 => do
          let (deleted, e) ← deleteBlocks fuel e
          return (b :: deleted, e)

/-- A caller writes `bytes` at the start of the payload of block `b`. -/
def writeAudio (e : Engine) (b : ℕ) (bytes : Bytes) : Except Fault Engine := do
  let some block := e.pool[b]? | throw .nullPointer
  if block.maxPayload < bytes.length then throw .outOfBounds
  let block := { block with audio := bytes ++ block.audio.drop bytes.length }
  return { e with pool := e.pool.set b block }

/-- The packet goes to each of the clients in turn; `results` is what their sockets return. -/
def sendAll (data : Bytes) (results : ℕ → ℤ) (visited : List ℕ) (clients : List RtpClient) :
    List RtpClient :=
  visited.foldl (fun clients c => clients.modify c (RtpClient.sendPacket data (results c))) clients

/-- `send` of the first `bytes` of the payload of block `b`, which stand for `samples` samples. -/
def send (e : Engine) (b bytes samples : ℕ) (results : ℕ → ℤ) : Except Fault Engine := do
  let some block := e.pool[b]? | throw .nullPointer
  if block.maxPayload < bytes then throw .assertFailed
  let block := block.stamp e.packetSeq e.timestamp
  let some visited := e.playing.visit e.clients.length | throw .diverges
  return putFree
    { e with
      pool := e.pool.set b block
      packetSeq := e.packetSeq + 1
      timestamp := e.timestamp + UInt32.ofNat samples
      clients := sendAll (block.packet bytes) results visited e.clients } b

/-! ### Statistics -/

/-- `Counter` with `find_client` applied along the list from `client` on: the position reached and the
client found at position `sought`. -/
def findClient (e : Engine) (sought : ℤ) (fuel : ℕ) (idx : ℤ) (client : Option ℕ) :
    Except Fault (ℤ × Option ℕ) :=
  match client with
  | none => .ok (idx, none)
  | some c =>
      if idx = sought then .ok (idx, some c)
      else
        match fuel with
        | 0 => .error .diverges
        | fuel + 1 => findClient e sought fuel (idx + 1) (e.playing.next c)

def getNumClients (e : Engine) : Except Fault ℤ := do
  return (← e.findClient (-1) e.clients.length 0 e.playing.head).1

def getClient (e : Engine) (idx : ℤ) : Except Fault (Option ℕ) := do
  return (← e.findClient idx e.clients.length 0 e.playing.head).2

/-- An access of `cmd_rtp` to the engine. The lock is held for one walk of the list at a time, and the
counters of a client are read without it. -/
inductive Access
  | count
  | client (idx : ℕ)
  | packets (idx : ℕ)
  | errors (idx : ℕ)

/-- A line of `cmd_rtp`: the client with its packets and transmit errors. -/
structure ClientLine where
  client : ℕ
  packets : ℤ
  errors : ℤ
  deriving DecidableEq, Repr

/-- Client `c`, which must not be deleted. -/
def readClient (e : Engine) (c : ℕ) : Except Fault RtpClient :=
  if c ∈ e.freed then throw .outOfBounds
  else
    match e.clients[c]? with
    | some client => .ok client
    | none => throw .nullPointer

def clientLine (look : Access → Engine) (idx : ℕ) : Except Fault (Option ClientLine) := do
  let some c ← (look (.client idx)).getClient idx | return none
  let packets := (← (look (.packets idx)).readClient c).numPackets
  let errors := (← (look (.errors idx)).readClient c).numErrors
  return some ⟨c, packets, errors⟩

/-- `cmd_rtp`: the number of clients and a line for each that is found; `look` is the engine as each
access finds it. -/
def cmdRtp (look : Access → Engine) : Except Fault (ℤ × List ClientLine) := do
  let num ← (look .count).getNumClients
  let lines ← (List.range num.toNat).mapM (clientLine look)
  return (num, lines.filterMap id)

/-! ### The operations as steps -/

/-- A call of the engine by one of its users; `results` is what the sockets return. -/
inductive Op
  | newClient (ip : Option Bytes) (port : ℤ) (connected : Bool)
  | play (client : Option ℕ)
  | remove (client : Option ℕ)
  | getFree
  | putFree (b : ℕ)
  | writeAudio (b : ℕ) (bytes : Bytes)
  | send (b bytes samples : ℕ) (results : ℕ → ℤ)

/-- One operation; nothing when it does not complete. -/
def exec (e : Engine) : Op → Option Engine
  | .newClient ip port connected => some (e.newClient ⟨ip, port, connected, []⟩).2
  | .play client => some (e.play client)
  | .remove client => (e.remove client).toOption
  | .getFree => some e.getFree.2
  | .putFree b => some (e.putFree b)
  | .writeAudio b bytes => (e.writeAudio b bytes).toOption
  | .send b bytes samples results => (e.send b bytes samples results).toOption

def Step (e : Engine) (op : Op) (e' : Engine) : Prop := e.exec op = some e'

/-- The packet an operation sends. -/
def packetOf (e : Engine) : Op → Option Bytes
  | .send b bytes _ _ => e.pool[b]?.map fun block =>
      (block.stamp e.packetSeq e.timestamp).packet bytes
  | _ => none

end Engine

end WifiAudio
