import WifiAudio.Rtsp.Session
import WifiAudio.Rtp.Engine

/-!
# The RTSP handler

`RTSP_Handler` of `rtsp_server.cpp`: it answers the commands of one session and acts on the RTP
engine for it. An answer is printed line by line and goes out when it is flushed.
-/

namespace WifiAudio

/-- One call of `printf` on the output: a line of an answer, or its body. -/
inductive Line
  | status (code : ℤ) (text : Bytes)
  | cseq (n : ℤ)
  | session (id : ℤ)
  | contentType
  | contentLength (n : ℕ)
  | body (text : Bytes)
  | methods (commands : List Bytes)
  | transport (rtpPort rtcpPort session : ℤ)
  | rtpInfo (ip : Bytes) (seq rtptime : ℤ)
  | blank
  deriving DecidableEq, Repr

/-- The text of a line. -/
def Line.text : Line → Bytes
  | status code text => ascii "RTSP/1.0 " ++ decimal code ++ ascii " " ++ text ++ crlf
  | cseq n => ascii "CSeq: " ++ decimal n ++ crlf
  | session id => ascii "Session: " ++ decimal id ++ crlf
  | contentType => ascii "Content-Type: application/sdp" ++ crlf
  | contentLength n => ascii "Content-Length: " ++ decimal n ++ crlf
  | body text => text
  | methods commands => ascii "Public: " ++ (ascii ", ").intercalate commands ++ crlf
  | transport rtp rtcp sid => ascii "Transport: RTP/AVP;unicast;server_port=" ++ decimal rtp ++
      ascii "-" ++ decimal rtcp ++ ascii ";session=" ++ decimal sid ++ crlf
  | rtpInfo ip seq rtptime => ascii "RTP-Info: url=rtsp://" ++ ip ++ ascii "/media/trackID=0;seq=" ++
      decimal seq ++ ascii ";rtptime=" ++ decimal rtptime ++ crlf
  | blank => crlf

abbrev Response := List Line

/-- The handler's own fields; `sent` is what it has sent on the session's socket. -/
structure RtspHandler where
  lastError : ℤ
  sessionId : UInt32
  sessionVersion : ℤ
  ipAddr : Bytes
  out : List Line
  sent : List Response
  rtpClient : Option ℕ
  deriving DecidableEq, Repr

/-- What the system answers to the socket calls of a SETUP: whether `Socket::open_udp` returns a
socket, the descriptor of the session's socket, the address `getpeername` gives for it, and whether
`Socket::connect` connects the new one. -/
structure SocketCalls where
  openUdp : Bool
  fd : ℤ
  peerName : Option Bytes
  connect : Bool
  deriving DecidableEq, Repr

/-- A handler works on its own fields and on the engine it shares with the other sessions. -/
abbrev HandlerState := RtspHandler × Engine

namespace RtspHandler

def new (ip : Bytes) (sid : UInt32) : RtspHandler := ⟨ErrorCode.ok, sid, 1, ip, [], [], none⟩

def printf (h : RtspHandler) (line : Line) : RtspHandler := { h with out := h.out ++ [line] }

def flush (h : RtspHandler) : RtspHandler := { h with out := [], sent := h.sent ++ [h.out] }

variable (P : Lookup)

/-- The lines every answer to a command starts with. -/
def common (h : RtspHandler) (hdrs : RtspHeader) (sid : Bool) : RtspHandler :=
  let h := h.printf (.status ErrorCode.ok (P.lut responseLut ErrorCode.ok))
  let h := h.printf (.cseq hdrs.cseq)
  if sid then h.printf (.session (toInt h.sessionId.toNat)) else h

def sendError (h : RtspHandler) (hdrs : Option RtspHeader) (code : ℤ) : ℤ × RtspHandler :=
  let h := h.printf (.status code (P.lut responseLut code))
  let h := match hdrs with
    | some hdrs => h.printf (.cseq hdrs.cseq)
    | none => h
  let h := (h.printf .blank).flush
  (code, { h with lastError := code })

@[simp] theorem rtpClient_printf (h : RtspHandler) (line : Line) :
    (h.printf line).rtpClient = h.rtpClient := rfl

@[simp] theorem rtpClient_flush (h : RtspHandler) : h.flush.rtpClient = h.rtpClient := rfl

@[simp] theorem rtpClient_common (h : RtspHandler) (hdrs : RtspHeader) (sid : Bool) :
    (h.common P hdrs sid).rtpClient = h.rtpClient := by
  cases sid <;> rfl

/-- What `snprintf` makes of a piece of the description's format. -/
def sdpText (h : RtspHandler) : SdpPart → Bytes
  | .text bytes => bytes
  | .sessionId => decimal (toInt h.sessionId.toNat)
  | .sessionVersion => decimal h.sessionVersion
  | .ipAddr => h.ipAddr

/-- The description: at most 1023 bytes fit. -/
def sdp (h : RtspHandler) (fmt : SdpFmt) : Bytes := (fmt.flatMap h.sdpText).take 1023

def describe (h : RtspHandler) (codec : AudioCodec) (hdrs : RtspHeader) : ℤ × RtspHandler :=
  let sdp := h.sdp codec.sdpFmt
  let h := h.common P hdrs false
  let h := h.printf .contentType
  let h := h.printf (.contentLength sdp.length)
  let h := h.printf .blank
  (ErrorCode.ok, (h.printf (.body sdp)).flush)

def options (h : RtspHandler) (hdrs : RtspHeader) : ℤ × RtspHandler :=
  let h := h.common P hdrs false
  let h := h.printf (.methods (cmdLut.entries.map Prod.fst))
  (ErrorCode.ok, (h.printf .blank).flush)

/-- `get_ip`: a simulated socket has a simulated address. -/
def getIp (net : SocketCalls) : Option Bytes :=
  if net.fd ≤ 0 then some (ascii "1.2.3.4") else net.peerName

/-- The checks `setup` makes on one transport. -/
def usable (m : Bytes) (t : Transport) : Except Fault Bool := do
  if !t.unicast then return false
  if !t.rtp then return false
  if (← t.mode.string m) ≠ ascii "PLAY" then return false
  if (← t.transport.string m) ≠ ascii "UDP" then return false
  if t.clientPort.1 = 0 then return false
  if t.clientPort.2 = 0 then return false
  return true

/-- The first usable transport. -/
def findTransport (m : Bytes) (hdrs : RtspHeader) :
    List (Fin maxTransports) → Except Fault (Option Transport)
  | [] => .ok none
  | i :: rest => do
      if ← usable m (hdrs.transport i) then return some (hdrs.transport i)
      else findTransport m hdrs rest

def setup (net : SocketCalls) (hdrs : RtspHeader) (m : Bytes) :
    HandlerState → Except Fault (ℤ × HandlerState)
  | (h, e) => do
      match ← findTransport m hdrs (List.finRange maxTransports) with
      | none =>
          let (code, h) := h.sendError P (some hdrs) ErrorCode.unsupportedTransport
          return (code, (h, e))
      | some t =>
          let h := h.common P hdrs true
          let (rtpPort, rtcpPort) := e.getServerPorts
          let h := h.printf (.transport rtpPort rtcpPort (toInt h.sessionId.toNat))
          let h := (h.printf .blank).flush
          -- connect is called on the socket without a test
          if !net.openUdp then throw .nullPointer
          -- whether connect succeeds makes no difference
          let socket : UdpSocket := ⟨getIp net, t.clientPort.1, net.connect, []⟩
          let e ← e.remove h.rtpClient
          let (client, e) := e.newClient socket
          return (ErrorCode.ok, ({ h with rtpClient := some client }, e))

def play (hdrs : RtspHeader) : HandlerState → Except Fault (ℤ × HandlerState)
  | (h, e) => do
      if h.rtpClient = none then throw .assertFailed
      let h := h.common P hdrs true
      let h := h.printf (.rtpInfo h.ipAddr 1 0)
      let h := (h.printf .blank).flush
      return (ErrorCode.ok, (h, e.play h.rtpClient))

/-- `teardown` and `pause`: the client is taken off the list. -/
def stop (hdrs : RtspHeader) : HandlerState → Except Fault (ℤ × HandlerState)
  | (h, e) => do
      let h := h.common P hdrs true
      let h := (h.printf .blank).flush
      let e ← e.remove h.rtpClient
      return (ErrorCode.ok, (h, e))

def teardown (hdrs : RtspHeader) : HandlerState → Except Fault (ℤ × HandlerState) := stop P hdrs

def pause (hdrs : RtspHeader) : HandlerState → Except Fault (ℤ × HandlerState) := stop P hdrs

def terminate : HandlerState → Except Fault HandlerState
  | (h, e) => do
      let e ← e.remove h.rtpClient
      return (h, e)

def error (code : ℤ) : HandlerState → Except Fault (RtspCommand × HandlerState)
  | (h, e) => .ok (.unknown, ((h.sendError P none code).2, e))

def command (net : SocketCalls) (cmd : RtspCommand) (hdrs : RtspHeader) (errorCode : ℤ) (m : Bytes) :
    HandlerState → Except Fault (ℤ × HandlerState)
  | (h, e) =>
      if errorCode ≠ ErrorCode.ok then
        let (code, h) := h.sendError P (some hdrs) errorCode
        .ok (code, (h, e))
      else
        match cmd with
        | .describe =>
            if !hdrs.acceptSdp then
              let (code, h) := h.sendError P (some hdrs) ErrorCode.unsupportedMediaType
              .ok (code, (h, e))
            else
              let (code, h) := h.describe P e.codec hdrs
              .ok (code, (h, e))
        | .options =>
            let (code, h) := h.options P hdrs
            .ok (code, (h, e))
        | .setup => setup P net hdrs m (h, e)
        | .play => play P hdrs (h, e)
        | .pause => pause P hdrs (h, e)
        | .teardown => teardown P hdrs (h, e)
        | .kill => do
            let s ← terminate (h, e)
            return (ErrorCode.ok, s)
        | .unknown => .error .assertFailed

/-- The handler as a session sees it. -/
def handler (net : SocketCalls) : Handler HandlerState where
  error := error P
  command cmd _ hdrs errorCode m := command P net cmd hdrs errorCode m

end RtspHandler

end WifiAudio
