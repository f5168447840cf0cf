import WifiAudio.Rtsp.Protocol

/-!
# The request parser

`LineParser` and `Parser` of `rtsp.cpp`. The request is parsed where it lies: every line end and
every separator the tokenisers pass is overwritten with NUL, and what the parser keeps of the text
are pointers into it. So each function takes the memory of the request and returns it as it leaves
it.
-/

namespace WifiAudio

open CString

def crlf : Bytes := [13, 10]
def space : UInt8 := 32
def slash : UInt8 := 47
def semicolon : UInt8 := 59
def comma : UInt8 := 44
def minus : UInt8 := 45

/-! ### Lines -/

/-- The part of the request that is not split into lines yet. -/
structure LineParser where
  data : ℕ
  size : ℕ
  deriving DecidableEq, Repr

namespace LineParser

/-- The loop of `getline`: the first of the next `n` places from `i` on where a line ends. -/
def lineEnd (m : Bytes) (data : ℕ) : ℕ → ℕ → Except Fault (Option ℕ)
  | 0, _ => .ok none
  | n + 1, i => do
      if ← strncmpEq m (data + i) crlf then return some i else lineEnd m data n (i + 1)

/-- The next line, its line end overwritten with NUL. -/
def getline (m : Bytes) (lp : LineParser) : Except Fault (Option ℕ × LineParser × Bytes) := do
  if lp.size = 0 then return (none, lp, m)
  match ← lineEnd m lp.data (sizeSub lp.size 2) 0 with
  | none => return (none, lp, m)
  | some i =>
      let m ← store m (lp.data + i) 0
      return (some lp.data, ⟨lp.data + i + 2, sizeSub lp.size (i + 2)⟩, m)

/-- The constructor's loop: leading empty lines are skipped. -/
def skipLeading : ℕ → Bytes → LineParser → Except Fault (LineParser × Bytes)
  | 0, _, _ => .error .diverges
  | fuel + 1, m, lp => do
      if lp.size > 2 then
        if ← strncmpEq m lp.data crlf then
          let (_, lp, m) ← getline m lp
          skipLeading fuel m lp
        else return (lp, m)
      else return (lp, m)

def new (m : Bytes) (data size : ℕ) : Except Fault (LineParser × Bytes) :=
  skipLeading (size + 1) m ⟨data, size⟩

end LineParser

namespace Parser

/-! ### Numbers and addresses -/

/-- The number at `line` and where the text behind it starts; nothing for a null `line`. -/
def getNumber (m : Bytes) (line : Option ℕ) (base : ℕ) : Except Fault (Option (ℤ × ℕ)) :=
  match line with
  | none => .ok none
  | some p => do
      let (val, read) := strtoll (← string m p) base
      return some (toInt val, p + read)

/-- The loop over the four octets; the end of the last number is kept. Every round reads the number
at `s` itself. -/
def getIpaddr (m : Bytes) (s : Option ℕ) :
    List (Fin 4) → IpAddr → Option ℕ → Except Fault (Bool × IpAddr × Option ℕ)
  | [], addr, stop => .ok (true, addr, stop)
  | i :: rest, addr, stop => do
      match ← getNumber m s 10 with
      | none => return (false, addr, stop)
      | some (value, after) =>
          getIpaddr m s rest (Function.update addr i (UInt8.ofInt value)) (some after)

/-! ### Transport options -/

/-- The entries of a table of options with the place in the header each one sets. -/
structure OptionField (α : Type) where
  cmd : Bytes
  get : Transport → α
  set : α → Transport → Transport

def bins : List (OptionField Bool × Bool) :=
  [(⟨ascii "unicast", (·.unicast), fun b t => { t with unicast := b }⟩, true),
    (⟨ascii "multicast", (·.unicast), fun b t => { t with unicast := b }⟩, false),
    (⟨ascii "rtcp-mux", (·.rtcpMux), fun b t => { t with rtcpMux := b }⟩, true)]

def ranges : List (OptionField (ℤ × ℤ)) :=
  [⟨ascii "client_port=", (·.clientPort), fun v t => { t with clientPort := v }⟩,
    ⟨ascii "server_port=", (·.serverPort), fun v t => { t with serverPort := v }⟩,
    ⟨ascii "interleaved=", (·.interleaved), fun v t => { t with interleaved := v }⟩,
    ⟨ascii "port=", (·.port), fun v t => { t with port := v }⟩]

def texts : List (OptionField CharPtr) :=
  [⟨ascii "mode=", (·.mode), fun v t => { t with mode := v }⟩]

/-- Both numbers are stored in `ttl`. -/
def numbers : List (OptionField ℤ) :=
  [⟨ascii "ttl=", (·.ttl), fun v t => { t with ttl := v }⟩,
    ⟨ascii "ssrc=", (·.ttl), fun v t => { t with ttl := v }⟩]

def ips : List (OptionField IpAddr) :=
  [⟨ascii "destination=", (·.destination), fun v t => { t with destination := v }⟩,
    ⟨ascii "source=", (·.source), fun v t => { t with source := v }⟩]

def iprange : List (OptionField (IpAddr × IpAddr)) :=
  [⟨ascii "src_addr=", (·.srcAddr), fun v t => { t with srcAddr := v }⟩,
    ⟨ascii "dest_addr=", (·.destAddr), fun v t => { t with destAddr := v }⟩]

/-- The first entry whose keyword the text at `option` starts with. -/
def findField {α : Type} (m : Bytes) (option : ℕ) :
    List (OptionField α) → Except Fault (Option (OptionField α))
  | [] => .ok none
  | field :: rest => do
      if ← strncmpEq m option field.cmd then return some field else findField m option rest

def parseBin (m : Bytes) (hdr : Transport) (option : ℕ) :
    List (OptionField Bool × Bool) → Except Fault (Option Transport)
  | [] => .ok none
  | (field, value) :: rest => do
      if ← strcmpEq m option field.cmd then return some (field.set value hdr)
      else parseBin m hdr option rest

/-- Two numbers with a `-` between them. -/
def parseRange (m : Bytes) (hdr : Transport) (option : ℕ) (field : OptionField (ℤ × ℤ)) :
    Except Fault (Bool × Transport) := do
  match ← getNumber m (some option) 10 with
  | none => return (false, hdr)
  | some (first, stop) =>
      let hdr := field.set (first, (field.get hdr).2) hdr
      if (← load m stop) ≠ minus then return (false, hdr)
      match ← getNumber m (some (stop + 1)) 10 with
      | none => return (false, hdr)
      | some (second, _) => return (true, field.set ((field.get hdr).1, second) hdr)

/-- Two addresses with a `,` between them; both are stored in the first place. -/
def parseIprange (m : Bytes) (hdr : Transport) (option : ℕ) (field : OptionField (IpAddr × IpAddr)) :
    Except Fault (Bool × Transport) := do
  let (ok, addr, stop) ← getIpaddr m (some option) (List.finRange 4) (field.get hdr).1 none
  let hdr := field.set (addr, (field.get hdr).2) hdr
  if !ok then return (false, hdr)
  match stop with
  | none => return (false, hdr)
  | some stop =>
      if (← load m stop) ≠ comma then return (false, hdr)
      let (ok, addr, _) ←
        getIpaddr m (some (stop + 1)) (List.finRange 4) (field.get hdr).1 (some stop)
      return (ok, field.set (addr, (field.get hdr).2) hdr)

def parseTransportOption (m : Bytes) (hdr : Transport) (option : ℕ) :
    Except Fault (Bool × Transport) := do
  if let some hdr ← parseBin m hdr option bins then return (true, hdr)
  if let some field ← findField m option ranges then
    return ← parseRange m hdr (option + field.cmd.length) field
  if let some field ← findField m option texts then
    return (true, field.set (.at (option + field.cmd.length)) hdr)
  if let some field ← findField m option numbers then
    match ← getNumber m (some (option + field.cmd.length)) 0 with
    | none => return (false, hdr)
    | some (value, _) => return (true, field.set value hdr)
  if let some field ← findField m option ips then
    let (ok, addr, _) ←
      getIpaddr m (some (option + field.cmd.length)) (List.finRange 4) (field.get hdr) none
    return (ok, field.set addr hdr)
  if let some field ← findField m option iprange then
    return ← parseIprange m hdr (option + field.cmd.length) field
  return (false, hdr)

/-! ### The Transport header -/

/-- Overwrite the spaces and commas that end the text from `prev` to `prev + si`. -/
def trimSeparators (m : Bytes) (prev : ℕ) : ℕ → Except Fault Bytes
  | 0 => .ok m
  | si + 1 => do
      let b ← load m (prev + (si + 1))
      if b = space ∨ b = comma then trimSeparators (← store m (prev + (si + 1)) 0) prev si
      else return m

/-- The loop that looks for the specs in the `n` places from `i` on. -/
def findSpecs (ss : ℕ) : ℕ → ℕ → List ℕ → Bytes → Except Fault (List ℕ × Bytes)
  | 0, _, lines, m => .ok (lines, m)
  | n + 1, i, lines, m => do
      if ← strncmpEq m (ss + i) (ascii "RTP/") then
        let m ← match lines.getLast? with
          | some prev => trimSeparators m prev (ss + i - prev - 1)
          | none => pure m
        let lines := lines ++ [ss + i]
        if lines.length ≥ maxTransports then return (lines, m)
        else findSpecs ss n (i + 1) lines m
      else findSpecs ss n (i + 1) lines m

/-- The loop over the options of one spec. -/
def readOptions : ℕ → Bytes → Transport → Option ℕ → Except Fault (Bool × Transport × Bytes)
  | 0, _, _, _ => .error .diverges
  | fuel + 1, m, hdr, save => do
      let (s, save, m) ← strtok_r m none semicolon save
      match s with
      | none => return (true, hdr, m)
      | some s =>
          let (ok, hdr) ← parseTransportOption m hdr s
          if !ok then return (false, hdr, m)
          readOptions fuel m hdr save

/-- The defaults a spec starts from. -/
def setDefaults (hdr : Transport) : Transport :=
  { hdr with transport := .literal (ascii "UDP"), mode := .literal (ascii "PLAY"), unicast := false }

def setRtp (hdr : Transport) (isRtp : Bool) : Transport :=
  if isRtp then { hdr with rtp := true } else hdr

def setTransport (hdr : Transport) : Option ℕ → Transport
  | some p => { hdr with transport := .at p }
  | none => hdr

/-- The part `RTP/AVP/UDP` of a spec: protocol, profile and lower transport. -/
def parseProtocol (m : Bytes) (s : Option ℕ) (hdr : Transport) :
    Except Fault (Transport × Bytes) := do
  let (protocol, save, m) ← strtok_r m s slash none
  let isRtp ← match protocol with
    | some p => strcmpEq m p (ascii "RTP")
    | none => pure false
  let (_, save, m) ← strtok_r m none slash save
  let (transport, _, m) ← strtok_r m none slash save
  return (setTransport (setRtp hdr isRtp) transport, m)

/-- One spec: the protocol part, then the options. -/
def parseSpec (m : Bytes) (line : ℕ) (hdr : Transport) :
    Except Fault (Bool × Transport × Bytes) := do
  let (s, save, m) ← strtok_r m (some line) semicolon none
  let (hdr, m) ← parseProtocol m s (setDefaults hdr)
  readOptions (m.length + 1) m hdr save

/-- The loop over the specs that were found. -/
def parseSpecs : List (Fin maxTransports × ℕ) → Bytes → RtspHeader →
    Except Fault (Bool × RtspHeader × Bytes)
  | [], m, hdr => .ok (true, hdr, m)
  | (idx, line) :: rest, m, hdr => do
      let (ok, t, m) ← parseSpec m line (hdr.transport idx)
      if !ok then return (false, hdr.setTransport idx t, m)
      parseSpecs rest m (hdr.setTransport idx t)

def parseTransport (m : Bytes) (hdr : RtspHeader) (save : Option ℕ) :
    Except Fault (Bool × RtspHeader × Bytes) :=
  match save with
  | none => .error .nullPointer
  | some ss => do
      let sz := sizeSub (← strlen m ss) 4
      let (lines, m) ← findSpecs ss sz 0 [] m
      parseSpecs ((List.finRange maxTransports).zip lines) m hdr

/-! ### The headers -/

/-- The loop over the values of an Accept header: one of them is `application/sdp`. -/
def acceptsSdp : ℕ → Bytes → Option ℕ → Except Fault (Bool × Bytes)
  | 0, _, _ => .error .diverges
  | fuel + 1, m, save => do
      let (s, save, m) ← strtok_r m none space save
      match s with
      | none => return (false, m)
      | some s =>
          if strncasecmpEq (ascii "application/sdp") (← string m s) then return (true, m)
          else acceptsSdp fuel m save

/-- One header line, `header` its first token and `save` the rest of it. -/
def readHeader (m : Bytes) (header : ℕ) (save : Option ℕ) (hdr : RtspHeader) :
    Except Fault (Bool × RtspHeader × Bytes) := do
  let name ← string m header
  if strncasecmpEq (ascii "CSeq:") name then
    let (s, _, m) ← strtok_r m none space save
    match ← getNumber m s 10 with
    | none => return (false, hdr, m)
    | some (n, _) => return (true, { hdr with cseq := n }, m)
  else if strncasecmpEq (ascii "Session:") name then
    let (s, _, m) ← strtok_r m none space save
    match ← getNumber m s 10 with
    | none => return (false, hdr, m)
    | some (n, _) => return (true, { hdr with sessionId := UInt32.ofInt n }, m)
  else if strncasecmpEq (ascii "Accept:") name then
    let (accept, m) ← acceptsSdp (m.length + 1) m save
    return (true, { hdr with acceptSdp := accept }, m)
  else if strncasecmpEq (ascii "Transport:") name then
    parseTransport m hdr save
  else
    return (true, hdr, m)

/-- The loop over the header lines. -/
def readLines : ℕ → Bytes → LineParser → RtspHeader → Except Fault (Bool × RtspHeader × Bytes)
  | 0, _, _, _ => .error .diverges
  | fuel + 1, m, lp, hdr => do
      let (line, lp, m) ← LineParser.getline m lp
      match line with
      | none => return (true, hdr, m)
      | some line =>
          let (header, save, m) ← strtok_r m (some line) space none
          match header with
          | none => return (true, hdr, m)
          | some header =>
              let (ok, hdr, m) ← readHeader m header save hdr
              if !ok then return (false, hdr, m)
              readLines fuel m lp hdr

def readHeaders (m : Bytes) (lp : LineParser) (hdr : RtspHeader) :
    Except Fault (Bool × RtspHeader × Bytes) :=
  readLines (lp.size + 1) m lp { hdr with acceptSdp := true }

/-! ### The request -/

variable {η : Type} (P : Lookup) (handler : Handler η)

/-- `Parser::parse` of the headers: the command goes to the handler whether or not the headers
could be read. -/
def parseCommand (m : Bytes) (lp : LineParser) (uri : Option ℕ) (cmd : RtspCommand)
    (errorCode : ℤ) (h : η) : Except Fault (RtspCommand × η × Bytes) := do
  let (_, headers, m) ← readHeaders m lp {}
  let (code, h) ← handler.command cmd uri headers errorCode m h
  return (if code = ErrorCode.ok ∧ errorCode = ErrorCode.ok then cmd else .unknown, h, m)

def isAllowable (allowable : List RtspCommand) (cmd : RtspCommand) : Bool :=
  allowable.contains cmd

/-- The command a request line asks for. -/
def lookupCommand (cmd : Bytes) : RtspCommand :=
  match P.rlut cmdLut cmd with
  | .unknown => P.rlut cmdPlusLut cmd
  | found => found

/-- `handler->error`, its answer the result of the request. -/
def reject (code : ℤ) (m : Bytes) (h : η) : Except Fault (RtspCommand × η × Bytes) := do
  let (cmd, h) ← handler.error code h
  return (cmd, h, m)

/-- `Parser::parse` from the method on, `cmd` the first token of the request line. -/
def parseMethod (allowable : List RtspCommand) (m : Bytes) (lp : LineParser) (cmd : ℕ)
    (save : Option ℕ) (h : η) : Except Fault (RtspCommand × η × Bytes) := do
  let text ← string m cmd
  let rtspCmd := lookupCommand P text
  if rtspCmd = .unknown ∧ !unsupported text then
    return ← reject handler ErrorCode.badRequest m h
  let code := if rtspCmd = .unknown then ErrorCode.notImplemented else ErrorCode.ok
  let code := if code = ErrorCode.ok ∧ !isAllowable allowable rtspCmd
    then ErrorCode.methodNotValidInThisState else code
  let (uri, save, m) ← strtok_r m none space save
  let code := if uri = none then ErrorCode.badRequest else code
  let (version, _, m) ← strtok_r m none space save
  match version with
  -- the null pointer goes to strcmp
  | none => .error .nullPointer
  | some version =>
      let supported ← strcmpEq m version (ascii "RTSP/1.0")
      let code := if !supported then ErrorCode.versionNotSupported else code
      match rtspCmd with
      | .kill => parseCommand handler m lp uri rtspCmd ErrorCode.ok h
      | .unknown => reject handler ErrorCode.badRequest m h
      | _ => parseCommand handler m lp uri rtspCmd code h

/-- `Parser::parse` of a request of `sz` bytes at `data`. -/
def parse (allowable : List RtspCommand) (m : Bytes) (data sz : ℕ) (h : η) :
    Except Fault (RtspCommand × η × Bytes) := do
  if sz = 0 then return ← reject handler ErrorCode.badRequest m h
  let (lp, m) ← LineParser.new m data sz
  let (line, lp, m) ← LineParser.getline m lp
  match line with
  | none => reject handler ErrorCode.badRequest m h
  | some line =>
      let (cmd, save, m) ← strtok_r m (some line) space none
      match cmd with
      | none =>
          -- the error is answered, then the null pointer goes to rlut
          let _ ← handler.error ErrorCode.badRequest h
          .error .nullPointer
      | some cmd => parseMethod P handler allowable m lp cmd save h

end Parser

end WifiAudio
