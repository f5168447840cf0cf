import WifiAudio.Lib.CString
import Mathlib.Logic.Function.Basic

/-!
# The RTSP protocol data

The commands, the response codes with their texts, the parsed headers of a request and the states
of a session, as `rtsp.h` and the tables of `rtsp.cpp` give them.
-/

namespace WifiAudio

/-- The unsigned subtraction of `size_t`, 32 bits wide on the target. -/
def sizeSub (a b : ℕ) : ℕ := if b ≤ a then a - b else 2 ^ 32 + a - b

/-- The value of a conversion to the 32-bit `int`. -/
def toInt (v : ℤ) : ℤ := v.bmod (2 ^ 32)

theorem toInt_bounds (v : ℤ) : -2 ^ 31 ≤ toInt v ∧ toInt v < 2 ^ 31 := by
  have hlow := Int.le_bmod (x := v) (m := 2 ^ 32) (by decide)
  have hhigh := Int.bmod_lt (x := v) (m := 2 ^ 32) (by decide)
  rw [toInt]
  omega

inductive RtspCommand
  | unknown
  | options
  | describe
  | setup
  | pause
  | play
  | teardown
  | kill
  deriving DecidableEq, Repr

/-! ### Tables

A `LUT` is an array of texts with codes, ended by an entry without text. The searches through it
belong to panglos, outside the repository; `Lookup` carries what the code relies on of them.
-/

structure Lut (α : Type) where
  entries : List (Bytes × α)
  last : α

/-- The table searches of panglos: by text (`rlut`) and by code (`lut`). Whether `rlut` ignores the
case of letters is left open. -/
structure Lookup where
  rlut : {α : Type} → Lut α → Bytes → α
  lut : Lut ℤ → ℤ → Bytes
  rlut_entry : ∀ {α : Type} (before after : List (Bytes × α)) (last : α) (text : Bytes) (code : α),
    text ∉ before.map Prod.fst → rlut ⟨before ++ (text, code) :: after, last⟩ text = code
  rlut_cases : ∀ {α : Type} (table : Lut α) (text : Bytes), rlut table text = table.last ∨
    ∃ entry ∈ table.entries, CString.strcasecmpEq entry.1 text ∧ rlut table text = entry.2
  lut_entry : ∀ (before after : List (Bytes × ℤ)) (last : ℤ) (text : Bytes) (code : ℤ),
    code ∉ before.map Prod.snd → lut ⟨before ++ (text, code) :: after, last⟩ code = text

/-- The searches taken literally: the first entry with the same text, or with the same code. -/
def Lookup.literal : Lookup where
  rlut table text := ((table.entries.find? fun entry => entry.1 == text).map Prod.snd).getD table.last
  lut table code := ((table.entries.find? fun entry => entry.2 == code).map Prod.fst).getD []
  rlut_entry before after last text code hnot := by
    have hnone : before.find? (fun entry => entry.1 == text) = none := by
      refine List.find?_eq_none.2 fun entry hmem heq => hnot ?_
      exact List.mem_map.2 ⟨entry, hmem, by simpa using heq⟩
    simp [List.find?_append, hnone]
  rlut_cases table text := by
    cases hfind : table.entries.find? (fun entry => entry.1 == text) with
    | none => exact .inl rfl
    | some entry =>
        have htext : entry.1 = text := by simpa using List.find?_some hfind
        exact .inr ⟨entry, List.mem_of_find?_eq_some hfind, by simp [CString.strcasecmpEq, htext], rfl⟩
  lut_entry before after last text code hnot := by
    have hnone : before.find? (fun entry => entry.2 == code) = none := by
      refine List.find?_eq_none.2 fun entry hmem heq => hnot ?_
      exact List.mem_map.2 ⟨entry, hmem, by simpa using heq⟩
    simp [List.find?_append, hnone]

def cmdLut : Lut RtspCommand where
  entries :=
    [(ascii "OPTIONS", .options), (ascii "DESCRIBE", .describe), (ascii "SETUP", .setup),
      (ascii "PAUSE", .pause), (ascii "PLAY", .play), (ascii "TEARDOWN", .teardown)]
  last := .unknown

def cmdPlusLut : Lut RtspCommand where
  entries := [(ascii "KILL", .kill)]
  last := .unknown

/-- The command is in the list of valid but unsupported commands. -/
def unsupported (cmd : Bytes) : Bool :=
  [ascii "ANNOUNCE", ascii "GET_PARAMETER", ascii "PLAY_NOTIFY", ascii "RECORD", ascii "REDIRECT",
    ascii "SET_PARAMETER"].any (CString.strcasecmpEq · cmd)

namespace ErrorCode

abbrev ok : ℤ := 200
abbrev badRequest : ℤ := 400
abbrev notAcceptable : ℤ := 406
abbrev unsupportedMediaType : ℤ := 415
abbrev parameterNotUnderstood : ℤ := 451
abbrev methodNotValidInThisState : ℤ := 455
abbrev unsupportedTransport : ℤ := 461
abbrev notImplemented : ℤ := 501
abbrev serviceUnavailable : ℤ := 503
abbrev versionNotSupported : ℤ := 505

end ErrorCode

def responseLut : Lut ℤ where
  entries :=
    [(ascii "OK", ErrorCode.ok), (ascii "Continue", 100), (ascii "Moved Permanently", 301),
      (ascii "Found", 302), (ascii "See Other", 303), (ascii "Not Modified", 304),
      (ascii "Use Proxy", 305), (ascii "Bad Request", ErrorCode.badRequest),
      (ascii "Unauthorized", 401), (ascii "Payment Required", 402), (ascii "Forbidden", 403),
      (ascii "Not Found", 404), (ascii "Method Not Allowed", 405),
      (ascii "Not Acceptable", ErrorCode.notAcceptable),
      (ascii "Proxy Authentication Required", 407), (ascii "Request Timeout", 408),
      (ascii "Gone", 410), (ascii "Precondition Failed", 412),
      (ascii "Request Message Body Too Large", 413), (ascii "Request-URI Too Long", 414),
      (ascii "Unsupported Media Type", ErrorCode.unsupportedMediaType),
      (ascii "Parameter Not Understood", ErrorCode.parameterNotUnderstood),
      (ascii "Not Enough Bandwidth", 453), (ascii "Session Not Found", 454),
      (ascii "Method Not Valid in This State", ErrorCode.methodNotValidInThisState),
      (ascii "Header Field Not Valid for Resource", 456), (ascii "Invalid Range", 457),
      (ascii "arameter Is Read-Only", 458), (ascii "Aggregate Operation Not Allowed", 459),
      (ascii "Only Aggregate Operation Allowed", 460),
      (ascii "Unsupported Transport", ErrorCode.unsupportedTransport),
      (ascii "Destination Unreachable", 462), (ascii "Destination Prohibited", 463),
      (ascii "Data Transport Not Ready Yet", 464), (ascii "Notification Reason Unknown", 465),
      (ascii "Key Management Error", 466), (ascii "Connection Authorization Required", 470),
      (ascii "Connection Credentials Not Accepted", 471),
      (ascii "Failure to Establish Secure Connection", 472), (ascii "Internal Server Error", 500),
      (ascii "Not Implemented", ErrorCode.notImplemented), (ascii "Bad Gateway", 502),
      (ascii "Service Unavailable", ErrorCode.serviceUnavailable), (ascii "Gateway Timeout", 504),
      (ascii "RTSP Version Not Supported", ErrorCode.versionNotSupported),
      (ascii "Option Not Supported", 551), (ascii "Proxy Unavailable", 553)]
  last := 0

/-! ### The headers of a request -/

/-- A `const char *`: null, the address of a literal, or an address in the request's memory. -/
inductive CharPtr
  | null
  | literal (text : Bytes)
  | at (p : ℕ)
  deriving DecidableEq, Repr

/-- The string a pointer points to. -/
def CharPtr.string (m : Bytes) : CharPtr → Except Fault Bytes
  | .null => .error .nullPointer
  | .literal text => .ok text
  | .at p => CString.string m p

abbrev IpAddr := Fin 4 → UInt8

structure Transport where
  transport : CharPtr := .null
  mode : CharPtr := .null
  ttl : ℤ := 0
  ssrc : ℤ := 0
  rtp : Bool := false
  unicast : Bool := false
  rtcpMux : Bool := false
  clientPort : ℤ × ℤ := (0, 0)
  serverPort : ℤ × ℤ := (0, 0)
  interleaved : ℤ × ℤ := (0, 0)
  port : ℤ × ℤ := (0, 0)
  destination : IpAddr := fun _ => 0
  source : IpAddr := fun _ => 0
  srcAddr : IpAddr × IpAddr := (fun _ => 0, fun _ => 0)
  destAddr : IpAddr × IpAddr := (fun _ => 0, fun _ => 0)

abbrev maxTransports : ℕ := 3

structure RtspHeader where
  cseq : ℤ := 0
  sessionId : UInt32 := 0
  acceptSdp : Bool := false
  transport : Fin maxTransports → Transport := fun _ => {}

def RtspHeader.setTransport (hdr : RtspHeader) (idx : Fin maxTransports) (t : Transport) :
    RtspHeader :=
  { hdr with transport := Function.update hdr.transport idx t }

@[simp] theorem RtspHeader.transport_setTransport (hdr : RtspHeader) (idx : Fin maxTransports)
    (t : Transport) : (hdr.setTransport idx t).transport idx = t := by
  simp [setTransport]

theorem RtspHeader.transport_setTransport_of_ne {i idx : Fin maxTransports} (hi : i ≠ idx)
    (hdr : RtspHeader) (t : Transport) : (hdr.setTransport idx t).transport i = hdr.transport i := by
  simp [setTransport, hi]

/-- The states of a session. -/
inductive State
  | init
  | ready
  | play
  | dead
  deriving DecidableEq, Repr

/-- `RTSP_Session::Handler`: what a session calls with a request it has parsed, over the state `η`
the handler works on. `command` is given the request's memory, which the headers point into. -/
structure Handler (η : Type) where
  error : ℤ → η → Except Fault (RtspCommand × η)
  command : RtspCommand → Option ℕ → RtspHeader → ℤ → Bytes → η → Except Fault (ℤ × η)

end WifiAudio
