import WifiAudio.Proof.Rtsp.Reading
import WifiAudio.Proof.Server.Status

/-!
# What a client accepts

A DESCRIBE is answered with the description unless its Accept headers exclude it. They list media
ranges, but `read_headers` looks for words between spaces that start with `application/sdp`, in the
last Accept header it comes to.
-/

namespace WifiAudio

open CString Except

/-! ### Accept headers -/

/-- The line is an Accept header. -/
def Parser.isAccept (line : Bytes) : Bool := (tokens space line).head?.any (strncasecmpEq (ascii "Accept:"))

/-- A word of the line behind the first one starts with the media type. -/
def Parser.hasWord (media line : Bytes) : Bool := (tokens space line).tail.any (strncasecmpEq media)

/-- The last Accept header of the lines has such a word, if there is one. -/
def Parser.lastAccepts (media : Bytes) (lines : List Bytes) : Bool :=
  (lines.filter isAccept).getLast?.all (hasWord media)

/-- A media range: the space in front of it, its media type, and the parameters behind. -/
structure MediaRange where
  before : Bytes
  media : Bytes
  params : Bytes

/-- Optional white space. -/
def isBlank (b : UInt8) : Bool := b = 32 ∨ b = 9

namespace MediaRange

def text (range : MediaRange) : Bytes := range.before ++ (range.media ++ range.params)

/-- The parameters start with a semicolon, which may have space in front. -/
structure Legal (range : MediaRange) : Prop where
  before : range.before.all isBlank = true
  media_ne : range.media ≠ []
  media : ∀ b ∈ range.media, isBlank b = false ∧ b ≠ comma ∧ b ≠ semicolon
  params : ∀ b ∈ (range.params.dropWhile isBlank).head?, b = semicolon

end MediaRange

/-- A header line of a DESCRIBE: an Accept header, or a line that is none. -/
inductive DescribeLine
  | accept (name : Bytes) (ranges : List MediaRange)
  | other (line : Bytes)

namespace DescribeLine

def text : DescribeLine → Bytes
  | accept name ranges => name ++ [comma].intercalate (ranges.map MediaRange.text)
  | other line => line

/-- The name of an Accept header may be written in any case. -/
def Legal : DescribeLine → Prop
  | accept name ranges => strncasecmpEq (ascii "Accept:") name = true ∧ name.length = 7 ∧
      ∀ range ∈ ranges, range.Legal
  | other line => ∀ name ∈ (tokens space line).head?, strncasecmpEq (ascii "Accept:") name = false

def isAccept : DescribeLine → Bool
  | accept _ _ => true
  | other _ => false

/-- The line lists the media type. -/
def lists (media : Bytes) : DescribeLine → Bool
  | accept _ ranges => ranges.any fun range => strcasecmpEq media range.media
  | other _ => false

/-- The last Accept header in front of the line at which the header loop stops. -/
def lastRead (lines : List DescribeLine) : Option DescribeLine :=
  ((lines.takeWhile fun line => Parser.passed line.text).filter isAccept).getLast?

/-- The client accepts the media type: some line lists it, or there is no Accept header. -/
def Accepted (media : Bytes) (lines : List DescribeLine) : Prop :=
  (∃ line ∈ lines, line.lists media = true) ∨ ∀ line ∈ lines, line.isAccept = false

end DescribeLine

/-- With the description accepted the answer is 200 with the description, otherwise it is 415. -/
def Session.Describes (P : Lookup) (net : SocketCalls) (s : Session) (h : RtspHandler) (e : Engine)
    (block back : Bytes) (accepted : Prop) : Prop :=
  (accepted → ∃ r text rest,
    s.process P (RtspHandler.handler P net) (h, e) (block ++ back) block.length = .ok r ∧
    h.Answers r.handler.1 (.status ErrorCode.ok text :: rest) ∧
    .body (h.sdp e.codec.sdpFmt) ∈ rest) ∧
  (¬accepted → s.AnsweredWith P net h e block back ErrorCode.unsupportedMediaType)

/-! ### What is read of them -/

theorem Parser.lineFields_acceptSdp (line : Bytes) (hdr : RtspHeader) :
    (lineFields hdr line).acceptSdp =
      if isAccept line then hasWord (ascii "application/sdp") line else hdr.acceptSdp := by
  rw [lineFields, isAccept, hasWord, ← tokens_behind]
  cases (tokens space line).head? with
  | none => rfl
  | some name =>
      simp only [Option.map_some, Option.getD_some, Option.any_some, headerFields]
      by_cases haccept : strncasecmpEq (ascii "Accept:") name = true
      · have hcseq : strncasecmpEq (ascii "CSeq:") name = false := strncasecmpEq_other haccept (by decide)
        have hsession : strncasecmpEq (ascii "Session:") name = false :=
          strncasecmpEq_other haccept (by decide)
        simp only [hcseq, hsession, haccept, Bool.false_eq_true, if_false, if_true]
      · simp only [haccept, Bool.false_eq_true, if_false]
        split
        · cases (tokens space (behind space line)).head? <;> rfl
        · split
          · cases (tokens space (behind space line)).head? <;> rfl
          · rfl

theorem Parser.foldl_acceptSdp (lines : List Bytes) (hdr : RtspHeader) :
    (lines.foldl lineFields hdr).acceptSdp =
      ((lines.filter isAccept).getLast?.map (hasWord (ascii "application/sdp"))).getD hdr.acceptSdp := by
  induction lines generalizing hdr with
  | nil => rfl
  | cons line lines ih =>
      rw [List.foldl_cons, ih, lineFields_acceptSdp]
      cases haccept : isAccept line with
      | false =>
          rw [List.filter_cons_of_neg (by simp [haccept])]
          rfl
      | true =>
          rw [List.filter_cons_of_pos haccept, List.getLast?_cons]
          cases (lines.filter isAccept).getLast? <;> rfl

theorem Parser.foldl_lastAccepts (lines : List Bytes) :
    (lines.foldl lineFields { acceptSdp := true }).acceptSdp = lastAccepts (ascii "application/sdp") lines := by
  rw [foldl_acceptSdp, lastAccepts]
  cases (lines.filter isAccept).getLast? <;> rfl

namespace DescribeLine

variable {line : DescribeLine} {lines : List DescribeLine}

/-- A line that is legal is an Accept header when it is written as one. -/
theorem isAccept_text (hlegal : line.Legal) : Parser.isAccept line.text = line.isAccept := by
  cases line with
  | accept name ranges =>
      obtain ⟨hname, hlength, -⟩ := hlegal
      have hspace : space ∉ name := not_mem_of_keyword hname hlength (by decide)
      have hne : name ≠ [] := by
        rintro rfl
        cases hlength
      obtain ⟨w, hw, hstarts⟩ :=
        head_tokens hspace hne ([comma].intercalate (ranges.map MediaRange.text))
      have hhead : (tokens space (accept name ranges).text).head? = some w := hw
      rw [Parser.isAccept, hhead]
      exact strncasecmpEq_of_starts hstarts hname
  | other line =>
      rw [Parser.isAccept, show (other line).text = line from rfl]
      cases hhead : (tokens space line).head? with
      | none => rfl
      | some name => exact hlegal name hhead

theorem lastAccepts_text (hlegal : ∀ line ∈ lines, line.Legal) (media : Bytes) :
    Parser.lastAccepts media ((lines.map text).takeWhile Parser.passed) =
      (lastRead lines).all fun line => Parser.hasWord media line.text := by
  have htake : (lines.map text).takeWhile Parser.passed =
      (lines.takeWhile fun line => Parser.passed line.text).map text := List.takeWhile_map
  have hfilter : ((lines.takeWhile fun line => Parser.passed line.text).map text).filter Parser.isAccept =
      ((lines.takeWhile fun line => Parser.passed line.text).filter isAccept).map text := by
    rw [List.filter_map]
    refine congrArg (List.map text) (List.filter_congr ?_)
    intro line hline
    exact isAccept_text (hlegal line (List.takeWhile_subset _ hline))
  rw [Parser.lastAccepts, htake, hfilter, List.getLast?_map, lastRead]
  cases ((lines.takeWhile fun line => Parser.passed line.text).filter isAccept).getLast? <;> rfl

end DescribeLine

/-! ### The answer -/

section Call

variable {P : Lookup} {net : SocketCalls} {s : Session} {h : RtspHandler} {e : Engine}
  {block back : Bytes}

/-- The description is sent when the headers allow it. -/
theorem Session.describes_iff_accepts {uri : Option ℕ} {hdrs : RtspHeader} {m : Bytes} (accepted : Prop)
    (hrequest : s.request P (block ++ back) block.length =
      .ok (.command .describe uri hdrs ErrorCode.ok m, m)) :
    s.Describes P net h e block back accepted ↔ (hdrs.acceptSdp = true ↔ accepted) := by
  have hkill : (HandlerCall.command .describe uri hdrs ErrorCode.ok m).carriesOut ≠ some .kill :=
    HandlerCall.carriesOut_ne_kill (by decide)
  cases haccept : hdrs.acceptSdp with
  | true =>
      have hcommand : RtspHandler.command P net .describe hdrs ErrorCode.ok m (h, e) =
          .ok (ErrorCode.ok, ((h.describe P e.codec hdrs).2, e)) := by
        simp [RtspHandler.command, RtspHandler.describe, haccept]
      have hrun : (HandlerCall.command .describe uri hdrs ErrorCode.ok m).run
          (RtspHandler.handler P net) (h, e) = _ := bind_eq_ok.2 ⟨_, hcommand, rfl⟩
      have hprocess := process_of_run hrequest hrun
      have hok : s.AnsweredWith P net h e block back ErrorCode.ok :=
        ⟨_, _, _, hprocess, h.describe_answers P e.codec hdrs⟩
      rw [eq_self_iff_true, true_iff]
      constructor
      · rintro ⟨-, hnot⟩
        by_contra hrefused
        exact absurd (hok.unique (hnot hrefused)) (by decide)
      · intro haccepted
        refine ⟨fun _ => ⟨_, _, _, hprocess, h.describe_answers P e.codec hdrs, ?_⟩,
          fun hrefused => absurd haccepted hrefused⟩
        simp
  | false =>
      have hcommand : RtspHandler.command P net .describe hdrs ErrorCode.ok m (h, e) =
          .ok (ErrorCode.unsupportedMediaType,
            ((h.sendError P (some hdrs) ErrorCode.unsupportedMediaType).2, e)) := by
        simp [RtspHandler.command, RtspHandler.sendError, haccept]
      have hrun : (HandlerCall.command .describe uri hdrs ErrorCode.ok m).run
          (RtspHandler.handler P net) (h, e) = _ := bind_eq_ok.2 ⟨_, hcommand, rfl⟩
      have hanswer := answeredWith_of_run hrequest hrun hkill
      rw [HandlerCall.command_status hcommand (by decide)] at hanswer
      rw [Bool.false_eq_true, false_iff]
      constructor
      · rintro ⟨hyes, -⟩ haccepted
        obtain ⟨r, text, rest, hprocess, hlines, -⟩ := hyes haccepted
        exact absurd (hanswer.unique ⟨r, text, rest, hprocess, hlines⟩) (by decide)
      · intro hrefused
        exact ⟨fun haccepted => absurd haccepted hrefused, fun _ => hanswer⟩

theorem Session.Describes.request {accepted : Prop} (h : s.Describes P net h e block back accepted) :
    ∃ r, s.request P (block ++ back) block.length = .ok r := by
  obtain ⟨r, hprocess⟩ : ∃ r, s.process P (RtspHandler.handler P net) (_, e) (block ++ back)
      block.length = .ok r := by
    by_cases haccepted : accepted
    · obtain ⟨r, -, -, hprocess, -⟩ := h.1 haccepted
      exact ⟨r, hprocess⟩
    · obtain ⟨r, -, -, hprocess, -⟩ := h.2 haccepted
      exact ⟨r, hprocess⟩
  obtain ⟨call, cmd, hrequest, -⟩ := process_eq_ok.1 hprocess
  exact ⟨_, hrequest⟩

/-- Outside DEAD, a DESCRIBE is answered with the description exactly when the client accepts it, if
and only if the header loop ends and the last Accept header that it reads, if there is one, has a word
that starts with `application/sdp` exactly when the client accepts it. Where the lines that are reached
are bounded, the loop ends, and the Accept headers it reads are those in front of the line that stops
it. -/
theorem Session.describe_accepted_iff (P : Lookup) (net : SocketCalls) (s : Session)
    (hstate : s.state ≠ .dead) (h : RtspHandler) (e : Engine) {block : Bytes}
    (hblock : Parser.Block block) (back : Bytes)
    (hasked : Parser.asked P (allowed s.state) block = some (.command .describe ErrorCode.ok))
    {lines : List DescribeLine} (hlines : Parser.HeaderLines block (lines.map DescribeLine.text))
    (hlegal : ∀ line ∈ lines, line.Legal) :
    (s.Describes P net h e block back (DescribeLine.Accepted (ascii "application/sdp") lines) ↔
      ∃ read, Parser.linesRead (block ++ back) 0 block.length = .ok read ∧
        (Parser.lastAccepts (ascii "application/sdp") read = true ↔
          DescribeLine.Accepted (ascii "application/sdp") lines)) ∧
    ((∀ line ∈ Parser.reached (lines.map DescribeLine.text), Parser.BoundedLine line) →
      (s.Describes P net h e block back (DescribeLine.Accepted (ascii "application/sdp") lines) ↔
        ((DescribeLine.lastRead lines).all
            (fun line => Parser.hasWord (ascii "application/sdp") line.text) = true ↔
          DescribeLine.Accepted (ascii "application/sdp") lines))) := by
  have hiff : s.Describes P net h e block back (DescribeLine.Accepted (ascii "application/sdp") lines) ↔
      ∃ read, Parser.linesRead (block ++ back) 0 block.length = .ok read ∧
        (Parser.lastAccepts (ascii "application/sdp") read = true ↔
          DescribeLine.Accepted (ascii "application/sdp") lines) := by
    obtain ⟨f, herror, f', herror'⟩ | ⟨ok, hdrs, m, read, hheaders, hread, hbare⟩ :=
      Parser.headers_linesRead (block ++ back) 0 block.length
    · refine iff_of_false ?_ ?_
      · intro hdescribes
        obtain ⟨r, hrequest⟩ := hdescribes.request
        obtain ⟨ok, hdrs, m, hheaders⟩ := headers_of_request hstate hblock back hasked hrequest
        cases herror.symm.trans hheaders
      · rintro ⟨read, hread, -⟩
        cases herror'.symm.trans hread
    · obtain ⟨uri, hrequest⟩ := request_of_asked hstate hblock back hasked hheaders
      have hsdp : hdrs.acceptSdp = Parser.lastAccepts (ascii "application/sdp") read :=
        (congrArg RtspHeader.acceptSdp hbare).trans (Parser.foldl_lastAccepts read)
      rw [describes_iff_accepts _ hrequest, hsdp]
      constructor
      · intro hcond
        exact ⟨read, hread, hcond⟩
      · rintro ⟨read', hread', hcond⟩
        obtain rfl := Except.ok.inj (hread.symm.trans hread')
        exact hcond
  refine ⟨hiff, ?_⟩
  intro hbounded
  obtain ⟨uri, lp, m, hopened, hat⟩ := opened_of_asked hblock back hasked hlines.lines_eq
  rw [hiff, Parser.linesRead_reached hopened hat hbounded, ← DescribeLine.lastAccepts_text hlegal]
  simp only [Except.ok.injEq, exists_eq_left']

end Call

namespace DescribeLine

/-- Two Accept headers among other lines. -/
def acceptTwice : List DescribeLine :=
  [.other (ascii "User-Agent: VLC/3.0"),
    .accept (ascii "Accept:") [⟨[space], ascii "text/plain", ascii ";q=0.5"⟩,
      ⟨[space], ascii "application/sdp", []⟩],
    .other (ascii "Transport: RTP/AVP;unicast"),
    .accept (ascii "ACCEPT:") [⟨[space], ascii "Application/SDP", ascii ";level=2"⟩,
      ⟨[space, space], ascii "text/html", []⟩],
    .other (ascii "CSeq: 2")]

/-- The media types are separated by a comma without a space. -/
def acceptBoth : List DescribeLine :=
  [.accept (ascii "Accept:") [⟨[space], ascii "text/plain", []⟩, ⟨[], ascii "application/sdp", []⟩]]

theorem acceptTwice_legal : ∀ line ∈ acceptTwice, line.Legal := by
  intro line hline
  simp only [acceptTwice, List.mem_cons, List.not_mem_nil, or_false] at hline
  rcases hline with rfl | rfl | rfl | rfl | rfl
  · unfold Legal
    decide +kernel
  · refine ⟨by decide, by decide, List.forall_mem_cons.2 ⟨?_, List.forall_mem_singleton.2 ?_⟩⟩
    · exact ⟨by decide, by decide, by decide +kernel, by decide +kernel⟩
    · exact ⟨by decide, by decide, by decide +kernel, by decide +kernel⟩
  · unfold Legal
    decide +kernel
  · refine ⟨by decide +kernel, by decide, List.forall_mem_cons.2 ⟨?_, List.forall_mem_singleton.2 ?_⟩⟩
    · exact ⟨by decide, by decide, by decide +kernel, by decide +kernel⟩
    · exact ⟨by decide, by decide, by decide +kernel, by decide +kernel⟩
  · unfold Legal
    decide +kernel

theorem acceptBoth_legal : ∀ line ∈ acceptBoth, line.Legal := by
  intro line hline
  obtain rfl := List.mem_singleton.1 hline
  refine ⟨by decide, by decide, List.forall_mem_cons.2 ⟨?_, List.forall_mem_singleton.2 ?_⟩⟩
  · exact ⟨by decide, by decide, by decide +kernel, by decide +kernel⟩
  · exact ⟨by decide, by decide, by decide +kernel, by decide +kernel⟩

end DescribeLine

/-- A DESCRIBE with two Accept headers. -/
def acceptText : Bytes :=
  requestText "DESCRIBE" ["User-Agent: VLC/3.0", "Accept: text/plain;q=0.5, application/sdp",
    "Transport: RTP/AVP;unicast", "ACCEPT: Application/SDP;level=2,  text/html", "CSeq: 2"]

/-- It accepts the description. -/
theorem Session.accepted_described :
    Session.new.Describes Lookup.literal Server.simulated (.new (ascii "10.0.0.1") 7)
      Server.pcmServer.engine acceptText [0]
      (DescribeLine.Accepted (ascii "application/sdp") DescribeLine.acceptTwice) := by
  have hlines : Parser.HeaderLines acceptText (DescribeLine.acceptTwice.map DescribeLine.text) :=
    ⟨by decide +kernel, by decide +kernel⟩
  have hlong : ∀ line ∈ DescribeLine.acceptTwice.map DescribeLine.text,
      ∀ name ∈ (tokens space line).head?, strncasecmpEq (ascii "Transport:") name = true →
        4 ≤ (behind space line).length := by decide +kernel
  have hbounded : ∀ line ∈ Parser.reached (DescribeLine.acceptTwice.map DescribeLine.text),
      Parser.BoundedLine line := by
    intro line hline
    have hin := List.take_subset _ _ hline
    exact ⟨hlines.one line hin, hlong line hin⟩
  refine ((describe_accepted_iff Lookup.literal Server.simulated Session.new (by decide)
    (.new (ascii "10.0.0.1") 7) Server.pcmServer.engine ⟨by decide +kernel, by decide +kernel⟩ [0]
    (by decide +kernel) hlines DescribeLine.acceptTwice_legal).2 hbounded).2
      (iff_of_true (by decide +kernel) (.inl ?_))
  exact ⟨_, List.mem_cons_of_mem _ List.mem_cons_self, by decide +kernel⟩

/-- The client accepts the description, and the answer is 415. -/
theorem Session.comma_list_refused :
    Parser.Block (requestText "DESCRIBE" ["Accept: text/plain,application/sdp"]) ∧
    Parser.asked Lookup.literal (allowed Session.new.state)
      (requestText "DESCRIBE" ["Accept: text/plain,application/sdp"]) =
        some (.command .describe ErrorCode.ok) ∧
    Parser.HeaderLines (requestText "DESCRIBE" ["Accept: text/plain,application/sdp"])
      (DescribeLine.acceptBoth.map DescribeLine.text) ∧
    (∀ line ∈ DescribeLine.acceptBoth, line.Legal) ∧
    ¬Session.new.Describes Lookup.literal Server.simulated (.new (ascii "10.0.0.1") 7)
      Server.pcmServer.engine (requestText "DESCRIBE" ["Accept: text/plain,application/sdp"]) [0]
      (DescribeLine.Accepted (ascii "application/sdp") DescribeLine.acceptBoth) := by
  refine ⟨⟨by decide +kernel, by decide +kernel⟩, by decide +kernel,
    ⟨by decide +kernel, by decide +kernel⟩, DescribeLine.acceptBoth_legal, ?_⟩
  rintro ⟨hyes, -⟩
  have hlisted : ∃ line ∈ DescribeLine.acceptBoth, line.lists (ascii "application/sdp") = true :=
    ⟨_, List.mem_cons_self, by decide +kernel⟩
  obtain ⟨r, text, rest, hprocess, hanswer, -⟩ := hyes (.inl hlisted)
  have hsent : ((Session.new.process Lookup.literal (RtspHandler.handler Lookup.literal
      Server.simulated) (.new (ascii "10.0.0.1") 7, Server.pcmServer.engine)
      (requestText "DESCRIBE" ["Accept: text/plain,application/sdp"] ++ [0])
      (requestText "DESCRIBE" ["Accept: text/plain,application/sdp"]).length).toOption.all fun r =>
        r.handler.1.sent = [[.status 415 (ascii "Unsupported Media Type"), .cseq 0, .blank]]) =
      true := by decide +kernel
  rw [hprocess] at hsent
  have hsent := of_decide_eq_true hsent
  rw [hanswer.sent] at hsent
  have hcode := (Line.status.inj (List.cons.inj (List.cons.inj hsent).1).1).1
  exact absurd hcode (by decide)

/-- With a space behind the comma the second media range is a word of its own. -/
example : Parser.hasWord (ascii "application/sdp") (ascii "Accept: text/plain,application/sdp") = false ∧
    Parser.hasWord (ascii "application/sdp") (ascii "Accept: text/plain, application/sdp") = true := by
  decide +kernel

end WifiAudio
