import WifiAudio.Proof.Rtsp.Stated
import WifiAudio.Proof.Server.Accept

/-!
# The number of a request

A client finds the answer to a request by the number in the CSeq header, which the answer is to repeat.
It does when the answer is sent with the request's headers, which `handler->error` is not given, and
when the header loop comes to the CSeq line: otherwise the number is 0.
-/

namespace WifiAudio

open CString Except

namespace Parser

/-- The header line `CSeq: n`. -/
def cseqLine (n : ℕ) : Bytes := ascii "CSeq: " ++ decimal n

/-- A header line that is no CSeq header. -/
def Unnumbered (line : Bytes) : Prop :=
  ∀ name ∈ (tokens space line).head?, strncasecmpEq (ascii "CSeq:") name = false

variable {line : Bytes} {lines before after : List Bytes} {n : ℕ}

theorem lineFields_unnumbered (hline : Unnumbered line) (hdr : RtspHeader) :
    (lineFields hdr line).cseq = hdr.cseq := by
  rw [lineFields]
  cases hhead : (tokens space line).head? with
  | none => rfl
  | some name =>
      have hother := hline name hhead
      simp only [Option.map_some, Option.getD_some, headerFields, hother, Bool.false_eq_true, if_false]
      split
      · cases (tokens space (behind space line)).head? <;> rfl
      · split <;> rfl

theorem Unnumbered.front (hline : Unnumbered line) {text : Bytes} (hfront : text <+: line) :
    Unnumbered text := by
  intro name hname
  by_contra hcseq
  rw [Bool.not_eq_false, strncasecmpEq, List.isPrefixOf_iff_prefix] at hcseq
  obtain ⟨rest, rfl⟩ := hfront
  obtain ⟨hnone, -⟩ | ⟨w, u, hsplit, htokens, -⟩ := tokens_cases space text
  · rw [hnone] at hname
    cases hname
  · rw [htokens] at hname
    obtain rfl := Option.some.inj hname
    -- the name of the header in full is at the start of the line
    have hname' : strncasecmpEq (ascii "CSeq:") (w.take 5) = true := by
      rw [strncasecmpEq, List.isPrefixOf_iff_prefix, List.map_take]
      exact List.prefix_take_iff.2 ⟨hcseq, by decide⟩
    have hlength : (w.take 5).length = 5 := by
      have hle := hcseq.length_le
      rw [List.length_map, List.length_map] at hle
      exact List.length_take_of_le hle
    have hspace : space ∉ w.take 5 := not_mem_of_keyword hname' hlength (by decide)
    have hne : w.take 5 ≠ [] := List.length_pos_iff.1 (by omega)
    have hdrop : (text ++ rest).dropWhile (· == space) = w.take 5 ++ (w.drop 5 ++ (u ++ rest)) := by
      rw [List.dropWhile_append, hsplit, if_neg (by simp [List.length_pos_iff.1 (show 0 < w.length by
        rw [List.length_take] at hlength; omega)]), ← List.append_assoc, List.take_append_drop,
        List.append_assoc]
    obtain ⟨w', hw', hstarts⟩ := head_tokens hspace hne (w.drop 5 ++ (u ++ rest))
    rw [← hdrop, tokens_dropWhile] at hw'
    exact absurd ((hline w' hw').symm.trans (strncasecmpEq_of_starts hstarts hname')) (by decide)

/-- The CSeq line is read as it is, or its number is cut off. -/
theorem cseqLine_readAs {text : Bytes} (hread : ReadAs (cseqLine n) text) :
    text = cseqLine n ∨ text = ascii "CSeq:" := by
  obtain ⟨rest, hline, hrest⟩ := hread
  cases rest with
  | nil =>
      rw [List.append_nil] at hline
      exact .inl hline.symm
  | cons b rest =>
      right
      have hsep := hrest b rfl
      have hdecimal : b ∉ decimal n := by
        rcases hsep with rfl | rfl | rfl | rfl <;> exact TransportSpec.decimal_free (by decide) (by decide) n
      have hname : b ∉ ascii "CSeq:" := by
        rcases hsep with rfl | rfl | rfl | rfl <;> decide
      have hsplit : ascii "CSeq:" ++ space :: decimal n = text ++ b :: rest := hline
      obtain ⟨u, rfl, hu⟩ | ⟨u, hu, hu'⟩ := List.append_eq_append_iff.1 hsplit
      · cases u with
        | nil => exact List.append_nil _
        | cons c u =>
            refine absurd ?_ hdecimal
            rw [(List.cons.inj hu).2]
            exact List.mem_append_right _ List.mem_cons_self
      · cases u with
        | nil => rw [hu, List.append_nil]
        | cons c u =>
            refine absurd ?_ hname
            rw [hu, (List.cons.inj hu').1]
            exact List.mem_append_right _ List.mem_cons_self

theorem tokens_cseqLine (n : ℕ) : tokens space (cseqLine n) = [ascii "CSeq:", decimal n] := by
  have hline : cseqLine n = ascii "CSeq:" ++ space :: decimal n := rfl
  have hdecimal : space ∉ decimal n := TransportSpec.decimal_free (by decide) (by decide) n
  have hne : decimal n ≠ [] := by
    rw [decimal, ascii_toString_int, if_pos (Int.natCast_nonneg n)]
    exact natDigits_ne_nil _
  rw [hline, tokens_append (by decide) (by decide), tokens_of_not_mem hdecimal hne]

theorem not_unnumbered_cseqLine (n : ℕ) : ¬Unnumbered (cseqLine n) := by
  intro hline
  exact absurd (hline (ascii "CSeq:") (by rw [tokens_cseqLine]; rfl)) (by decide)

theorem bounded_cseqLine (hone : ¬crlf <:+: cseqLine n) : BoundedLine (cseqLine n) := by
  refine ⟨hone, ?_⟩
  intro name hname htransport
  rw [tokens_cseqLine] at hname
  obtain rfl := Option.some.inj hname
  exact absurd htransport (by decide)

theorem cseqLine_read (hn : n < 2 ^ 31) (hdr : RtspHeader) :
    passed (cseqLine n) = true ∧ (lineFields hdr (cseqLine n)).cseq = n := by
  have htokens := tokens_cseqLine n
  have hbehind : tokens space (behind space (cseqLine n)) = [decimal n] := by
    rw [tokens_behind, htokens]
    rfl
  have hnumber : numberOf 10 (decimal n) = ((n : ℤ), []) := by
    have hint : SpecOption.IsInt n := ⟨by omega, by omega⟩
    have hend : ∀ b ∈ ([] : Bytes).head?, digitValue b = none := by simp
    have hread := SpecOption.numberOf_decimal hint (.inr rfl) hend
    rwa [List.append_nil] at hread
  have hnumbered : Numbered (ascii "CSeq:") := .inl (by decide)
  constructor
  · rw [passed, htokens]
    simp only [List.head?_cons, Option.any_some, headerPassed, if_pos hnumbered, hbehind]
    rfl
  · rw [lineFields, htokens]
    simp only [List.head?_cons, Option.map_some, Option.getD_some, headerFields, hbehind, hnumber]
    rfl

/-- The number that is read is the one of the CSeq line, if that is read. -/
theorem foldl_cseq (hn : n < 2 ^ 31) (hlines : ∀ line ∈ lines, line = cseqLine n ∨
      ∀ hdr, (lineFields hdr line).cseq = hdr.cseq) (hdr : RtspHeader) :
    (lines.foldl lineFields hdr).cseq = if cseqLine n ∈ lines then (n : ℤ) else hdr.cseq := by
  induction lines generalizing hdr with
  | nil => rfl
  | cons line lines ih =>
      obtain ⟨hline, hlines⟩ := List.forall_mem_cons.1 hlines
      rw [List.foldl_cons, ih hlines]
      obtain rfl | hsame := hline
      · rw [(cseqLine_read hn hdr).2, ite_self, if_pos List.mem_cons_self]
      · rw [hsame]
        by_cases hin : cseqLine n ∈ lines
        · rw [if_pos hin, if_pos (List.mem_cons_of_mem _ hin)]
        · rw [if_neg hin]
          split
          case isFalse => rfl
          case isTrue hmem =>
            -- the line at hand is the CSeq line, and leaves the number as it was
            obtain rfl := (List.mem_cons.1 hmem).resolve_right hin
            exact (hsame hdr).symm.trans (cseqLine_read hn hdr).2

theorem unnumbered_of_readAs {text : Bytes} (hother : ∀ line ∈ before ++ after, Unnumbered line)
    (hread : ∃ line ∈ before ++ cseqLine n :: after, ReadAs line text) :
    text = cseqLine n ∨ ∀ hdr, (lineFields hdr text).cseq = hdr.cseq := by
  obtain ⟨line, hline, hreadAs⟩ := hread
  have hcase : line = cseqLine n ∨ line ∈ before ++ after := by
    rw [List.mem_append, List.mem_cons] at hline
    rw [List.mem_append]
    tauto
  obtain rfl | hline := hcase
  · refine (cseqLine_readAs hreadAs).imp_right ?_
    rintro rfl hdr
    rfl
  · obtain ⟨rest, rfl, -⟩ := hreadAs
    exact .inr (lineFields_unnumbered ((hother _ hline).front (List.prefix_append _ _)))

end Parser

/-! ### The answer -/

theorem RtspHandler.Answers.unique {h h' : RtspHandler} {response response' : Response}
    (hanswer : h.Answers h' response) (hanswer' : h.Answers h' response') : response = response' := by
  have hsame := List.append_cancel_left (hanswer.sent.symm.trans hanswer'.sent)
  exact List.append_cancel_left (List.cons.inj hsame).1

/-- Where the lines in front of the CSeq line are bounded, it is read when the loop gets past all of
them. -/
theorem Session.cseqLine_mem_iff {P : Lookup} {allowable : List RtspCommand} {block back : Bytes}
    {cmd : RtspCommand} {code : ℤ} (hblock : Parser.Block block)
    (hasked : Parser.asked P allowable block = some (.command cmd code)) {before after : List Bytes} {n : ℕ}
    (hn : n < 2 ^ 31) (hlines : Parser.HeaderLines block (before ++ Parser.cseqLine n :: after))
    (hother : ∀ line ∈ before ++ after, Parser.Unnumbered line)
    (hbounded : ∀ line ∈ before, Parser.BoundedLine line) {read : List Bytes}
    (hread : Parser.linesRead (block ++ back) 0 block.length = .ok read) :
    Parser.cseqLine n ∈ read ↔ ∀ line ∈ before, Parser.passed line = true := by
  have hpassed := (Parser.cseqLine_read hn {}).1
  have hbounded' : ∀ line ∈ before ++ [Parser.cseqLine n], Parser.BoundedLine line := by
    rw [List.forall_mem_append]
    exact ⟨hbounded, List.forall_mem_singleton.2 (Parser.bounded_cseqLine
      (hlines.one _ (List.mem_append_right _ List.mem_cons_self)))⟩
  obtain ⟨uri, lp, m, hopened, hat⟩ := opened_of_asked hblock back hasked hlines.lines_eq
  rw [List.append_cons] at hat
  obtain ⟨hall, hsubset⟩ | ⟨hnot, rfl⟩ := Parser.linesRead_front hopened hbounded' hat hread
  · refine iff_of_true (hsubset (List.mem_append_right _ List.mem_cons_self)) ?_
    exact (List.forall_mem_append.1 hall).1
  · have hstops : ¬∀ line ∈ before, Parser.passed line = true := by
      intro hfront
      exact hnot (List.forall_mem_append.2 ⟨hfront, List.forall_mem_singleton.2 hpassed⟩)
    refine iff_of_false ?_ hstops
    rw [List.takeWhile_append, if_neg fun hlength =>
      hstops (List.takeWhile_eq_self_iff.1 ((List.takeWhile_prefix _).eq_of_length hlength))]
    intro hin
    exact Parser.not_unnumbered_cseqLine n
      (hother _ (List.mem_append_left _ (List.takeWhile_subset _ hin)))

/-- Outside DEAD, the answer to a request with one line `CSeq: n` repeats `n` exactly when the request
is not rejected for its request line, and either `n` is 0 or the header loop reads the CSeq line. Where
the lines in front of it are bounded, it does when it gets past each of them. -/
theorem Session.numbered_answer_iff (P : Lookup) (net : SocketCalls) (s : Session)
    (hstate : s.state ≠ .dead) (h : RtspHandler) (e : Engine) {block : Bytes}
    (hblock : Parser.Block block) (back : Bytes) {before after : List Bytes} {n : ℕ} (hn : n < 2 ^ 31)
    (hlines : Parser.HeaderLines block (before ++ Parser.cseqLine n :: after))
    (hother : ∀ line ∈ before ++ after, Parser.Unnumbered line) {r : Processed HandlerState}
    (hprocess : s.process P (RtspHandler.handler P net) (h, e) (block ++ back) block.length = .ok r)
    {response : Response} (hanswer : h.Answers r.handler.1 response) :
    (Line.cseq n ∈ response ↔ Parser.asked P (allowed s.state) block ≠ some .rejected ∧
      (n = 0 ∨ ∃ read, Parser.linesRead (block ++ back) 0 block.length = .ok read ∧
        Parser.cseqLine n ∈ read)) ∧
    ((∀ line ∈ before, Parser.BoundedLine line) →
      (Line.cseq n ∈ response ↔ Parser.asked P (allowed s.state) block ≠ some .rejected ∧
        (n = 0 ∨ ∀ line ∈ before, Parser.passed line = true))) := by
  obtain ⟨call, cmd, hcall, hrun, -⟩ := process_eq_ok.1 hprocess
  have hkill : call.carriesOut ≠ some .kill := by
    intro hkill
    have hanswers := (HandlerCall.run_effect hrun).answers
    rw [if_pos hkill] at hanswers
    have hsent := hanswer.sent
    rw [hanswers] at hsent
    simp at hsent
  obtain ⟨rest, hlinesAnswered, hrest⟩ := HandlerCall.run_answered hrun hkill
  obtain rfl := hanswer.unique hlinesAnswered
  have hmem : Line.cseq n ∈ (Line.status call.status (P.lut responseLut call.status) ::
      (call.cseqLines ++ rest)) ↔ Line.cseq n ∈ call.cseqLines := by
    rw [List.mem_cons, List.mem_append, or_iff_right (by simp), or_iff_left (hrest n)]
  rw [hmem]
  obtain ⟨a, hasked⟩ := asked_of_request hstate hblock back hcall
  cases a with
  | rejected =>
      obtain ⟨m, hrequest⟩ := request_of_rejected hstate hblock back hasked
      obtain ⟨rfl, -⟩ := Prod.mk.inj (Except.ok.inj (hrequest.symm.trans hcall))
      exact ⟨iff_of_false List.not_mem_nil fun hcond => hcond.1 hasked,
        fun _ => iff_of_false List.not_mem_nil fun hcond => hcond.1 hasked⟩
  | command asked code =>
      obtain ⟨ok, hdrs, m, hheaders⟩ := headers_of_request hstate hblock back hasked hcall
      obtain ⟨f, herror, -⟩ | ⟨ok', hdrs', m', read, hheaders', hread, hbare⟩ :=
        Parser.headers_linesRead (block ++ back) 0 block.length
      · cases herror.symm.trans hheaders
      obtain ⟨rfl, rfl, rfl⟩ : ok = ok' ∧ hdrs = hdrs' ∧ m = m' := by
        simpa using Except.ok.inj (hheaders.symm.trans hheaders')
      obtain ⟨uri, hrequest⟩ := request_of_asked hstate hblock back hasked hheaders
      obtain ⟨rfl, -⟩ := Prod.mk.inj (Except.ok.inj (hrequest.symm.trans hcall))
      obtain ⟨uri', lp, m₁, hopened, hat⟩ := opened_of_asked hblock back hasked hlines.lines_eq
      have hfrom := Parser.linesRead_lines hopened hat hblock hlines hread
      have hcseq : hdrs.cseq = if Parser.cseqLine n ∈ read then (n : ℤ) else 0 :=
        (congrArg RtspHeader.cseq hbare).trans (Parser.foldl_cseq hn (fun text htext =>
          Parser.unnumbered_of_readAs hother (hfrom text htext)) _)
      have hcommand : Parser.asked P (allowed s.state) block ≠ some .rejected := by
        rw [hasked]
        simp
      have hnumber : Line.cseq n ∈ (HandlerCall.command asked uri hdrs code m).cseqLines ↔
          n = 0 ∨ Parser.cseqLine n ∈ read := by
        rw [HandlerCall.cseqLines, List.mem_singleton, Line.cseq.injEq, hcseq]
        split
        case isTrue hin => exact iff_of_true rfl (.inr hin)
        case isFalse hnot =>
          rw [or_iff_left hnot]
          exact Int.natCast_eq_zero
      rw [and_iff_right hcommand, and_iff_right hcommand]
      refine ⟨?_, ?_⟩
      · rw [hread]
        simpa using hnumber
      · intro hbounded
        rw [← cseqLine_mem_iff hblock hasked hn hlines hother hbounded hread]
        exact hnumber

/-- The number 0 is repeated although the loop does not get to the CSeq line. -/
example : (Session.new.process Lookup.literal (RtspHandler.handler Lookup.literal Server.simulated)
    (.new (ascii "10.0.0.1") 7, Server.pcmServer.engine)
    (requestText "OPTIONS" ["Session:", "CSeq: 0"] ++ [0])
    (requestText "OPTIONS" ["Session:", "CSeq: 0"]).length).toOption.any (fun r =>
      r.handler.1.sent.flatten.contains (Line.cseq 0)) = true := by
  decide +kernel

/-- A request with a number among other header lines, the last of which `parse_transport` does not get
through. -/
def numberedText : Bytes :=
  requestText "OPTIONS" ["User-Agent: VLC/3.0", "Session: 7", "Transport: RTP/AVP;unicast", "CSeq: 3",
    "Accept: text/plain", "Transport: RTP/AVP;layers=2"]

/-- Its answer has the number. -/
theorem Session.options_numbered : ∃ r response,
    Session.new.process Lookup.literal (RtspHandler.handler Lookup.literal Server.simulated)
        (.new (ascii "10.0.0.1") 7, Server.pcmServer.engine) (numberedText ++ [0])
        numberedText.length = .ok r ∧
      (RtspHandler.new (ascii "10.0.0.1") 7).Answers r.handler.1 response ∧ Line.cseq (3 : ℕ) ∈ response := by
  obtain ⟨r, hprocess, hanswer⟩ := answers_of_check numberedText
    [.status 200 (ascii "OK"), .cseq 3, .methods (cmdLut.entries.map Prod.fst), .blank]
    (by decide +kernel)
  have hlines : Parser.HeaderLines numberedText ([ascii "User-Agent: VLC/3.0", ascii "Session: 7",
      ascii "Transport: RTP/AVP;unicast"] ++ Parser.cseqLine 3 ::
        [ascii "Accept: text/plain", ascii "Transport: RTP/AVP;layers=2"]) :=
    ⟨by decide +kernel, by decide +kernel⟩
  have hlong : ∀ line ∈ [ascii "User-Agent: VLC/3.0", ascii "Session: 7", ascii "Transport: RTP/AVP;unicast"],
      ∀ name ∈ (tokens space line).head?, strncasecmpEq (ascii "Transport:") name = true →
        4 ≤ (behind space line).length := by decide +kernel
  refine ⟨r, _, hprocess, hanswer, ((numbered_answer_iff Lookup.literal Server.simulated Session.new
    (by decide) _ _ ⟨by decide +kernel, by decide +kernel⟩ [0] (by decide) hlines ?_ hprocess hanswer).2
      ?_).2 ⟨by decide +kernel, .inr (by decide +kernel)⟩⟩
  · unfold Parser.Unnumbered
    decide +kernel
  · intro line hline
    exact ⟨hlines.one line (List.mem_append_left _ hline), hlong line hline⟩

/-- A Session header without a value in front of the CSeq header: the answer has the number 0. -/
theorem Session.number_not_reached :
    Parser.Block (requestText "OPTIONS" ["Session:", "CSeq: 3"]) ∧
    Parser.HeaderLines (requestText "OPTIONS" ["Session:", "CSeq: 3"])
      ([ascii "Session:"] ++ Parser.cseqLine 3 :: []) ∧
    (∀ line ∈ [ascii "Session:"] ++ [], Parser.Unnumbered line) ∧
    ∃ r response,
      Session.new.process Lookup.literal (RtspHandler.handler Lookup.literal Server.simulated)
        (.new (ascii "10.0.0.1") 7, Server.pcmServer.engine)
        (requestText "OPTIONS" ["Session:", "CSeq: 3"] ++ [0])
        (requestText "OPTIONS" ["Session:", "CSeq: 3"]).length = .ok r ∧
      (RtspHandler.new (ascii "10.0.0.1") 7).Answers r.handler.1 response ∧ Line.cseq (3 : ℕ) ∉ response := by
  refine ⟨⟨by decide +kernel, by decide +kernel⟩, ⟨by decide +kernel, by decide +kernel⟩, ?_, ?_⟩
  · unfold Parser.Unnumbered
    decide +kernel
  · obtain ⟨r, hprocess, hanswer⟩ :=
      answers_of_check (requestText "OPTIONS" ["Session:", "CSeq: 3"])
        [.status 200 (ascii "OK"), .cseq 0, .methods (cmdLut.entries.map Prod.fst), .blank]
        (by decide +kernel)
    exact ⟨r, _, hprocess, hanswer, by decide⟩

end WifiAudio
