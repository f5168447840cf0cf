import WifiAudio.Lib.Message
import WifiAudio.Proof.Rtsp.Rendering
import WifiAudio.Proof.Server.Exchange

/-!
# Reading the answers back

A client sees one stream of bytes on its connection. Every answer is a message whose headers give the
length of its body, so the stream can be cut into the answers again, and an answer is complete with
its last byte and not before. The only foreign text in an answer is the address the server was given.
-/

namespace WifiAudio

open CString Transition TextMessage

/-! ### An answer as a message -/

/-- The first line of an answer, without its end. -/
def Line.start? : Line → Option Bytes
  | status code text => some (ascii "RTSP/1.0 " ++ decimal code ++ ascii " " ++ text)
  | _ => none

/-- The header a line is. -/
def Line.header? : Line → Option (Bytes × Bytes)
  | cseq n => some (ascii "CSeq", decimal n)
  | session id => some (ascii "Session", decimal id)
  | contentType => some (ascii "Content-Type", ascii "application/sdp")
  | contentLength n => some (ascii "Content-Length", decimal n)
  | methods commands => some (ascii "Public", (ascii ", ").intercalate commands)
  | transport rtp rtcp sid => some (ascii "Transport", ascii "RTP/AVP;unicast;server_port=" ++
      decimal rtp ++ ascii "-" ++ decimal rtcp ++ ascii ";session=" ++ decimal sid)
  | rtpInfo ip seq rtptime => some (ascii "RTP-Info", ascii "url=rtsp://" ++ ip ++
      ascii "/media/trackID=0;seq=" ++ decimal seq ++ ascii ";rtptime=" ++ decimal rtptime)
  | _ => none

def Line.body? : Line → Option Bytes
  | body text => some text
  | _ => none

namespace Response

/-- The bytes of an answer. -/
def text (r : Response) : Bytes := r.flatMap Line.text

def message (r : Response) : TextMessage where
  start := (r.head?.bind Line.start?).getD []
  headers := r.filterMap Line.header?
  body := (r.filterMap Line.body?).flatten

/-- The length of the body: what `Content-Length` says, and no body without it. -/
def bodyLength (headers : List (Bytes × Bytes)) : Option ℕ :=
  match headers.find? fun header => header.1 == ascii "Content-Length" with
  | some header => some (digitsValue 10 header.2)
  | none => some 0

end Response

/-! ### The bytes of an answer -/

theorem Line.header_text {line : Line} {header : Bytes × Bytes} (h : line.header? = some header) :
    line.text = writeHeader header := by
  have hend : crlf = lineEnd := rfl
  have hcseq : ascii "CSeq: " = ascii "CSeq" ++ separator := by decide
  have hsession : ascii "Session: " = ascii "Session" ++ separator := by decide
  have htype : ascii "Content-Type: application/sdp" =
      ascii "Content-Type" ++ separator ++ ascii "application/sdp" := by decide
  have hlength : ascii "Content-Length: " = ascii "Content-Length" ++ separator := by decide
  have hpublic : ascii "Public: " = ascii "Public" ++ separator := by decide
  have htransport : ascii "Transport: RTP/AVP;unicast;server_port=" =
      ascii "Transport" ++ separator ++ ascii "RTP/AVP;unicast;server_port=" := by decide
  have hinfo : ascii "RTP-Info: url=rtsp://" =
      ascii "RTP-Info" ++ separator ++ ascii "url=rtsp://" := by decide
  cases line with
  | status code text => cases h
  | body text => cases h
  | blank => cases h
  | _ =>
      obtain rfl := Option.some.inj h
      simp only [Line.text, writeHeader, hend, hcseq, hsession, htype, hlength, hpublic, htransport,
        hinfo, List.append_assoc]

namespace Response

variable {headers : List Line}

/-- The headers and the body of an answer whose lines are its status, headers, an empty line and what
follows it. -/
theorem message_parts (code : ℤ) (text : Bytes) (bodies : List Bytes)
    (hheaders : ∀ line ∈ headers, line.header?.isSome) :
    (message (.status code text :: (headers ++ .blank :: bodies.map Line.body))).headers =
        headers.filterMap Line.header? ∧
      (message (.status code text :: (headers ++ .blank :: bodies.map Line.body))).body =
        bodies.flatten := by
  have hnobody : headers.filterMap Line.body? = [] := by
    refine List.filterMap_eq_nil_iff.2 ?_
    intro line hline
    have hheader := hheaders line hline
    cases line <;> first | rfl | cases hheader
  have hbodies : (bodies.map Line.body).filterMap Line.header? = [] := by
    refine List.filterMap_eq_nil_iff.2 ?_
    intro line hline
    obtain ⟨body, -, rfl⟩ := List.mem_map.1 hline
    rfl
  have htexts : (bodies.map Line.body).filterMap Line.body? = bodies := by
    rw [List.filterMap_map]
    exact List.filterMap_some
  refine ⟨?_, ?_⟩
  · change (Line.status code text :: (headers ++ .blank :: bodies.map Line.body)).filterMap
      Line.header? = _
    rw [List.filterMap_cons_none rfl, List.filterMap_append, List.filterMap_cons_none rfl, hbodies,
      List.append_nil]
  · change ((Line.status code text :: (headers ++ .blank :: bodies.map Line.body)).filterMap
      Line.body?).flatten = _
    rw [List.filterMap_cons_none rfl, List.filterMap_append, List.filterMap_cons_none rfl, hnobody,
      htexts, List.nil_append]

theorem text_message (code : ℤ) (text : Bytes) (bodies : List Bytes)
    (hheaders : ∀ line ∈ headers, line.header?.isSome) :
    Response.text (.status code text :: (headers ++ .blank :: bodies.map Line.body)) =
      (message (.status code text :: (headers ++ .blank :: bodies.map Line.body))).write := by
  have hlines : headers.flatMap Line.text = (headers.filterMap Line.header?).flatMap writeHeader := by
    induction headers with
    | nil => rfl
    | cons line headers ih =>
        obtain ⟨header, hheader⟩ := Option.isSome_iff_exists.1 (hheaders line List.mem_cons_self)
        rw [List.flatMap_cons, List.filterMap_cons_some hheader, List.flatMap_cons,
          Line.header_text hheader, ih fun l hl => hheaders l (List.mem_cons_of_mem _ hl)]
  have hflat : (bodies.map Line.body).flatMap Line.text = bodies.flatten := by
    rw [List.flatMap_map, List.flatten_eq_flatMap]
    rfl
  obtain ⟨hheader, hbody⟩ := message_parts code text bodies hheaders
  rw [Response.text, write, hheader, hbody, List.flatMap_cons, List.flatMap_append,
    List.flatMap_cons, hlines, hflat]
  simp only [message, Line.text, List.head?_cons, Option.bind_some, Line.start?, Option.getD_some,
    List.append_assoc]
  rfl

end Response

/-! ### An answer is well formed -/

/-- A line that is a header, without the end of a line in it. -/
def Line.Plain : Line → Prop
  | status _ _ => False
  | body _ => False
  | blank => False
  | methods commands => 13 ∉ (ascii ", ").intercalate commands
  | rtpInfo ip _ _ => 13 ∉ ip
  | _ => True

theorem Line.Plain.header {line : Line} (h : line.Plain) :
    ∃ header, line.header? = some header ∧ (13 ∉ header.1 ∧ 58 ∉ header.1) ∧ 13 ∉ header.2 := by
  have hdecimal : ∀ v, 13 ∉ decimal v := HeaderLine.not_mem_decimal (by decide) (by decide)
  have hname : ∀ name ∈ [ascii "CSeq", ascii "Session", ascii "Content-Type", ascii "Content-Length",
      ascii "Public", ascii "Transport", ascii "RTP-Info"], 13 ∉ name ∧ 58 ∉ name := by decide
  cases line with
  | status code text => exact h.elim
  | body text => exact h.elim
  | blank => exact h.elim
  | cseq n => exact ⟨_, rfl, hname _ (by simp), hdecimal n⟩
  | session id => exact ⟨_, rfl, hname _ (by simp), hdecimal id⟩
  | contentType => exact ⟨_, rfl, hname _ (by simp), by decide⟩
  | contentLength n => exact ⟨_, rfl, hname _ (by simp), hdecimal n⟩
  | methods commands => exact ⟨_, rfl, hname _ (by simp), h⟩
  | transport rtp rtcp sid =>
      refine ⟨_, rfl, hname _ (by simp), ?_⟩
      have hfirst : 13 ∉ ascii "RTP/AVP;unicast;server_port=" := by decide
      have hdash : 13 ∉ ascii "-" := by decide
      have hsession : 13 ∉ ascii ";session=" := by decide
      simp [hdecimal, hfirst, hdash, hsession]
  | rtpInfo ip seq rtptime =>
      refine ⟨_, rfl, hname _ (by simp), ?_⟩
      have hurl : 13 ∉ ascii "url=rtsp://" := by decide
      have hseq : 13 ∉ ascii "/media/trackID=0;seq=" := by decide
      have htime : 13 ∉ ascii ";rtptime=" := by decide
      have hip : 13 ∉ ip := h
      simp [hdecimal, hurl, hseq, htime, hip]

theorem lut_find {P : Lookup} {code : ℤ} {entry : Bytes × ℤ}
    (h : responseLut.entries.find? (fun entry => entry.2 == code) = some entry) :
    P.lut responseLut code = entry.1 := by
  obtain ⟨hcode, before, after, hentries, hbefore⟩ := List.find?_eq_some_iff_append.1 h
  obtain ⟨text, code'⟩ := entry
  obtain rfl : code' = code := by simpa using hcode
  have hnot : code' ∉ before.map Prod.snd := by
    intro hmem
    obtain ⟨entry, hentry, hsame⟩ := List.mem_map.1 hmem
    have hne := hbefore entry hentry
    simp [hsame] at hne
  have hlut := P.lut_entry before after responseLut.last text code' hnot
  rw [← hentries] at hlut
  exact hlut

theorem lut_plain (P : Lookup) {code : ℤ} (hcode : code ∈ ErrorCode.ok :: errorCodes) :
    13 ∉ P.lut responseLut code := by
  have htable : ∀ code ∈ ErrorCode.ok :: errorCodes, (responseLut.entries.find? fun entry =>
      entry.2 == code).any (fun entry => 13 ∉ entry.1) = true := by decide
  obtain ⟨entry, hfind, hplain⟩ := (Option.any_eq_true _ _).1 (htable code hcode)
  rw [lut_find hfind]
  exact of_decide_eq_true hplain

theorem digitsValue_decimal (n : ℕ) : digitsValue 10 (decimal n) = n := by
  rw [decimal, ascii_toString_int, if_pos (Int.natCast_nonneg n), Int.toNat_natCast,
    digitsValue_natDigits]

/-- The parts of an answer: a status with a text of the table, plain headers, and a body of the length
they announce. -/
theorem Reply.parts {P : Lookup} {v : Speaker} {r : Response} (hreply : Reply P v r)
    (hip : 13 ∉ v.ip) : ∃ (code : ℤ) (headers : List Line) (bodies : List Bytes),
      r = .status code (P.lut responseLut code) :: (headers ++ .blank :: bodies.map Line.body) ∧
      code ∈ ErrorCode.ok :: errorCodes ∧ (∀ line ∈ headers, line.Plain) ∧
      Response.bodyLength (headers.filterMap Line.header?) = some bodies.flatten.length := by
  have hok : ErrorCode.ok ∈ ErrorCode.ok :: errorCodes := List.mem_cons_self
  cases hreply with
  | error code cseq hcode =>
      refine ⟨code, (cseq.map Line.cseq).toList, [], rfl, List.mem_cons_of_mem _ hcode, ?_, ?_⟩
      · cases cseq <;> simp [Line.Plain]
      · cases cseq <;> rfl
  | options hdrs =>
      refine ⟨_, [.cseq hdrs.cseq, .methods (cmdLut.entries.map Prod.fst)], [], rfl, hok, ?_, rfl⟩
      have hmethods : 13 ∉ (ascii ", ").intercalate (cmdLut.entries.map Prod.fst) := by decide
      simpa [Line.Plain] using hmethods
  | describe hdrs =>
      refine ⟨_, [.cseq hdrs.cseq, .contentType, .contentLength v.sdp.length], [v.sdp], rfl, hok,
        by simp [Line.Plain], ?_⟩
      have hlength : Response.bodyLength ([Line.cseq hdrs.cseq, .contentType,
          .contentLength v.sdp.length].filterMap Line.header?) =
          some (digitsValue 10 (decimal v.sdp.length)) := rfl
      rw [hlength, digitsValue_decimal]
      simp
  | setup hdrs =>
      exact ⟨_, [.cseq hdrs.cseq, .session v.id, .transport v.rtpPort v.rtcpPort v.id], [], rfl, hok,
        by simp [Line.Plain], rfl⟩
  | play hdrs =>
      exact ⟨_, [.cseq hdrs.cseq, .session v.id, .rtpInfo v.ip 1 0], [], rfl, hok,
        by simp [Line.Plain, hip], rfl⟩
  | stop hdrs =>
      exact ⟨_, [.cseq hdrs.cseq, .session v.id], [], rfl, hok, by simp [Line.Plain], rfl⟩

/-- An answer is a message that can be read back. -/
theorem Reply.message {P : Lookup} {v : Speaker} {r : Response} (hreply : Reply P v r)
    (hip : 13 ∉ v.ip) : Response.text r = (Response.message r).write ∧
      (Response.message r).WellFormed Response.bodyLength := by
  obtain ⟨code, headers, bodies, rfl, hcode, hplain, hlength⟩ := hreply.parts hip
  have hheaders : ∀ line ∈ headers, line.header?.isSome := by
    intro line hline
    obtain ⟨header, hheader, -⟩ := (hplain line hline).header
    rw [hheader]
    rfl
  obtain ⟨hmessage, hbody⟩ :=
    Response.message_parts code (P.lut responseLut code) bodies hheaders
  have hmem : ∀ header ∈ headers.filterMap Line.header?,
      (13 ∉ header.1 ∧ 58 ∉ header.1) ∧ 13 ∉ header.2 := by
    intro header hheader
    obtain ⟨line, hline, hsame⟩ := List.mem_filterMap.1 hheader
    obtain ⟨header', hheader', hclean⟩ := (hplain line hline).header
    obtain rfl := Option.some.inj (hsame.symm.trans hheader')
    exact hclean
  refine ⟨Response.text_message code _ bodies hheaders, ?_, ?_, ?_, ?_⟩
  · have hversion : 13 ∉ ascii "RTSP/1.0 " := by decide
    have hspace : 13 ∉ ascii " " := by decide
    have hdecimal : 13 ∉ decimal code := HeaderLine.not_mem_decimal (by decide) (by decide) code
    have htext := lut_plain P hcode
    simp [Response.message, Line.start?, hversion, hspace, hdecimal, htext]
  · intro header hheader
    rw [hmessage] at hheader
    exact (hmem header hheader).1
  · intro header hheader
    rw [hmessage] at hheader
    exact (hmem header hheader).2
  · rw [hmessage, hbody]
    exact hlength

namespace Network

/-- Whatever a connection has sent reads back as the answers it consists of, in their order, and no
answer is taken for complete before its last byte has come. -/
theorem answers_read_back (P : Lookup) (codec : AudioCodec) (rtp rtcp : ℤ) (numBuffers : ℕ)
    (ip : Bytes) (hip : 13 ∉ ip) (events : List NetworkEvent) (n : Network)
    (hrun : Run (Step P) (new codec rtp rtcp numBuffers ip) events n) (i : ℕ) (w : SocketClient)
    (hw : n.clients[i]? = some w) :
    readAll Response.bodyLength (w.client.session.2.sent.flatMap Response.text) =
        some (w.client.session.2.sent.map Response.message) ∧
      ∀ r ∈ w.client.session.2.sent, ∀ s : Bytes, s <+: Response.text r → s ≠ Response.text r →
        read Response.bodyLength s = none := by
  have hmessage : ∀ r ∈ w.client.session.2.sent, Response.text r = (Response.message r).write ∧
      (Response.message r).WellFormed Response.bodyLength :=
    fun r hr => ((serves_run hrun).replies hw r hr).message hip
  refine ⟨?_, ?_⟩
  · have hstream : w.client.session.2.sent.flatMap Response.text =
        (w.client.session.2.sent.map Response.message).flatMap write := by
      rw [List.flatMap_map]
      exact List.flatMap_congr fun r hr => (hmessage r hr).1
    rw [hstream]
    apply readAll_write
    intro m hm
    obtain ⟨r, hr, rfl⟩ := List.mem_map.1 hm
    exact (hmessage r hr).2
  · intro r hr s hs hne
    rw [(hmessage r hr).1] at hs hne
    exact read_prefix (hmessage r hr).2 hs hne

theorem answers_read_back_pieces : ∃ n w, Run (Step Lookup.literal) pcmNetwork twoListeners n ∧
    n.clients[0]? = some w ∧ w.client.session.2.sent.length = 2 ∧
    readAll Response.bodyLength (w.client.session.2.sent.flatMap Response.text) =
      some (w.client.session.2.sent.map Response.message) := by
  have hrun : (execAll (exec Lookup.literal) pcmNetwork twoListeners).any
      (fun n => n.clients[0]?.any fun w => w.client.session.2.sent.length = 2) = true := by
    decide +kernel
  obtain ⟨n, hn, hfound⟩ := run_of_any hrun
  obtain ⟨w, hw, hcount⟩ := (Option.any_eq_true _ _).1 hfound
  exact ⟨n, w, hn, hw, of_decide_eq_true hcount,
    (answers_read_back Lookup.literal _ _ _ _ _ (by decide) _ n hn 0 w hw).1⟩

end Network

end WifiAudio
