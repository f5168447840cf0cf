import WifiAudio.Proof.Rtsp.Lines
import WifiAudio.Proof.Rtsp.Offer
import WifiAudio.Proof.Server.Status

/-!
# What a SETUP leads to

A SETUP with a Transport header is answered 200, and the RTP client is connected to the client's port,
when a transport the server supports was found in what was read of the header, and otherwise it is
answered 461. That this is what the client offered is not always so: an option that is not understood
hides what comes behind it, and so does a header line in front that cannot be read.
-/

namespace WifiAudio

open CString Except Transition

/-- With a port: the request is answered 200 and the session has a client connected to it. Without
one: the request is answered 461. -/
def Session.SetsUp (P : Lookup) (net : SocketCalls) (s : Session) (h : RtspHandler) (e : Engine)
    (block back : Bytes) : Option ℤ → Prop
  | some port => ∃ r text rest c client,
      s.process P (RtspHandler.handler P net) (h, e) (block ++ back) block.length = .ok r ∧
      h.Answers r.handler.1 (.status ErrorCode.ok text :: rest) ∧ r.handler.1.rtpClient = some c ∧
      r.handler.2.clients[c]? = some client ∧ client.socket = ⟨RtspHandler.getIp net, port, true, []⟩
  | none => ∃ r text rest,
      s.process P (RtspHandler.handler P net) (h, e) (block ++ back) block.length = .ok r ∧
      h.Answers r.handler.1 (.status ErrorCode.unsupportedTransport text :: rest)

/-- The request is a SETUP that is carried out with the transport `t`. -/
def Session.Chooses (P : Lookup) (s : Session) (m : Bytes) (size : ℕ) (t : Transport) : Prop :=
  ∃ uri hdrs m', s.request P m size = .ok (.command .setup uri hdrs ErrorCode.ok m', m') ∧
    RtspHandler.findTransport m' hdrs (List.finRange maxTransports) = .ok (some t)

/-- The request is answered 200 and the session has a new client, on an opened socket that is connected
to the peer's address and the port of the transport it asks for; or it is answered with an error and the
session, its client and the playing list are as they were. -/
def Session.SetsUpWhole (P : Lookup) (net : SocketCalls) (s : Session) (h : RtspHandler) (e : Engine)
    (m : Bytes) (size : ℕ) : Prop :=
  ∃ r, s.process P (RtspHandler.handler P net) (h, e) m size = .ok r ∧
    ((∃ text rest ip t, h.Answers r.handler.1 (.status ErrorCode.ok text :: rest) ∧
        s.Chooses P m size t ∧ net.openUdp = true ∧ RtspHandler.getIp net = some ip ∧
        r.handler.1.rtpClient = some e.clients.length ∧
        r.handler.2.clients[e.clients.length]? = some (.new ⟨some ip, t.clientPort.1, true, []⟩)) ∨
      ∃ code text rest, h.Answers r.handler.1 (.status code text :: rest) ∧ code ≠ ErrorCode.ok ∧
        r.handler.1.rtpClient = h.rtpClient ∧ r.handler.2.playing = e.playing ∧
        r.session.state = s.state)

namespace Parser

/-- The header lines of a request, one of them a Transport header: its name and the specs it lists, the
first of them with or without spaces in front of it. -/
structure Transports (block : Bytes) (before after : List Bytes) (name : Bytes)
    (specs : List (Bytes × Bytes)) : Prop where
  lines_eq : skipEmpty block = requestLine block ++ crlf ++
    (headerText (before ++ (name ++ joined specs) :: after) ++ crlf)
  one : ¬crlf <:+: name ++ joined specs
  name_eq : strncasecmpEq (ascii "Transport:") name = true
  name_length : name.length = 10
  others : ∀ line ∈ before ++ after, OtherLine line
  offers : Offers specs
  count : specs.length ≤ maxTransports

/-- There is a space behind the name. -/
def Spaced (specs : List (Bytes × Bytes)) : Prop := (joined specs).head? = some space

instance (specs : List (Bytes × Bytes)) : Decidable (Spaced specs) :=
  inferInstanceAs (Decidable (_ = _))

/-- Of the specs behind the first space, the parser finds the port of the first supported one of all. -/
def ReadBehind (specs : List (Bytes × Bytes)) : Prop :=
  choice ((found (seen specs)).map Prod.snd) = firstPort (specs.map Prod.snd)

/-- The headers can be read, and what is found in them has this port. -/
def FindsPort (m : Bytes) (size : ℕ) (port : Option ℤ) : Prop :=
  ∃ read hdrs m' t, headers m 0 size = .ok (read, hdrs, m') ∧
    RtspHandler.findTransport m' hdrs (List.finRange maxTransports) = .ok t ∧
    t.map (fun t => t.clientPort.1) = port

variable {m left back block name : Bytes} {lp : LineParser} {before after : List Bytes}
  {specs : List (Bytes × Bytes)}

theorem Transports.name_word (h : Transports block before after name specs) :
    space ∉ name ∧ name ≠ [] := by
  refine ⟨not_mem_of_keyword h.name_eq h.name_length (by decide), ?_⟩
  intro hnil
  have hlength := h.name_length
  rw [hnil] at hlength
  cases hlength

/-- With a space behind the name all the specs are behind the first space. -/
theorem Offers.spaced (hoffers : Offers specs) (hspaced : Spaced specs) :
    4 ≤ (past space (joined specs)).length ∧ (ReadBehind specs ↔ ReadRight specs) := by
  rw [ReadBehind, ← choice_found_iff]
  cases specs with
  | nil => cases hspaced
  | cons spec rest =>
      obtain ⟨sep, s⟩ := spec
      obtain ⟨u, hu⟩ : ascii "RTP/" <+: s := (hoffers.starts rfl).1
      rw [Spaced, joined_cons] at hspaced
      have hspace : space ∈ sep := by
        cases sep with
        | nil =>
            rw [← hu] at hspaced
            exact absurd (Option.some.inj hspaced) (by decide)
        | cons b sep =>
            obtain rfl := Option.some.inj hspaced
            exact List.mem_cons_self
      constructor
      · have hrtp : (ascii "RTP/").length = 4 := rfl
        rw [joined_cons, past_of_mem hspace, ← hu]
        simp only [List.length_append, hrtp]
        omega
      · rw [seen, if_pos hspace, found, found]
        split <;> rfl

/-- The loop over the header lines comes to the Transport line, or stops in front of it. -/
theorem readHeaders_front (h : Transports block before after name specs)
    (hat : LineParser.At m lp (headerText (before ++ (name ++ joined specs) :: after) ++ crlf) back) :
    ∃ fuel hdr₁ m₁, after.length < fuel ∧ (hdr₁.transport = fun _ => {}) ∧
      (((∀ line ∈ before, LineRead line) ∧ ∃ lp₁,
          readHeaders m lp {} = readLines (fuel + 1) m₁ lp₁ hdr₁ ∧
          LineParser.At m₁ lp₁ (headerText ((name ++ joined specs) :: after) ++ crlf) back) ∨
        (¬(∀ line ∈ before, LineRead line) ∧ ∃ read, readHeaders m lp {} = .ok (read, hdr₁, m₁))) := by
  have hbefore : ∀ line ∈ before, OtherLine line := fun line hline =>
    h.others line (List.mem_append_left after hline)
  have hlines := length_le_headerText (before ++ (name ++ joined specs) :: after)
  obtain ⟨fuel, hfuel⟩ : ∃ fuel, lp.size + 1 = before.length + (fuel + 1) ∧ after.length < fuel := by
    refine ⟨lp.size - before.length, ?_, ?_⟩ <;>
      rw [hat.size_eq, List.length_append] <;>
      rw [List.length_append, List.length_cons] at hlines <;>
      have hcrlf : crlf.length = 2 := rfl <;> omega
  obtain ⟨hfuel, hafterFuel⟩ := hfuel
  rw [headerText_append, List.append_assoc] at hat
  have hrest : headerText ((name ++ joined specs) :: after) ++ crlf ≠ [] :=
    List.append_ne_nil_of_right_ne_nil _ (List.cons_ne_nil _ _)
  obtain ⟨hdr₁, m₁, hfresh, -, ⟨hall, lp₁, -, hcall, hat₁⟩ | ⟨hnot, read, hcall⟩⟩ :=
    readLines_front hbefore hrest hat { ({} : RtspHeader) with acceptSdp := true } (fuel + 1)
  · exact ⟨fuel, hdr₁, m₁, hafterFuel, hfresh, .inl ⟨hall, lp₁, by rw [readHeaders, hfuel, hcall], hat₁⟩⟩
  · exact ⟨fuel, hdr₁, m₁, hafterFuel, hfresh, .inr ⟨hnot, read, by rw [readHeaders, hfuel, hcall]⟩⟩

theorem readHeaders_stopped (h : Transports block before after name specs)
    (hat : LineParser.At m lp (headerText (before ++ (name ++ joined specs) :: after) ++ crlf) back)
    (hnot : ¬∀ line ∈ before, LineRead line) :
    ∃ ok hdrs m', readHeaders m lp {} = .ok (ok, hdrs, m') ∧
      RtspHandler.findTransport m' hdrs (List.finRange maxTransports) = .ok none := by
  obtain ⟨fuel, hdr₁, m₁, -, hfresh, ⟨hall, -⟩ | ⟨-, read, hcall⟩⟩ := readHeaders_front h hat
  · exact absurd hall hnot
  · refine ⟨read, hdr₁, m₁, hcall, findTransport_none ?_⟩
    intro i _
    rw [hfresh]
    rfl

/-- What `setup` finds after the header lines have been read: what the specs behind the first space
offer. -/
theorem readHeaders_offer (h : Transports block before after name specs)
    (hlong : 4 ≤ (past space (joined specs)).length)
    (hat : LineParser.At m lp (headerText (before ++ (name ++ joined specs) :: after) ++ crlf) back)
    (hall : ∀ line ∈ before, LineRead line) :
    ∃ ok hdrs m' t, readHeaders m lp {} = .ok (ok, hdrs, m') ∧
      RtspHandler.findTransport m' hdrs (List.finRange maxTransports) = .ok t ∧
      t.map (fun t => t.clientPort.1) = choice ((found (seen specs)).map Prod.snd) := by
  obtain ⟨hspace, hne⟩ := h.name_word
  have hafter : ∀ line ∈ after, OtherLine line := fun line hline =>
    h.others line (List.mem_append_right before hline)
  obtain ⟨fuel, hdr₁, m₁, hafterFuel, hfresh, ⟨-, lp₁, hcall, hat₁⟩ | ⟨hnot, -⟩⟩ := readHeaders_front h hat
  · have hgives := h.offers.gives_seen h.count hlong
    -- the first word is the name and what comes up to the first space
    obtain ⟨word, value, hword, hsplit, hpast, hnamed⟩ : ∃ word value, (space ∉ word ∧ word ≠ []) ∧
        name ++ joined specs = word ++ space :: value ∧ past space (joined specs) = value ∧
        strncasecmpEq (ascii "Transport:") word = true := by
      obtain ⟨u, rest, hjoined, hu, hdrop, rfl | ⟨value, rfl⟩⟩ := word_split space (joined specs)
      · rw [past, hdrop] at hlong
        cases hlong
      · refine ⟨name ++ u, value, ⟨?_, List.append_ne_nil_of_left_ne_nil hne u⟩, ?_, ?_, ?_⟩
        · rw [List.mem_append, not_or]
          exact ⟨hspace, hu⟩
        · rw [hjoined, List.append_assoc]
        · rw [past, hdrop]
          rfl
        · exact strncasecmpEq_of_starts (List.prefix_append name u) h.name_eq
    have hone := h.one
    rw [hpast] at hgives
    rw [hsplit] at hat₁ hone
    rw [headerText_cons, List.append_assoc] at hat₁
    have hne' : headerText after ++ crlf ≠ [] :=
      List.append_ne_nil_of_right_ne_nil _ (List.cons_ne_nil _ _)
    obtain ⟨m₂, hgetline, hline, hat₂⟩ := hat₁.takes_line hone hne'
    obtain ⟨-, hname, hvalue⟩ := strtok_r_word
      (show ((some lp₁.data : Option ℕ) <|> none) = some lp₁.data from rfl) hline hword.1 hword.2
    have hlength : (word ++ space :: value).length = word.length + 1 + value.length := by
      rw [List.length_append, List.length_cons]
      omega
    obtain ⟨read, hdr₂, m₃, hparse, hkept, hchoice⟩ := hgives _ _ _ hvalue hfresh
    have hheader := readLines_header hgetline hline hword.1 hword.2 hdr₁ fuel
    rw [readHeader_transport hname hnamed, hparse] at hheader
    cases read with
    | false =>
        obtain ⟨t, hfind, ht⟩ := hchoice m₃ hdr₂ rfl fun _ _ _ => rfl
        refine ⟨false, hdr₂, m₃, t, ?_, hfind, ht⟩
        rw [hcall, hheader]
        rfl
    | true =>
        have hset : Kept lp₁.data (lp₁.data + (word ++ space :: value).length) m₂
            (m₂.set (lp₁.data + word.length) 0) := .set (by omega) (by omega) 0
        have hat₃ := hat₂.kept (hset.trans (hkept.mono (by omega) (by omega)))
          (Nat.le_add_right _ 2)
        obtain ⟨read, hdr₃, m₄, hback, hsame', htake⟩ := readLines_back hafter hat₃ hdr₂ hafterFuel
        obtain ⟨t, hfind, ht⟩ := hchoice m₄ hdr₃ hsame' (by
          intro i _ hi
          have hin : i < lp₁.data + (word ++ space :: value).length + 2 := by omega
          rw [← List.getElem?_take_of_lt hin, htake, List.getElem?_take_of_lt hin])
        refine ⟨read, hdr₃, m₄, t, ?_, hfind, ht⟩
        rw [hcall, hheader]
        exact hback
  · exact absurd hall hnot

theorem findsPort_iff {size : ℕ} {ok : Bool} {hdrs : RtspHeader} {m' : Bytes} {t : Option Transport}
    (hheaders : headers m 0 size = .ok (ok, hdrs, m'))
    (hfind : RtspHandler.findTransport m' hdrs (List.finRange maxTransports) = .ok t) (port : Option ℤ) :
    FindsPort m size port ↔ t.map (fun t => t.clientPort.1) = port := by
  constructor
  · rintro ⟨ok', hdrs', m'', t', hheaders', hfind', hport⟩
    obtain ⟨-, rfl, rfl⟩ : ok = ok' ∧ hdrs = hdrs' ∧ m' = m'' := by
      simpa using Except.ok.inj (hheaders.symm.trans hheaders')
    obtain rfl := Except.ok.inj (hfind.symm.trans hfind')
    exact hport
  · intro hport
    exact ⟨ok, hdrs, m', t, hheaders, hfind, hport⟩

end Parser

/-! ### The call -/

section Call

variable {P : Lookup} {net : SocketCalls} {s : Session} {h : RtspHandler} {e : Engine}
  {block back m : Bytes} {hdrs : RtspHeader} {uri : Option ℕ} {t : Option Transport}

/-- A SETUP completes when the client it replaces can be removed. -/
theorem RtspHandler.setup_completes (hopen : net.openUdp = true)
    (hfind : findTransport m hdrs (List.finRange maxTransports) = .ok t)
    (hremove : t ≠ none → ∃ removed, e.remove h.rtpClient = .ok removed) :
    ∃ code h' e', setup P net hdrs m (h, e) = .ok (code, (h', e')) := by
  rw [setup, hfind]
  cases t with
  | none => exact ⟨_, _, _, rfl⟩
  | some t =>
      obtain ⟨removed, hremoved⟩ := hremove (by simp)
      simp only [ok_bind, hopen, Bool.not_true, Bool.false_eq_true, if_false, pure_eq_ok,
        rtpClient_flush, rtpClient_printf, rtpClient_common, hremoved]
      exact ⟨_, _, _, rfl⟩

theorem Session.setup_processes {size : ℕ} {m₀ : Bytes}
    (hrequest : s.request P m₀ size = .ok (.command .setup uri hdrs ErrorCode.ok m, m))
    (hopen : net.openUdp = true)
    (hfind : RtspHandler.findTransport m hdrs (List.finRange maxTransports) = .ok t)
    (hremove : t ≠ none → ∃ removed, e.remove h.rtpClient = .ok removed) :
    ∃ r, s.process P (RtspHandler.handler P net) (h, e) m₀ size = .ok r := by
  obtain ⟨code, h', e', hsetup⟩ := RtspHandler.setup_completes (P := P) (h := h) hopen hfind hremove
  have hrun : (HandlerCall.command .setup uri hdrs ErrorCode.ok m).run (RtspHandler.handler P net)
      (h, e) = .ok (if code = ErrorCode.ok ∧ ErrorCode.ok = ErrorCode.ok then .setup else .unknown,
        (h', e')) := bind_eq_ok.2 ⟨(code, (h', e')), hsetup, rfl⟩
  exact ⟨_, process_of_run hrequest hrun⟩

theorem Session.setsUp_iff_found (hstate : s.state ≠ .dead) (hblock : Parser.Block block) (back : Bytes)
    (hasked : Parser.asked P (allowed s.state) block = some (.command .setup ErrorCode.ok))
    (hopen : net.openUdp = true) (hconnect : net.connect = true) (port : Option ℤ) :
    s.SetsUp P net h e block back port ↔ Parser.FindsPort (block ++ back) block.length port ∧
      (port ≠ none → ∃ removed, e.remove h.rtpClient = .ok removed) := by
  constructor
  · intro hsets
    obtain ⟨r, hprocess⟩ : ∃ r, s.process P (RtspHandler.handler P net) (h, e) (block ++ back)
        block.length = .ok r := by
      cases port with
      | none =>
          obtain ⟨r, -, -, hprocess, -⟩ := hsets
          exact ⟨r, hprocess⟩
      | some port =>
          obtain ⟨r, -, -, -, -, hprocess, -⟩ := hsets
          exact ⟨r, hprocess⟩
    obtain ⟨call, cmd, hcall, -⟩ := process_eq_ok.1 hprocess
    obtain ⟨read, hdrs, m, hheaders⟩ := headers_of_request hstate hblock back hasked hcall
    obtain ⟨uri, hrequest⟩ := request_of_asked hstate hblock back hasked hheaders
    cases port with
    | none =>
        obtain ⟨r', text, rest, hprocess', hanswer⟩ := hsets
        obtain ⟨hnone, -⟩ | ⟨t', removed, -, -, ⟨text', rest', haccepted⟩, -⟩ :=
          setup_processed hrequest hprocess'
        · exact ⟨⟨read, hdrs, m, none, hheaders, hnone, rfl⟩, fun hne => absurd rfl hne⟩
        · exact absurd (hanswer.status_unique haccepted) (by decide)
    | some port =>
        obtain ⟨r', text, rest, c, client, hprocess', hanswer, hclient, hmade, hsocket⟩ := hsets
        obtain ⟨-, text', rest', hrefused⟩ | ⟨t', removed, hsome, hremove, -, hlast, hnew⟩ :=
          setup_processed hrequest hprocess'
        · exact absurd (hanswer.status_unique hrefused) (by decide)
        · obtain rfl := Option.some.inj (hlast.symm.trans hclient)
          obtain rfl := Option.some.inj (hnew.symm.trans hmade)
          exact ⟨⟨read, hdrs, m, some t', hheaders, hsome, congrArg some (UdpSocket.mk.inj hsocket).2.1⟩,
            fun _ => ⟨removed, hremove⟩⟩
  · rintro ⟨⟨read, hdrs, m, t, hheaders, hfind, rfl⟩, hremove⟩
    obtain ⟨uri, hrequest⟩ := request_of_asked hstate hblock back hasked hheaders
    have hremove' : t ≠ none → ∃ removed, e.remove h.rtpClient = .ok removed := by
      intro hne
      apply hremove
      rwa [ne_eq, Option.map_eq_none_iff]
    obtain ⟨r, hprocess⟩ := setup_processes hrequest hopen hfind hremove'
    obtain ⟨hnone, text, rest, hrefused⟩ | ⟨t', removed, hsome, -, ⟨text, rest, haccepted⟩, hlast, hnew⟩ :=
      setup_processed hrequest hprocess
    · obtain rfl := Except.ok.inj (hfind.symm.trans hnone)
      exact ⟨r, text, rest, hprocess, hrefused⟩
    · obtain rfl := Except.ok.inj (hfind.symm.trans hsome)
      exact ⟨r, text, rest, _, _, hprocess, haccepted, hlast, hnew, by rw [← hconnect]; rfl⟩

theorem Session.setsUpWhole_of_error {size : ℕ} {code : ℤ} {m₀ : Bytes} {h' : RtspHandler}
    (hstate : s.state ≠ .dead)
    (hrequest : s.request P m₀ size = .ok (.command .setup uri hdrs code m, m))
    (hrun : (HandlerCall.command .setup uri hdrs code m).run (RtspHandler.handler P net) (h, e) =
      .ok (.unknown, (h', e)))
    (hstatus : (HandlerCall.command .setup uri hdrs code m).status ≠ ErrorCode.ok)
    (hclient : h'.rtpClient = h.rtpClient) : s.SetsUpWhole P net h e m₀ size := by
  obtain ⟨lines, hlines, -⟩ :=
    HandlerCall.run_answered hrun (HandlerCall.carriesOut_ne_kill (by decide))
  refine ⟨_, process_of_run hrequest hrun, .inr ⟨_, _, _, hlines, hstatus, hclient, rfl, ?_⟩⟩
  cases hs : s.state with
  | dead => exact absurd hs hstate
  | _ => simp [transition, hs]

/-- What a SETUP needs so that nothing is left half done: it is refused; or the socket is opened, the
peer has an address, the socket is connected to it, and the client that is replaced can be removed. -/
def Session.SetupSucceeds (net : SocketCalls) (h : RtspHandler) (e : Engine) (code : ℤ) (hdrs : RtspHeader)
    (m : Bytes) : Prop :=
  code ≠ ErrorCode.ok ∨ RtspHandler.findTransport m hdrs (List.finRange maxTransports) = .ok none ∨
    ((∃ t, RtspHandler.findTransport m hdrs (List.finRange maxTransports) = .ok (some t)) ∧
      net.openUdp = true ∧ RtspHandler.getIp net ≠ none ∧ net.connect = true ∧
      ∀ c, h.rtpClient = some c → e.playing.Ends ∨ e.playing.Mem c)

/-- A SETUP that comes to the handler leaves nothing half done exactly when it succeeds. -/
theorem Session.setsUpWhole_iff_succeeds {size : ℕ} {code : ℤ} {m₀ : Bytes} (hstate : s.state ≠ .dead)
    (hlinks : ∀ c, e.playing.Links c → c < e.clients.length)
    (hrequest : s.request P m₀ size = .ok (.command .setup uri hdrs code m, m)) :
    s.SetsUpWhole P net h e m₀ size ↔ SetupSucceeds net h e code hdrs m := by
  rw [SetupSucceeds, ← Engine.remove_completes_iff hlinks]
  by_cases hcode : code = ErrorCode.ok
  · subst hcode
    rw [or_iff_right (show ¬ErrorCode.ok ≠ ErrorCode.ok from fun hne => hne rfl)]
    constructor
    · rintro ⟨r, hprocess, hwhole⟩
      obtain ⟨hnone, -⟩ | ⟨t, removed, hsome, hremove, ⟨text', rest', haccepted⟩, -, hnew⟩ :=
        setup_processed hrequest hprocess
      · exact .inl hnone
      · obtain ⟨text, rest, ip, t', -, -, hopen, hip, -, hmade⟩ | ⟨code, text, rest, hanswer, hne, -⟩ :=
          hwhole
        · obtain ⟨playing, rfl⟩ := Engine.remove_eq_ok hremove
          have hsocket := congrArg RtpClient.socket (Option.some.inj (hnew.symm.trans hmade))
          refine .inr ⟨⟨t, hsome⟩, hopen, ?_, congrArg UdpSocket.connected hsocket, _, hremove⟩
          rw [hip]
          exact Option.some_ne_none ip
        · exact absurd (hanswer.status_unique haccepted) hne
    · rintro (hnone | ⟨⟨t, hsome⟩, hopen, hip, hconnect, hremove⟩)
      · have hsetup : RtspHandler.command P net .setup hdrs ErrorCode.ok m (h, e) =
            .ok (ErrorCode.unsupportedTransport,
              ((h.sendError P (some hdrs) ErrorCode.unsupportedTransport).2, e)) := by
          change RtspHandler.setup P net hdrs m (h, e) = _
          rw [RtspHandler.setup, hnone]
          rfl
        apply setsUpWhole_of_error hstate hrequest (bind_eq_ok.2 ⟨_, hsetup, rfl⟩) _ rfl
        rw [HandlerCall.command_status hsetup (by decide)]
        decide
      · obtain ⟨r, hprocess⟩ := setup_processes hrequest hopen hsome fun _ => hremove
        obtain ⟨hnone, -⟩ | ⟨t', removed, hsome', hremoved, ⟨text, rest, haccepted⟩, hlast, hnew⟩ :=
          setup_processed hrequest hprocess
        · cases hsome.symm.trans hnone
        · obtain ⟨ip, hip⟩ := Option.ne_none_iff_exists'.1 hip
          obtain ⟨playing, rfl⟩ := Engine.remove_eq_ok hremoved
          rw [hip, hconnect] at hnew
          exact ⟨r, hprocess, .inl ⟨text, rest, ip, t', haccepted, ⟨uri, hdrs, m, hrequest, hsome'⟩, hopen,
            hip, hlast, hnew⟩⟩
  · refine iff_of_true ?_ (.inl hcode)
    have hcommand : RtspHandler.command P net .setup hdrs code m (h, e) =
        .ok (code, ((h.sendError P (some hdrs) code).2, e)) := if_pos hcode
    have hresult : (if code = ErrorCode.ok ∧ code = ErrorCode.ok then RtspCommand.setup else .unknown) =
        .unknown := if_neg fun hcond => hcode hcond.1
    have hrun : (HandlerCall.command .setup uri hdrs code m).run (RtspHandler.handler P net) (h, e) =
        .ok (.unknown, ((h.sendError P (some hdrs) code).2, e)) :=
      bind_eq_ok.2 ⟨_, hcommand, congrArg (fun cmd => Except.ok (cmd, _)) hresult⟩
    refine setsUpWhole_of_error hstate hrequest hrun ?_ rfl
    rw [HandlerCall.status, if_pos hcode]
    exact hcode

end Call

namespace Server

open WifiAudio.Parser

/-- A SETUP with two specs and no space behind the name. -/
def unspacedText : Bytes :=
  requestText "SETUP" ["Transport:RTP/AVP;unicast;client_port=5000-5001, " ++
    "RTP/AVP;unicast;client_port=7000-7001"]

/-- Only the second spec is read. -/
example : (Session.new.process Lookup.literal (RtspHandler.handler Lookup.literal simulated)
    (.new (ascii "10.0.0.1") 7, pcmServer.engine) (unspacedText ++ [0]) unspacedText.length).toOption.any
    (fun r => r.handler.2.clients.map (fun client => client.socket.port) = [7000]) = true := by
  decide +kernel

/-- In every state of the server, a SETUP leaves nothing half done exactly when the parser gets through
it and the handler is called for a SETUP that succeeds. -/
theorem setup_whole_iff (P : Lookup) (codec : AudioCodec) (rtp rtcp : ℤ) (numBuffers : ℕ)
    (as : List Action) (s : Server) (hrun : Run (Step P) (new codec rtp rtcp numBuffers) as s)
    (session : Session) (hstate : session.state ≠ .dead) (h : RtspHandler) (net : SocketCalls)
    {block : Bytes} (hblock : Parser.Block block) (back : Bytes) (hnamed : named P block = some .setup) :
    session.SetsUpWhole P net h s.engine (block ++ back) block.length ↔ ∃ code read hdrs m,
      asked P (Session.allowed session.state) block = some (.command .setup code) ∧
      headers (block ++ back) 0 block.length = .ok (read, hdrs, m) ∧
      Session.SetupSucceeds net h s.engine code hdrs m := by
  have hallocated := allocated_run hrun
  constructor
  · intro hwhole
    have ⟨r, hprocess, _⟩ := hwhole
    obtain ⟨call, cmd, hcall, -⟩ := Session.process_eq_ok.1 hprocess
    obtain ⟨a, hasked⟩ := Session.asked_of_request hstate hblock back hcall
    cases a with
    | rejected => cases asked_rejected hasked hnamed
    | command cmd code =>
        obtain rfl : RtspCommand.setup = cmd :=
          Option.some.inj (hnamed.symm.trans (asked_command hasked).1)
        obtain ⟨read, hdrs, m, hheaders⟩ := Session.headers_of_request hstate hblock back hasked hcall
        obtain ⟨uri, hrequest⟩ := Session.request_of_asked hstate hblock back hasked hheaders
        exact ⟨code, read, hdrs, m, hasked, hheaders,
          (Session.setsUpWhole_iff_succeeds hstate hallocated.links hrequest).1 hwhole⟩
  · rintro ⟨code, read, hdrs, m, hasked, hheaders, hsucceeds⟩
    obtain ⟨uri, hrequest⟩ := Session.request_of_asked hstate hblock back hasked hheaders
    exact (Session.setsUpWhole_iff_succeeds hstate hallocated.links hrequest).2 hsucceeds

theorem setupText_read : Parser.Block setupText ∧ named Lookup.literal setupText = some .setup ∧
    asked Lookup.literal (Session.allowed .init) setupText = some (.command .setup ErrorCode.ok) ∧
    ∃ read hdrs m, headers (setupText ++ [0]) 0 setupText.length = .ok (read, hdrs, m) ∧
      ∃ t, RtspHandler.findTransport m hdrs (List.finRange maxTransports) = .ok (some t) := by
  have hcheck : ((headers (setupText ++ [0]) 0 setupText.length).toOption.any fun r =>
      (RtspHandler.findTransport r.2.2 r.2.1 (List.finRange maxTransports)).toOption.any
        Option.isSome) = true := by decide +kernel
  obtain ⟨⟨read, hdrs, m⟩, hheaders, hcheck⟩ := eq_ok_of_any hcheck
  obtain ⟨t, hfind, ht⟩ := eq_ok_of_any hcheck
  obtain ⟨t, rfl⟩ := Option.isSome_iff_exists.1 ht
  exact ⟨⟨by decide +kernel, by decide +kernel⟩, by decide +kernel, by decide +kernel, read, hdrs, m,
    hheaders, t, hfind⟩

/-- A SETUP on a socket of the simulation. -/
theorem setup_whole_simulated : ∃ s conn,
    Run (Step Lookup.literal) pcmServer [.connect (ascii "10.0.0.1") 7] s ∧
    s.connections[0]? = some conn ∧ conn.session.SetsUpWhole Lookup.literal simulated conn.handler
      s.engine (setupText ++ [0]) setupText.length := by
  have hrun : Run (Step Lookup.literal) pcmServer [.connect (ascii "10.0.0.1") 7] _ := .single rfl
  obtain ⟨hblock, hnamed, hasked, read, hdrs, m, hheaders, hfind⟩ := setupText_read
  refine ⟨_, _, hrun, rfl, (setup_whole_iff Lookup.literal _ _ _ _ _ _ hrun Session.new (by decide) _
    simulated hblock [0] hnamed).2 ⟨_, read, hdrs, m, hasked, hheaders,
      .inr (.inr ⟨hfind, rfl, by decide, rfl, ?_⟩)⟩⟩
  intro c hc
  cases hc

/-- No socket can be opened: the 200 is out already when the null pointer is used. Or the peer's
address cannot be found, or the socket cannot be connected to it: the client is made all the same. -/
theorem setup_half_done :
    Parser.Block setupText ∧ named Lookup.literal setupText = some .setup ∧
    ∃ s conn, Run (Step Lookup.literal) pcmServer [.connect (ascii "10.0.0.1") 7] s ∧
      s.connections[0]? = some conn ∧ conn.session = Session.new ∧
      ¬conn.session.SetsUpWhole Lookup.literal ⟨false, 5, some (ascii "10.0.0.2"), true⟩ conn.handler s.engine
        (setupText ++ [0]) setupText.length ∧
      ∀ net ∈ [SocketCalls.mk true 5 none true, ⟨true, 5, some (ascii "10.0.0.2"), false⟩],
        ¬conn.session.SetsUpWhole Lookup.literal net conn.handler s.engine (setupText ++ [0])
          setupText.length := by
  obtain ⟨hblock, hnamed, -⟩ := setupText_read
  refine ⟨hblock, hnamed, _, _, .single rfl, rfl, rfl, ?_, ?_⟩
  · rintro ⟨r, hprocess, -⟩
    have hfails : (Session.new.process Lookup.literal (RtspHandler.handler Lookup.literal
        ⟨false, 5, some (ascii "10.0.0.2"), true⟩) (.new (ascii "10.0.0.1") 7, pcmServer.engine)
        (setupText ++ [0]) setupText.length).toOption.isNone = true := by decide +kernel
    have hprocess' : Session.new.process Lookup.literal (RtspHandler.handler Lookup.literal
        ⟨false, 5, some (ascii "10.0.0.2"), true⟩) (.new (ascii "10.0.0.1") 7, pcmServer.engine)
        (setupText ++ [0]) setupText.length = .ok r := hprocess
    rw [hprocess'] at hfails
    cases hfails
  · have hchecked : ∀ net ∈ [SocketCalls.mk true 5 none true, ⟨true, 5, some (ascii "10.0.0.2"), false⟩],
        ((Session.new.process Lookup.literal (RtspHandler.handler Lookup.literal net)
        (.new (ascii "10.0.0.1") 7, pcmServer.engine) (setupText ++ [0])
        setupText.length).toOption.all fun r => r.handler.1.rtpClient = some 0 ∧
          (r.handler.2.clients[0]?.all fun client =>
            client.socket.ip = none ∨ client.socket.connected = false) = true) = true := by
      decide +kernel
    intro net hnet ⟨r, hprocess, hwhole⟩
    have hmade := hchecked net hnet
    have hprocess' : Session.new.process Lookup.literal (RtspHandler.handler Lookup.literal net)
        (.new (ascii "10.0.0.1") 7, pcmServer.engine) (setupText ++ [0]) setupText.length = .ok r :=
      hprocess
    rw [hprocess'] at hmade
    obtain ⟨hclient, hleft⟩ := of_decide_eq_true hmade
    obtain ⟨text, rest, ip, t, -, -, -, -, -, hmade⟩ | ⟨code, text, rest, -, -, hsame, -⟩ := hwhole
    · have hclients : r.handler.2.clients[0]? = some (.new ⟨some ip, t.clientPort.1, true, []⟩) := hmade
      rw [hclients] at hleft
      have hleft : some ip = none ∨ true = false := of_decide_eq_true hleft
      obtain hip | hconnected := hleft
      · cases hip
      · cases hconnected
    · cases hclient.symm.trans hsame

/-- Two specs. -/
def twoSpecs (first second : String) : List (Bytes × Bytes) :=
  [([space], ascii first), ([comma, space], ascii second)]

def twoSpecSetup (first second : String) : Bytes :=
  requestText "SETUP" ["CSeq: 1", "Transport: " ++ first ++ ", " ++ second]

theorem transports_two {first second : String} (hlines : skipEmpty (twoSpecSetup first second) =
      requestLine (twoSpecSetup first second) ++ crlf ++ (headerText ([ascii "CSeq: 1"] ++
        (ascii "Transport:" ++ joined (twoSpecs first second)) :: []) ++ crlf))
    (hone : ¬crlf <:+: ascii "Transport:" ++ joined (twoSpecs first second))
    (hfirst : ascii "RTP/" <+: ascii first) (honce : ¬ascii "RTP/" <:+: (ascii first).drop 1)
    (hends : ∀ b ∈ (ascii first).getLast?, b ≠ space ∧ b ≠ comma)
    (hsecond : ascii "RTP/" <+: ascii second) (honce' : ¬ascii "RTP/" <:+: (ascii second).drop 1) :
    Transports (twoSpecSetup first second) [ascii "CSeq: 1"] [] (ascii "Transport:")
      (twoSpecs first second) := by
  refine ⟨hlines, hone, by decide +kernel, by decide +kernel, ?_, ?_, Nat.le_succ 2⟩
  · intro line hline
    obtain rfl := List.mem_singleton.1 hline
    exact ⟨by decide +kernel, by decide +kernel⟩
  · refine .cons ?_ hfirst honce (List.cons_ne_nil _ _) hends (.last ?_ hsecond honce')
    · intro b hb
      exact .inl (List.mem_singleton.1 hb)
    intro b hb
    obtain rfl | hb := List.mem_cons.1 hb
    · exact .inr rfl
    · exact .inl (List.mem_singleton.1 hb)

end Server

end WifiAudio
