import Mathlib.Order.Fin.Basic
import WifiAudio.Proof.Rtsp.Entries
import WifiAudio.Proof.Server.Status

/-!
# The ports a SETUP connects to

A SETUP that is answered 200 connects to the first client port of the chosen transport. It is the port
the client has written when that is a port: `setup` itself only makes sure that it is not 0.
-/

namespace WifiAudio

open CString Except

/-- The first entry that `setup` can use. -/
def RtspHandler.IsChosen (m : Bytes) (hdrs : RtspHeader) (i : Fin maxTransports) : Prop :=
  usable m (hdrs.transport i) = .ok true ∧ ∀ j < i, usable m (hdrs.transport j) = .ok false

/-- The last client port option that is read of the chosen spec has two ports. Where the text read as
the spec goes on behind the spec, the texts read last have the same two numbers. -/
def Parser.PortsPlain (reads : List (Fin maxTransports × Bytes)) (m : Bytes) (hdrs : RtspHeader) : Prop :=
  ∃ i l first last, RtspHandler.IsChosen m hdrs i ∧ lastText reads i = some l ∧
    PortsWritten (readable (options (ownText l))) first last ∧
    (ownText l ≠ l → PortsLeft (portsRead reads i) (digitsValue 10 first) (digitsValue 10 last))

/-- The two ports of the chosen transport are written in its spec as decimal numbers between 1 and
65535, they are what was read, and the new client is connected to the first one. -/
def Session.ConnectsAsWritten (reads : List (Fin maxTransports × Bytes)) (m : Bytes) (hdrs : RtspHeader)
    (r : Processed HandlerState) : Prop :=
  ∃ i l first last c client, RtspHandler.IsChosen m hdrs i ∧ Parser.lastText reads i = some l ∧
    Parser.PortsWritten (Parser.readable (Parser.options (Parser.ownText l))) first last ∧
    (hdrs.transport i).clientPort = ((digitsValue 10 first : ℤ), (digitsValue 10 last : ℤ)) ∧
    r.handler.1.rtpClient = some c ∧ r.handler.2.clients[c]? = some client ∧
    client.socket.port = digitsValue 10 first

/-! ### The headers of a request -/

namespace Parser

variable {P : Lookup} {allowable : List RtspCommand} {m m' m₁ : Bytes} {c cmd : RtspCommand}
  {uri : Option ℕ} {hdrs : RtspHeader} {code : ℤ}

theorem not_rejected {n : ℤ} (h : reject HandlerCall.recorder n m none =
    .ok (c, some (.command cmd uri hdrs code m'), m₁)) : False := by
  cases h

theorem parseCommand_headers {lp : LineParser} {uri' : Option ℕ} {cmd' : RtspCommand} {code' : ℤ}
    (h : parseCommand HandlerCall.recorder m lp uri' cmd' code' none =
      .ok (c, some (.command cmd uri hdrs code m'), m₁)) :
    ∃ read, readHeaders m lp {} = .ok (read, hdrs, m') := by
  obtain ⟨⟨read, hdrs', m₂⟩, hread, h⟩ := bind_eq_ok.1 h
  obtain ⟨-, hcall⟩ := Prod.mk.inj (Except.ok.inj h)
  obtain ⟨hcall, -⟩ := Prod.mk.inj hcall
  obtain ⟨-, -, rfl, -, rfl⟩ := HandlerCall.command.inj (Option.some.inj hcall)
  exact ⟨read, hread⟩

theorem parseMethod_headers {lp : LineParser} {method : ℕ} {save : Option ℕ}
    (h : parseMethod P HandlerCall.recorder allowable m lp method save none =
      .ok (c, some (.command cmd uri hdrs code m'), m₁)) :
    ∃ uri' save₁ m₂ version save₂ m₃ read, strtok_r m none space save = .ok (uri', save₁, m₂) ∧
      strtok_r m₂ none space save₁ = .ok (version, save₂, m₃) ∧
      readHeaders m₃ lp {} = .ok (read, hdrs, m') := by
  rw [parseMethod] at h
  obtain ⟨text, -, h⟩ := bind_eq_ok.1 h
  simp only [] at h
  split at h
  · exact (not_rejected h).elim
  · obtain ⟨⟨uri', save₁, m₂⟩, huri, h⟩ := bind_eq_ok.1 h
    obtain ⟨⟨version, save₂, m₃⟩, hversion, h⟩ := bind_eq_ok.1 h
    cases version with
    | none => cases h
    | some version =>
        obtain ⟨supported, -, h⟩ := bind_eq_ok.1 h
        refine ⟨uri', save₁, m₂, some version, save₂, m₃, ?_⟩
        suffices hheaders : ∃ read, readHeaders m₃ lp {} = .ok (read, hdrs, m') by
          obtain ⟨read, hread⟩ := hheaders
          exact ⟨read, huri, hversion, hread⟩
        simp only [] at h
        split at h
        · exact parseCommand_headers h
        · exact (not_rejected h).elim
        · exact parseCommand_headers h

/-- The headers a command is called with are the ones that are read behind the request line. -/
theorem headers_of_request {data sz : ℕ}
    (h : request P allowable m data sz = .ok (.command cmd uri hdrs code m', m₁)) :
    ∃ uri' lp m₂ read, opened m data sz = .ok (uri', lp, m₂) ∧
      readHeaders m₂ lp {} = .ok (read, hdrs, m') := by
  obtain ⟨⟨c, call, m₃⟩, hparse, h⟩ := bind_eq_ok.1 h
  cases call with
  | none => cases h
  | some call =>
      obtain ⟨rfl, -⟩ := Prod.mk.inj (Except.ok.inj h)
      rw [parse] at hparse
      split at hparse
      · exact (not_rejected hparse).elim
      · obtain ⟨⟨lp, m₄⟩, hnew, hparse⟩ := bind_eq_ok.1 hparse
        obtain ⟨⟨line, lp₁, m₅⟩, hline, hparse⟩ := bind_eq_ok.1 hparse
        cases line with
        | none => exact (not_rejected hparse).elim
        | some line =>
            obtain ⟨⟨method, save, m₆⟩, hmethod, hparse⟩ := bind_eq_ok.1 hparse
            cases method with
            | none =>
                obtain ⟨r, -, hparse⟩ := bind_eq_ok.1 hparse
                cases hparse
            | some method =>
                obtain ⟨uri', save₁, m₇, version, save₂, m₈, read, huri, hversion, hread⟩ :=
                  parseMethod_headers hparse
                refine ⟨uri', lp₁, m₈, read, ?_, hread⟩
                rw [opened, hnew]
                simp only [ok_bind, hline, hmethod, huri, hversion, pure_eq_ok]

theorem textsRead_reads {data sz : ℕ}
    (h : request P allowable m data sz = .ok (.command cmd uri hdrs code m', m₁)) :
    ReadInto (textsRead m data sz) {} hdrs := by
  obtain ⟨uri', lp, m₂, read, hopened, hread⟩ := headers_of_request h
  rw [textsRead, hopened]
  have hlines : ReadInto _ { ({} : RtspHeader) with acceptSdp := true } hdrs := readLines_reads hread
  exact hlines

end Parser

/-! ### The choice -/

namespace RtspHandler

variable {m : Bytes} {hdrs : RtspHeader} {i j : Fin maxTransports} {t : Transport}

theorem IsChosen.unique (hi : IsChosen m hdrs i) (hj : IsChosen m hdrs j) : i = j := by
  obtain ⟨hi, hbefore⟩ := hi
  obtain ⟨hj, hbefore'⟩ := hj
  rcases lt_trichotomy i j with hlt | heq | hlt
  · cases (hbefore' i hlt).symm.trans hi
  · exact heq
  · cases (hbefore j hlt).symm.trans hj

theorem findTransport_first {list : List (Fin maxTransports)} (hsorted : list.Pairwise (· < ·))
    (h : findTransport m hdrs list = .ok (some t)) :
    ∃ i ∈ list, t = hdrs.transport i ∧ usable m (hdrs.transport i) = .ok true ∧
      ∀ j ∈ list, j < i → usable m (hdrs.transport j) = .ok false := by
  induction list with
  | nil => cases h
  | cons k rest ih =>
      obtain ⟨hfirst, hsorted⟩ := List.pairwise_cons.1 hsorted
      rw [findTransport] at h
      obtain ⟨supported, hk, h⟩ := bind_eq_ok.1 h
      cases supported with
      | true =>
          obtain rfl : hdrs.transport k = t := by simpa using h
          refine ⟨k, List.mem_cons_self, rfl, hk, ?_⟩
          intro j hj hlt
          obtain rfl | hj := List.mem_cons.1 hj
          · exact absurd hlt (lt_irrefl _)
          · exact absurd (hfirst j hj) hlt.asymm
      | false =>
          obtain ⟨i, hi, hsame, husable, hbefore⟩ := ih hsorted h
          refine ⟨i, List.mem_cons_of_mem _ hi, hsame, husable, ?_⟩
          intro j hj hlt
          obtain rfl | hj := List.mem_cons.1 hj
          · exact hk
          · exact hbefore j hj hlt

theorem chosen_of_findTransport (h : findTransport m hdrs (List.finRange maxTransports) = .ok (some t)) :
    ∃ i, IsChosen m hdrs i ∧ t = hdrs.transport i := by
  obtain ⟨i, -, hsame, husable, hbefore⟩ := findTransport_first (List.pairwise_lt_finRange _) h
  refine ⟨i, ⟨husable, ?_⟩, hsame⟩
  intro j hlt
  exact hbefore j (List.mem_finRange j) hlt

end RtspHandler

/-! ### The connection -/

namespace Session

variable {P : Lookup} {net : SocketCalls} {s : Session} {h : RtspHandler} {e : Engine} {m m' : Bytes}
  {size : ℕ} {uri : Option ℕ} {hdrs : RtspHeader} {code : ℤ} {r : Processed HandlerState} {text : Bytes}
  {rest : List Line}

/-- A SETUP that is answered 200 has a client connected to the first port of the chosen transport. -/
theorem connected_of_ok
    (hrequest : s.request P m size = .ok (.command .setup uri hdrs code m', m'))
    (hprocess : s.process P (RtspHandler.handler P net) (h, e) m size = .ok r)
    (hanswer : h.Answers r.handler.1 (.status ErrorCode.ok text :: rest)) :
    ∃ i c client, RtspHandler.IsChosen m' hdrs i ∧ r.handler.1.rtpClient = some c ∧
      r.handler.2.clients[c]? = some client ∧
      client.socket.port = (hdrs.transport i).clientPort.1 := by
  by_cases hcode : code = ErrorCode.ok
  · subst hcode
    obtain ⟨-, text', rest', hrefused⟩ | ⟨t, removed, hfind, -, -, hclient, hmade⟩ :=
      setup_processed hrequest hprocess
    · exact absurd (hanswer.status_unique hrefused) (by decide)
    · obtain ⟨i, hchosen, rfl⟩ := RtspHandler.chosen_of_findTransport hfind
      exact ⟨i, _, _, hchosen, hclient, hmade, rfl⟩
  · obtain ⟨call, cmd, hcall, hrun, -⟩ := process_eq_ok.1 hprocess
    obtain ⟨rfl, -⟩ := Prod.mk.inj (Except.ok.inj (hrequest.symm.trans hcall))
    obtain ⟨lines, hlines, -⟩ :=
      HandlerCall.run_answered hrun (HandlerCall.carriesOut_ne_kill (by decide))
    have hstatus := hanswer.status_unique hlines
    rw [HandlerCall.status, if_pos hcode] at hstatus
    exact absurd hstatus.symm hcode

/-- A SETUP that is answered 200 connects as it is written exactly when the last client port option
that is read of the chosen spec has two ports, which what is read behind the spec leaves. -/
theorem ports_as_written_iff (P : Lookup) (net : SocketCalls) (s : Session) (h : RtspHandler) (e : Engine)
    {m : Bytes} {size : ℕ} {uri : Option ℕ} {hdrs : RtspHeader} {code : ℤ} {m' : Bytes}
    (hrequest : s.request P m size = .ok (.command .setup uri hdrs code m', m'))
    {r : Processed HandlerState} {text : Bytes} {rest : List Line}
    (hprocess : s.process P (RtspHandler.handler P net) (h, e) m size = .ok r)
    (hanswer : h.Answers r.handler.1 (.status ErrorCode.ok text :: rest)) :
    ConnectsAsWritten (Parser.textsRead m 0 size) m' hdrs r ↔
      Parser.PortsPlain (Parser.textsRead m 0 size) m' hdrs := by
  obtain ⟨allowed, -, hparsed⟩ := bind_eq_ok.1 hrequest
  have hreads := Parser.textsRead_reads hparsed
  obtain ⟨i, c, client, hchosen, hclient, hmade, hport⟩ := connected_of_ok hrequest hprocess hanswer
  have hleft : (hdrs.transport i).clientPort =
      (Parser.portsRead (Parser.textsRead m 0 size) i).foldl Parser.portsStep (0, 0) := hreads i
  constructor
  · rintro ⟨j, l, first, last, -, -, hchosen', hlast, hwritten, hsame, -⟩
    obtain rfl := hchosen.unique hchosen'
    refine ⟨i, l, first, last, hchosen, hlast, hwritten, fun _ => ?_⟩
    rw [← Parser.foldl_portsStep_iff hwritten.first_port.2 hwritten.last_port.2, ← hleft, hsame]
  · rintro ⟨j, l, first, last, hchosen', hlast, hwritten, hbehind⟩
    obtain rfl := hchosen.unique hchosen'
    have hsame : (hdrs.transport i).clientPort =
        ((digitsValue 10 first : ℤ), (digitsValue 10 last : ℤ)) := by
      rw [hleft]
      by_cases hown : Parser.ownText l = l
      · rw [hown] at hwritten
        exact Parser.foldl_lastText hlast hwritten _
      · rw [Parser.foldl_portsStep_iff hwritten.first_port.2 hwritten.last_port.2]
        exact hbehind hown
    refine ⟨i, l, first, last, c, client, hchosen, hlast, hwritten, hsame, hclient, hmade, ?_⟩
    rw [hport, hsame]

/-- A SETUP with one spec. -/
def portsSetup (ports : String) : Bytes :=
  requestText "SETUP" ["CSeq: 1", "Transport: RTP/AVP;unicast;client_port=" ++ ports]

theorem portsSetup_request (ports : String) (hblock : Parser.Block (portsSetup ports))
    (hasked : Parser.asked Lookup.literal (allowed .init) (portsSetup ports) =
      some (.command .setup ErrorCode.ok))
    (hcheck : ((Parser.headers (portsSetup ports ++ [0]) 0 (portsSetup ports).length).toOption.any
      fun r => (RtspHandler.usable r.2.2 (r.2.1.transport 0)).toOption = some true) = true) :
    ∃ uri hdrs m, new.request Lookup.literal (portsSetup ports ++ [0]) (portsSetup ports).length =
        .ok (.command .setup uri hdrs ErrorCode.ok m, m) ∧ RtspHandler.IsChosen m hdrs 0 := by
  obtain ⟨⟨read, hdrs, m⟩, hheaders, husable⟩ := eq_ok_of_any hcheck
  have hstate : new.state ≠ .dead := by decide
  obtain ⟨uri, hrequest⟩ := request_of_asked hstate hblock [0] hasked hheaders
  refine ⟨uri, hdrs, m, hrequest, toOption_eq_some.1 (of_decide_eq_true husable), ?_⟩
  intro j hj
  exact absurd hj (Fin.not_lt_zero j)

/-- The ports 5000 and 5001. -/
theorem setup_connects_as_written : ∃ uri hdrs m r text rest,
    new.request Lookup.literal (portsSetup "5000-5001" ++ [0]) (portsSetup "5000-5001").length =
      .ok (.command .setup uri hdrs ErrorCode.ok m, m) ∧
    new.process Lookup.literal (RtspHandler.handler Lookup.literal Server.simulated)
      (.new (ascii "10.0.0.1") 7, Server.pcmServer.engine) (portsSetup "5000-5001" ++ [0])
      (portsSetup "5000-5001").length = .ok r ∧
    (RtspHandler.new (ascii "10.0.0.1") 7).Answers r.handler.1 (.status ErrorCode.ok text :: rest) ∧
    ConnectsAsWritten (Parser.textsRead (portsSetup "5000-5001" ++ [0]) 0 (portsSetup "5000-5001").length)
      m hdrs r := by
  obtain ⟨uri, hdrs, m, hrequest, hchosen⟩ := portsSetup_request "5000-5001"
    ⟨by decide +kernel, by decide +kernel⟩ (by decide +kernel) (by decide +kernel)
  obtain ⟨r, hprocess, hanswer⟩ := answers_of_check (portsSetup "5000-5001")
    [.status 200 (ascii "OK"), .cseq 1, .session 7, .transport 6000 6001 7, .blank] (by decide +kernel)
  have hlast : Parser.lastText (Parser.textsRead (portsSetup "5000-5001" ++ [0]) 0
      (portsSetup "5000-5001").length) 0 = some (ascii "RTP/AVP;unicast;client_port=5000-5001") := by
    decide +kernel
  have hown : Parser.ownText (ascii "RTP/AVP;unicast;client_port=5000-5001") =
      ascii "RTP/AVP;unicast;client_port=5000-5001" := by decide +kernel
  have hwritten : Parser.PortsWritten (Parser.readable (Parser.options
      (ascii "RTP/AVP;unicast;client_port=5000-5001"))) (ascii "5000") (ascii "5001") := by
    refine ⟨by decide +kernel, ⟨⟨by decide, by decide +kernel⟩, by decide +kernel, by decide +kernel⟩,
      ⟨by decide, by decide +kernel⟩, by decide +kernel, by decide +kernel⟩
  refine ⟨uri, hdrs, m, r, _, _, hrequest, hprocess, hanswer,
    (ports_as_written_iff Lookup.literal Server.simulated new _ _ hrequest hprocess hanswer).2
      ⟨0, _, _, _, hchosen, hlast, hown.symm ▸ hwritten, fun hnot => absurd hown hnot⟩⟩

/-- The ports 70000 and 70001: the socket is connected to the first one. -/
theorem wide_port_connected : ∃ uri hdrs m r text rest,
    new.request Lookup.literal (portsSetup "70000-70001" ++ [0]) (portsSetup "70000-70001").length =
      .ok (.command .setup uri hdrs ErrorCode.ok m, m) ∧
    new.process Lookup.literal (RtspHandler.handler Lookup.literal Server.simulated)
      (.new (ascii "10.0.0.1") 7, Server.pcmServer.engine) (portsSetup "70000-70001" ++ [0])
      (portsSetup "70000-70001").length = .ok r ∧
    (RtspHandler.new (ascii "10.0.0.1") 7).Answers r.handler.1 (.status ErrorCode.ok text :: rest) ∧
    ¬ConnectsAsWritten
      (Parser.textsRead (portsSetup "70000-70001" ++ [0]) 0 (portsSetup "70000-70001").length) m hdrs r := by
  obtain ⟨uri, hdrs, m, hrequest, -⟩ := portsSetup_request "70000-70001"
    ⟨by decide +kernel, by decide +kernel⟩ (by decide +kernel) (by decide +kernel)
  obtain ⟨r, hprocess, hanswer⟩ := answers_of_check (portsSetup "70000-70001")
    [.status 200 (ascii "OK"), .cseq 1, .session 7, .transport 6000 6001 7, .blank] (by decide +kernel)
  refine ⟨uri, hdrs, m, r, _, _, hrequest, hprocess, hanswer, ?_⟩
  rintro ⟨i, l, first, last, c, client, -, -, hwritten, -, hclient, hmade, hport⟩
  have hports : ((new.process Lookup.literal (RtspHandler.handler Lookup.literal Server.simulated)
      (.new (ascii "10.0.0.1") 7, Server.pcmServer.engine) (portsSetup "70000-70001" ++ [0])
      (portsSetup "70000-70001").length).toOption.all fun r => r.handler.1.rtpClient = some 0 ∧
        (r.handler.2.clients[0]?.map fun client => client.socket.port) = some 70000) = true := by
    decide +kernel
  rw [hprocess] at hports
  obtain ⟨hzero, hwide⟩ := of_decide_eq_true hports
  obtain rfl := Option.some.inj (hclient.symm.trans hzero)
  rw [hmade, Option.map_some, hport] at hwide
  have hvalue : (digitsValue 10 first : ℤ) = 70000 := Option.some.inj hwide
  have hhigh := hwritten.first_port.2.2
  omega

end Session

end WifiAudio
