import WifiAudio.Proof.Rtsp.Totality
import WifiAudio.Proof.Server.Search

/-!
# Requests from a byte stream

A client sends requests one after another and TCP cuts the bytes as it likes. The loop hands over
exactly the requests as long as every cut falls well: no chunk goes on behind the end of a request,
since what follows the blank line is dropped, and no stale bytes complete a request. Along such a run
the calls made and the bytes pending are together the bytes received.
-/

namespace WifiAudio

open CString Transition

/-- A request a client may send: it ends at its first blank line, holds no NUL, announces no body
and fits into the buffer with a terminator. -/
structure Complete (r : Bytes) : Prop extends Parser.Block r where
  noBody : ¬RtspClient.contentLength <:+: r
  fits : r.length < RtspClient.sz

namespace RtspClient

variable {σ : Type} {S : RtspSession σ} {c c' : RtspClient σ} {chunk data : Bytes}
  {requests : List Bytes}

theorem blankLine_eq : blankLine = crlf ++ crlf := by decide

/-- What the loop cuts off is a block with its only blank line at its end. -/
theorem block_of_frame {m : Bytes} {size : ℕ} (hframe : frame m = .ok (.block size)) :
    Parser.Block (m.take size) := by
  obtain ⟨-, -, k, hk, rfl⟩ := frame_block_iff.1 hframe
  have hlength : blankLine.length = 4 := rfl
  have hle := find_length_le hk (by decide)
  have htake : m.take (k + 4) = (text m).take (k + 4) := by
    have hstarts : text m <+: m := List.takeWhile_prefix _
    rw [List.prefix_iff_eq_take.1 hstarts, List.take_take, min_eq_left (by omega)]
  rw [htake]
  constructor
  · rw [← blankLine_eq, find_take (by decide) hk (by omega), List.length_take]
    congr 1
    omega
  · intro h0
    exact mem_text (List.mem_of_mem_take h0) rfl

/-- A framed block ends with two line ends, so `LineParser` stays within it, whatever lies behind it. -/
theorem framed_lines_in_bounds {m : Bytes} {size : ℕ} (hframe : frame m = .ok (.block size)) (back : Bytes) :
    ∃ lp m', LineParser.new (m.take size ++ back) 0 (m.take size).length = .ok (lp, m') ∧
      lp.data + lp.size = (m.take size).length ∧ ∀ k, LineParser.Runs m' lp k := by
  have hends := (block_of_frame hframe).ends
  have hfour : (crlf ++ crlf).length = 4 := rfl
  have hlength := find_length_le hends (by decide)
  refine LineParser.new_runs ?_ back
  rintro (hone | ⟨line, b, hline⟩)
  · omega
  · -- the third byte from the end would be both a carriage return and a line feed
    have hlast : crlf ++ crlf = (m.take size).drop ((m.take size).length - 4) :=
      (find_starts hends).eq_of_length_le (by rw [List.length_drop]; omega)
    have hsplit := List.take_append_drop ((m.take size).length - 4) (m.take size)
    rw [← hlast] at hsplit
    have hreverse := congrArg List.reverse (hsplit.trans hline)
    simp [crlf] at hreverse

/-- Whatever `process` returns for the block, the loop ends with it. -/
def EndsSession (S : RtspSession σ) (c : RtspClient σ) (chunk : Bytes) (size : ℕ) : Prop :=
  ∀ cmd s m, S.process c.session (c.received chunk) size = .ok (cmd, s, m) →
    cmd = .kill ∨ S.state s = .dead

/-- The chunk cuts the stream well: it ends where a request ends or before, unless that request ends
the session, and the stale bytes do not complete a request. -/
def CutsWell (S : RtspSession σ) (c : RtspClient σ) (chunk : Bytes) : Prop :=
  chunk ≠ [] →
    match find blankLine (c.pending ++ chunk) with
    | none => ¬blankLine <:+: c.pending ++ chunk ++ text (c.stale chunk)
    | some k => k + 4 = (c.pending ++ chunk).length ∨
        c.EndsSession S chunk (k + 4) ∧ c.Terminated chunk ∧ ¬HasBody (c.received chunk)

/-- The loop is in step with the requests after `data` was received: what is not handed over yet is
pending. -/
structure InStep (requests : List Bytes) (data : Bytes) (c : RtspClient σ) : Prop where
  sized : c.Sized
  calls : c.calls <+: requests
  data_eq : c.calls.flatten ++ c.pending = data
  partly : ¬blankLine <:+: c.pending
  untouched : c.Untouched
  noBody : ¬contentLength <:+: c.buff.drop c.idx

theorem inStep_new (S : RtspSession σ) (s : σ) (requests : List Bytes) :
    InStep requests [] (new S s) where
  sized := sized_new S s
  calls := List.nil_prefix
  data_eq := rfl
  partly := by
    change ¬blankLine <:+: []
    decide
  untouched := untouched_new S s
  noBody hin := by
    have hmem : (67 : UInt8) ∈ List.replicate sz 0 := hin.subset (by decide)
    exact absurd (List.eq_of_mem_replicate hmem) (by decide)

theorem stream_cases {w : Bytes} (hrequests : ∀ r ∈ requests, Complete r)
    (hw : w <+: requests.flatten) :
    ¬blankLine <:+: w ∧ w.length < sz ∨
      ∃ r rest, requests = r :: rest ∧ r <+: w ∧ find blankLine w = some (r.length - 4) := by
  cases requests with
  | nil =>
      obtain rfl := List.prefix_nil.1 hw
      exact .inl ⟨by decide, by decide⟩
  | cons r rest =>
      have hr := hrequests r List.mem_cons_self
      have hfirst : r <+: (r :: rest).flatten := List.prefix_append r rest.flatten
      rcases lt_or_ge w.length r.length with hlt | hle
      · refine .inl ⟨?_, hlt.trans hr.fits⟩
        intro hblank
        obtain ⟨u, hu⟩ := List.prefix_of_prefix_length_le hw hfirst hlt.le
        obtain ⟨k, hk⟩ := Option.isSome_iff_exists.1 ((find_isSome (by decide)).2 hblank)
        have hsame := find_append (t := u) (by decide) hk
        rw [hu, blankLine_eq, hr.ends] at hsame
        have hend : k + 4 ≤ w.length := find_length_le hk (by decide)
        have hfour := hr.four_le
        have heq := Option.some.inj hsame
        omega
      · obtain ⟨u, rfl⟩ := List.prefix_of_prefix_length_le hfirst hw hle
        exact .inr ⟨r, rest, rfl, List.prefix_append r u, find_append (by decide) (blankLine_eq ▸ hr.ends)⟩

theorem noBody_append {r t : Bytes} (hr : Complete r) (ht : ¬contentLength <:+: t) :
    ¬contentLength <:+: r ++ t := by
  obtain ⟨front, hfront⟩ := hr.suffix
  have hlast : r = front ++ [13, 10, 13] ++ [10] := by
    rw [← hfront, List.append_assoc]
    rfl
  intro hin
  rw [hlast, List.append_assoc] at hin
  rcases infix_append_cons (by decide) hin with hin | hin
  · apply hr.noBody
    rw [hlast]
    exact List.infix_append_of_infix_left hin
  · exact ht hin

theorem InStep.fresh_stream (hin : InStep requests data c) (hstream : data ++ chunk <+: requests.flatten) :
    ∃ rest, requests = c.calls ++ rest ∧ c.pending ++ chunk <+: rest.flatten := by
  obtain ⟨rest, rfl⟩ := hin.calls
  refine ⟨rest, rfl, ?_⟩
  rw [← hin.data_eq, List.append_assoc, List.flatten_append] at hstream
  exact (List.prefix_append_right_inj _).1 hstream

theorem InStep.noBody_stale (hin : InStep requests data c) :
    ¬contentLength <:+: c.stale chunk := by
  intro hbody
  refine hin.noBody (hbody.trans ?_)
  rw [stale, ← List.drop_drop]
  exact (List.drop_suffix _ _).isInfix

/-- What an iteration finds when the chunk cuts the stream well: nothing while the next request is
not complete, else a block that is the next request. -/
theorem InStep.frame_next (hin : InStep requests data c) (hrequests : ∀ r ∈ requests, Complete r)
    (hchunk : chunk ≠ []) (hcut : c.CutsWell S chunk) (hstream : data ++ chunk <+: requests.flatten) :
    (frame (c.received chunk) = .ok .wait ∧ ¬blankLine <:+: c.pending ++ chunk ∧
      c.idx + chunk.length < sz) ∨
    ∃ r, c.calls ++ [r] <+: requests ∧ frame (c.received chunk) = .ok (.block r.length) ∧
      (c.received chunk).take r.length = r ∧
      (c.pending ++ chunk = r ∨ c.EndsSession S chunk r.length) := by
  obtain ⟨rest, hrest, hfresh⟩ := hin.fresh_stream hstream
  have hcomplete : ∀ r ∈ rest, Complete r := fun r hr =>
    hrequests r (hrest ▸ List.mem_append_right _ hr)
  have hnul : 0 ∉ c.pending ++ chunk := fun h0 => by
    obtain ⟨r, hr, h0⟩ := List.mem_flatten.1 (hfresh.subset h0)
    exact (hcomplete r hr).noNul h0
  have htext : text (c.received chunk) = c.pending ++ chunk ++ text (c.stale chunk) :=
    text_append hnul _
  have hlength := hin.sized.length_fresh chunk
  have hcut := hcut hchunk
  rcases stream_cases hcomplete hfresh with ⟨hblank, hlt⟩ | ⟨r, rest', rfl, hstarts, hfind⟩
  · rw [(find_eq_none (by decide)).2 hblank] at hcut
    have hfits : c.idx + chunk.length < sz := hlength ▸ hlt
    have hterm : 0 ∈ c.received chunk := terminated_iff.1 (.inr (.inr (hin.untouched.mem_stale hfits)))
    exact .inl ⟨frame_wait hterm (htext ▸ hcut), hblank, hfits⟩
  · have hr := hcomplete r List.mem_cons_self
    have hfour := hr.four_le
    have htake : (c.received chunk).take r.length = r :=
      (List.prefix_iff_eq_take.1 (hstarts.trans (List.prefix_append _ (c.stale chunk)))).symm
    have hcalls : c.calls ++ [r] <+: requests := by
      rw [hrest]
      exact (List.prefix_append_right_inj _).2 ⟨rest', rfl⟩
    have hblock : 0 ∈ c.received chunk → ¬contentLength <:+: text (c.received chunk) →
        frame (c.received chunk) = .ok (.block r.length) := fun hterm hbody =>
      frame_block_iff.2 ⟨hterm, hbody, r.length - 4, htext ▸ find_append (by decide) hfind, by omega⟩
    rw [hfind] at hcut
    refine .inr ⟨r, hcalls, ?_⟩
    rcases hcut with hend | ⟨hends, hterm, hbody⟩
    · have hwhole : c.pending ++ chunk = r := (hstarts.eq_of_length (by omega)).symm
      have hfits : c.idx + chunk.length < sz := by
        rw [← hlength, hwhole]
        exact hr.fits
      refine ⟨hblock ?_ ?_, htake, .inl hwhole⟩
      · exact terminated_iff.1 (.inr (.inr (hin.untouched.mem_stale hfits)))
      · rw [htext, hwhole]
        exact noBody_append hr fun h =>
          hin.noBody_stale (h.trans (List.takeWhile_prefix _).isInfix)
    · rw [Nat.sub_add_cancel hfour] at hends
      have hblank : blankLine <:+: text (c.received chunk) := by
        refine (find_isSome (by decide)).1 ?_
        rw [htext, find_append (by decide) hfind]
        rfl
      exact ⟨hblock (terminated_iff.1 hterm) fun h => hbody ⟨hblank, h⟩, htake, .inr hends⟩

/-- A step keeps the loop in step, or ends it with a request. -/
theorem InStep.step (hin : InStep requests data c) (hrequests : ∀ r ∈ requests, Complete r)
    (hcut : c.CutsWell S chunk) (hstream : data ++ chunk <+: requests.flatten)
    (hstep : Step S c chunk c') :
    InStep requests (data ++ chunk) c' ∨
      chunk ≠ [] ∧ c'.running = false ∧ c'.calls <+: requests := by
  have hsized := hin.sized.step hstep
  rcases step_cases hstep with ⟨rfl, rfl⟩ | ⟨hchunk, hframe, rfl⟩ |
    ⟨size, cmd, s, m, hchunk, hframe, hprocess, rfl⟩
  · rw [List.append_nil]
    exact .inl ⟨hsized, hin.calls, hin.data_eq, hin.partly, hin.untouched, hin.noBody⟩
  · rcases hin.frame_next hrequests hchunk hcut hstream with
      ⟨-, hblank, hfits⟩ | ⟨r, -, hblock, -⟩
    · have hpending : (c.received chunk).take (c.idx + chunk.length) = c.pending ++ chunk := by
        rw [received_eq, ← hin.sized.length_fresh, List.take_left]
      have hstale : (c.received chunk).drop (c.idx + chunk.length) = c.stale chunk := by
        rw [received_eq, ← hin.sized.length_fresh, List.drop_left]
      refine .inl ⟨hsized, hin.calls, ?_, ?_, hin.untouched.step hin.sized hfits hstep, ?_⟩
      · change c.calls.flatten ++ (c.received chunk).take (c.idx + chunk.length) = data ++ chunk
        rw [hpending, ← List.append_assoc, hin.data_eq]
      · change ¬blankLine <:+: (c.received chunk).take (c.idx + chunk.length)
        rwa [hpending]
      · change ¬contentLength <:+: (c.received chunk).drop (c.idx + chunk.length)
        rw [hstale]
        exact hin.noBody_stale
    · exact absurd (hframe.symm.trans hblock) (by simp)
  · rcases hin.frame_next hrequests hchunk hcut hstream with
      ⟨hwait, -⟩ | ⟨r, hcalls, hblock, htake, hend⟩
    · exact absurd (hframe.symm.trans hwait) (by simp)
    · obtain rfl : size = r.length := by simpa using hframe.symm.trans hblock
      have hcalls' : (c.processed S chunk r.length cmd s m).calls = c.calls ++ [r] := by
        change c.calls ++ [(c.received chunk).take r.length] = c.calls ++ [r]
        rw [htake]
      by_cases hrunning : cmd ≠ .kill ∧ S.state s ≠ .dead
      · have hwhole : c.pending ++ chunk = r := hend.resolve_right fun hends =>
          (hends cmd s m hprocess).elim hrunning.1 hrunning.2
        obtain ⟨rest, hrest, hfresh⟩ := hin.fresh_stream hstream
        have hr : Complete r := hrequests r (hcalls.subset (by simp))
        have hfits : c.idx + chunk.length < sz := by
          rw [← hin.sized.length_fresh, hwhole]
          exact hr.fits
        have hidx : (c.processed S chunk r.length cmd s m).idx = 0 := if_neg hrunning.1
        refine .inl ⟨hsized, hcalls' ▸ hcalls, ?_, ?_, hin.untouched.step hin.sized hfits hstep, ?_⟩
        · rw [hcalls', pending, hidx, List.take_zero, List.append_nil, List.flatten_append,
            List.flatten_singleton, ← hwhole, ← List.append_assoc, hin.data_eq]
        · rw [pending, hidx, List.take_zero]
          decide
        · rw [hidx, List.drop_zero]
          intro hbody
          have hbefore := (S.scrubs hprocess).occurs (by decide) hbody
          rw [received_eq, hwhole] at hbefore
          exact noBody_append hr hin.noBody_stale hbefore
      · exact .inr ⟨hchunk, decide_eq_false hrunning, hcalls' ▸ hcalls⟩

theorem run_stopped (hrunning : c.running = false) {chunks : List Bytes}
    (hrun : Run (Step S) c chunks c') : chunks = [] ∧ c' = c := by
  cases hrun with
  | nil => exact ⟨rfl, rfl⟩
  | cons hstep _ =>
      have hreceives := (step_iff.1 hstep).1.1
      rw [hrunning] at hreceives
      cases hreceives

theorem InStep.run (hrequests : ∀ r ∈ requests, Complete r) {chunks : List Bytes}
    (hrun : Run (Step S) c chunks c') {data : Bytes} (hin : InStep requests data c)
    (hcut : Along (Step S) (CutsWell S) c chunks)
    (hstream : data ++ chunks.flatten <+: requests.flatten) :
    InStep requests (data ++ chunks.flatten) c' ∨
      [] ∉ chunks ∧ c'.running = false ∧ c'.calls <+: requests := by
  induction hrun generalizing data with
  | nil => exact .inl (by rwa [List.flatten_nil, List.append_nil])
  | @cons c d c' chunk chunks hstep hrun ih =>
      rw [List.flatten_cons, ← List.append_assoc] at hstream ⊢
      have hfirst := (List.prefix_append _ _).trans hstream
      rcases hin.step hrequests hcut.1 hfirst hstep with hin | ⟨hchunk, hstopped, hcalls⟩
      · rcases ih hin (hcut.2 d hstep) hstream with hin | ⟨hopen, hstopped, hcalls⟩
        · exact .inl hin
        · by_cases hchunk : chunk = []
          · -- the connection was closed by the first chunk and nothing can follow
            have hclosed : d.running = false := by
              subst hchunk
              obtain ⟨-, hiterate⟩ := step_iff.1 hstep
              rw [← Except.ok.inj hiterate]
            obtain ⟨rfl, rfl⟩ := run_stopped hclosed hrun
            rw [List.flatten_nil, List.append_nil]
            exact .inl hin
          · refine .inr ⟨?_, hstopped, hcalls⟩
            rw [List.mem_cons, not_or]
            exact ⟨fun h => hchunk h.symm, hopen⟩
      · obtain ⟨rfl, rfl⟩ := run_stopped hstopped hrun
        exact .inr ⟨by simpa using hchunk.symm, hstopped, hcalls⟩

/-- However a stream of requests is cut, as long as it is cut well the loop hands over exactly the
requests, whole and in order. While it goes on nothing is lost: what was received is handed over or
pending, and the next block is the next request. -/
theorem requests_handed_over (S : RtspSession σ) (s : σ) (requests chunks : List Bytes)
    (c : RtspClient σ) (hrequests : ∀ r ∈ requests, Complete r)
    (hstream : chunks.flatten <+: requests.flatten) (hrun : Run (Step S) (new S s) chunks c)
    (hcut : Along (Step S) (CutsWell S) (new S s) chunks) :
    c.calls <+: requests ∧
    (c.running ∨ [] ∈ chunks →
      c.calls.flatten ++ c.pending = chunks.flatten ∧ ¬blankLine <:+: c.pending ∧
        (chunks.flatten = requests.flatten → c.calls = requests)) ∧
    ∀ chunk, c.Receives chunk → chunk ≠ [] → c.CutsWell S chunk →
      chunks.flatten ++ chunk <+: requests.flatten →
        (frame (c.received chunk) = .ok .wait ∧ ¬blankLine <:+: c.pending ++ chunk) ∨
        ∃ r, c.calls ++ [r] <+: requests ∧ frame (c.received chunk) = .ok (.block r.length) ∧
          (c.received chunk).take r.length = r := by
  rcases (inStep_new S s requests).run hrequests hrun hcut hstream with
    hin | ⟨hopen, hstopped, hcalls⟩
  · refine ⟨hin.calls, fun _ => ⟨hin.data_eq, hin.partly, ?_⟩,
      ?_⟩
    · intro hall
      obtain ⟨rest, hrest⟩ := hin.calls
      have hpending : c.pending = rest.flatten := by
        have heq := hin.data_eq.trans hall
        rw [← hrest, List.flatten_append] at heq
        exact List.append_cancel_left heq
      cases rest with
      | nil => rw [← hrest, List.append_nil]
      | cons r rest =>
          -- a request that is left would bring its blank line
          obtain ⟨front, hfront⟩ := (hrequests r (hrest ▸ by simp)).suffix
          refine absurd ⟨front, rest.flatten, ?_⟩ hin.partly
          rw [hpending, List.flatten_cons, blankLine_eq, hfront]
    · intro chunk _ hchunk hcut hnext
      rcases hin.frame_next hrequests hchunk hcut hnext with
        ⟨hwait, hpartly, -⟩ | ⟨r, hcalls, hblock, htake, -⟩
      · exact .inl ⟨hwait, hpartly⟩
      · exact .inr ⟨r, hcalls, hblock, htake⟩
  · refine ⟨hcalls, ?_, ?_⟩
    · intro hgoes
      rcases hgoes with hrunning | hclosed
      · exact absurd (hstopped.symm.trans hrunning) (by decide)
      · exact absurd hclosed hopen
    · intro chunk hreceives
      exact absurd (hstopped.symm.trans hreceives.1) (by decide)

def optionsText : Bytes := requestText "OPTIONS" ["CSeq: 1"]

def describeText : Bytes := requestText "DESCRIBE" ["CSeq: 2"]

theorem complete_optionsText : Complete optionsText :=
  ⟨⟨by decide +kernel, by decide +kernel⟩, by decide +kernel, by decide +kernel⟩

theorem complete_describeText : Complete describeText :=
  ⟨⟨by decide +kernel, by decide +kernel⟩, by decide +kernel, by decide +kernel⟩

/-- Two requests in one chunk: the second one is gone. -/
theorem second_request_lost : Complete optionsText ∧ Complete describeText ∧
    ∃ c, Run (Step pcmSession) (new pcmSession pcmState) [optionsText ++ describeText] c ∧
      c.running ∧ c.calls = [optionsText] ∧ c.pending = [] := by
  refine ⟨complete_optionsText, complete_describeText, ?_⟩
  have hrun : (execAll (exec pcmSession) (new pcmSession pcmState)
      [optionsText ++ describeText]).any (fun c =>
        c.running ∧ c.calls = [optionsText] ∧ c.pending = []) = true := by
    decide +kernel
  obtain ⟨c, hc, hlost⟩ := run_of_any hrun
  exact ⟨c, hc, of_decide_eq_true hlost⟩

/-- Two requests in four chunks, cut well. -/
theorem requests_handed_over_four_chunks : ∃ c,
    Run (Step pcmSession) (new pcmSession pcmState)
      [optionsText.take 20, optionsText.drop 20, describeText.take 7, describeText.drop 7] c ∧
    c.calls = [optionsText, describeText] := by
  obtain ⟨c, hc⟩ := Option.isSome_iff_exists.1 (show (execAll (exec pcmSession)
    (new pcmSession pcmState) [optionsText.take 20, optionsText.drop 20, describeText.take 7,
      describeText.drop 7]).isSome = true by decide +kernel)
  have hcheck : ∀ (c : RtspClient (Session × HandlerState)) chunk,
      (find blankLine (c.pending ++ chunk)).elim
        (decide (¬blankLine <:+: c.pending ++ chunk ++ text (c.stale chunk)))
        (fun k => decide (k + 4 = (c.pending ++ chunk).length)) = true →
      c.CutsWell pcmSession chunk := by
    intro c chunk hcheck _
    cases hfind : find blankLine (c.pending ++ chunk) with
    | none =>
        rw [hfind] at hcheck
        exact of_decide_eq_true hcheck
    | some k =>
        rw [hfind] at hcheck
        exact .inl (of_decide_eq_true hcheck)
  have hhanded := requests_handed_over pcmSession pcmState [optionsText, describeText] _ c
    (by simp [complete_optionsText, complete_describeText]) (by decide +kernel) (run_of_execAll hc)
    (along_of_allAlong hcheck (by decide +kernel))
  have hrunning : (execAll (exec pcmSession) (new pcmSession pcmState)
      [optionsText.take 20, optionsText.drop 20, describeText.take 7, describeText.drop 7]).all
        (fun c => c.running) = true := by decide +kernel
  rw [hc] at hrunning
  exact ⟨c, run_of_execAll hc, (hhanded.2.1 (.inl hrunning)).2.2 (by decide +kernel)⟩

end RtspClient

end WifiAudio
