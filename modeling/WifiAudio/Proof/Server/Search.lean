import WifiAudio.Lib.Transition
import WifiAudio.Rtsp.Request
import WifiAudio.Server.Session

/-!
# The searches of the connection loop

After every `recv` the loop searches its buffer as a C string. What it finds depends on the bytes
received for the current request and on what earlier requests left behind them. The bytes before
`idx` plus the chunk just received are the first kind; the rest of the buffer is the second, and the
terminator of the string as well as the blank line that ends the block may both come from there.

The searches stay inside the buffer exactly when there is a NUL left to stop them, and the ASSERT
behind the search for a body holds exactly when there is none. A block reaches into the stale bytes
exactly when these complete a blank line.
-/

namespace WifiAudio

open CString Transition

namespace RtspClient

variable {σ : Type} {S : RtspSession σ} {c c' : RtspClient σ} {chunk : Bytes}

/-! ### One iteration -/

/-- The bytes received for the request that is not complete yet. -/
def pending (c : RtspClient σ) : Bytes := c.buff.take c.idx

/-- The rest of the buffer once `chunk` is received. -/
def stale (c : RtspClient σ) (chunk : Bytes) : Bytes := c.buff.drop (c.idx + chunk.length)

/-- The connection after the block of `size` bytes was processed. -/
def processed (S : RtspSession σ) (c : RtspClient σ) (chunk : Bytes) (size : ℕ) (cmd : RtspCommand)
    (s : σ) (m : Bytes) : RtspClient σ where
  buff := m
  idx := if cmd = .kill then c.idx else 0
  session := s
  running := cmd ≠ .kill ∧ S.state s ≠ .dead
  calls := c.calls ++ [(c.received chunk).take size]

theorem iterate_of_ne_nil (S : RtspSession σ) (c : RtspClient σ) (hchunk : chunk ≠ []) :
    c.iterate S chunk = do
      match ← frame (c.received chunk) with
      | .wait => return { c with buff := c.received chunk, idx := c.idx + chunk.length }
      | .block size =>
          let (cmd, s, m) ← S.process c.session (c.received chunk) size
          return c.processed S chunk size cmd s m := by
  rw [iterate, if_neg hchunk]
  simp only [Except.pure_eq_ok]
  refine congrArg (frame (c.received chunk) >>= ·) (funext ?_)
  intro found
  cases found with
  | wait => rfl
  | block size =>
      refine congrArg (S.process c.session (c.received chunk) size >>= ·) (funext ?_)
      intro r
      obtain ⟨cmd, s, m⟩ := r
      by_cases hkill : cmd = .kill <;> simp [processed, hkill]

theorem step_iff : Step S c chunk c' ↔ c.Receives chunk ∧ c.iterate S chunk = .ok c' := by
  by_cases hreceives : c.Receives chunk
  · cases hiterate : c.iterate S chunk <;> simp [Step, exec, hreceives, hiterate, Except.toOption]
  · simp [Step, exec, hreceives]

/-- What an iteration can do: the connection is closed, more bytes are needed, or a block is
processed. -/
theorem step_cases (hstep : Step S c chunk c') :
    chunk = [] ∧ c' = { c with running := false } ∨
      (chunk ≠ [] ∧ frame (c.received chunk) = .ok .wait ∧
        c' = { c with buff := c.received chunk, idx := c.idx + chunk.length }) ∨
      ∃ size cmd s m, chunk ≠ [] ∧ frame (c.received chunk) = .ok (.block size) ∧
        S.process c.session (c.received chunk) size = .ok (cmd, s, m) ∧
        c' = c.processed S chunk size cmd s m := by
  obtain ⟨-, hiterate⟩ := step_iff.1 hstep
  by_cases hchunk : chunk = []
  · subst hchunk
    exact .inl ⟨rfl, (Except.ok.inj hiterate).symm⟩
  · rw [iterate_of_ne_nil S c hchunk] at hiterate
    obtain ⟨found, hframe, hfound⟩ := Except.bind_eq_ok.1 hiterate
    cases found with
    | wait => exact .inr (.inl ⟨hchunk, hframe, (Except.ok.inj hfound).symm⟩)
    | block size =>
        obtain ⟨⟨cmd, s, m⟩, hprocess, hresult⟩ := Except.bind_eq_ok.1 hfound
        exact .inr (.inr ⟨size, cmd, s, m, hchunk, hframe, hprocess, (Except.ok.inj hresult).symm⟩)

/-! ### The buffer -/

/-- The buffer keeps its size and `idx` stays inside it. -/
def Sized (c : RtspClient σ) : Prop := c.buff.length = sz ∧ c.idx ≤ sz

theorem sized_new (S : RtspSession σ) (s : σ) : (new S s).Sized :=
  ⟨List.length_replicate, Nat.zero_le _⟩

theorem received_eq : c.received chunk = c.pending ++ chunk ++ c.stale chunk := rfl

theorem Sized.length_pending (hsized : c.Sized) : c.pending.length = c.idx := by
  rw [pending, List.length_take, hsized.1]
  exact min_eq_left hsized.2

theorem Sized.length_fresh (hsized : c.Sized) (chunk : Bytes) :
    (c.pending ++ chunk).length = c.idx + chunk.length := by
  rw [List.length_append, hsized.length_pending]

theorem Sized.fits (hsized : c.Sized) (hreceives : c.Receives chunk) :
    c.idx + chunk.length ≤ sz := by
  have hlength := hreceives.2
  rw [hsized.1] at hlength
  have hidx := hsized.2
  omega

theorem Sized.length_received (hsized : c.Sized) (hreceives : c.Receives chunk) :
    (c.received chunk).length = sz := by
  have hfits := hsized.fits hreceives
  rw [received_eq, List.length_append, hsized.length_fresh, stale, List.length_drop, hsized.1]
  omega

theorem Sized.step (hsized : c.Sized) (hstep : Step S c chunk c') : c'.Sized := by
  have hreceives := (step_iff.1 hstep).1
  have hlength := hsized.length_received hreceives
  rcases step_cases hstep with ⟨-, rfl⟩ | ⟨-, -, rfl⟩ | ⟨size, cmd, s, m, -, -, hprocess, rfl⟩
  · exact hsized
  · exact ⟨hlength, hsized.fits hreceives⟩
  · refine ⟨(S.scrubs hprocess).length.trans hlength, ?_⟩
    change (if cmd = .kill then c.idx else 0) ≤ sz
    split
    · exact hsized.2
    · exact Nat.zero_le _

theorem Sized.getElem?_received (hsized : c.Sized) {p : ℕ} (hp : c.idx + chunk.length ≤ p) :
    (c.received chunk)[p]? = c.buff[p]? := by
  rw [received_eq, List.getElem?_append_right (by rw [hsized.length_fresh]; exact hp),
    hsized.length_fresh, stale, List.getElem?_drop]
  congr 1
  omega

/-! ### What the searches find -/

theorem frame_eq (m : Bytes) : frame m =
    if 0 ∈ m then
      match find blankLine (text m) with
      | none => .ok .wait
      | some k => if contentLength <:+: text m then .error .assertFailed else .ok (.block (k + 4))
    else .error .outOfBounds := by
  rw [frame, strstr, strstr, string_zero]
  by_cases hterm : 0 ∈ m
  · rw [if_pos hterm, if_pos hterm]
    simp only [Except.pure_eq_ok, Except.ok_bind]
    cases find blankLine (text m) with
    | none => rfl
    | some k =>
        simp only [Option.map_some, Nat.zero_add]
        by_cases hbody : contentLength <:+: text m
        · obtain ⟨j, hj⟩ := Option.isSome_iff_exists.1 ((find_isSome (by decide)).2 hbody)
          rw [if_pos hbody, hj]
          rfl
        · rw [if_neg hbody, (find_eq_none (by decide)).2 hbody]
          rfl
  · rw [if_neg hterm, if_neg hterm]
    rfl

/-- The string holds a blank line and announces a body. -/
def HasBody (m : Bytes) : Prop := blankLine <:+: text m ∧ contentLength <:+: text m

theorem frame_completes_iff (m : Bytes) : (∃ f, frame m = .ok f) ↔ 0 ∈ m ∧ ¬HasBody m := by
  rw [frame_eq, HasBody]
  by_cases hterm : 0 ∈ m
  · rw [if_pos hterm]
    cases hfind : find blankLine (text m) with
    | none =>
        have hblank := (find_eq_none (by decide)).1 hfind
        simp [hterm, hblank]
    | some k =>
        have hblank : blankLine <:+: text m := (find_isSome (by decide)).1 (hfind ▸ rfl)
        by_cases hbody : contentLength <:+: text m
        · simp [hterm, hblank, hbody]
        · simp [hterm, hbody]
  · simp [hterm]

theorem frame_block_iff {m : Bytes} {size : ℕ} : frame m = .ok (.block size) ↔
    0 ∈ m ∧ ¬contentLength <:+: text m ∧ ∃ k, find blankLine (text m) = some k ∧ k + 4 = size := by
  rw [frame_eq]
  by_cases hterm : 0 ∈ m
  · rw [if_pos hterm]
    cases find blankLine (text m) with
    | none => simp
    | some k => by_cases hbody : contentLength <:+: text m <;> simp [hterm, hbody]
  · simp [hterm]

theorem frame_wait {m : Bytes} (hterm : 0 ∈ m) (hblank : ¬blankLine <:+: text m) :
    frame m = .ok .wait := by
  rw [frame_eq, if_pos hterm, (find_eq_none (by decide)).2 hblank]

/-! ### The terminator -/

/-- The iteration closes the connection, or both searches of `run` end inside the buffer and no ASSERT
fails in `search`. The call of `process`, which comes after them, is not part of it. -/
def SearchesComplete (c : RtspClient σ) (chunk : Bytes) : Prop :=
  chunk = [] ∨ ∃ f, frame (c.received chunk) = .ok f

/-- A NUL is among the bytes received for the current request or behind them. -/
def Terminated (c : RtspClient σ) (chunk : Bytes) : Prop :=
  0 ∈ c.pending ∨ 0 ∈ chunk ∨ 0 ∈ c.stale chunk

theorem terminated_iff : c.Terminated chunk ↔ 0 ∈ c.received chunk := by
  rw [Terminated, received_eq, List.mem_append, List.mem_append, or_assoc]

/-- The last byte of the buffer is the NUL it was cleared to. -/
def Untouched (c : RtspClient σ) : Prop := c.buff[sz - 1]? = some 0

theorem untouched_new (S : RtspSession σ) (s : σ) : (new S s).Untouched := by
  change (List.replicate sz 0)[sz - 1]? = some 0
  rw [List.getElem?_replicate]
  rfl

theorem Untouched.step (huntouched : c.Untouched) (hsized : c.Sized)
    (hfits : c.idx + chunk.length < sz) (hstep : Step S c chunk c') : c'.Untouched := by
  have hlast : (c.received chunk)[sz - 1]? = some 0 := by
    rw [hsized.getElem?_received (by omega)]
    exact huntouched
  rcases step_cases hstep with ⟨-, rfl⟩ | ⟨-, -, rfl⟩ | ⟨size, cmd, s, m, -, -, hprocess, rfl⟩
  · exact huntouched
  · exact hlast
  · exact (S.scrubs hprocess).getElem?_zero hlast

theorem Untouched.mem_stale (huntouched : c.Untouched) (hfits : c.idx + chunk.length < sz) :
    0 ∈ c.stale chunk := by
  rw [stale, List.mem_iff_getElem?]
  refine ⟨sz - 1 - (c.idx + chunk.length), ?_⟩
  rw [List.getElem?_drop, Nat.add_sub_cancel' (by omega)]
  exact huntouched

theorem searchesComplete_iff : c.SearchesComplete chunk ↔
    (chunk ≠ [] → c.Terminated chunk ∧ ¬HasBody (c.received chunk)) := by
  rw [SearchesComplete, frame_completes_iff, terminated_iff]
  exact or_iff_not_imp_left

/-- In every run, the searches of every iteration complete exactly when at each of them a NUL is
left in the buffer and no body is announced. While the bytes received for one request have never
filled the buffer, its last byte is such a NUL. -/
theorem searches_complete_iff (S : RtspSession σ) (s : σ) (chunks : List Bytes) :
    (Along (Step S) (fun c chunk => c.Receives chunk → c.SearchesComplete chunk) (new S s) chunks ↔
      Along (Step S) (fun c chunk => c.Receives chunk → chunk ≠ [] →
        c.Terminated chunk ∧ ¬HasBody (c.received chunk)) (new S s) chunks) ∧
    (Along (Step S) (fun c chunk => c.idx + chunk.length < sz) (new S s) chunks →
      (Along (Step S) (fun c chunk => c.Receives chunk → c.SearchesComplete chunk)
          (new S s) chunks ↔
        Along (Step S) (fun c chunk => c.Receives chunk → chunk ≠ [] →
          ¬HasBody (c.received chunk)) (new S s) chunks)) := by
  constructor
  · exact along_congr (I := fun _ => True) (fun _ _ _ _ _ => trivial)
      (fun c chunk _ => imp_congr_right fun _ => searchesComplete_iff) trivial
  · refine Along.congr (I := fun c => c.Sized ∧ c.Untouched) ?_
      (fun c chunk hc hfits => imp_congr_right ?_) ⟨sized_new S s, untouched_new S s⟩
    · intro c chunk c' hc hfits hstep
      exact ⟨hc.1.step hstep, hc.2.step hc.1 hfits hstep⟩
    · intro _
      have hterm : c.Terminated chunk := .inr (.inr (hc.2.mem_stale hfits))
      rw [searchesComplete_iff, and_iff_right hterm]

/-- A session just created, over an engine with a PCM codec; it answers on a simulated socket. -/
def pcmSession : RtspSession (Session × HandlerState) := .create Lookup.literal ⟨true, 0, none, true⟩

def pcmState : Session × HandlerState :=
  (.new, .new (ascii "10.0.0.1") 7, .new (AudioCodec.createPcm ⟨16, 2, 48000⟩) 6000 6001 4)

/-- A chunk that fills the buffer leaves no NUL in it; a header that announces a body runs into the
ASSERT. -/
theorem first_chunk_faults :
    frame ((new pcmSession pcmState).received (List.replicate 2048 65)) = .error .outOfBounds ∧
      (new pcmSession pcmState).Receives (List.replicate 2048 65) ∧
      frame ((new pcmSession pcmState).received (requestText "OPTIONS" ["Content-Length: 1"])) =
        .error .assertFailed ∧
      (new pcmSession pcmState).Receives (requestText "OPTIONS" ["Content-Length: 1"]) := by
  decide +kernel

/-! ### The block -/

/-- The stale bytes complete a request: what is received holds no blank line, but one ends in the
text behind it. -/
def StaleCompletes (c : RtspClient σ) (chunk : Bytes) : Prop :=
  0 ∉ c.pending ++ chunk ∧ 0 ∈ c.stale chunk ∧ ¬blankLine <:+: c.pending ++ chunk ∧
    ¬contentLength <:+: c.pending ++ chunk ++ text (c.stale chunk) ∧
    (blankLine <:+: text (c.stale chunk) ∨ ∃ k, 0 < k ∧ k < 4 ∧
      blankLine.take k <:+ c.pending ++ chunk ∧ blankLine.drop k <+: text (c.stale chunk))

/-- A blank line in two texts behind each other is in one of them or across the boundary. -/
theorem blankLine_infix_append {w t : Bytes} : blankLine <:+: w ++ t ↔ blankLine <:+: w ∨
    blankLine <:+: t ∨ ∃ k, 0 < k ∧ k < 4 ∧ blankLine.take k <:+ w ∧ blankLine.drop k <+: t := by
  rw [List.infix_append_iff_ne_nil]
  refine or_congr_right (or_congr_right ⟨?_, ?_⟩)
  · rintro ⟨l, r, hl, hr, heq, hsuffix, hstarts⟩
    have hlength : l.length + r.length = 4 := by
      rw [← List.length_append, ← heq]
      rfl
    have hpos := List.length_pos_iff.2 hl
    have hpos' := List.length_pos_iff.2 hr
    refine ⟨l.length, hpos, by omega, ?_, ?_⟩
    · rwa [heq, List.take_left]
    · rwa [heq, List.drop_left]
  · rintro ⟨k, hpos, hlt, hsuffix, hstarts⟩
    have hlength : blankLine.length = 4 := rfl
    refine ⟨blankLine.take k, blankLine.drop k, ?_, ?_, (List.take_append_drop k _).symm, hsuffix,
      hstarts⟩
    · rw [Ne, List.take_eq_nil_iff]
      rintro (rfl | hnil)
      · exact lt_irrefl _ hpos
      · exact absurd hnil (by decide)
    · rw [Ne, List.drop_eq_nil_iff]
      omega

theorem frame_received_iff (hsized : c.Sized) :
    (∀ size, frame (c.received chunk) = .ok (.block size) → size ≤ c.idx + chunk.length) ↔
      ¬c.StaleCompletes chunk := by
  have hlength := hsized.length_fresh chunk
  simp only [frame_block_iff, StaleCompletes, received_eq]
  set w := c.pending ++ chunk
  set t := c.stale chunk
  by_cases hnul : 0 ∈ w
  · -- the string ends among the received bytes
    rw [text_append_of_mem hnul]
    have hle : ∀ size, (0 ∈ w ++ t ∧ ¬contentLength <:+: text w ∧
        ∃ k, find blankLine (text w) = some k ∧ k + 4 = size) → size ≤ c.idx + chunk.length := by
      rintro size ⟨-, -, k, hk, rfl⟩
      have hfind : k + 4 ≤ (text w).length := find_length_le hk (by decide)
      have htext := length_text_lt.2 hnul
      omega
    exact ⟨fun _ h => h.1 hnul, fun _ => hle⟩
  · rw [text_append hnul]
    constructor
    · rintro hle ⟨-, hterm, hblank, hbody, hacross⟩
      have hin : blankLine <:+: w ++ text t := blankLine_infix_append.2 (.inr hacross)
      obtain ⟨k, hk⟩ := Option.isSome_iff_exists.1 ((find_isSome (by decide)).2 hin)
      have hk4 := hle (k + 4) ⟨List.mem_append_right w hterm, hbody, k, hk, rfl⟩
      -- the block would lie in the received bytes, and its blank line with it
      have hstarts := find_starts hk
      rw [List.drop_append_of_le_length (by omega)] at hstarts
      have hshort := List.prefix_of_prefix_length_le hstarts (List.prefix_append _ _)
        (by rw [List.length_drop, hlength]; change 4 ≤ _; omega)
      exact hblank (hshort.isInfix.trans (List.drop_suffix k w).isInfix)
    · rintro hnot size ⟨hterm, hbody, k, hk, rfl⟩
      by_cases hblank : blankLine <:+: w
      · obtain ⟨j, hj⟩ := Option.isSome_iff_exists.1 ((find_isSome (by decide)).2 hblank)
        have hsame := find_append (t := text t) (by decide) hj
        rw [hk] at hsame
        obtain rfl := Option.some.inj hsame
        have hle : k + 4 ≤ w.length := find_length_le hj (by decide)
        omega
      · have hin : blankLine <:+: w ++ text t := (find_isSome (by decide)).1 (hk ▸ rfl)
        exact absurd ⟨hnul, (List.mem_append.1 hterm).resolve_left hnul, hblank, hbody,
          (blankLine_infix_append.1 hin).resolve_left hblank⟩ hnot

/-- In every run, every block handed to `process` ends among the bytes received since the last one
exactly when at no iteration the stale bytes complete a request. -/
theorem blocks_received_iff (S : RtspSession σ) (s : σ) (chunks : List Bytes) :
    Along (Step S) (fun c chunk => c.Receives chunk → ∀ size,
        frame (c.received chunk) = .ok (.block size) → size ≤ c.idx + chunk.length)
        (new S s) chunks ↔
      Along (Step S) (fun c chunk => c.Receives chunk → ¬c.StaleCompletes chunk)
        (new S s) chunks :=
  along_congr (I := Sized) (fun _ _ _ hsized hstep => hsized.step hstep)
    (fun _ _ hsized => imp_congr_right fun _ => frame_received_iff hsized) (sized_new S s)

/-- Only the line ends the parser passed are overwritten: after a rejected request the first seven
bytes of the next one are already taken for a request of fifteen. -/
theorem stale_header_completes : ∃ c,
    Run (Step pcmSession) (new pcmSession pcmState) [ascii "BAD x\r\nA: b\r\n\r\n"] c ∧
      c.Receives (ascii "OPTIONS") ∧ c.idx = 0 ∧ (ascii "OPTIONS").length = 7 ∧
      frame (c.received (ascii "OPTIONS")) = .ok (.block 15) := by
  have hrun : (execAll (exec pcmSession) (new pcmSession pcmState)
      [ascii "BAD x\r\nA: b\r\n\r\n"]).any (fun c => c.Receives (ascii "OPTIONS") ∧ c.idx = 0 ∧
        (ascii "OPTIONS").length = 7 ∧
        frame (c.received (ascii "OPTIONS")) = .ok (.block 15)) = true := by
    decide +kernel
  obtain ⟨c, hc, hfound⟩ := run_of_any hrun
  exact ⟨c, hc, of_decide_eq_true hfound⟩

end RtspClient

end WifiAudio
