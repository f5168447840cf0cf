import WifiAudio.Lib.Token
import WifiAudio.Rtsp.Session

/-!
# What parsing does to the request's memory

Line ends and separators are overwritten with NUL and nothing else is written: whatever path
`process` takes, the memory it leaves is the memory it was given, scrubbed.
-/

namespace WifiAudio

open CString Except

theorem store_scrubbed (m : Bytes) (p : ℕ) : Ensures (store m p 0) (Scrubbed m) :=
  .ite (fun _ => .ok (scrubbed_set m p)) fun _ => .error _

theorem strtok_r_scrubbed (m : Bytes) (s : Option ℕ) (d : UInt8) (save : Option ℕ) :
    Ensures (strtok_r m s d save) fun r => Scrubbed m r.2.2 := by
  unfold strtok_r
  split
  · exact .error _
  · refine .bind_any fun str => .ite (fun _ => .ok (Scrubbed.refl m)) ?_
    intro _
    exact .ite (fun _ => .ok (scrubbed_set m _)) fun _ => .ok (Scrubbed.refl m)

namespace LineParser

theorem getline_scrubbed (m : Bytes) (lp : LineParser) :
    Ensures (getline m lp) fun r => Scrubbed m r.2.2 := by
  unfold getline
  refine .ite (fun _ => .ok (Scrubbed.refl m)) fun _ => .bind_any ?_
  intro stop
  cases stop with
  | none => exact .ok (Scrubbed.refl m)
  | some i => exact .bind (store_scrubbed m _) fun m' hm => .ok hm

theorem skipLeading_scrubbed (fuel : ℕ) (m : Bytes) (lp : LineParser) :
    Ensures (skipLeading fuel m lp) fun r => Scrubbed m r.2 := by
  induction fuel generalizing m lp with
  | zero => exact .error _
  | succ fuel ih =>
      refine .ite (fun _ => .bind_any fun isCrlf => .ite ?_ ?_) ?_
      · intro _
        exact .bind (getline_scrubbed m lp) fun r hr => (ih r.2.2 r.2.1).mono fun _ => hr.trans
      · intro _
        exact .ok (Scrubbed.refl m)
      · intro _
        exact .ok (Scrubbed.refl m)

end LineParser

/-! ### Transport headers -/

theorem crlf_starts (n : Bytes) (j : ℕ) : crlf <+: n.drop j ↔ n[j]? = some 13 ∧ n[j + 1]? = some 10 := by
  have hnext : n[j + 1]? = (n.drop j)[1]? := List.getElem?_drop.symm
  have hfirst : n[j]? = (n.drop j)[0]? := by rw [List.getElem?_drop, Nat.add_zero]
  rw [hnext, hfirst]
  cases n.drop j with
  | nil => simp [crlf]
  | cons a l =>
      cases l with
      | nil => simp [crlf]
      | cons b l => simp [crlf, List.cons_prefix_cons, eq_comm]

/-- A byte `parse_transport` may overwrite, with the byte behind it: spaces and commas only in front of
a spec. -/
def Separator (b : UInt8) (next : Option UInt8) : Prop :=
  b = semicolon ∨ b = slash ∨ (b = space ∨ b = comma) ∧
    (next = some space ∨ next = some comma ∨ next = some 82)

theorem not_separator_R (next : Option UInt8) : ¬Separator 82 next := by
  rintro (h | h | ⟨h | h, -⟩) <;> exact absurd h (by decide)

/-- `m'` is `m` with some of its separators overwritten. -/
structure Cut (m m' : Bytes) : Prop where
  length_eq : m'.length = m.length
  bytes : ∀ i : ℕ, m'[i]? = m[i]? ∨ m'[i]? = some 0 ∧ ∃ b, m[i]? = some b ∧ Separator b m[i + 1]?

namespace Cut

variable {m m' m'' : Bytes} {p : ℕ}

theorem refl (m : Bytes) : Cut m m := ⟨rfl, fun _ => .inl rfl⟩

theorem not_separator_zero (next : Option UInt8) : ¬Separator 0 next := by
  rintro (h | h | ⟨h | h, -⟩) <;> exact absurd h (by decide)

theorem trans (h : Cut m m') (h' : Cut m' m'') : Cut m m'' := by
  refine ⟨h'.length_eq.trans h.length_eq, ?_⟩
  intro i
  obtain heq' | ⟨hzero, b, hb, hsep⟩ := h'.bytes i
  · rw [heq']
    exact h.bytes i
  · refine .inr ⟨hzero, b, ?_, ?_⟩
    · -- the byte was no NUL before, so it had not been overwritten
      obtain heq | ⟨hzero', -⟩ := h.bytes i
      · rw [← heq, hb]
      · obtain rfl := Option.some.inj (hb.symm.trans hzero')
        exact absurd hsep (not_separator_zero _)
    · obtain heq | ⟨hzero', -⟩ := h.bytes (i + 1)
      · rwa [heq] at hsep
      · rw [hzero'] at hsep
        obtain rfl | rfl | ⟨-, hnext⟩ := hsep
        · exact .inl rfl
        · exact .inr (.inl rfl)
        · obtain h | h | h := hnext <;> exact absurd h (by decide)

theorem scrubbed (h : Cut m m') : Scrubbed m m' := by
  refine List.forall₂_iff_get.2 ⟨h.length_eq.symm, ?_⟩
  intro i hi hi'
  obtain heq | ⟨hzero, -⟩ := h.bytes i
  · left
    rw [List.getElem?_eq_getElem hi', List.getElem?_eq_getElem hi] at heq
    exact Option.some.inj heq
  · right
    rw [List.getElem?_eq_getElem hi'] at hzero
    exact Option.some.inj hzero

theorem set_of (h : Cut m m') {b : UInt8} (hb : m[p]? = some b) (hsep : Separator b m[p + 1]?)
    (hsame : m'[p]? = m[p]?) : Cut m (m'.set p 0) := by
  refine ⟨List.length_set.trans h.length_eq, ?_⟩
  intro i
  by_cases hi : p = i
  · subst hi
    obtain ⟨hlt, -⟩ := List.getElem?_eq_some_iff.1 (hsame.trans hb)
    exact .inr ⟨List.getElem?_set_self hlt, b, hb, hsep⟩
  · rw [List.getElem?_set_ne hi]
    exact h.bytes i

theorem set {b : UInt8} (hb : m[p]? = some b) (hsep : Separator b m[p + 1]?) : Cut m (m.set p 0) :=
  (Cut.refl m).set_of hb hsep rfl

theorem keeps (h : Cut m m') {b : UInt8} (hb : m[p]? = some b) (hnot : ¬Separator b m[p + 1]?) :
    m'[p]? = some b := by
  obtain heq | ⟨-, b', hb', hsep⟩ := h.bytes p
  · rw [heq, hb]
  · obtain rfl := Option.some.inj (hb.symm.trans hb')
    exact absurd hsep hnot

theorem drop (h : Cut m m') (k : ℕ) : Cut (m.drop k) (m'.drop k) := by
  refine ⟨by rw [List.length_drop, List.length_drop, h.length_eq], ?_⟩
  intro i
  rw [List.getElem?_drop, List.getElem?_drop, List.getElem?_drop]
  exact h.bytes (k + i)

theorem same (h : Cut m m') {b : UInt8} {i : ℕ} (hb : m'[i]? = some b) (hne : b ≠ 0) : m[i]? = some b := by
  obtain heq | ⟨hzero, -⟩ := h.bytes i
  · rw [← heq, hb]
  · exact absurd (Option.some.inj (hb.symm.trans hzero)) hne

theorem find_crlf (h : Cut m m') : find crlf m' = find crlf m := by
  have hkeeps : ∀ {b : UInt8} {i : ℕ}, (b = 13 ∨ b = 10) → m[i]? = some b → m'[i]? = some b := by
    rintro b i hb hi
    refine h.keeps hi ?_
    rintro (rfl | rfl | ⟨rfl | rfl, -⟩) <;> revert hb <;> decide
  refine find_congr fun j => ?_
  rw [crlf_starts, crlf_starts]
  constructor
  · rintro ⟨hcr, hlf⟩
    exact ⟨h.same hcr (by decide), h.same hlf (by decide)⟩
  · rintro ⟨hcr, hlf⟩
    exact ⟨hkeeps (.inl rfl) hcr, hkeeps (.inr rfl) hlf⟩

end Cut

theorem strtok_r_cut (m : Bytes) (s : Option ℕ) {d : UInt8} (hd : d = semicolon ∨ d = slash)
    (save : Option ℕ) : Ensures (strtok_r m s d save) fun r => Cut m r.2.2 := by
  rintro ⟨tok, save', m'⟩ hr
  obtain rfl | ⟨i, hi, rfl⟩ := strtok_r_memory hr
  · exact .refl _
  · exact .set hi (hd.imp_right .inl)

namespace Parser

/-- The trimming in front of a spec; what is tested has not been overwritten yet. -/
theorem trimSeparators_cut {m₀ m : Bytes} {prev si : ℕ} (hcut : Cut m₀ m)
    (hsame : ∀ j ≤ prev + si, m[j]? = m₀[j]?)
    (hnext : m₀[prev + si + 1]? = some space ∨ m₀[prev + si + 1]? = some comma ∨
      m₀[prev + si + 1]? = some 82) : Ensures (trimSeparators m prev si) (Cut m₀) := by
  induction si generalizing m with
  | zero => exact .ok hcut
  | succ si ih =>
      refine .bind (.self _) fun b hb => .ite ?_ fun _ => .ok hcut
      intro hsep
      have hload : m[prev + (si + 1)]? = some b := by
        rw [load] at hb
        split at hb
        · rw [← Except.ok.inj hb]
          assumption
        · cases hb
      have hload₀ : m₀[prev + (si + 1)]? = some b := (hsame _ le_rfl).symm.trans hload
      refine .bind (.self _) fun m' hm' => ?_
      obtain rfl : m.set (prev + (si + 1)) 0 = m' := by
        rw [store] at hm'
        split at hm'
        · exact Except.ok.inj hm'
        · cases hm'
      refine ih (hcut.set_of hload₀ (.inr (.inr ⟨hsep, hnext⟩)) (hload.trans hload₀.symm)) ?_ ?_
      · intro j hj
        rw [List.getElem?_set_ne (by omega)]
        exact hsame j (by omega)
      · rw [Nat.add_assoc, hload₀]
        obtain rfl | rfl := hsep
        · exact .inl rfl
        · exact .inr (.inl rfl)

theorem spec_starts {m : Bytes} {p : ℕ} (h : strncmpEq m p (ascii "RTP/") = .ok true) :
    m[p]? = some 82 := by
  have hload : strncmpEq m p (82 :: [84, 80, 47]) = .ok true := h
  rw [strncmpEq] at hload
  obtain ⟨b, hb, hload⟩ := bind_eq_ok.1 hload
  split at hload
  case isTrue heq =>
    rw [load] at hb
    split at hb
    · rw [← heq, ← Except.ok.inj hb]
      assumption
    · cases hb
  case isFalse => cases hload

/-- The lines that are found start with an `R`. -/
theorem findSpecs_cut (ss n i : ℕ) (lines : List ℕ) (m : Bytes)
    (hlines : ∀ l ∈ lines, m[l]? = some 82) :
    Ensures (findSpecs ss n i lines m) fun r => Cut m r.2 ∧ ∀ l ∈ r.1, r.2[l]? = some 82 := by
  induction n generalizing i lines m with
  | zero => exact .ok ⟨.refl m, hlines⟩
  | succ n ih =>
      refine .bind (.self _) fun isSpec hspec => .ite ?_ fun _ => ih _ _ _ hlines
      rintro rfl
      have hstart := spec_starts hspec
      have hfound : ∀ m', Cut m m' → Ensures (ε := Fault)
          (if (lines ++ [ss + i]).length ≥ maxTransports then return (lines ++ [ss + i], m')
            else findSpecs ss n (i + 1) (lines ++ [ss + i]) m')
          fun r => Cut m r.2 ∧ ∀ l ∈ r.1, r.2[l]? = some 82 := by
        intro m' hm
        have hall : ∀ l ∈ lines ++ [ss + i], m'[l]? = some 82 := by
          intro l hl
          refine hm.keeps ?_ (not_separator_R _)
          rw [List.mem_append, List.mem_singleton] at hl
          obtain hl | rfl := hl
          · exact hlines l hl
          · exact hstart
        refine .ite (fun _ => .ok ⟨hm, hall⟩) fun _ => (ih _ _ m' hall).mono ?_
        intro r hr
        exact ⟨hm.trans hr.1, hr.2⟩
      cases lines.getLast? with
      | none => exact hfound m (.refl m)
      | some prev =>
          refine .bind ?_ hfound
          by_cases hprev : prev + 1 ≤ ss + i
          · refine trimSeparators_cut (.refl m) (fun _ _ => rfl) (.inr (.inr ?_))
            rw [show prev + (ss + i - prev - 1) + 1 = ss + i by omega]
            exact hstart
          · rw [show ss + i - prev - 1 = 0 by omega]
            exact .ok (.refl m)

theorem readOptions_cut (fuel : ℕ) (m : Bytes) (hdr : Transport) (save : Option ℕ) :
    Ensures (readOptions fuel m hdr save) fun r => Cut m r.2.2 := by
  induction fuel generalizing m hdr save with
  | zero => exact .error _
  | succ fuel ih =>
      refine .bind (strtok_r_cut m none (.inl rfl) save) ?_
      intro r hr
      obtain ⟨s, save, m'⟩ := r
      cases s with
      | none => exact .ok hr
      | some s =>
          exact .bind_any fun r => .ite (fun _ => .ok hr) fun _ =>
            (ih m' r.2 save).mono fun _ => hr.trans

private theorem profile_cut (m : Bytes) (save : Option ℕ) (hdr : Transport) (isRtp : Bool) :
    Ensures (ε := Fault) (do
      let (_, save, m) ← strtok_r m none slash save
      let (transport, _, m) ← strtok_r m none slash save
      return (setTransport (setRtp hdr isRtp) transport, m)) fun r => Cut m r.2 := by
  refine .bind (strtok_r_cut m none (.inr rfl) save) ?_
  intro r hr
  refine .bind (strtok_r_cut r.2.2 none (.inr rfl) r.2.1) ?_
  intro r' hr'
  exact .ok (hr.trans hr')

theorem parseProtocol_cut (m : Bytes) (s : Option ℕ) (hdr : Transport) :
    Ensures (parseProtocol m s hdr) fun r => Cut m r.2 := by
  refine .bind (strtok_r_cut m s (.inr rfl) none) ?_
  intro r hr
  obtain ⟨protocol, save, m'⟩ := r
  cases protocol with
  | none => exact (profile_cut m' save hdr false).mono fun _ => hr.trans
  | some p =>
      refine .bind_any ?_
      intro isRtp
      exact (profile_cut m' save hdr isRtp).mono fun _ => hr.trans

theorem parseSpec_cut (m : Bytes) (line : ℕ) (hdr : Transport) :
    Ensures (parseSpec m line hdr) fun r => Cut m r.2.2 := by
  refine .bind (strtok_r_cut m (some line) (.inl rfl) none) ?_
  intro r hr
  refine .bind (parseProtocol_cut r.2.2 r.1 (setDefaults hdr)) ?_
  intro r' hr'
  exact (readOptions_cut _ r'.2 r'.1 r.2.1).mono fun _ => (hr.trans hr').trans

/-- The specs are read into the transports; the other headers stay. -/
theorem parseSpecs_cut (specs : List (Fin maxTransports × ℕ)) (m : Bytes) (hdr : RtspHeader) :
    Ensures (parseSpecs specs m hdr) fun r => Cut m r.2.2 ∧ r.2.1.cseq = hdr.cseq := by
  induction specs generalizing m hdr with
  | nil => exact .ok ⟨.refl m, rfl⟩
  | cons spec rest ih =>
      refine .bind (parseSpec_cut m spec.2 (hdr.transport spec.1)) ?_
      intro r hr
      refine .ite (fun _ => .ok ⟨hr, rfl⟩) fun _ => (ih r.2.2 _).mono ?_
      intro r' hr'
      exact ⟨hr.trans hr'.1, hr'.2⟩

theorem parseTransport_cut (m : Bytes) (hdr : RtspHeader) (save : Option ℕ) :
    Ensures (parseTransport m hdr save) fun r => Cut m r.2.2 ∧ r.2.1.cseq = hdr.cseq := by
  cases save with
  | none => exact .error _
  | some ss =>
      refine .bind_any fun length => .bind (findSpecs_cut ss _ 0 [] m (by simp)) ?_
      intro r hr
      refine (parseSpecs_cut _ r.2 hdr).mono ?_
      intro r' hr'
      exact ⟨hr.1.trans hr'.1, hr'.2⟩

theorem parseTransport_scrubbed (m : Bytes) (hdr : RtspHeader) (save : Option ℕ) :
    Ensures (parseTransport m hdr save) fun r => Scrubbed m r.2.2 :=
  (parseTransport_cut m hdr save).mono fun _ hr => hr.1.scrubbed

/-! ### The headers and the request line -/

theorem acceptsSdp_scrubbed (fuel : ℕ) (m : Bytes) (save : Option ℕ) :
    Ensures (acceptsSdp fuel m save) fun r => Scrubbed m r.2 := by
  induction fuel generalizing m save with
  | zero => exact .error _
  | succ fuel ih =>
      refine .bind (strtok_r_scrubbed m none space save) ?_
      intro r hr
      obtain ⟨s, save, m'⟩ := r
      cases s with
      | none => exact .ok hr
      | some s =>
          exact .bind_any fun text => .ite (fun _ => .ok hr) fun _ =>
            (ih m' save).mono fun _ => hr.trans

private theorem number_scrubbed (m : Bytes) (save : Option ℕ) (hdr : RtspHeader)
    (set : ℤ → RtspHeader) :
    Ensures (ε := Fault) (do
      let (s, _, m) ← strtok_r m none space save
      match ← getNumber m s 10 with
      | none => return (false, hdr, m)
      | some (n, _) => return (true, set n, m)) fun r => Scrubbed m r.2.2 := by
  refine .bind (strtok_r_scrubbed m none space save) fun r hr => .bind_any ?_
  intro number
  cases number with
  | none => exact .ok hr
  | some n => exact .ok hr

theorem readHeader_scrubbed (m : Bytes) (header : ℕ) (save : Option ℕ) (hdr : RtspHeader) :
    Ensures (readHeader m header save hdr) fun r => Scrubbed m r.2.2 := by
  refine .bind_any fun name => .ite ?_ fun _ => .ite ?_ fun _ =>
    .ite ?_ fun _ => .ite ?_ ?_
  · intro _
    exact number_scrubbed m save hdr fun n => { hdr with cseq := n }
  · intro _
    exact number_scrubbed m save hdr fun n => { hdr with sessionId := UInt32.ofInt n }
  · intro _
    exact .bind (acceptsSdp_scrubbed _ m save) fun r hr => .ok hr
  · intro _
    exact parseTransport_scrubbed m hdr save
  · intro _
    exact .ok (Scrubbed.refl m)

theorem readLines_scrubbed (fuel : ℕ) (m : Bytes) (lp : LineParser) (hdr : RtspHeader) :
    Ensures (readLines fuel m lp hdr) fun r => Scrubbed m r.2.2 := by
  induction fuel generalizing m lp hdr with
  | zero => exact .error _
  | succ fuel ih =>
      refine .bind (LineParser.getline_scrubbed m lp) ?_
      intro r hr
      obtain ⟨line, lp, m'⟩ := r
      cases line with
      | none => exact .ok hr
      | some line =>
          refine .bind (strtok_r_scrubbed m' (some line) space none) ?_
          intro r hr'
          obtain ⟨header, save, m''⟩ := r
          cases header with
          | none => exact .ok (hr.trans hr')
          | some header =>
              refine .bind (readHeader_scrubbed m'' header save hdr) ?_
              intro r hr''
              have htrans := (hr.trans hr').trans hr''
              exact .ite (fun _ => .ok htrans) fun _ => (ih r.2.2 lp r.2.1).mono fun _ => htrans.trans

variable {η : Type} (P : Lookup) (handler : Handler η)

theorem parseCommand_scrubbed (m : Bytes) (lp : LineParser) (uri : Option ℕ) (cmd : RtspCommand)
    (errorCode : ℤ) (h : η) :
    Ensures (parseCommand handler m lp uri cmd errorCode h) fun r => Scrubbed m r.2.2 :=
  .bind (readLines_scrubbed _ m lp _) fun _ hr => .bind_any fun _ => .ok hr

theorem reject_scrubbed (code : ℤ) (m : Bytes) (h : η) :
    Ensures (reject handler code m h) fun r => r.2.2 = m :=
  .bind_any fun _ => .ok rfl

theorem parseMethod_scrubbed (allowable : List RtspCommand) (m : Bytes) (lp : LineParser) (cmd : ℕ)
    (save : Option ℕ) (h : η) :
    Ensures (parseMethod P handler allowable m lp cmd save h) fun r => Scrubbed m r.2.2 := by
  have hreject : ∀ m', Scrubbed m m' → Ensures (reject handler ErrorCode.badRequest m' h)
      fun r => Scrubbed m r.2.2 := fun m' hm =>
    (reject_scrubbed handler _ m' h).mono fun r hr => hr ▸ hm
  have hcommand : ∀ (m' : Bytes) (uri : Option ℕ) (cmd : RtspCommand) (code : ℤ), Scrubbed m m' →
      Ensures (parseCommand handler m' lp uri cmd code h) fun r => Scrubbed m r.2.2 :=
    fun m' uri cmd code hm => (parseCommand_scrubbed handler m' lp uri cmd code h).mono fun _ => hm.trans
  refine .bind_any fun text => .ite (fun _ => hreject m (Scrubbed.refl m)) ?_
  intro _
  refine .bind (strtok_r_scrubbed m none space save) ?_
  intro r hr
  refine .bind (strtok_r_scrubbed r.2.2 none space r.2.1) ?_
  intro r' hr'
  obtain ⟨version, save', m''⟩ := r'
  have htrans := hr.trans hr'
  cases version with
  | none => exact .error _
  | some version =>
      refine .bind_any ?_
      intro supported
      cases lookupCommand P text with
      | unknown => exact hreject m'' htrans
      | _ => exact hcommand m'' _ _ _ htrans

theorem parse_scrubbed (allowable : List RtspCommand) (m : Bytes) (data sz : ℕ) (h : η) :
    Ensures (parse P handler allowable m data sz h) fun r => Scrubbed m r.2.2 := by
  refine .ite ?_ ?_
  · intro _
    exact (reject_scrubbed handler _ m h).mono fun r hr => hr ▸ Scrubbed.refl m
  · intro _
    refine .bind (LineParser.skipLeading_scrubbed _ m _) ?_
    intro r hr
    refine .bind (LineParser.getline_scrubbed r.2 r.1) ?_
    intro r' hr'
    obtain ⟨line, lp, m'⟩ := r'
    have htrans := hr.trans hr'
    cases line with
    | none => exact (reject_scrubbed handler _ m' h).mono fun r hr => hr ▸ htrans
    | some line =>
        refine .bind (strtok_r_scrubbed m' (some line) space none) ?_
        intro r hr''
        obtain ⟨cmd, save, m''⟩ := r
        cases cmd with
        | none => exact .bind_any fun _ => .error _
        | some cmd =>
            exact (parseMethod_scrubbed P handler allowable m'' lp cmd save h).mono fun _ =>
              (htrans.trans hr'').trans

end Parser

theorem Session.process_scrubbed {η : Type} (P : Lookup) (handler : Handler η) (s : Session) (h : η)
    (m : Bytes) (size : ℕ) :
    Ensures (s.process P handler h m size) fun r => Scrubbed m r.memory :=
  .bind_any fun allowable => .bind (Parser.parse_scrubbed P handler allowable m 0 size h) fun _ hr =>
    .ok hr

end WifiAudio
