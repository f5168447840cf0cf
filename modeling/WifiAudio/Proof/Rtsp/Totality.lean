import WifiAudio.Proof.Rtsp.Option
import WifiAudio.Proof.Rtsp.LineParser
import WifiAudio.Rtsp.Request
import Mathlib.Data.List.Infix

/-!
# Which requests the parser gets through

On a block as the connection loop cuts it, the lines, the tokens and the headers are all found inside
the block and every loop ends. Only the request line can make the parser fail: it uses the method and
the version without a test. What the request line asks for is computed from its tokens alone
(`asked`), and the parser makes exactly that call.
-/

namespace WifiAudio

open CString Except

/-! ### Lines -/

namespace LineParser

variable {m left back : Bytes} {lp : LineParser}

/-- The part of the request that is not split yet is `left`, with `back` behind it in memory. -/
structure At (m : Bytes) (lp : LineParser) (left back : Bytes) : Prop where
  drop_eq : m.drop lp.data = left ++ back
  size_eq : lp.size = left.length
  noNul : 0 ∉ left
  ends : crlf <:+ left

theorem At.two_le (hat : At m lp left back) : 2 ≤ left.length := hat.ends.length_le

/-- The next line, or none when only the last line end is left. -/
theorem At.getline_cases (hat : At m lp left back) :
    (getline m lp = .ok (none, lp, m) ∧ find crlf left = some (left.length - 2)) ∨
    ∃ line rest m', left = line ++ crlf ++ rest ∧ find crlf left = some line.length ∧
      getline m lp = .ok (some lp.data, ⟨lp.data + line.length + 2, rest.length⟩, m') ∧
      string m' lp.data = .ok line ∧ At m' ⟨lp.data + line.length + 2, rest.length⟩ rest back := by
  have htwo := hat.two_le
  have hcrlf : crlf.length = 2 := rfl
  obtain ⟨i, hi⟩ := Option.isSome_iff_exists.1 ((find_isSome (by decide)).2 hat.ends.isInfix)
  have hle : i + 2 ≤ left.length := find_length_le hi (by decide)
  by_cases hlast : i + 2 = left.length
  · refine .inl ⟨getline_null hat.drop_eq hat.size_eq (by omega) ?_, by rw [hi, ← hlast]; rfl⟩
    intro j hj
    obtain rfl := Option.some.inj (hi.symm.trans hj)
    exact hlast.ge
  · have hcall := getline_line hat.drop_eq hat.size_eq hi (by omega)
    obtain ⟨hsplit, -, -⟩ := firstLine_of_find hi (show i + 2 < left.length by omega)
    have hline : (left.take i).length = i := by
      rw [List.length_take]
      omega
    set line := left.take i with hlinedef
    set rest := left.drop (i + 2) with hrestdef
    have hlength : left.length = i + 2 + rest.length := by
      rw [hrestdef, List.length_drop]
      omega
    have hdrop : m.drop lp.data = line ++ 13 :: (10 :: (rest ++ back)) := by
      rw [hat.drop_eq, hsplit, List.append_assoc, List.append_assoc]
      rfl
    have hset := drop_set_length hdrop
    have hbehind := drop_add_length (s := line ++ [0, 10]) (t := rest ++ back)
      (by rw [hset, List.append_assoc]; rfl)
    rw [List.length_append, ← Nat.add_assoc] at hbehind
    rw [← List.length_drop, ← hrestdef, ← hline] at hcall
    refine .inr ⟨line, rest, m.set (lp.data + line.length) 0, hsplit, by rw [hline, hi], hcall,
      string_eq_ok.2 ⟨?_, _, hset⟩, hbehind, rfl, ?_, ?_⟩
    · exact fun h0 => hat.noNul (List.mem_of_mem_take h0)
    · exact fun h0 => hat.noNul (List.mem_of_mem_drop h0)
    · -- the last line end does not reach back into the one just found
      have hrest2 : 2 ≤ rest.length := by
        by_contra hshort
        obtain ⟨b, hb⟩ := List.length_eq_one_iff.1 (show rest.length = 1 by omega)
        have hends := hat.ends
        rw [hsplit, hb, List.append_assoc] at hends
        have h := List.suffix_of_suffix_length_le hends (List.suffix_append line (crlf ++ [b]))
          (by simp [hcrlf])
        obtain ⟨front, hfront⟩ := h
        have hlengths := congrArg List.length hfront
        simp only [List.length_append, hcrlf, List.length_singleton] at hlengths
        obtain ⟨c, rfl⟩ := List.length_eq_one_iff.1 (show front.length = 1 by omega)
        exact absurd (List.cons.inj (List.cons.inj hfront).2).1 (by decide)
      exact List.suffix_of_suffix_length_le hat.ends (List.drop_suffix (i + 2) left)
        (by rw [hcrlf]; exact hrest2)

theorem getline_take {line : Option ℕ} {lp' : LineParser} {m' : Bytes}
    (h : getline m lp = .ok (line, lp', m')) : m'.take lp.data = m.take lp.data := by
  rw [getline] at h
  split at h
  · obtain ⟨-, -, rfl⟩ : none = line ∧ lp = lp' ∧ m = m' := by simpa using h
    rfl
  · obtain ⟨stop, -, h⟩ := bind_eq_ok.1 h
    cases stop with
    | none =>
        obtain ⟨-, -, rfl⟩ : none = line ∧ lp = lp' ∧ m = m' := by simpa using h
        rfl
    | some i =>
        obtain ⟨m₁, hstore, h⟩ := bind_eq_ok.1 h
        obtain ⟨-, -, rfl⟩ : some lp.data = line ∧ _ = lp' ∧ m₁ = m' := by simpa using h
        rw [store] at hstore
        split at hstore
        · obtain rfl := Except.ok.inj hstore
          rw [List.take_set_of_le]
          omega
        · cases hstore

theorem At.kept {p e : ℕ} {m' : Bytes} (hat : At m lp left back) (hkept : Kept p e m m')
    (he : e ≤ lp.data) : At m' lp left back := by
  refine ⟨?_, hat.size_eq, hat.noNul, hat.ends⟩
  have h := congrArg (List.drop (lp.data - e)) hkept.drop
  rw [List.drop_drop, List.drop_drop, Nat.add_sub_cancel' he] at h
  rw [h, hat.drop_eq]

theorem At.skipLeading_done (hat : At m lp left back) (hdone : left.length ≤ 2 ∨ ¬crlf <+: left)
    (fuel : ℕ) : skipLeading (fuel + 1) m lp = .ok (lp, m) := by
  rw [skipLeading, hat.size_eq]
  split
  case isFalse => rfl
  case isTrue hlong =>
    have hnot := hdone.resolve_left (by omega)
    rw [strncmpEq_crlf hat.drop_eq hat.two_le]
    simp only [ok_bind]
    rw [if_neg fun h => hnot (List.isPrefixOf_iff_prefix.1 h)]
    rfl

end LineParser

/-! ### Headers -/

namespace Parser

variable {m left back l : Bytes} {p stop : ℕ}

/-- No line behind the first starts, after spaces, with the name of the Transport header. -/
def NoTransport (block : Bytes) : Prop :=
  ∀ t ∈ block.tails, crlf <+: t →
    strncasecmpEq (ascii "Transport:") ((t.drop 2).dropWhile (· == space)) = false

instance (block : Bytes) : Decidable (NoTransport block) :=
  inferInstanceAs (Decidable (∀ t ∈ block.tails, _ → _))

theorem NoTransport.of_suffix (h : NoTransport left) {rest : Bytes} (hrest : rest <:+ left) :
    NoTransport rest := fun t ht hcrlf =>
  h t ((List.mem_tails t left).2 (((List.mem_tails t rest).1 ht).trans hrest)) hcrlf

theorem space_ne_zero : space ≠ 0 := by decide

theorem acceptsSdp_any {fuel : ℕ} (hstring : string m stop = .ok l) (hfuel : l.length < fuel) :
    ∃ m', acceptsSdp fuel m (some stop) =
        .ok ((tokens space l).any (strncasecmpEq (ascii "application/sdp")), m') ∧
      Kept stop (stop + l.length) m m' := by
  induction fuel generalizing m stop l with
  | zero => exact absurd hfuel (Nat.not_lt_zero _)
  | succ fuel ih =>
      rw [acceptsSdp]
      obtain ⟨hcall, htokens⟩ | ⟨t, stop', w, rest, m₁, hcall, hfound⟩ :=
        strtok_r_string (show ((none : Option ℕ) <|> some stop) = some stop from rfl) space_ne_zero hstring
      · rw [hcall, htokens]
        exact ⟨m, rfl, .refl m⟩
      · have hstop := hfound.stop_eq
        have hshort := hfound.short
        rw [hcall, hfound.tokens_eq, List.any_cons]
        simp only [ok_bind, hfound.word]
        cases strncasecmpEq (ascii "application/sdp") w with
        | true => exact ⟨m₁, rfl, hfound.kept⟩
        | false =>
            obtain ⟨m₂, heq, hkept⟩ := ih hfound.behind (by omega)
            exact ⟨m₂, heq, hfound.kept.trans (hkept.mono (by omega) (by omega))⟩

theorem number_fields (hstring : string m stop = .ok l) (hdr : RtspHeader)
    (set : ℤ → RtspHeader) :
    ∃ m', (do
      let (s, _, m) ← strtok_r m none space (some stop)
      match ← getNumber m s 10 with
      | none => return (false, hdr, m)
      | some (n, _) => return (true, set n, m)) = Except.ok (ε := Fault) (!(tokens space l).isEmpty,
        ((tokens space l).head?.map fun w => set (numberOf 10 w).1).getD hdr, m') ∧
      Kept stop (stop + l.length) m m' := by
  obtain ⟨hcall, htokens⟩ | ⟨t, stop', w, rest, m₁, hcall, hfound⟩ :=
    strtok_r_string (show ((none : Option ℕ) <|> some stop) = some stop from rfl) space_ne_zero hstring
  · rw [hcall, htokens]
    exact ⟨m, rfl, .refl m⟩
  · rw [hcall, hfound.tokens_eq]
    simp only [ok_bind, getNumber, hfound.word]
    exact ⟨m₁, rfl, hfound.kept⟩

/-- A header whose value is one number. -/
def Numbered (name : Bytes) : Prop :=
  strncasecmpEq (ascii "CSeq:") name = true ∨ strncasecmpEq (ascii "Session:") name = true

instance (name : Bytes) : Decidable (Numbered name) := inferInstanceAs (Decidable (_ ∨ _))

/-- A header that is no Transport header is read unless a number is missing. -/
theorem readHeader_total {header : ℕ} {name : Bytes} (hname : string m header = .ok name)
    (hnot : strncasecmpEq (ascii "Transport:") name = false) (hstring : string m stop = .ok l)
    (hdr : RtspHeader) :
    ∃ ok hdr' m', readHeader m header (some stop) hdr = .ok (ok, hdr', m') ∧
      (ok = true ↔ (Numbered name → tokens space l ≠ [])) ∧ hdr'.transport = hdr.transport ∧
      Kept stop (stop + l.length) m m' := by
  rw [readHeader, hname]
  simp only [ok_bind]
  split
  case isTrue hcseq =>
    obtain ⟨m', heq, hkept⟩ := number_fields hstring hdr fun n => { hdr with cseq := n }
    refine ⟨_, _, m', heq, by simp [Numbered, hcseq], ?_, hkept⟩
    cases (tokens space l).head? <;> rfl
  case isFalse hcseq =>
    split
    case isTrue hsession =>
      obtain ⟨m', heq, hkept⟩ :=
        number_fields hstring hdr fun n => { hdr with sessionId := UInt32.ofInt n }
      refine ⟨_, _, m', heq, by simp [Numbered, hsession], ?_, hkept⟩
      cases (tokens space l).head? <;> rfl
    case isFalse hsession =>
      have hno : ¬Numbered name := not_or.2 ⟨hcseq, hsession⟩
      split
      · obtain ⟨m', heq, hkept⟩ := acceptsSdp_any hstring
          (show l.length < m.length + 1 from Nat.lt_succ_of_lt (length_lt_of_string hstring))
        rw [heq]
        exact ⟨true, _, m', rfl, by simp [hno], rfl, hkept⟩
      · rw [if_neg (by rw [hnot]; decide)]
        exact ⟨true, hdr, m, rfl, by simp [hno], rfl, .refl m⟩

/-- The line has a name, and its number if the header needs one. -/
def LineRead (line : Bytes) : Prop :=
  ∃ name words, tokens space line = name :: words ∧ (Numbered name → words ≠ [])

theorem readLines_other {m' line : Bytes} {lp lp' : LineParser}
    (hgetline : LineParser.getline m lp = .ok (some lp.data, lp', m'))
    (hline : string m' lp.data = .ok line)
    (hnot : strncasecmpEq (ascii "Transport:") (line.dropWhile (· == space)) = false)
    (hdr : RtspHeader) (fuel : ℕ) :
    ∃ hdr' m₁, hdr'.transport = hdr.transport ∧ Kept lp.data (lp.data + line.length) m' m₁ ∧
      ((LineRead line ∧ readLines (fuel + 1) m lp hdr = readLines fuel m₁ lp' hdr') ∨
        (¬LineRead line ∧ ∃ ok, readLines (fuel + 1) m lp hdr = .ok (ok, hdr', m₁))) := by
  rw [readLines, hgetline]
  obtain ⟨r, hr, htoken⟩ := strtok_r_first space_ne_zero hline
  obtain ⟨hcall, htokens⟩ | ⟨q, stop, w, rest, m₁, hcall, hfound⟩ :=
    strtok_r_string (show ((some lp.data : Option ℕ) <|> none) = some lp.data from rfl)
      space_ne_zero hline
  · simp only [ok_bind, hcall]
    refine ⟨hdr, m', rfl, .refl m', .inr ⟨?_, true, rfl⟩⟩
    rintro ⟨name, words, hwords, -⟩
    cases htokens.symm.trans hwords
  · have hstop := hfound.stop_eq
    have hshort := hfound.short
    have hstarts : w <+: line.dropWhile (· == space) := by
      rw [hcall] at hr
      obtain rfl := Except.ok.inj hr
      cases htoken with
      | some htokens _ hstarts =>
          obtain ⟨rfl, -⟩ := List.cons.inj (hfound.tokens_eq.symm.trans htokens)
          exact hstarts
    have hname : strncasecmpEq (ascii "Transport:") w = false := by
      by_contra h
      rw [Bool.not_eq_false] at h
      exact absurd (hnot.symm.trans (strncasecmpEq_of_starts hstarts h)) (by decide)
    obtain ⟨ok, hdr', m₂, hread, hok, htransport, hkept⟩ :=
      readHeader_total hfound.word hname hfound.behind hdr
    have hkept₂ : Kept lp.data (lp.data + line.length) m' m₂ :=
      hfound.kept.trans (hkept.mono (by omega) (by omega))
    have hlineRead : LineRead line ↔ ok = true := by
      rw [hok]
      constructor
      · rintro ⟨name, words, hwords, hnumber⟩
        obtain ⟨rfl, rfl⟩ := List.cons.inj (hfound.tokens_eq.symm.trans hwords)
        exact hnumber
      · intro hnumber
        exact ⟨w, _, hfound.tokens_eq, hnumber⟩
    refine ⟨hdr', m₂, htransport, hkept₂, ?_⟩
    simp only [ok_bind, hcall, hread]
    cases ok with
    | true => exact .inl ⟨hlineRead.2 rfl, rfl⟩
    | false => exact .inr ⟨fun h => Bool.noConfusion (hlineRead.1 h), false, rfl⟩

/-- The loop over the header lines ends, and with no Transport header among them the transports stay
as they were. -/
theorem readLines_total {fuel : ℕ} {lp : LineParser} (hat : LineParser.At m lp left back)
    (hfuel : left.length < fuel)
    (hfirst : strncasecmpEq (ascii "Transport:") (left.dropWhile (· == space)) = false)
    (hnot : NoTransport left) (hdr : RtspHeader) :
    ∃ ok hdr' m', readLines fuel m lp hdr = .ok (ok, hdr', m') ∧
      hdr'.transport = hdr.transport ∧ m'.take lp.data = m.take lp.data := by
  induction fuel generalizing m lp left hdr with
  | zero => exact absurd hfuel (Nat.not_lt_zero _)
  | succ fuel ih =>
      rcases hat.getline_cases with ⟨heq, -⟩ | ⟨line, rest, m', hleft, -, heq, hline, hrest⟩
      · rw [readLines, heq]
        exact ⟨true, hdr, m, rfl, rfl, rfl⟩
      · have htake : m'.take lp.data = m.take lp.data := LineParser.getline_take heq
        have hstarts : strncasecmpEq (ascii "Transport:") (line.dropWhile (· == space)) = false := by
          by_contra h
          rw [Bool.not_eq_false] at h
          have hprefix : line.dropWhile (· == space) <+: left.dropWhile (· == space) := by
            rw [hleft, List.append_assoc, List.dropWhile_append]
            split
            case isTrue hempty =>
              rw [List.isEmpty_iff.1 hempty]
              exact List.nil_prefix
            case isFalse => exact List.prefix_append _ _
          exact absurd (hfirst.symm.trans (strncasecmpEq_of_starts hprefix h)) (by decide)
        obtain ⟨hdr', m₁, htransport, hkept, ⟨-, hread⟩ | ⟨-, ok, hread⟩⟩ :=
          readLines_other heq hline hstarts hdr _
        · have hsuffix : crlf ++ rest <:+ left := by
            rw [hleft, List.append_assoc]
            exact List.suffix_append _ _
          have hlength : rest.length < fuel := by
            have h := hsuffix.length_le
            rw [List.length_append] at h
            have hcrlf : crlf.length = 2 := rfl
            omega
          obtain ⟨ok, hdr'', m₂, hread', htransport', htake'⟩ :=
            ih (hrest.kept hkept (Nat.le_add_right _ 2)) hlength
              (hnot (crlf ++ rest) ((List.mem_tails _ _).2 hsuffix) (List.prefix_append _ _))
              (hnot.of_suffix ((List.suffix_append _ _).trans hsuffix)) hdr'
          refine ⟨ok, hdr'', m₂, hread.trans hread', htransport'.trans htransport, ?_⟩
          rw [take_of_le htake' (show lp.data ≤ lp.data + line.length + 2 by omega), hkept.take, htake]
        · exact ⟨ok, hdr', m₁, hread, htransport, hkept.take.trans htake⟩

/-! ### The request line -/

/-- A block as the connection loop cuts it: its only blank line is at its end. -/
structure Block (block : Bytes) : Prop where
  ends : find (crlf ++ crlf) block = some (block.length - 4)
  noNul : 0 ∉ block

/-- The block without an empty line at its start. -/
def skipEmpty (block : Bytes) : Bytes := if crlf <+: block then block.drop 2 else block

def requestLine (block : Bytes) : Bytes :=
  (skipEmpty block).take ((find crlf (skipEmpty block)).getD 0)

/-- The call a request asks for. -/
inductive Asked
  | rejected
  | command (cmd : RtspCommand) (code : ℤ)
  deriving DecidableEq, Repr

variable (P : Lookup) (allowable : List RtspCommand)

/-- What the method and the tokens behind it ask for; nothing when the parser fails on them. -/
def askedMethod (method : Bytes) (rest : List Bytes) : Option Asked :=
  if lookupCommand P method = .unknown ∧ !unsupported method then some .rejected
  else
    match rest with
    | _ :: version :: _ =>
        match lookupCommand P method with
        | .unknown => some .rejected
        | .kill => some (.command .kill ErrorCode.ok)
        | cmd => some (.command cmd
            (if version ≠ ascii "RTSP/1.0" then ErrorCode.versionNotSupported
            else if !isAllowable allowable cmd then ErrorCode.methodNotValidInThisState
            else ErrorCode.ok))
    | _ => none

def asked (block : Bytes) : Option Asked :=
  if requestLine block = [] then some .rejected
  else
    match tokens space (requestLine block) with
    | [] => none
    | method :: rest => askedMethod P allowable method rest

/-- The parser makes the call that is asked for. -/
def Makes (r : Except Fault (RtspCommand × Option HandlerCall × Bytes)) : Option Asked → Prop
  | none => ∀ x, r ≠ .ok x
  | some .rejected => ∃ m, r = .ok (.unknown, some (.error ErrorCode.badRequest), m)
  | some (.command cmd code) => ∃ result uri hdrs m,
      r = .ok (result, some (.command cmd uri hdrs code m), m) ∧ hdrs.transport = fun _ => {}

variable {P allowable}

/-- In front of the header lines `left`, with the uri `text` at `uri`. -/
structure Opened (m : Bytes) (lp : LineParser) (left back : Bytes) (uri : ℕ) (text : Bytes) : Prop where
  lines : LineParser.At m lp left back
  uri_eq : string m uri = .ok text
  uri_lt : uri + text.length < lp.data

section

variable {η : Type} (handler : Handler η) (h : η)

/-- The parser rejects the request, or it goes on to the headers with the command that is asked
for; `words` are the words of the request line behind the method and `start` what reading them leaves
behind. -/
def Leads (r : Except Fault (RtspCommand × η × Bytes))
    (start : Except Fault (Option ℕ × LineParser × Bytes)) (left back : Bytes) (words : List Bytes) : Option Asked → Prop
  | none => ∀ x, r ≠ .ok x
  | some .rejected => ∃ m, r = reject handler ErrorCode.badRequest m h
  | some (.command cmd code) => ∃ m lp uri text,
      r = parseCommand handler m lp (some uri) cmd code h ∧ start = .ok (some uri, lp, m) ∧
        Opened m lp left back uri text ∧ words.head? = some text

theorem parseMethod_leads {lp : LineParser} {cmd : ℕ} {method : Bytes}
    (hmethod : string m cmd = .ok method) (hstring : string m stop = .ok l)
    (hat : LineParser.At m lp left back) (hlp : stop + l.length < lp.data) :
    Leads handler h (parseMethod P handler allowable m lp cmd (some stop) h) (do
        let (uri, save, m) ← strtok_r m none space (some stop)
        let (_, _, m) ← strtok_r m none space save
        return (uri, lp, m)) left back (tokens space l)
      (askedMethod P allowable method (tokens space l)) := by
  rw [parseMethod, hmethod]
  unfold askedMethod
  simp only [ok_bind]
  split
  · exact ⟨m, rfl⟩
  · obtain ⟨r, hr, htoken⟩ := strtok_r_next space_ne_zero hstring
    rw [hr]
    cases htoken with
    | none htokens hrest =>
        obtain ⟨r, hr, htoken⟩ := strtok_r_next space_ne_zero hrest
        rw [htokens]
        simp only [ok_bind, hr]
        cases htoken with
        | none => exact fun x => by simp
        | some htokens' => cases htokens'
    | @some q stop' w l' m' htokens hword hstarts hne hrest hstop hshort hframe =>
        obtain ⟨r', hr', htoken⟩ := strtok_r_next space_ne_zero hrest
        rw [htokens]
        simp only [ok_bind, hr']
        cases htoken with
        | none htokens' =>
            rw [htokens']
            exact fun x => by simp
        | @some q' stop'' version l'' m'' htokens' hword' _ _ _ _ hshort' hframe' =>
            rw [htokens']
            simp only [ok_bind, hword', strcmpEq, pure_eq_ok]
            have hsame : m''.drop lp.data = m.drop lp.data := by
              rw [hstop, hframe] at hframe'
              have h := congrArg (List.drop (lp.data - (stop + l.length))) hframe'
              rwa [List.drop_drop, List.drop_drop, Nat.add_sub_cancel' hlp.le] at h
            have hbehind : q + w.length < stop' := strtok_r_behind rfl hr hstring hword (by omega)
            have hopened : Opened m'' lp left back q w :=
              ⟨⟨hsame.trans hat.drop_eq, hat.size_eq, hat.noNul, hat.ends⟩,
                string_of_take hword hbehind (strtok_r_take rfl hr'), by omega⟩
            have hleads : ∀ cmd code, Leads handler h (parseCommand handler m'' lp (some q) cmd code h)
                (.ok (some q, lp, m'')) left back (w :: version :: tokens space l'')
                (some (.command cmd code)) :=
              fun cmd code => ⟨m'', lp, q, w, rfl, rfl, hopened, rfl⟩
            cases lookupCommand P method with
            | unknown => exact ⟨m'', rfl⟩
            | kill => exact hleads .kill ErrorCode.ok
            | _ =>
                convert hleads _ _ using 3
                by_cases hversion : version = ascii "RTSP/1.0" <;> simp [hversion]

variable (P allowable) in
theorem parse_leads {data size : ℕ} {m₀ line rest : Bytes} {lp : LineParser} (hsize : size ≠ 0)
    (hnew : LineParser.new m₀ data size = .ok (lp, m))
    (hat : LineParser.At m lp (line ++ crlf ++ rest) back)
    (hfind : find crlf (line ++ crlf ++ rest) = some line.length) (hrest : rest ≠ []) :
    Leads handler h (parse P handler allowable m₀ data size h) (opened m₀ data size) rest back
      (tokens space line).tail
      (match tokens space line with
        | [] => none
        | method :: words => askedMethod P allowable method words) := by
  rw [parse, if_neg hsize, opened, hnew]
  simp only [ok_bind]
  have hcrlf : crlf.length = 2 := rfl
  rcases hat.getline_cases with ⟨-, hlast⟩ | ⟨line', rest', m', hsplit, hfind', hgetline, hline, hrest'⟩
  · rw [hfind] at hlast
    have hlength := Option.some.inj hlast
    have hpos := List.length_pos_iff.2 hrest
    simp only [List.length_append, hcrlf] at hlength
    omega
  · have hlength : line.length = line'.length := Option.some.inj (hfind.symm.trans hfind')
    rw [List.append_assoc, List.append_assoc] at hsplit
    obtain ⟨rfl, hbehind⟩ := List.append_inj hsplit hlength
    obtain rfl := List.append_cancel_left hbehind
    rw [hgetline]
    obtain ⟨r, hr, htoken⟩ := strtok_r_first space_ne_zero hline
    simp only [ok_bind, hr]
    cases htoken with
    | none htokens =>
        rw [htokens]
        intro x
        cases handler.error ErrorCode.badRequest h with
        | error e => simp
        | ok a => simp
    | @some q stop method l m'' htokens hword hstarts hne htail hstop hshort hframe =>
        rw [htokens]
        have hsame : m''.drop (lp.data + line.length + 2) = m'.drop (lp.data + line.length + 2) := by
          rw [← List.drop_drop, hframe, List.drop_drop]
        have hat' : LineParser.At m'' ⟨lp.data + line.length + 2, rest.length⟩ rest back :=
          ⟨hsame.trans hrest'.drop_eq, rfl, hrest'.noNul, hrest'.ends⟩
        exact parseMethod_leads handler h hword htail hat' (by simp only; omega)

end

theorem parseCommand_makes {lp : LineParser} (hat : LineParser.At m lp left back)
    (hfirst : strncasecmpEq (ascii "Transport:") (left.dropWhile (· == space)) = false)
    (hnot : NoTransport left) (uri : Option ℕ) (cmd : RtspCommand) (code : ℤ) :
    Makes (parseCommand HandlerCall.recorder m lp uri cmd code none)
      (some (.command cmd code)) := by
  obtain ⟨ok, hdrs, m', heq, htransport, -⟩ :=
    readLines_total hat (show left.length < lp.size + 1 by rw [hat.size_eq]; omega) hfirst hnot
      { ({} : RtspHeader) with acceptSdp := true }
  rw [parseCommand, readHeaders, heq]
  exact ⟨_, uri, hdrs, m', rfl, htransport⟩

/-! ### The block -/

theorem Block.four_le {block : Bytes} (hblock : Block block) : 4 ≤ block.length := by
  have hle : block.length - 4 + 4 ≤ block.length := find_length_le hblock.ends (by decide)
  omega

theorem Block.suffix {block : Bytes} (hblock : Block block) : crlf ++ crlf <:+ block := by
  have hstarts := find_starts hblock.ends
  have hfour := hblock.four_le
  have hlength : (crlf ++ crlf).length = 4 := rfl
  rw [hstarts.eq_of_length (by rw [List.length_drop, hlength]; omega)]
  exact List.drop_suffix _ _

/-- Without the empty line at its start the block is a line end, or starts with a line that is not
empty. -/
theorem Block.skipEmpty_cases {block : Bytes} (hblock : Block block) :
    skipEmpty block = crlf ∨
      ¬crlf <+: skipEmpty block ∧ crlf ++ crlf <:+ skipEmpty block := by
  have hcrlf : crlf.length = 2 := rfl
  rw [skipEmpty]
  split
  case isFalse hnot => exact .inr ⟨hnot, hblock.suffix⟩
  case isTrue hempty =>
    obtain ⟨u, rfl⟩ := hempty
    have hdrop : (crlf ++ u).drop 2 = u := rfl
    rw [hdrop]
    by_cases hagain : crlf <+: u
    · left
      obtain ⟨v, rfl⟩ := hagain
      obtain ⟨j, hj, hle⟩ := find_le
        (show crlf ++ crlf <+: (crlf ++ (crlf ++ v)).drop 0 from ⟨v, by rw [List.append_assoc]; rfl⟩)
      rw [hblock.ends] at hj
      have hlength := Option.some.inj hj
      simp only [List.length_append, hcrlf] at hlength
      have hv : v.length = 0 := by omega
      rw [List.length_eq_zero_iff.1 hv, List.append_nil]
    · refine .inr ⟨hagain, List.suffix_of_suffix_length_le hblock.suffix (List.suffix_append _ _) ?_⟩
      by_contra hshort
      have hfour := hblock.four_le
      rw [List.length_append, hcrlf] at hfour hshort
      -- the blank line would overlap the empty line by one byte or be it
      obtain ⟨front, hfront⟩ := hblock.suffix
      have hlength := congrArg List.length hfront
      simp only [List.length_append, hcrlf] at hlength
      cases front with
      | nil => exact hagain ⟨[], by rw [List.append_nil]; exact List.append_cancel_left hfront⟩
      | cons b front =>
          obtain rfl := List.length_eq_zero_iff.1 (show front.length = 0 by
            rw [List.length_cons] at hlength; omega)
          exact absurd (List.cons.inj (List.cons.inj hfront).2).1 (by decide)

theorem new_at {block : Bytes} (hblock : Block block) (back : Bytes) :
    ∃ lp m, LineParser.new (block ++ back) 0 block.length = .ok (lp, m) ∧
      LineParser.At m lp (skipEmpty block) back := by
  have hfour := hblock.four_le
  have hat : LineParser.At (block ++ back) ⟨0, block.length⟩ block back :=
    ⟨rfl, rfl, hblock.noNul, (List.suffix_append crlf crlf).trans hblock.suffix⟩
  rw [LineParser.new]
  by_cases hempty : crlf <+: block
  · have hskip : skipEmpty block = block.drop 2 := if_pos hempty
    rw [LineParser.skipLeading, if_pos (show block.length > 2 by omega),
      LineParser.strncmpEq_crlf hat.drop_eq (by omega)]
    simp only [ok_bind]
    rw [if_pos (List.isPrefixOf_iff_prefix.2 hempty)]
    obtain ⟨j, hj, hle⟩ := find_le (show crlf <+: block.drop 0 from hempty)
    obtain rfl : j = 0 := by omega
    rcases hat.getline_cases with ⟨-, hlast⟩ | ⟨line, rest, m, hsplit, hfind, hgetline, -, hrest⟩
    · rw [hj] at hlast
      have hzero := Option.some.inj hlast
      omega
    · obtain rfl : line = [] := List.length_eq_zero_iff.1 (Option.some.inj (hfind.symm.trans hj))
      have hdrop : block.drop 2 = rest := by
        rw [hsplit]
        rfl
      obtain ⟨fuel, hfuel⟩ := Nat.exists_eq_add_of_le' (show 1 ≤ block.length by omega)
      rw [hgetline, hskip, hdrop, hfuel]
      refine ⟨_, m, hrest.skipLeading_done ?_ fuel, hrest⟩
      rw [← hdrop, ← hskip]
      rcases hblock.skipEmpty_cases with hcrlf | ⟨hnot, -⟩
      · exact .inl (by rw [hcrlf]; exact le_rfl)
      · exact .inr hnot
  · have hskip : skipEmpty block = block := if_neg hempty
    rw [hskip]
    exact ⟨_, _, hat.skipLeading_done (.inr hempty) _, hat⟩

theorem NoTransport.skipEmpty {block : Bytes} (h : NoTransport block) :
    NoTransport (skipEmpty block) := by
  rw [Parser.skipEmpty]
  split
  · exact h.of_suffix (List.drop_suffix _ _)
  · exact h

/-- Only a line end is left, or the block has a request line and a line end behind it. -/
theorem Block.line {block : Bytes} (hblock : Block block) : skipEmpty block = crlf ∨
    ∃ line rest, skipEmpty block = line ++ crlf ++ rest ∧
      find crlf (skipEmpty block) = some line.length ∧ requestLine block = line ∧ line ≠ [] ∧
        rest ≠ [] := by
  refine hblock.skipEmpty_cases.imp_right ?_
  rintro ⟨hnot, front, hfront⟩
  have hcrlf : crlf.length = 2 := rfl
  obtain ⟨j, hj, hle⟩ := find_le (show crlf <+: (skipEmpty block).drop front.length by
    rw [← hfront, List.drop_left]; exact List.prefix_append _ _)
  obtain ⟨rest, hrest⟩ := find_starts hj
  have hjle := find_length_le hj (by decide)
  have htake : ((skipEmpty block).take j).length = j := by
    rw [List.length_take]
    omega
  refine ⟨(skipEmpty block).take j, rest, ?_, ?_, ?_, ?_, ?_⟩
  · rw [List.append_assoc, hrest, List.take_append_drop]
  · rw [htake, hj]
  · rw [requestLine, hj]
    rfl
  · intro hnil
    rw [hnil, List.length_nil] at htake
    subst htake
    exact hnot ⟨rest, hrest⟩
  · rintro rfl
    have hlength := congrArg List.length hrest
    have hlong := congrArg List.length hfront
    simp only [List.length_append, List.length_drop, List.length_nil, hcrlf] at hlength hlong
    omega

section

variable {η : Type} (handler : Handler η) (h : η)

variable (P allowable) in
/-- The parser on a block: it goes on to the header lines behind the request line. -/
theorem block_leads {block : Bytes} (hblock : Block block) (back : Bytes) : ∃ left,
    (∀ cmd code, asked P allowable block = some (.command cmd code) →
      skipEmpty block = requestLine block ++ crlf ++ left) ∧
    Leads handler h (parse P handler allowable (block ++ back) 0 block.length h)
      (opened (block ++ back) 0 block.length) left back (tokens space (requestLine block)).tail
      (asked P allowable block) := by
  have hfour := hblock.four_le
  obtain ⟨lp, m, hnew, hat⟩ := new_at hblock back
  obtain hcrlf | ⟨line, rest, hsplit, hfind, hline, hne, hrest⟩ := hblock.line
  · -- no request line: only the line end is left
    have hempty : requestLine block = [] := by
      rw [requestLine, hcrlf]
      rfl
    refine ⟨[], ?_, ?_⟩
    · intro cmd code hasked
      simp [asked, hempty] at hasked
    · rw [hcrlf] at hat
      obtain ⟨hgetline, -⟩ | ⟨line, rest, m', hsplit, -, -, -, hrest⟩ := hat.getline_cases
      · rw [asked, if_pos hempty, parse, if_neg (by omega), hnew]
        simp only [ok_bind, hgetline]
        exact ⟨m, rfl⟩
      · have htwo := hrest.two_le
        have hlength := congrArg List.length hsplit
        have hcrlf : crlf.length = 2 := rfl
        simp only [List.length_append, hcrlf] at hlength
        omega
  · refine ⟨rest, fun cmd code _ => by rw [hline, hsplit], ?_⟩
    rw [hsplit] at hat hfind
    rw [asked, hline, if_neg hne]
    exact parse_leads P allowable handler h (by omega) hnew hat hfind hrest

end

variable (P allowable) in
theorem parse_makes {block : Bytes} (hblock : Block block) (hnot : NoTransport block)
    (back : Bytes) :
    Makes (parse P HandlerCall.recorder allowable (block ++ back) 0 block.length none)
      (asked P allowable block) := by
  obtain ⟨left, hleft, hleads⟩ := block_leads P allowable HandlerCall.recorder none hblock back
  cases hasked : asked P allowable block with
  | none =>
      rw [hasked] at hleads
      exact hleads
  | some call =>
      rw [hasked] at hleads
      cases call with
      | rejected => exact hleads
      | command cmd code =>
          obtain ⟨m, lp, uri, text, hparse, -, hopened, -⟩ := hleads
          have hsuffix : crlf ++ left <:+ skipEmpty block := by
            rw [hleft cmd code hasked, List.append_assoc]
            exact List.suffix_append _ _
          rw [hparse]
          refine parseCommand_makes hopened.lines ?_ ?_ _ _ _
          · exact hnot.skipEmpty (crlf ++ left) ((List.mem_tails _ _).2 hsuffix)
              (List.prefix_append _ _)
          · exact hnot.skipEmpty.of_suffix ((List.suffix_append _ _).trans hsuffix)

end Parser

end WifiAudio
