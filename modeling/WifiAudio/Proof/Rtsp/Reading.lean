import WifiAudio.Proof.Rtsp.Fields
import WifiAudio.Proof.Rtsp.Scrub

/-!
# The header lines that are read

The loop over the header lines comes to one line after the other until it stops. A Transport header with
fewer than four characters behind its first space makes `parse_transport` look at what lies behind it, and
overwrite separators there, so a line may be shorter when its turn comes than it was received. `linesRead`
lists the lines the loop gets past, each as it is then. They decide what the headers say; where no such
Transport header is in front, they are the lines that were received.
-/

namespace WifiAudio

open CString Except

namespace Parser

/-- The loop of `read_headers`, with the texts of the lines it gets past as its result. -/
def readTexts : ℕ → Bytes → LineParser → RtspHeader → Except Fault (List Bytes)
  | 0, _, _, _ => .error .diverges
  | fuel + 1, m, lp, hdr => do
      let (line, lp, m) ← LineParser.getline m lp
      match line with
      | none => return []
      | some line =>
          let text ← string m line
          let (header, save, m) ← strtok_r m (some line) space none
          match header with
          | none => return []
          | some header =>
              let (read, hdr, m) ← readHeader m header save hdr
              if !read then return []
              let texts ← readTexts fuel m lp hdr
              return text :: texts

/-- The header lines of a request that the loop gets past. -/
def linesRead (m : Bytes) (data sz : ℕ) : Except Fault (List Bytes) := do
  let (_, lp, m) ← opened m data sz
  readTexts (lp.size + 1) m lp { ({} : RtspHeader) with acceptSdp := true }

/-- The lines up to the first one that stops the loop, with that one. -/
def reached (lines : List Bytes) : List Bytes := lines.take ((lines.takeWhile passed).length + 1)

/-- The lines are the header lines of the block. -/
structure HeaderLines (block : Bytes) (lines : List Bytes) : Prop where
  lines_eq : skipEmpty block = requestLine block ++ crlf ++ (headerText lines ++ crlf)
  one : ∀ line ∈ lines, ¬crlf <:+: line

/-- What is left of a line when it is cut at a separator. -/
def ReadAs (line text : Bytes) : Prop := ∃ rest, line = text ++ rest ∧
  ∀ b ∈ rest.head?, b = semicolon ∨ b = slash ∨ b = space ∨ b = comma

variable {m m' back rest l text w : Bytes} {lp : LineParser} {hdr : RtspHeader} {lines texts : List Bytes}
  {q stop fuel : ℕ}

/-! ### What the lines set -/

/-- A line sets what its text says, whatever it makes of a Transport header; one that stops the loop sets
nothing. -/
theorem readHeader_bare (hname : string m q = .ok w) (hstring : string m stop = .ok l) {ok : Bool}
    {hdr' : RtspHeader} (hread : readHeader m q (some stop) hdr = .ok (ok, hdr', m')) :
    hdr'.bare = if ok then headerFields w l hdr.bare else hdr.bare := by
  by_cases htransport : strncasecmpEq (ascii "Transport:") w = true
  · obtain ⟨hcseq, hsession, haccept⟩ := other_of_transport htransport
    have hsame : headerFields w l hdr.bare = hdr.bare := by
      simp only [headerFields, hcseq, hsession, haccept, Bool.false_eq_true, if_false]
    rw [readHeader_transport hname htransport] at hread
    rw [parseTransport_bare_eq hread, hsame, ite_self]
  · obtain ⟨hdr'', m'', hread', hbare, -⟩ :=
      readHeader_fields hname hstring (fun h => absurd h htransport) hdr
    obtain ⟨rfl, rfl, -⟩ : headerPassed w l = ok ∧ hdr'' = hdr' ∧ m'' = m' := by
      simpa using Except.ok.inj (hread'.symm.trans hread)
    cases hpassed : headerPassed w l with
    | true => exact hbare
    | false => exact hbare.trans (headerFields_of_stops hpassed _)

theorem string_of_strtok_r {save : Option ℕ} {p : ℕ} {d : UInt8} {r : Option ℕ × Option ℕ × Bytes}
    (hcall : strtok_r m (some p) d save = .ok r) : ∃ text, string m p = .ok text := by
  obtain ⟨text, htext, -⟩ := bind_eq_ok.1 hcall
  exact ⟨text, htext⟩

/-- The loop ends where its texts are found, and what it has read is what they say. -/
theorem readLines_texts (fuel : ℕ) (m : Bytes) (lp : LineParser) (hdr : RtspHeader) :
    (∃ f, readLines fuel m lp hdr = .error f ∧ ∃ f', readTexts fuel m lp hdr = .error f') ∨
      ∃ ok hdr' m' texts, readLines fuel m lp hdr = .ok (ok, hdr', m') ∧
        readTexts fuel m lp hdr = .ok texts ∧ hdr'.bare = texts.foldl lineFields hdr.bare := by
  induction fuel generalizing m lp hdr with
  | zero => exact .inl ⟨_, rfl, _, rfl⟩
  | succ fuel ih =>
      rw [readLines, readTexts]
      cases hgetline : LineParser.getline m lp with
      | error f => exact .inl ⟨f, rfl, f, rfl⟩
      | ok r =>
      obtain ⟨line, lp', m₁⟩ := r
      cases line with
      | none => exact .inr ⟨_, _, _, [], rfl, rfl, rfl⟩
      | some p =>
      simp only [ok_bind]
      cases hcall : strtok_r m₁ (some p) space none with
      | error f =>
          cases string m₁ p with
          | error f' => exact .inl ⟨f, rfl, f', rfl⟩
          | ok text => exact .inl ⟨f, rfl, f, rfl⟩
      | ok r =>
      obtain ⟨header, save, m₂⟩ := r
      obtain ⟨text, htext⟩ := string_of_strtok_r hcall
      rw [htext]
      simp only [ok_bind]
      cases header with
      | none => exact .inr ⟨_, _, _, [], rfl, rfl, rfl⟩
      | some header =>
      simp only
      cases hread : readHeader m₂ header save hdr with
      | error f => exact .inl ⟨f, rfl, f, rfl⟩
      | ok r =>
      obtain ⟨ok, hdr', m₃⟩ := r
      obtain ⟨hnone, -⟩ | ⟨q, stop, w, rest, m₂', hfoundCall, hfound⟩ :=
        strtok_r_string (show ((some p : Option ℕ) <|> none) = some p from rfl) space_ne_zero htext
      · rw [hcall] at hnone
        cases hnone
      obtain ⟨rfl, rfl, rfl⟩ : header = q ∧ save = some stop ∧ m₂ = m₂' := by
        simpa using Except.ok.inj (hcall.symm.trans hfoundCall)
      have hbehind := hfound.behind
      obtain rfl := Except.ok.inj (hbehind.symm.trans (strtok_r_rest rfl htext hcall))
      have hbare := readHeader_bare hfound.word hbehind hread
      cases ok with
      | false => exact .inr ⟨_, _, _, [], rfl, rfl, hbare⟩
      | true =>
          have hline : hdr'.bare = lineFields hdr.bare text := by
            rw [hbare, lineFields, hfound.tokens_eq]
            rfl
          simp only [ok_bind, Bool.not_true, Bool.false_eq_true, if_false]
          obtain ⟨f, herror, f', herror'⟩ | ⟨ok, hdr'', m₄, texts, hok, htexts, hfields⟩ := ih m₃ lp' hdr'
          · rw [herror']
            exact .inl ⟨f, herror, f', rfl⟩
          · rw [htexts]
            refine .inr ⟨ok, hdr'', m₄, text :: texts, hok, rfl, ?_⟩
            rw [hfields, hline, List.foldl_cons]

/-- The headers can be read when the lines that are read can be found, and say what these say. -/
theorem headers_linesRead (m : Bytes) (data sz : ℕ) :
    (∃ f, headers m data sz = .error f ∧ ∃ f', linesRead m data sz = .error f') ∨
      ∃ ok hdrs m' texts, headers m data sz = .ok (ok, hdrs, m') ∧ linesRead m data sz = .ok texts ∧
        hdrs.bare = texts.foldl lineFields { acceptSdp := true } := by
  rw [headers, linesRead]
  cases opened m data sz with
  | error f => exact .inl ⟨f, rfl, f, rfl⟩
  | ok r => exact readLines_texts _ r.2.2 r.2.1 _

/-! ### Lines as they were received -/

/-- Bounded lines in front are read as they are; the loop goes on behind them, or it stops at one of
them. -/
theorem readTexts_front (hlines : ∀ line ∈ lines, BoundedLine line) (hrest : rest ≠ [])
    (hat : LineParser.At m lp (headerText lines ++ rest) back) (hdr : RtspHeader) (fuel : ℕ) :
    ((∀ line ∈ lines, passed line = true) ∧ ∃ m' lp' hdr', LineParser.At m' lp' rest back ∧
        readTexts (lines.length + fuel) m lp hdr = (readTexts fuel m' lp' hdr').map (lines ++ ·)) ∨
      (¬(∀ line ∈ lines, passed line = true) ∧
        readTexts (lines.length + fuel) m lp hdr = .ok (lines.takeWhile passed)) := by
  induction lines generalizing m lp hdr with
  | nil =>
      refine .inl ⟨List.forall_mem_nil _, m, lp, hdr, hat, ?_⟩
      rw [List.length_nil, Nat.zero_add]
      cases readTexts fuel m lp hdr <;> rfl
  | cons line lines ih =>
      obtain ⟨⟨hone, hlong⟩, hlines⟩ := List.forall_mem_cons.1 hlines
      rw [headerText_cons, List.append_assoc] at hat
      have hne : headerText lines ++ rest ≠ [] := List.append_ne_nil_of_right_ne_nil _ hrest
      obtain ⟨m₁, hgetline, hline, hat₁⟩ := hat.takes_line hone hne
      rw [List.length_cons, Nat.add_right_comm, readTexts, hgetline]
      simp only [ok_bind, hline, List.forall_mem_cons]
      obtain ⟨hcall, htokens⟩ | ⟨q, stop, w, l, m₂, hcall, hfound⟩ :=
        strtok_r_string (show ((some lp.data : Option ℕ) <|> none) = some lp.data from rfl)
          space_ne_zero hline
      · have hnot : passed line = false := by rw [passed, htokens]; rfl
        refine .inr ⟨by simp [hnot], ?_⟩
        rw [hcall, List.takeWhile_cons_of_neg (by simp [hnot])]
        rfl
      · obtain rfl := Except.ok.inj (hfound.behind.symm.trans (strtok_r_rest rfl hline hcall))
        have hstop := hfound.stop_eq
        have hshort := hfound.short
        have hhead : (tokens space line).head? = some w := by
          rw [hfound.tokens_eq]
          rfl
        obtain ⟨hdr', m₃, hread, -, hkept⟩ :=
          readHeader_fields hfound.word hfound.behind (hlong w hhead) hdr
        have hpassed : passed line = headerPassed w (behind space line) := by
          rw [passed, hhead]
          rfl
        simp only [hcall, ok_bind, hread, ← hpassed]
        cases hcase : passed line with
        | false =>
            refine .inr ⟨by simp, ?_⟩
            rw [List.takeWhile_cons_of_neg (by simp [hcase])]
            rfl
        | true =>
            have hkept₂ : Kept lp.data (lp.data + line.length) m₁ m₃ :=
              hfound.kept.trans (hkept.mono (by omega) (by omega))
            rw [List.takeWhile_cons_of_pos hcase]
            obtain ⟨hall, m', lp', hdr'', hat', hcall'⟩ | ⟨hnot, hcall'⟩ :=
              ih hlines (hat₁.kept hkept₂ (Nat.le_add_right _ 2)) hdr'
            · refine .inl ⟨⟨rfl, hall⟩, m', lp', hdr'', hat', ?_⟩
              simp only [Bool.not_true, Bool.false_eq_true, if_false, hcall']
              cases readTexts fuel m' lp' hdr'' <;> rfl
            · refine .inr ⟨fun hcond => hnot hcond.2, ?_⟩
              simp only [Bool.not_true, Bool.false_eq_true, if_false, hcall']
              rfl

theorem reached_eq (lines : List Bytes) :
    reached lines = lines.takeWhile passed ++ (lines.dropWhile passed).take 1 := by
  have hsplit := List.takeWhile_append_dropWhile (p := passed) (l := lines)
  calc lines.take ((lines.takeWhile passed).length + 1)
      = (lines.takeWhile passed ++ lines.dropWhile passed).take ((lines.takeWhile passed).length + 1) := by
        rw [hsplit]
    _ = lines.takeWhile passed ++ (lines.dropWhile passed).take 1 := List.take_length_add_append 1

/-- Where the lines that are reached are bounded, they are read as they are. -/
theorem readTexts_reached (hlines : ∀ line ∈ reached lines, BoundedLine line)
    (hat : LineParser.At m lp (headerText lines ++ crlf) back) (hdr : RtspHeader)
    (hfuel : lines.length < fuel) : readTexts fuel m lp hdr = .ok (lines.takeWhile passed) := by
  have hsplit := List.takeWhile_append_dropWhile (p := passed) (l := lines)
  have htaken : ∀ line ∈ lines.takeWhile passed, passed line = true := fun line hline =>
    List.mem_takeWhile_imp hline
  rw [reached_eq] at hlines
  cases hstops : lines.dropWhile passed with
  | nil =>
      rw [hstops, List.append_nil] at hsplit
      rw [hstops, hsplit] at hlines
      obtain ⟨fuel, rfl⟩ := Nat.exists_eq_add_of_lt hfuel
      rw [Nat.add_assoc]
      obtain ⟨-, m', lp', hdr', hat', hread⟩ | ⟨hnot, -⟩ :=
        readTexts_front (by simpa using hlines) (List.cons_ne_nil _ _) hat hdr (fuel + 1)
      · rw [hread, readTexts, hat'.getline_last, hsplit]
        exact congrArg Except.ok (List.append_nil lines)
      · rw [hsplit] at htaken
        exact absurd htaken hnot
  | cons stops behind =>
      rw [hstops] at hsplit hlines
      have hlines' : lines = lines.takeWhile passed ++ [stops] ++ behind := by
        rw [List.append_assoc, List.singleton_append, hsplit]
      have hlength : lines.length = (lines.takeWhile passed ++ [stops]).length + behind.length :=
        (congrArg List.length hlines').trans List.length_append
      obtain ⟨k, hk⟩ := Nat.exists_eq_add_of_le
        (show (lines.takeWhile passed ++ [stops]).length ≤ fuel by omega)
      have htext : headerText lines ++ crlf = headerText (lines.takeWhile passed ++ [stops]) ++
          (headerText behind ++ crlf) := by
        rw [← List.append_assoc, ← headerText_append, ← hlines']
      have hnot : passed stops = false := head_dropWhile hstops
      have hne : headerText behind ++ crlf ≠ [] :=
        List.append_ne_nil_of_right_ne_nil _ (List.cons_ne_nil _ _)
      rw [htext] at hat
      have hbounded : ∀ line ∈ lines.takeWhile passed ++ [stops], BoundedLine line := hlines
      obtain ⟨hall, -⟩ | ⟨-, hread⟩ := readTexts_front hbounded hne hat hdr k
      · rw [hall stops (List.mem_append_right _ List.mem_cons_self)] at hnot
        cases hnot
      · rw [hk, hread, List.takeWhile_append_of_pos htaken, List.takeWhile_cons_of_neg (by simp [hnot]),
          List.append_nil]

/-! ### Lines that were cut -/

theorem readAs_of_cut {line : Bytes} (h : Cut (line ++ rest) m) (hfree : 0 ∉ line) :
    ReadAs line (CString.text (m.take line.length)) := by
  have hsplit := List.takeWhile_append_dropWhile (p := (· ≠ 0)) (l := m.take line.length)
  have hlength : line.length ≤ m.length := by
    rw [h.length_eq, List.length_append]
    exact Nat.le_add_right _ _
  set t := CString.text (m.take line.length) with ht
  have hsplit : t ++ (m.take line.length).dropWhile (· ≠ 0) = m.take line.length := hsplit
  have hshort : t.length ≤ line.length :=
    (List.takeWhile_prefix _).length_le.trans (List.length_take_le _ _)
  have hstarts : t <+: line := by
    rw [List.prefix_iff_getElem?]
    intro i hi
    have hm : m[i]? = some t[i] := by
      rw [← List.getElem?_take_of_lt (show i < line.length by omega), ← hsplit,
        List.getElem?_append_left hi, List.getElem?_eq_getElem hi]
    have hsame := h.same hm (mem_text (List.getElem_mem hi))
    rwa [List.getElem?_append_left (by omega)] at hsame
  obtain ⟨behind, hline⟩ := hstarts
  refine ⟨behind, hline.symm, ?_⟩
  intro b hb
  cases behind with
  | nil => cases hb
  | cons c behind =>
      obtain rfl : c = b := Option.some.inj hb
      have hlt : t.length < line.length := by
        rw [← hline, List.length_append, List.length_cons]
        omega
      have hget : getElem? line t.length = some c := by
        rw [← hline, List.getElem?_append_right le_rfl, Nat.sub_self]
        rfl
      have hzero : m[t.length]? = some 0 := by
        rw [← List.getElem?_take_of_lt hlt, ← hsplit, List.getElem?_append_right le_rfl, Nat.sub_self]
        cases hcase : (m.take line.length).dropWhile (· ≠ 0) with
        | nil =>
            rw [hcase, List.append_nil] at hsplit
            have hall := congrArg List.length hsplit
            rw [List.length_take] at hall
            omega
        | cons a u =>
            have ha := head_dropWhile hcase
            simpa using ha
      have hnot : c ≠ 0 := by
        rintro rfl
        exact hfree (List.mem_of_getElem? hget)
      obtain heq | ⟨-, b', hb', hsep⟩ := h.bytes t.length
      · rw [hzero, List.getElem?_append_left hlt, hget] at heq
        exact absurd (Option.some.inj heq).symm hnot
      · rw [List.getElem?_append_left hlt, hget] at hb'
        obtain rfl := Option.some.inj hb'
        exact hsep.imp_right (Or.imp_right And.left)

theorem getline_cut {line : Bytes} (hsize : lp.size = (line ++ crlf ++ rest).length) (hrest : rest ≠ [])
    (hone : ¬crlf <:+: line) (hfree : 0 ∉ line) (hcut : Cut (line ++ crlf ++ rest ++ back) (m.drop lp.data)) :
    ∃ m' text, LineParser.getline m lp =
        .ok (some lp.data, ⟨lp.data + line.length + 2, rest.length⟩, m') ∧
      string m' lp.data = .ok text ∧ ReadAs line text ∧
      Cut (rest ++ back) (m'.drop (lp.data + line.length + 2)) := by
  have hcrlf : crlf.length = 2 := rfl
  have hpos := List.length_pos_iff.2 hrest
  have hlengths : (line ++ crlf ++ rest).length = line.length + 2 + rest.length := by
    rw [List.length_append, List.length_append, hcrlf]
  have hfind : find crlf (m.drop lp.data) = some line.length := by
    rw [hcut.find_crlf, List.append_assoc]
    exact LineParser.find_line hone _
  have hsplit := (List.take_append_drop lp.size (m.drop lp.data)).symm
  have hlong : lp.size ≤ (m.drop lp.data).length := by
    rw [hcut.length_eq, hsize]
    exact (List.prefix_append _ back).length_le
  have hleft : ((m.drop lp.data).take lp.size).length = lp.size := List.length_take_of_le hlong
  have hgetline := LineParser.getline_line hsplit hleft.symm
    (find_take (by decide) hfind (show line.length + crlf.length ≤ lp.size by omega)) (by omega)
  rw [hleft, show lp.size - (line.length + 2) = rest.length by omega] at hgetline
  refine ⟨m.set (lp.data + line.length) 0, CString.text ((m.drop lp.data).take line.length), hgetline,
    ?_, ?_, ?_⟩
  · obtain ⟨b, u, hu⟩ : ∃ b u, (m.drop lp.data).drop line.length = b :: u := by
      rw [← List.ne_nil_iff_exists_cons, ← List.length_pos_iff, List.length_drop]
      omega
    have hdrop : m.drop lp.data = (m.drop lp.data).take line.length ++ b :: u := by
      rw [← hu, List.take_append_drop]
    have hset := drop_set_length hdrop
    rw [List.length_take_of_le (show line.length ≤ (m.drop lp.data).length by omega)] at hset
    exact CString.string_text hset
  · rw [List.append_assoc, List.append_assoc] at hcut
    exact readAs_of_cut hcut hfree
  · have hbehind := hcut.drop (line.length + 2)
    have hskip : (line ++ crlf ++ rest ++ back).drop (line.length + 2) = rest ++ back := by
      rw [List.append_assoc, ← hcrlf, ← List.length_append, List.drop_left]
    rw [hskip, List.drop_drop, ← Nat.add_assoc] at hbehind
    rwa [List.drop_set_of_lt (by omega)]

/-- Whatever the header is, only separators are overwritten behind it. -/
theorem readHeader_cut (hname : string m q = .ok w) (hstring : string m stop = .ok l) {e : ℕ}
    (he : stop + l.length ≤ e) {ok : Bool} {hdr' : RtspHeader}
    (hread : readHeader m q (some stop) hdr = .ok (ok, hdr', m')) : Cut (m.drop e) (m'.drop e) := by
  by_cases htransport : strncasecmpEq (ascii "Transport:") w = true
  · rw [readHeader_transport hname htransport] at hread
    exact (parseTransport_cut m hdr (some stop) _ hread).1.drop e
  · obtain ⟨hdr'', m'', hread', -, hkept⟩ :=
      readHeader_fields hname hstring (fun h => absurd h htransport) hdr
    obtain ⟨-, -, rfl⟩ : headerPassed w l = ok ∧ hdr'' = hdr' ∧ m'' = m' := by
      simpa using Except.ok.inj (hread'.symm.trans hread)
    rw [(hkept.mono le_rfl he).drop]
    exact .refl _

theorem readTexts_lines (hlines : ∀ line ∈ lines, ¬crlf <:+: line ∧ 0 ∉ line)
    (hsize : lp.size = (headerText lines ++ crlf).length)
    (hcut : Cut (headerText lines ++ crlf ++ back) (m.drop lp.data))
    (hread : readTexts fuel m lp hdr = .ok texts) : ∀ text ∈ texts, ∃ line ∈ lines, ReadAs line text := by
  induction fuel generalizing m lp hdr lines texts with
  | zero => cases hread
  | succ fuel ih =>
      cases lines with
      | nil =>
          have htwo : lp.size = 2 := hsize
          have hgetline : LineParser.getline m lp = .ok (none, lp, m) := by
            rw [LineParser.getline, if_neg (by omega), htwo]
            rfl
          rw [readTexts, hgetline] at hread
          obtain rfl := Except.ok.inj hread
          exact List.forall_mem_nil _
      | cons line lines =>
          obtain ⟨⟨hone, hfree⟩, hlines⟩ := List.forall_mem_cons.1 hlines
          rw [headerText_cons, List.append_assoc (line ++ crlf)] at hsize hcut
          obtain ⟨m₁, text, hgetline, htext, hreadAs, hcut₁⟩ :=
            getline_cut hsize (List.append_ne_nil_of_right_ne_nil _ (List.cons_ne_nil _ _)) hone hfree hcut
          rw [readTexts, hgetline] at hread
          simp only [ok_bind, htext] at hread
          obtain ⟨hcall, -⟩ | ⟨q, stop, w, l, m₂, hcall, hfound⟩ :=
            strtok_r_string (show ((some lp.data : Option ℕ) <|> none) = some lp.data from rfl)
              space_ne_zero htext
          · rw [hcall] at hread
            obtain rfl := Except.ok.inj hread
            exact List.forall_mem_nil _
          · rw [hcall] at hread
            simp only [ok_bind] at hread
            obtain ⟨⟨ok, hdr', m₃⟩, hheader, hread⟩ := bind_eq_ok.1 hread
            cases ok with
            | false =>
                obtain rfl := Except.ok.inj hread
                exact List.forall_mem_nil _
            | true =>
                obtain ⟨texts', htexts, hresult⟩ := bind_eq_ok.1 hread
                obtain rfl := Except.ok.inj hresult
                have hshort : text.length ≤ line.length := by
                  obtain ⟨behind, rfl, -⟩ := hreadAs
                  exact (List.prefix_append _ _).length_le
                have hstop := hfound.stop_eq
                have hbehind := readHeader_cut hfound.word hfound.behind
                  (show stop + l.length ≤ lp.data + line.length + 2 by omega) hheader
                have hsame := (hfound.kept.mono le_rfl
                  (show lp.data + text.length ≤ lp.data + line.length + 2 by omega)).drop
                rw [hsame] at hbehind
                refine List.forall_mem_cons.2 ⟨⟨line, List.mem_cons_self, hreadAs⟩, ?_⟩
                intro text' htext'
                obtain ⟨line', hline', hreadAs'⟩ := ih hlines rfl (hcut₁.trans hbehind) htexts text' htext'
                exact ⟨line', List.mem_cons_of_mem _ hline', hreadAs'⟩

/-! ### The lines of a block -/

theorem HeaderLines.free {block : Bytes} (h : HeaderLines block lines) (hblock : Block block) :
    ∀ line ∈ lines, 0 ∉ line := by
  intro line hline h0
  have hskip : 0 ∈ skipEmpty block := by
    rw [h.lines_eq]
    refine List.mem_append_right _ (List.mem_append_left _ (List.mem_flatMap.2 ⟨line, hline, ?_⟩))
    exact List.mem_append_left _ h0
  rw [skipEmpty] at hskip
  split at hskip
  · exact hblock.noNul (List.mem_of_mem_drop hskip)
  · exact hblock.noNul hskip

section

variable {block m₀ : Bytes} {sz : ℕ} {uri : Option ℕ}

theorem linesRead_of_opened (hopened : opened m₀ 0 sz = .ok (uri, lp, m)) :
    linesRead m₀ 0 sz = readTexts (lp.size + 1) m lp { ({} : RtspHeader) with acceptSdp := true } := by
  rw [linesRead, hopened]
  rfl

/-- What is read of a block is a line of it, or the front of one. -/
theorem linesRead_lines (hopened : opened m₀ 0 sz = .ok (uri, lp, m))
    (hat : LineParser.At m lp (headerText lines ++ crlf) back) (hblock : Block block)
    (hlines : HeaderLines block lines) (hread : linesRead m₀ 0 sz = .ok texts) : ∀ text ∈ texts, ∃ line ∈ lines, ReadAs line text := by
  rw [linesRead_of_opened hopened] at hread
  have hcut : Cut (headerText lines ++ crlf ++ back) (m.drop lp.data) := by
    rw [hat.drop_eq]
    exact .refl _
  exact readTexts_lines (fun line hline => ⟨hlines.one line hline, hlines.free hblock line hline⟩)
    hat.size_eq hcut hread

theorem linesRead_reached (hopened : opened m₀ 0 sz = .ok (uri, lp, m))
    (hat : LineParser.At m lp (headerText lines ++ crlf) back)
    (hlines : ∀ line ∈ reached lines, BoundedLine line) :
    linesRead m₀ 0 sz = .ok (lines.takeWhile passed) := by
  have hfuel : lines.length < lp.size + 1 := by
    have hle := length_le_headerText lines
    rw [hat.size_eq, List.length_append]
    omega
  rw [linesRead_of_opened hopened]
  exact readTexts_reached hlines hat _ hfuel

/-- Where bounded lines come first, the loop gets past all of them or stops at one of them. -/
theorem linesRead_front {after : List Bytes} (hopened : opened m₀ 0 sz = .ok (uri, lp, m))
    (hlines : ∀ line ∈ lines, BoundedLine line)
    (hat : LineParser.At m lp (headerText (lines ++ after) ++ crlf) back)
    (hread : linesRead m₀ 0 sz = .ok texts) :
    ((∀ line ∈ lines, passed line = true) ∧ lines ⊆ texts) ∨
      (¬(∀ line ∈ lines, passed line = true) ∧ texts = lines.takeWhile passed) := by
  obtain ⟨fuel, hfuel⟩ : ∃ fuel, lp.size + 1 = lines.length + fuel := by
    have hle := length_le_headerText (lines ++ after)
    rw [List.length_append] at hle
    refine Nat.exists_eq_add_of_le ?_
    rw [hat.size_eq, List.length_append]
    omega
  rw [linesRead_of_opened hopened, hfuel] at hread
  rw [headerText_append, List.append_assoc] at hat
  obtain ⟨hall, m', lp', hdr', -, hcall⟩ | ⟨hnot, hcall⟩ :=
    readTexts_front hlines (List.append_ne_nil_of_right_ne_nil _ (List.cons_ne_nil _ _)) hat
      { ({} : RtspHeader) with acceptSdp := true } fuel
  · rw [hcall] at hread
    cases hbehind : readTexts fuel m' lp' hdr' with
    | error f =>
        rw [hbehind] at hread
        cases hread
    | ok texts' =>
        rw [hbehind] at hread
        obtain rfl := Except.ok.inj hread
        exact .inl ⟨hall, List.subset_append_left _ _⟩
  · exact .inr ⟨hnot, Except.ok.inj (hread.symm.trans hcall)⟩

end

end Parser

end WifiAudio
