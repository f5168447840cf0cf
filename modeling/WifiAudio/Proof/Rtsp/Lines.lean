import WifiAudio.Proof.Rtsp.Totality

/-!
# Header lines

The header lines of a request, written one behind the other with their line ends. The loop over them
takes one after another, and stops at the first one it cannot read.
-/

namespace WifiAudio

open CString Except

/-- The lines with their line ends. -/
def headerText (lines : List Bytes) : Bytes := lines.flatMap (· ++ crlf)

theorem headerText_cons (line : Bytes) (lines : List Bytes) :
    headerText (line :: lines) = line ++ crlf ++ headerText lines := rfl

theorem headerText_append (lines lines' : List Bytes) :
    headerText (lines ++ lines') = headerText lines ++ headerText lines' := List.flatMap_append

theorem length_le_headerText (lines : List Bytes) : lines.length ≤ (headerText lines).length := by
  induction lines with
  | nil => exact le_rfl
  | cons line lines ih =>
      rw [headerText_cons, List.length_append, List.length_append, List.length_cons]
      have hcrlf : crlf.length = 2 := rfl
      omega

namespace LineParser

variable {m line rest back : Bytes} {lp : LineParser}

theorem find_line (hline : ¬crlf <:+: line) (rest : Bytes) :
    find crlf (line ++ crlf ++ rest) = some line.length := by
  obtain ⟨j, hj, hle⟩ := find_le (show crlf <+: (line ++ crlf ++ rest).drop line.length by
    rw [List.append_assoc, List.drop_left]
    exact List.prefix_append _ _)
  obtain hlt | rfl := lt_or_eq_of_le hle
  · exfalso
    have hstarts := find_starts hj
    rw [List.append_assoc, List.drop_append_of_le_length hle] at hstarts
    cases hcase : line.drop j with
    | nil =>
        have hlength := congrArg List.length hcase
        rw [List.length_drop, List.length_nil] at hlength
        omega
    | cons b line' =>
        rw [hcase] at hstarts
        cases line' with
        | nil => exact absurd (List.cons_prefix_cons.1 (List.cons_prefix_cons.1 hstarts).2).1 (by decide)
        | cons c line' =>
            have hshort : crlf <+: b :: c :: line' :=
              List.prefix_of_prefix_length_le hstarts (List.prefix_append _ _)
                (Nat.le_add_left 2 line'.length)
            rw [← hcase] at hshort
            exact hline (hshort.isInfix.trans (List.drop_suffix _ _).isInfix)
  · exact hj

theorem At.takes_line (hat : At m lp (line ++ crlf ++ rest) back) (hline : ¬crlf <:+: line)
    (hrest : rest ≠ []) :
    ∃ m', getline m lp = .ok (some lp.data, ⟨lp.data + line.length + 2, rest.length⟩, m') ∧
      string m' lp.data = .ok line ∧ At m' ⟨lp.data + line.length + 2, rest.length⟩ rest back := by
  have hfind := find_line hline rest
  have hcrlf : crlf.length = 2 := rfl
  obtain ⟨-, hlast⟩ | ⟨line', rest', m', hsplit, hfind', hgetline, hstring, hat'⟩ := hat.getline_cases
  · have hlength := Option.some.inj (hfind.symm.trans hlast)
    have hpos := List.length_pos_iff.2 hrest
    rw [List.length_append, List.length_append, hcrlf] at hlength
    omega
  · have hlength : line.length = line'.length := Option.some.inj (hfind.symm.trans hfind')
    rw [List.append_assoc, List.append_assoc] at hsplit
    obtain ⟨rfl, hbehind⟩ := List.append_inj hsplit hlength
    obtain rfl := List.append_cancel_left hbehind
    exact ⟨m', hgetline, hstring, hat'⟩

/-- The line end behind the last line is no line. -/
theorem At.getline_last (hat : At m lp crlf back) : getline m lp = .ok (none, lp, m) := by
  obtain ⟨hgetline, -⟩ | ⟨line, rest, m', hsplit, -, -, -, hat'⟩ := hat.getline_cases
  · exact hgetline
  · have hlength := congrArg List.length hsplit
    have htwo := hat'.two_le
    have hcrlf : crlf.length = 2 := rfl
    rw [List.length_append, List.length_append, hcrlf] at hlength
    omega

end LineParser

namespace Parser

variable {m m' back rest name value : Bytes} {lp lp' : LineParser} {lines : List Bytes}

/-- A header line that is no Transport header. -/
structure OtherLine (line : Bytes) : Prop where
  one : ¬crlf <:+: line
  other : strncasecmpEq (ascii "Transport:") (line.dropWhile (· == space)) = false

/-- Lines that are no Transport headers are read, or the loop stops at the first one that cannot be
read; the transports stay as they are, and so does what lies in front. -/
theorem readLines_front (hlines : ∀ line ∈ lines, OtherLine line) (hrest : rest ≠ [])
    (hat : LineParser.At m lp (headerText lines ++ rest) back) (hdr : RtspHeader) (fuel : ℕ) :
    ∃ hdr' m₁, hdr'.transport = hdr.transport ∧ m₁.take lp.data = m.take lp.data ∧
      (((∀ line ∈ lines, LineRead line) ∧ ∃ lp', lp.data ≤ lp'.data ∧
          readLines (lines.length + fuel) m lp hdr = readLines fuel m₁ lp' hdr' ∧
          LineParser.At m₁ lp' rest back) ∨
        (¬(∀ line ∈ lines, LineRead line) ∧
          ∃ ok, readLines (lines.length + fuel) m lp hdr = .ok (ok, hdr', m₁))) := by
  induction lines generalizing m lp hdr with
  | nil =>
      rw [List.length_nil, Nat.zero_add]
      exact ⟨hdr, m, rfl, rfl, .inl ⟨List.forall_mem_nil _, lp, le_rfl, rfl, hat⟩⟩
  | cons line lines ih =>
      obtain ⟨⟨hone, hother⟩, hlines⟩ := List.forall_mem_cons.1 hlines
      rw [headerText_cons, List.append_assoc] at hat
      have hne : headerText lines ++ rest ≠ [] := List.append_ne_nil_of_right_ne_nil _ hrest
      obtain ⟨m', hgetline, hline, hat'⟩ := hat.takes_line hone hne
      have htake := LineParser.getline_take hgetline
      obtain ⟨hdr', m₁, htransport, hkept, ⟨hread, hcall⟩ | ⟨hnot, ok, hcall⟩⟩ :=
        readLines_other hgetline hline hother hdr (lines.length + fuel)
      · obtain ⟨hdr'', m₂, htransport', htake', hnext⟩ :=
          ih hlines (hat'.kept hkept (Nat.le_add_right _ 2)) hdr'
        have htake₂ : m₂.take lp.data = m.take lp.data := by
          rw [take_of_le htake' (show lp.data ≤ lp.data + line.length + 2 by omega), hkept.take, htake]
        refine ⟨hdr'', m₂, htransport'.trans htransport, htake₂, ?_⟩
        rw [List.length_cons, Nat.add_right_comm, hcall, List.forall_mem_cons, and_iff_right hread]
        refine hnext.imp_left ?_
        rintro ⟨hall, lp', hle, heq⟩
        exact ⟨hall, lp', (show lp.data ≤ lp.data + line.length + 2 by omega).trans hle, heq⟩
      · refine ⟨hdr', m₁, htransport, hkept.take.trans htake, .inr ⟨?_, ok, ?_⟩⟩
        · intro hall
          exact hnot (hall line List.mem_cons_self)
        · rw [List.length_cons, Nat.add_right_comm, hcall]

theorem readLines_back (hlines : ∀ line ∈ lines, OtherLine line)
    (hat : LineParser.At m lp (headerText lines ++ crlf) back) (hdr : RtspHeader) {fuel : ℕ}
    (hfuel : lines.length < fuel) :
    ∃ ok hdr' m₁, readLines fuel m lp hdr = .ok (ok, hdr', m₁) ∧ hdr'.transport = hdr.transport ∧
      m₁.take lp.data = m.take lp.data := by
  obtain ⟨k, rfl⟩ := Nat.exists_eq_add_of_lt hfuel
  obtain ⟨hdr', m₁, htransport, htake, ⟨-, lp', -, hcall, hat'⟩ | ⟨-, ok, hcall⟩⟩ :=
    readLines_front hlines (List.cons_ne_nil _ _) hat hdr (k + 1)
  · refine ⟨true, hdr', m₁, ?_, htransport, htake⟩
    rw [Nat.add_assoc, hcall, readLines, hat'.getline_last]
    rfl
  · exact ⟨ok, hdr', m₁, hcall, htransport, htake⟩

theorem readLines_header (hgetline : LineParser.getline m lp = .ok (some lp.data, lp', m'))
    (hline : string m' lp.data = .ok (name ++ space :: value)) (hname : space ∉ name) (hne : name ≠ [])
    (hdr : RtspHeader) (fuel : ℕ) :
    readLines (fuel + 1) m lp hdr = (do
      let (read, hdr, m) ← readHeader (m'.set (lp.data + name.length) 0) lp.data
        (some (lp.data + name.length + 1)) hdr
      if !read then return (false, hdr, m)
      readLines fuel m lp' hdr) := by
  obtain ⟨hcall, -, -⟩ :=
    strtok_r_word (show ((some lp.data : Option ℕ) <|> none) = some lp.data from rfl) hline hname hne
  rw [readLines, hgetline]
  simp only [ok_bind, hcall]

theorem other_of_transport (htransport : strncasecmpEq (ascii "Transport:") name = true) :
    strncasecmpEq (ascii "CSeq:") name = false ∧ strncasecmpEq (ascii "Session:") name = false ∧
      strncasecmpEq (ascii "Accept:") name = false :=
  ⟨strncasecmpEq_other htransport (by decide), strncasecmpEq_other htransport (by decide),
    strncasecmpEq_other htransport (by decide)⟩

theorem readHeader_transport {header : ℕ} (hname : string m header = .ok name)
    (htransport : strncasecmpEq (ascii "Transport:") name = true) (save : Option ℕ) (hdr : RtspHeader) :
    readHeader m header save hdr = parseTransport m hdr save := by
  obtain ⟨hcseq, hsession, haccept⟩ := other_of_transport htransport
  rw [readHeader, hname]
  simp only [ok_bind, hcseq, hsession, haccept, htransport, Bool.false_eq_true, if_false, if_true]

end Parser

end WifiAudio
