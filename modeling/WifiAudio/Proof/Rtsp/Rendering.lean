import WifiAudio.Lib.Decimal
import WifiAudio.Proof.Rtsp.Totality

/-!
# Rendered requests

Parsing undoes rendering: a request that is written out line by line reaches the handler as the command
it names, with its uri and with the numbers of its last CSeq and Session lines.
-/

namespace WifiAudio

open CString Except

/-- A header line: a CSeq, a session id as `common` prints it, or a header the parser does not know. -/
inductive HeaderLine
  | cseq (n : ℕ)
  | session (id : UInt32)
  | other (name value : Bytes)

namespace HeaderLine

def text : HeaderLine → Bytes
  | cseq n => ascii "CSeq: " ++ decimal n
  | session id => ascii "Session: " ++ decimal (toInt id.toNat)
  | other name value => name ++ ascii ": " ++ value

/-- The names `read_headers` looks for. -/
def known : List Bytes := [ascii "CSeq:", ascii "Session:", ascii "Accept:", ascii "Transport:"]

/-- The number is an `int`; another name is a word that starts with none of the known ones. -/
def Valid : HeaderLine → Prop
  | cseq n => n < 2 ^ 31
  | session _ => True
  | other name value => name ≠ [] ∧ space ∉ name ∧
      (∀ key ∈ known, strncasecmpEq key (name ++ ascii ":") = false) ∧
      ∀ b ∈ name ++ value, b ≠ 0 ∧ b ≠ 13 ∧ b ≠ 10

/-- What the line does to the headers. -/
def apply (hdr : RtspHeader) : HeaderLine → RtspHeader
  | cseq n => { hdr with cseq := n }
  | session id => { hdr with sessionId := id }
  | other _ _ => hdr

def cseq? : HeaderLine → Option ℕ
  | cseq n => some n
  | _ => none

def session? : HeaderLine → Option UInt32
  | session id => some id
  | _ => none

end HeaderLine

/-- The header lines with the empty line behind them. -/
def renderHeaders (lines : List HeaderLine) : Bytes :=
  lines.flatMap (fun line => line.text ++ crlf) ++ crlf

/-- A request behind `k` empty lines. -/
def renderRequest (k : ℕ) (method uri : Bytes) (lines : List HeaderLine) : Bytes :=
  (List.replicate k crlf).flatten ++
    (method ++ space :: (uri ++ space :: ascii "RTSP/1.0") ++ crlf ++ renderHeaders lines)

/-! ### Leading empty lines -/

namespace LineParser

variable {m left back : Bytes} {lp : LineParser}

theorem find_crlf {line : Bytes} (hline : 13 ∉ line) (rest : Bytes) :
    find crlf (line ++ crlf ++ rest) = some line.length := by
  induction line with
  | nil => rfl
  | cons b line ih =>
      obtain ⟨hb, hline⟩ := not_or.1 (mt List.mem_cons.2 hline)
      rw [List.cons_append, List.cons_append, find, if_neg, ih hline]
      · rfl
      · intro hstarts
        exact hb (List.cons_prefix_cons.1 (List.isPrefixOf_iff_prefix.1 hstarts)).1

theorem At.getline (hat : At m lp left back) {line rest : Bytes} (hleft : left = line ++ crlf ++ rest)
    (hline : 13 ∉ line) (hrest : rest ≠ []) : ∃ m',
    LineParser.getline m lp = .ok (some lp.data, ⟨lp.data + line.length + 2, rest.length⟩, m') ∧
      string m' lp.data = .ok line ∧ At m' ⟨lp.data + line.length + 2, rest.length⟩ rest back := by
  have hcrlf : crlf.length = 2 := rfl
  have hfind : find crlf left = some line.length := by
    rw [hleft]
    exact find_crlf hline rest
  obtain ⟨-, hlast⟩ | ⟨line', rest', m', hsplit, hfind', hgetline, hstring, hat'⟩ := hat.getline_cases
  · rw [hfind, hleft] at hlast
    have hlength := Option.some.inj hlast
    have hpos := List.length_pos_iff.2 hrest
    simp only [List.length_append, hcrlf] at hlength
    omega
  · have hlength : line.length = line'.length := Option.some.inj (hfind.symm.trans hfind')
    rw [hleft, List.append_assoc, List.append_assoc] at hsplit
    obtain ⟨rfl, hbehind⟩ := List.append_inj hsplit hlength
    obtain rfl := List.append_cancel_left hbehind
    exact ⟨m', hgetline, hstring, hat'⟩

theorem At.skipLeading_replicate {k fuel : ℕ} (hnot : ¬crlf <+: left) (hleft : left ≠ [])
    (hat : At m lp ((List.replicate k crlf).flatten ++ left) back) (hfuel : k < fuel) :
    ∃ lp' m', skipLeading fuel m lp = .ok (lp', m') ∧ At m' lp' left back := by
  induction k generalizing fuel m lp with
  | zero =>
      obtain ⟨fuel, rfl⟩ := Nat.exists_eq_add_of_le' hfuel
      exact ⟨lp, m, At.skipLeading_done hat (.inr hnot) fuel, hat⟩
  | succ k ih =>
      obtain ⟨fuel, rfl⟩ := Nat.exists_eq_add_of_le' (Nat.succ_le_of_lt (Nat.zero_lt_of_lt hfuel))
      have hcrlf : crlf.length = 2 := rfl
      have hpos := List.length_pos_iff.2 hleft
      rw [List.replicate_succ, List.flatten_cons, List.append_assoc] at hat
      have hne : (List.replicate k crlf).flatten ++ left ≠ [] := by simp [hleft]
      have hempty : crlf ++ ((List.replicate k crlf).flatten ++ left) =
          [] ++ crlf ++ ((List.replicate k crlf).flatten ++ left) := rfl
      obtain ⟨m', hgetline, -, hat'⟩ := hat.getline hempty List.not_mem_nil hne
      have hlong : lp.size > 2 := by
        rw [hat.size_eq, List.length_append, List.length_append]
        omega
      rw [skipLeading, if_pos hlong, strncmpEq_crlf hat.drop_eq hat.two_le]
      simp only [ok_bind]
      rw [if_pos (List.isPrefixOf_iff_prefix.2 (List.prefix_append _ _)), hgetline]
      exact ih hat' (by omega)

end LineParser

/-! ### One header line -/

namespace Parser

variable {m m' left back l : Bytes} {q stop : ℕ} {hdr : RtspHeader}

/-- The header has been read, and nothing outside the rest of its line was written. -/
def Reads (r : Except Fault (Bool × RtspHeader × Bytes)) (m : Bytes) (first last : ℕ)
    (hdr : RtspHeader) : Prop :=
  ∃ m', r = .ok (true, hdr, m') ∧ m'.take first = m.take first ∧ m'.drop last = m.drop last

theorem readNumber_decimal {v : ℤ} (hlow : -2 ^ 31 ≤ v) (hhigh : v < 2 ^ 31)
    (hstring : string m stop = .ok l) (htokens : tokens space l = [decimal v]) (hdr : RtspHeader)
    (set : ℤ → RtspHeader) :
    Reads (do
      let (s, _, m) ← strtok_r m none space (some stop)
      match ← getNumber m s 10 with
      | none => return (false, hdr, m)
      | some (n, _) => return (true, set n, m)) m stop (stop + l.length) (set v) := by
  obtain ⟨r, hr, htoken⟩ := strtok_r_next space_ne_zero hstring
  rw [hr]
  cases htoken with
  | none hnone => cases hnone.symm.trans htokens
  | @some q stop' w t m' hsome hword hstarts hne hrest hstop hshort hframe =>
      obtain ⟨rfl, -⟩ := List.cons.inj (hsome.symm.trans htokens)
      have hread : strtoll (ascii (toString v) ++ []) 10 = (v, (ascii (toString v)).length) :=
        strtoll_decimal (.inr rfl) (by omega) (by omega) (by simp)
      rw [List.append_nil] at hread
      have hint : toInt v = v := by
        rw [toInt, Int.bmod_eq_of_le (by omega) (by omega)]
      refine ⟨m', ?_, strtok_r_take rfl hr, hframe⟩
      simp only [ok_bind, getNumber, hword, pure_eq_ok]
      change Except.ok (true, set (toInt (strtoll (ascii (toString v)) 10).1), m') = _
      rw [hread, hint]

theorem readHeader_cseq {v : ℤ} (hlow : -2 ^ 31 ≤ v) (hhigh : v < 2 ^ 31)
    (hname : string m q = .ok (ascii "CSeq:")) (hstring : string m stop = .ok l)
    (htokens : tokens space l = [decimal v]) :
    Reads (readHeader m q (some stop) hdr) m stop (stop + l.length) { hdr with cseq := v } := by
  rw [readHeader, hname, ok_bind, if_pos (by decide)]
  exact readNumber_decimal hlow hhigh hstring htokens hdr fun n => { hdr with cseq := n }

theorem readHeader_session {v : ℤ} (hlow : -2 ^ 31 ≤ v) (hhigh : v < 2 ^ 31)
    (hname : string m q = .ok (ascii "Session:")) (hstring : string m stop = .ok l)
    (htokens : tokens space l = [decimal v]) :
    Reads (readHeader m q (some stop) hdr) m stop (stop + l.length)
      { hdr with sessionId := UInt32.ofInt v } := by
  rw [readHeader, hname, ok_bind, if_neg (by decide), if_pos (by decide)]
  exact readNumber_decimal hlow hhigh hstring htokens hdr fun n =>
    { hdr with sessionId := UInt32.ofInt n }

theorem readHeader_other {name : Bytes} (hname : string m q = .ok name)
    (hnot : ∀ key ∈ HeaderLine.known, strncasecmpEq key name = false) (save : Option ℕ) (first last : ℕ) :
    Reads (readHeader m q save hdr) m first last hdr := by
  have hfalse : ∀ key ∈ HeaderLine.known, ¬strncasecmpEq key name = true := by
    intro key hkey
    rw [hnot key hkey]
    decide
  rw [readHeader, hname, ok_bind, if_neg (hfalse _ (by simp [HeaderLine.known])),
    if_neg (hfalse _ (by simp [HeaderLine.known])), if_neg (hfalse _ (by simp [HeaderLine.known])),
    if_neg (hfalse _ (by simp [HeaderLine.known]))]
  exact ⟨m, rfl, rfl, rfl⟩

end Parser

/-! ### The tokens of a line -/

namespace HeaderLine

variable {line : HeaderLine}

theorem mem_decimal {v : ℤ} {b : UInt8} (hb : b ∈ decimal v) : b = 45 ∨ 48 ≤ b.toNat ∧ b.toNat ≤ 57 :=
  mem_ascii_toString hb

theorem decimal_ne_nil (v : ℤ) : decimal v ≠ [] := by
  rw [decimal, ascii_toString_int]
  split
  · exact natDigits_ne_nil _
  · simp

theorem not_mem_decimal {b : UInt8} (hminus : b ≠ 45) (hdigit : b.toNat < 48 ∨ 57 < b.toNat) (v : ℤ) :
    b ∉ decimal v := by
  intro hb
  obtain h | h := mem_decimal hb
  · exact hminus h
  · omega

theorem not_mem_text (hvalid : line.Valid) {b : UInt8} (hb : b = 0 ∨ b = 13 ∨ b = 10) :
    b ∉ line.text := by
  have hdecimal : ∀ v, b ∉ decimal v := by
    intro v
    obtain rfl | rfl | rfl := hb <;> exact not_mem_decimal (by decide) (by decide) v
  cases line with
  | cseq n =>
      rw [text, List.mem_append, not_or]
      refine ⟨?_, hdecimal n⟩
      obtain rfl | rfl | rfl := hb <;> decide
  | session id =>
      rw [text, List.mem_append, not_or]
      refine ⟨?_, hdecimal _⟩
      obtain rfl | rfl | rfl := hb <;> decide
  | other name value =>
      obtain ⟨-, -, -, hbytes⟩ := hvalid
      rw [text, List.mem_append, List.mem_append]
      rintro ((hname | hcolon) | hvalue)
      · have hne := hbytes b (List.mem_append_left value hname)
        obtain rfl | rfl | rfl := hb <;> simp at hne
      · revert hcolon
        obtain rfl | rfl | rfl := hb <;> decide
      · have hne := hbytes b (List.mem_append_right name hvalue)
        obtain rfl | rfl | rfl := hb <;> simp at hne

theorem tokens_number (key : Bytes) (hkey : space ∉ key) (hne : key ≠ []) (v : ℤ) :
    tokens space (key ++ space :: decimal v) = [key, decimal v] := by
  rw [tokens_append hkey hne, tokens_of_not_mem (not_mem_decimal (by decide) (by decide) v)
    (decimal_ne_nil v)]

theorem tokens_other {name : Bytes} (hname : space ∉ name) (value : Bytes) :
    tokens space (name ++ ascii ": " ++ value) = (name ++ ascii ":") :: tokens space value := by
  have hcolon : space ∉ name ++ ascii ":" := by
    rw [List.mem_append, not_or]
    exact ⟨hname, by decide⟩
  have hsplit : name ++ ascii ": " ++ value = name ++ ascii ":" ++ space :: value := by
    rw [List.append_assoc, List.append_assoc]
    rfl
  rw [hsplit, tokens_append hcolon (by simp [ascii])]

theorem ofInt_toInt (id : UInt32) : UInt32.ofInt (toInt id.toNat) = id := by
  have hid := id.toNat_lt
  have hmod : toInt id.toNat % 2 ^ 32 = id.toNat := by
    have h : (id.toNat : ℤ).bmod (2 ^ 32) % (2 ^ 32 : ℕ) = id.toNat % (2 ^ 32 : ℕ) := Int.bmod_emod
    rw [toInt]
    omega
  rw [UInt32.ofInt, hmod, Int.toNat_natCast, UInt32.ofNat_toNat]

end HeaderLine

namespace Parser

variable {m left back l : Bytes} {q stop : ℕ} {line : HeaderLine}

/-- A rendered line does what it says. -/
theorem readHeader_line (hvalid : line.Valid) (hdr : RtspHeader) {name : Bytes}
    (hname : string m q = .ok name) (hstring : string m stop = .ok l)
    (htokens : tokens space line.text = name :: tokens space l) :
    Reads (readHeader m q (some stop) hdr) m stop (stop + l.length) (line.apply hdr) := by
  cases line with
  | cseq n =>
      have hsplit : HeaderLine.text (.cseq n) = ascii "CSeq:" ++ space :: decimal n := rfl
      rw [hsplit, HeaderLine.tokens_number _ (by decide) (by decide)] at htokens
      obtain ⟨rfl, hrest⟩ := List.cons.inj htokens
      have hn : n < 2 ^ 31 := hvalid
      exact readHeader_cseq (by omega) (by omega) hname hstring hrest.symm
  | session id =>
      obtain ⟨v, hv⟩ : ∃ v, v = toInt id.toNat := ⟨_, rfl⟩
      obtain ⟨hlow, hhigh⟩ := toInt_bounds id.toNat
      have hsplit : HeaderLine.text (.session id) = ascii "Session:" ++ space :: decimal v := by
        rw [HeaderLine.text, ← hv]
        rfl
      rw [hsplit, HeaderLine.tokens_number _ (by decide) (by decide)] at htokens
      rw [← hv] at hlow hhigh
      obtain ⟨rfl, hrest⟩ := List.cons.inj htokens
      rw [HeaderLine.apply, ← HeaderLine.ofInt_toInt id, ← hv]
      exact readHeader_session hlow hhigh hname hstring hrest.symm
  | other name' value =>
      obtain ⟨-, hspace, hknown, -⟩ := hvalid
      rw [HeaderLine.text, HeaderLine.tokens_other hspace] at htokens
      obtain ⟨rfl, -⟩ := List.cons.inj htokens
      exact readHeader_other hname hknown _ _ _

/-! ### All lines -/

theorem renderHeaders_cons (line : HeaderLine) (lines : List HeaderLine) :
    renderHeaders (line :: lines) = line.text ++ crlf ++ renderHeaders lines := by
  simp [renderHeaders]

theorem length_le_renderHeaders (lines : List HeaderLine) :
    lines.length ≤ (renderHeaders lines).length := by
  induction lines with
  | nil => exact Nat.zero_le _
  | cons line lines ih =>
      have hcrlf : crlf.length = 2 := rfl
      rw [renderHeaders_cons, List.length_append, List.length_append, List.length_cons, hcrlf]
      omega

theorem renderHeaders_ne_nil (lines : List HeaderLine) : renderHeaders lines ≠ [] := by
  intro h
  have hcrlf := (List.append_eq_nil_iff.1 h).2
  cases hcrlf

theorem text_words (hvalid : line.Valid) : tokens space line.text ≠ [] := by
  cases line with
  | cseq n =>
      have hsplit : HeaderLine.text (.cseq n) = ascii "CSeq:" ++ space :: decimal n := rfl
      rw [hsplit, HeaderLine.tokens_number _ (by decide) (by decide)]
      exact List.cons_ne_nil _ _
  | session id =>
      have hsplit : ∀ v, ascii "Session: " ++ decimal v = ascii "Session:" ++ space :: decimal v :=
        fun _ => rfl
      rw [HeaderLine.text, hsplit, HeaderLine.tokens_number _ (by decide) (by decide)]
      exact List.cons_ne_nil _ _
  | other name value =>
      rw [HeaderLine.text, HeaderLine.tokens_other hvalid.2.1]
      exact List.cons_ne_nil _ _

/-- The loop over rendered lines carries them out one after another; in front of them nothing is
written. -/
theorem readLines_render {lines : List HeaderLine} (hvalid : ∀ line ∈ lines, line.Valid) {fuel : ℕ}
    {lp : LineParser} (hat : LineParser.At m lp (renderHeaders lines) back)
    (hfuel : lines.length < fuel) (hdr : RtspHeader) :
    ∃ m', readLines fuel m lp hdr = .ok (true, lines.foldl HeaderLine.apply hdr, m') ∧
      m'.take lp.data = m.take lp.data := by
  induction lines generalizing fuel m lp hdr with
  | nil =>
      obtain ⟨fuel, rfl⟩ := Nat.exists_eq_succ_of_ne_zero (Nat.ne_zero_of_lt hfuel)
      rw [readLines]
      obtain ⟨hgetline, -⟩ | ⟨line, rest, m', hsplit, -, -, -, hrest⟩ := hat.getline_cases
      · rw [hgetline]
        exact ⟨m, rfl, rfl⟩
      · have htwo := hrest.two_le
        have hlength := congrArg List.length hsplit
        have hcrlf : crlf.length = 2 := rfl
        have hrender : (renderHeaders []).length = 2 := rfl
        rw [hrender, List.length_append, List.length_append, hcrlf] at hlength
        omega
  | cons line lines ih =>
      obtain ⟨fuel, rfl⟩ := Nat.exists_eq_succ_of_ne_zero (Nat.ne_zero_of_lt hfuel)
      have hline := hvalid line List.mem_cons_self
      obtain ⟨m₁, hgetline, hstring, hat₁⟩ := hat.getline (renderHeaders_cons line lines)
        (HeaderLine.not_mem_text hline (.inr (.inl rfl))) (renderHeaders_ne_nil lines)
      have htake₁ := LineParser.getline_take hgetline
      rw [readLines, hgetline]
      obtain ⟨r, hr, htoken⟩ := strtok_r_first space_ne_zero hstring
      simp only [ok_bind, hr]
      cases htoken with
      | none htokens => exact absurd htokens (text_words hline)
      | @some q stop w l m₂ htokens hword hstarts hne hrest hstop hshort hframe =>
          obtain ⟨m₃, hread, htake₃, hdrop₃⟩ := readHeader_line hline hdr hword hrest htokens
          have htake₂ : m₂.take lp.data = m₁.take lp.data := strtok_r_take rfl hr
          simp only [hread, ok_bind]
          have hsame : m₃.drop (lp.data + line.text.length + 2) =
              m₁.drop (lp.data + line.text.length + 2) := by
            rw [hstop, hframe] at hdrop₃
            rw [← List.drop_drop, hdrop₃, List.drop_drop]
          have hat₃ : LineParser.At m₃ ⟨lp.data + line.text.length + 2, (renderHeaders lines).length⟩
              (renderHeaders lines) back :=
            ⟨hsame.trans hat₁.drop_eq, rfl, hat₁.noNul, hat₁.ends⟩
          obtain ⟨m₄, hlines, htake₄⟩ := ih (fun line' h => hvalid line' (List.mem_cons_of_mem line h))
            hat₃ (Nat.lt_of_succ_lt_succ hfuel) (line.apply hdr)
          refine ⟨m₄, hlines, ?_⟩
          have hnext := take_of_le htake₄ (show lp.data ≤ lp.data + line.text.length + 2 by omega)
          rw [hnext, take_of_le htake₃ (show lp.data ≤ stop by omega), htake₂, htake₁]

theorem readHeaders_render {lines : List HeaderLine} (hvalid : ∀ line ∈ lines, line.Valid)
    {lp : LineParser} (hat : LineParser.At m lp (renderHeaders lines) back) :
    ∃ m', readHeaders m lp {} = .ok (true, lines.foldl HeaderLine.apply { acceptSdp := true }, m') ∧
      m'.take lp.data = m.take lp.data := by
  refine readLines_render hvalid hat ?_ _
  rw [hat.size_eq]
  exact Nat.lt_succ_of_le (length_le_renderHeaders lines)

end Parser

/-! ### The whole request -/

theorem foldl_apply (lines : List HeaderLine) (hdr : RtspHeader) :
    (lines.foldl HeaderLine.apply hdr).cseq =
        ((lines.filterMap HeaderLine.cseq?).getLast?.map Int.ofNat).getD hdr.cseq ∧
      (lines.foldl HeaderLine.apply hdr).sessionId =
        (lines.filterMap HeaderLine.session?).getLast?.getD hdr.sessionId ∧
      (lines.foldl HeaderLine.apply hdr).acceptSdp = hdr.acceptSdp := by
  induction lines using List.reverseRecOn with
  | nil => exact ⟨rfl, rfl, rfl⟩
  | append_singleton lines line ih =>
      rw [List.foldl_append, List.filterMap_append, List.filterMap_append]
      obtain ⟨hcseq, hsession, haccept⟩ := ih
      cases line with
      | cseq n =>
          refine ⟨by simp [HeaderLine.apply, HeaderLine.cseq?], ?_, haccept⟩
          simpa [HeaderLine.apply, HeaderLine.session?] using hsession
      | session id =>
          refine ⟨?_, by simp [HeaderLine.apply, HeaderLine.session?], haccept⟩
          simpa [HeaderLine.apply, HeaderLine.cseq?] using hcseq
      | other name value =>
          refine ⟨?_, ?_, haccept⟩
          · simpa [HeaderLine.apply, HeaderLine.cseq?] using hcseq
          · simpa [HeaderLine.apply, HeaderLine.session?] using hsession

theorem lookupCommand_entry (P : Lookup) {method : Bytes} {cmd : RtspCommand}
    (hmethod : (method, cmd) ∈ cmdLut.entries) : Parser.lookupCommand P method = cmd := by
  obtain ⟨before, after, hsplit⟩ := List.append_of_mem hmethod
  have hnodup : (cmdLut.entries.map Prod.fst).Nodup := by decide
  rw [hsplit, List.map_append, List.map_cons] at hnodup
  have hnot : method ∉ before.map Prod.fst := by
    intro hmem
    exact (List.nodup_append.1 hnodup).2.2 method hmem method List.mem_cons_self rfl
  have hfound : P.rlut cmdLut method = cmd := by
    have h := P.rlut_entry before after cmdLut.last method cmd hnot
    rw [← hsplit] at h
    exact h
  have hknown : cmd ≠ .unknown := by
    have hall : ∀ entry ∈ cmdLut.entries, entry.2 ≠ .unknown := by decide
    exact hall _ hmethod
  rw [Parser.lookupCommand, hfound]
  cases cmd with
  | unknown => exact absurd rfl hknown
  | _ => rfl

/-- A uri: a word. -/
def IsUri (uri : Bytes) : Prop := uri ≠ [] ∧ ∀ b ∈ uri, b ≠ space ∧ b ≠ 13 ∧ b ≠ 10 ∧ b ≠ 0

section Request

variable {P : Lookup} {method uri back : Bytes} {cmd : RtspCommand} {lines : List HeaderLine} {k : ℕ}

/-- The request line. -/
def renderLine (method uri : Bytes) : Bytes := method ++ space :: (uri ++ space :: ascii "RTSP/1.0")

theorem renderRequest_eq (k : ℕ) (method uri : Bytes) (lines : List HeaderLine) :
    renderRequest k method uri lines =
      (List.replicate k crlf).flatten ++ (renderLine method uri ++ crlf ++ renderHeaders lines) := rfl

theorem method_bytes (hmethod : (method, cmd) ∈ cmdLut.entries) :
    method ≠ [] ∧ ∀ b ∈ method, b ≠ space ∧ b ≠ 13 ∧ b ≠ 10 ∧ b ≠ 0 := by
  have hall : ∀ entry ∈ cmdLut.entries, entry.1 ≠ [] ∧
      ∀ b ∈ entry.1, b ≠ space ∧ b ≠ 13 ∧ b ≠ 10 ∧ b ≠ 0 := by decide +kernel
  exact hall _ hmethod

theorem renderLine_words (hmethod : (method, cmd) ∈ cmdLut.entries) (huri : IsUri uri) :
    tokens space (renderLine method uri) = [method, uri, ascii "RTSP/1.0"] := by
  obtain ⟨hne, hbytes⟩ := method_bytes hmethod
  rw [renderLine, tokens_append (fun h => (hbytes _ h).1 rfl) hne,
    tokens_append (fun h => (huri.2 _ h).1 rfl) huri.1, tokens_of_not_mem (by decide) (by decide)]

theorem not_mem_renderLine (hmethod : (method, cmd) ∈ cmdLut.entries) (huri : IsUri uri) {b : UInt8}
    (hb : b = 13 ∨ b = 10 ∨ b = 0) : b ∉ renderLine method uri := by
  intro hmem
  rw [renderLine, List.mem_append, List.mem_cons, List.mem_append, List.mem_cons] at hmem
  obtain hmem | hmem | hmem | hmem | hmem := hmem
  · have hne := (method_bytes hmethod).2 b hmem
    obtain rfl | rfl | rfl := hb <;> simp at hne
  · subst hmem
    revert hb
    decide
  · have hne := huri.2 b hmem
    obtain rfl | rfl | rfl := hb <;> simp at hne
  · subst hmem
    revert hb
    decide
  · revert hmem
    obtain rfl | rfl | rfl := hb <;> decide

theorem not_mem_renderHeaders (hvalid : ∀ line ∈ lines, line.Valid) : 0 ∉ renderHeaders lines := by
  rw [renderHeaders, List.mem_append, List.mem_flatMap]
  rintro (⟨line, hline, hmem⟩ | hmem)
  · rw [List.mem_append] at hmem
    obtain hmem | hmem := hmem
    · exact HeaderLine.not_mem_text (hvalid line hline) (.inl rfl) hmem
    · exact absurd hmem (by decide)
  · exact absurd hmem (by decide)

theorem render_at (hmethod : (method, cmd) ∈ cmdLut.entries) (huri : IsUri uri)
    (hvalid : ∀ line ∈ lines, line.Valid) (k : ℕ) (back : Bytes) :
    LineParser.At (renderRequest k method uri lines ++ back)
      ⟨0, (renderRequest k method uri lines).length⟩ (renderRequest k method uri lines) back := by
  refine ⟨rfl, rfl, ?_, ?_⟩
  · rw [renderRequest_eq, List.mem_append, List.mem_append, List.mem_append, not_or, not_or, not_or]
    refine ⟨?_, ⟨not_mem_renderLine hmethod huri (.inr (.inr rfl)), by decide⟩,
      not_mem_renderHeaders hvalid⟩
    intro hmem
    obtain ⟨t, ht, hmem⟩ := List.mem_flatten.1 hmem
    obtain rfl := List.eq_of_mem_replicate ht
    exact absurd hmem (by decide)
  · rw [renderRequest_eq, renderHeaders, ← List.append_assoc, ← List.append_assoc]
    exact List.suffix_append _ _

theorem askedMethod_render (hmethod : (method, cmd) ∈ cmdLut.entries) (commands : List RtspCommand) :
    Parser.askedMethod P commands method [uri, ascii "RTSP/1.0"] = some (.command cmd
      (if cmd ∈ commands then ErrorCode.ok else ErrorCode.methodNotValidInThisState)) := by
  have hlookup := lookupCommand_entry P hmethod
  have hall : ∀ entry ∈ cmdLut.entries, entry.2 ≠ .unknown ∧ entry.2 ≠ .kill := by decide
  obtain ⟨hunknown, hkill⟩ := hall _ hmethod
  rw [Parser.askedMethod, hlookup, if_neg (by simp [hunknown])]
  cases cmd with
  | unknown => exact absurd rfl hunknown
  | kill => exact absurd rfl hkill
  | _ => simp [Parser.isAllowable]

theorem length_emptyLines (k : ℕ) : k ≤ (List.replicate k crlf).flatten.length := by
  induction k with
  | zero => exact Nat.zero_le _
  | succ k ih =>
      have hcrlf : crlf.length = 2 := rfl
      rw [List.replicate_succ, List.flatten_cons, List.length_append, hcrlf]
      omega

/-- The parser reaches the headers of a rendered request. -/
theorem parse_render {η : Type} (handler : Handler η) (h : η) (commands : List RtspCommand)
    (hmethod : (method, cmd) ∈ cmdLut.entries) (huri : IsUri uri)
    (hvalid : ∀ line ∈ lines, line.Valid) (k : ℕ) (back : Bytes) :
    Parser.Leads handler h
      (Parser.parse P handler commands (renderRequest k method uri lines ++ back) 0
        (renderRequest k method uri lines).length h)
      (Parser.opened (renderRequest k method uri lines ++ back) 0
        (renderRequest k method uri lines).length)
      (renderHeaders lines) back [uri, ascii "RTSP/1.0"]
      (some (.command cmd
        (if cmd ∈ commands then ErrorCode.ok else ErrorCode.methodNotValidInThisState))) := by
  obtain ⟨hne, hbytes⟩ := method_bytes hmethod
  have hat := render_at hmethod huri hvalid k back
  have hline : 13 ∉ renderLine method uri := not_mem_renderLine hmethod huri (.inl rfl)
  have hnot : ¬crlf <+: renderLine method uri ++ crlf ++ renderHeaders lines := by
    obtain ⟨b, rest, rfl⟩ := List.exists_cons_of_ne_nil hne
    intro hstarts
    obtain ⟨hb, -⟩ := List.cons_prefix_cons.1 hstarts
    exact (hbytes b List.mem_cons_self).2.1 hb.symm
  have hsize : (renderRequest k method uri lines).length ≠ 0 := by
    have hcrlf : crlf.length = 2 := rfl
    simp only [renderRequest_eq, List.length_append, hcrlf]
    omega
  have hfuel : k < (renderRequest k method uri lines).length + 1 := by
    have hempty := length_emptyLines k
    rw [renderRequest_eq, List.length_append]
    omega
  obtain ⟨lp, m, hnew, hat'⟩ := LineParser.At.skipLeading_replicate hnot
    (List.append_ne_nil_of_right_ne_nil _ (Parser.renderHeaders_ne_nil lines)) hat hfuel
  have hleads := Parser.parse_leads P commands handler h hsize hnew hat'
    (LineParser.find_crlf hline _) (Parser.renderHeaders_ne_nil lines)
  rw [renderLine_words hmethod huri] at hleads
  change Parser.Leads handler h _ _ _ _ [uri, ascii "RTSP/1.0"]
    (Parser.askedMethod P commands method [uri, ascii "RTSP/1.0"]) at hleads
  rw [askedMethod_render hmethod] at hleads
  exact hleads

end Request

/-- `process` of a rendered request calls `handler->command` once, with the command and the uri of the
request line, the numbers of the last CSeq and Session lines, and the code for a command that is not
allowed in the state. -/
theorem Session.process_render (P : Lookup) (s : Session) {commands : List RtspCommand}
    (hallow : allowable s.state = .ok commands) (k : ℕ) {method : Bytes} {cmd : RtspCommand}
    (hmethod : (method, cmd) ∈ cmdLut.entries) {uri : Bytes} (huri : IsUri uri)
    {lines : List HeaderLine} (hvalid : ∀ line ∈ lines, line.Valid) (back : Bytes) :
    ∃ (p : ℕ) (hdrs : RtspHeader) (m : Bytes), string m p = .ok uri ∧
      hdrs.cseq = ((lines.filterMap HeaderLine.cseq?).getLast?.map Int.ofNat).getD 0 ∧
      hdrs.sessionId = (lines.filterMap HeaderLine.session?).getLast?.getD 0 ∧
      hdrs.acceptSdp = true ∧
      ∀ {η : Type} (handler : Handler η) (h : η),
        s.process P handler h (renderRequest k method uri lines ++ back)
          (renderRequest k method uri lines).length = (do
            let errorCode := if cmd ∈ commands then ErrorCode.ok else ErrorCode.methodNotValidInThisState
            let (code, h) ← handler.command cmd (some p) hdrs errorCode m h
            let (result, s) := s.transition
              (if code = ErrorCode.ok ∧ errorCode = ErrorCode.ok then cmd else .unknown)
            return ⟨result, s, h, m⟩) := by
  obtain ⟨m, lp, p, text, -, hstart, hopened, htext⟩ :=
    parse_render (P := P) HandlerCall.recorder none commands hmethod huri hvalid k back
  obtain rfl := Option.some.inj htext
  obtain ⟨m', hheaders, htake⟩ := Parser.readHeaders_render hvalid hopened.lines
  obtain ⟨hcseq, hsession, haccept⟩ := foldl_apply lines { acceptSdp := true }
  refine ⟨p, _, m', string_of_take hopened.uri_eq hopened.uri_lt htake, hcseq, hsession, haccept, ?_⟩
  intro η handler h
  obtain ⟨m₁, lp₁, p₁, -, hparse, hstart₁, -, -⟩ :=
    parse_render (P := P) handler h commands hmethod huri hvalid k back
  obtain ⟨hp, hrest⟩ := Prod.mk.inj (Except.ok.inj (hstart.symm.trans hstart₁))
  obtain ⟨rfl, rfl⟩ := Prod.mk.inj hrest
  obtain rfl := Option.some.inj hp
  rw [process, hallow, ok_bind, hparse, Parser.parseCommand, hheaders]
  simp only [ok_bind]
  cases handler.command cmd (some p) (lines.foldl HeaderLine.apply { acceptSdp := true })
      (if cmd ∈ commands then ErrorCode.ok else ErrorCode.methodNotValidInThisState) m' h with
  | error e => rfl
  | ok r => rfl

/-- An OPTIONS request behind two empty lines. -/
def optionsText : Bytes :=
  renderRequest 2 (ascii "OPTIONS") (ascii "rtsp://a/b")
    [.cseq 7, .session 0xffffffff, .other (ascii "User-Agent") (ascii "VLC"), .cseq 8]

/-- The second CSeq counts, and a handler that takes nothing but OPTIONS is content. -/
theorem Session.process_render_options : ∃ (p : ℕ) (hdrs : RtspHeader) (m : Bytes),
    string m p = .ok (ascii "rtsp://a/b") ∧ hdrs.cseq = 8 ∧ hdrs.sessionId = 0xffffffff ∧
      ∃ r, Session.new.process Lookup.literal ⟨fun _ _ => .error .assertFailed,
        fun cmd uri _ code _ h => if cmd = .options ∧ uri = some p ∧ code = ErrorCode.ok then
          .ok (ErrorCode.ok, h) else .error .assertFailed⟩ () optionsText optionsText.length =
            .ok r := by
  have hallow : Session.allowable Session.new.state = .ok [.setup, .options, .describe] := rfl
  have hmethod : (ascii "OPTIONS", RtspCommand.options) ∈ cmdLut.entries := by decide
  have huri : IsUri (ascii "rtsp://a/b") := ⟨by decide, by decide +kernel⟩
  have hnumber : (7 : ℕ) < 2 ^ 31 ∧ (8 : ℕ) < 2 ^ 31 := by decide
  have hother : HeaderLine.Valid (.other (ascii "User-Agent") (ascii "VLC")) :=
    ⟨by decide, by decide +kernel, by decide +kernel, by decide +kernel⟩
  have hvalid : ∀ line ∈ [HeaderLine.cseq 7, .session 0xffffffff,
      .other (ascii "User-Agent") (ascii "VLC"), .cseq 8], line.Valid := by
    simp only [List.mem_cons, List.not_mem_nil, or_false, forall_eq_or_imp, forall_eq]
    exact ⟨hnumber.1, trivial, hother, hnumber.2⟩
  obtain ⟨p, hdrs, m, hp, hcseq, hsession, -, hprocess⟩ :=
    Session.process_render Lookup.literal Session.new hallow 2 hmethod huri hvalid []
  refine ⟨p, hdrs, m, hp, hcseq, hsession, ?_⟩
  rw [List.append_nil] at hprocess
  rw [optionsText, hprocess]
  simp

end WifiAudio
