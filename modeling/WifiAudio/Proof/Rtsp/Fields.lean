import WifiAudio.Proof.Rtsp.Lines
import WifiAudio.Proof.Rtsp.Placed

/-!
# What a header line says

The loop over the header lines takes one line after another and stops at the first one that it cannot
read, or that has no word in it. Whether it gets past a line (`passed`) and what it takes from it, apart
from the transports (`lineFields`), is computed from the line's text.
-/

namespace WifiAudio

open CString Except

namespace Parser

/-- The loop goes on behind a header with this name, `rest` the text behind the name. -/
def headerPassed (name rest : Bytes) : Bool :=
  if Numbered name then !(tokens space rest).isEmpty
  else if strncasecmpEq (ascii "Transport:") name then transportRead rest
  else true

/-- What a header sets, apart from the transports. -/
def headerFields (name rest : Bytes) (hdr : RtspHeader) : RtspHeader :=
  if strncasecmpEq (ascii "CSeq:") name then
    ((tokens space rest).head?.map fun w => { hdr with cseq := (numberOf 10 w).1 }).getD hdr
  else if strncasecmpEq (ascii "Session:") name then
    ((tokens space rest).head?.map fun w =>
      { hdr with sessionId := UInt32.ofInt (numberOf 10 w).1 }).getD hdr
  else if strncasecmpEq (ascii "Accept:") name then
    { hdr with acceptSdp := (tokens space rest).any (strncasecmpEq (ascii "application/sdp")) }
  else hdr

/-- The loop goes on behind the line. -/
def passed (line : Bytes) : Bool :=
  (tokens space line).head?.any fun name => headerPassed name (behind space line)

def lineFields (hdr : RtspHeader) (line : Bytes) : RtspHeader :=
  ((tokens space line).head?.map fun name => headerFields name (behind space line) hdr).getD hdr

/-- A header line; behind the first space of a Transport header are four characters at least. -/
structure BoundedLine (line : Bytes) : Prop where
  one : ¬crlf <:+: line
  long : ∀ name ∈ (tokens space line).head?, strncasecmpEq (ascii "Transport:") name = true →
    4 ≤ (behind space line).length

variable {m left back l : Bytes} {stop : ℕ} {lines : List Bytes}

/-! ### One line -/

theorem bare_getD {w : Option Bytes} {set set' : Bytes → RtspHeader} {hdr : RtspHeader}
    (hset : ∀ b, (set b).bare = set' b) :
    ((w.map set).getD hdr).bare = (w.map set').getD hdr.bare := by
  cases w with
  | none => rfl
  | some b => exact hset b

/-- A header is passed or not, and sets its field, as its text says. -/
theorem readHeader_fields {header : ℕ} {name : Bytes} (hname : string m header = .ok name)
    (hstring : string m stop = .ok l)
    (hlong : strncasecmpEq (ascii "Transport:") name = true → 4 ≤ l.length) (hdr : RtspHeader) :
    ∃ hdr' m', readHeader m header (some stop) hdr = .ok (headerPassed name l, hdr', m') ∧
      hdr'.bare = headerFields name l hdr.bare ∧ Kept stop (stop + l.length) m m' := by
  rw [readHeader, hname, headerPassed, headerFields]
  simp only [ok_bind]
  split
  case isTrue hcseq =>
    obtain ⟨m', heq, hkept⟩ := number_fields hstring hdr fun n => { hdr with cseq := n }
    have hnumbered : Numbered name := .inl hcseq
    rw [if_pos hnumbered]
    exact ⟨_, m', heq, bare_getD fun w => rfl, hkept⟩
  case isFalse hcseq =>
    split
    case isTrue hsession =>
      obtain ⟨m', heq, hkept⟩ :=
        number_fields hstring hdr fun n => { hdr with sessionId := UInt32.ofInt n }
      have hnumbered : Numbered name := .inr hsession
      rw [if_pos hnumbered]
      exact ⟨_, m', heq, bare_getD fun w => rfl, hkept⟩
    case isFalse hsession =>
      have hnumbered : ¬Numbered name := not_or.2 ⟨hcseq, hsession⟩
      rw [if_neg hnumbered]
      by_cases htransport : strncasecmpEq (ascii "Transport:") name = true
      · obtain ⟨-, -, haccept⟩ := other_of_transport htransport
        obtain ⟨hdr', m', hparse, hkept, hbare⟩ :=
          parseTransport_read (hlong htransport) hstring hdr
        simp only [haccept, htransport, Bool.false_eq_true, if_false, if_true, hparse]
        exact ⟨hdr', m', rfl, hbare, hkept⟩
      · rw [if_neg htransport, if_neg htransport]
        split
        · obtain ⟨m', heq, hkept⟩ := acceptsSdp_any hstring
            (show l.length < m.length + 1 from Nat.lt_succ_of_lt (length_lt_of_string hstring))
          rw [heq]
          exact ⟨_, m', rfl, rfl, hkept⟩
        · exact ⟨hdr, m, rfl, rfl, .refl m⟩

theorem headerFields_of_stops {name rest : Bytes} (hstops : headerPassed name rest = false)
    (hdr : RtspHeader) : headerFields name rest hdr = hdr := by
  rw [headerPassed] at hstops
  split at hstops
  case isTrue hnumbered =>
    have hempty : tokens space rest = [] := by simpa using hstops
    rw [headerFields, hempty]
    obtain hcseq | hsession := hnumbered
    · rw [if_pos hcseq]
      rfl
    · rw [if_pos hsession]
      exact ite_self hdr
  case isFalse hnumbered =>
    obtain ⟨hcseq, hsession⟩ := not_or.1 hnumbered
    split at hstops
    case isTrue htransport =>
      obtain ⟨-, -, haccept⟩ := other_of_transport htransport
      rw [headerFields, if_neg hcseq, if_neg hsession, haccept]
      rfl
    case isFalse => cases hstops

end Parser

end WifiAudio
