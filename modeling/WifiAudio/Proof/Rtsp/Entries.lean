import Mathlib.Data.List.DropRight
import WifiAudio.Proof.Rtsp.Lines
import WifiAudio.Proof.Rtsp.Ports

/-!
# What is read into the entries

Every Transport header is cut into specs, which are read into the entries of their places one after
another, up to the spec or the line at which the parser gives up. The texts it takes for specs are
found by going the same way; the client's ports in an entry are those that these texts leave.
-/

namespace WifiAudio

open CString Except

namespace Parser

/-- The texts that the loop over the specs reads, with their entries. -/
def specTexts : List (Fin maxTransports × ℕ) → Bytes → RtspHeader → List (Fin maxTransports × Bytes)
  | [], _, _ => []
  | (idx, line) :: rest, m, hdr =>
      (idx, text (m.drop line)) ::
        match parseSpec m line (hdr.transport idx) with
        | .ok (true, t, m) => specTexts rest m (hdr.setTransport idx t)
        | _ => []

def transportTexts (m : Bytes) (hdr : RtspHeader) : Option ℕ → List (Fin maxTransports × Bytes)
  | none => []
  | some ss =>
      match findSpecs ss (sizeSub (text (m.drop ss)).length 4) 0 [] m with
      | .ok (lines, m) => specTexts ((List.finRange maxTransports).zip lines) m hdr
      | .error _ => []

def headerTexts (m : Bytes) (header : ℕ) (save : Option ℕ) (hdr : RtspHeader) :
    List (Fin maxTransports × Bytes) :=
  if strncasecmpEq (ascii "Transport:") (text (m.drop header)) then transportTexts m hdr save else []

def lineTexts : ℕ → Bytes → LineParser → RtspHeader → List (Fin maxTransports × Bytes)
  | 0, _, _, _ => []
  | fuel + 1, m, lp, hdr =>
      match LineParser.getline m lp with
      | .ok (some line, lp, m) =>
          match strtok_r m (some line) space none with
          | .ok (some header, save, m) =>
              headerTexts m header save hdr ++
                match readHeader m header save hdr with
                | .ok (true, hdr, m) => lineTexts fuel m lp hdr
                | _ => []
          | _ => []
      | _ => []

/-- The texts that are read as specs in a request of `sz` bytes at `data`. -/
def textsRead (m : Bytes) (data sz : ℕ) : List (Fin maxTransports × Bytes) :=
  match opened m data sz with
  | .ok (_, lp, m) => lineTexts (lp.size + 1) m lp { ({} : RtspHeader) with acceptSdp := true }
  | .error _ => []

/-- The text that is read into an entry last. -/
def lastText (reads : List (Fin maxTransports × Bytes)) (i : Fin maxTransports) : Option Bytes :=
  (reads.filter fun spec => spec.1 = i).getLast?.map Prod.snd

/-- The texts of the client port options that are read into an entry. -/
def portsRead (reads : List (Fin maxTransports × Bytes)) (i : Fin maxTransports) : List Bytes :=
  (reads.filter fun spec => spec.1 = i).flatMap fun spec => portTexts (readable (options spec.2))

/-- The text in front of the next `RTP/`. -/
def beforeNext : Bytes → Bytes
  | [] => []
  | b :: s => if (ascii "RTP/").isPrefixOf (b :: s) then [] else b :: beforeNext s

/-- The spec itself: the texts are only cut in front of the first specs of a header, and only where
there is a space or a comma. -/
def ownText (l : Bytes) : Bytes :=
  (l.take 1 ++ beforeNext (l.drop 1)).rdropWhile fun b => b = space ∨ b = comma

/-- The texts are read one after another into the entries' ports. -/
def ReadInto (reads : List (Fin maxTransports × Bytes)) (hdr hdr' : RtspHeader) : Prop :=
  ∀ i, (hdr'.transport i).clientPort = (portsRead reads i).foldl portsStep (hdr.transport i).clientPort

variable {m m' l : Bytes} {q : ℕ} {ok : Bool} {hdr hdr' hdr'' : RtspHeader}
  {reads reads' : List (Fin maxTransports × Bytes)}

theorem ReadInto.of_transport (hsame : hdr'.transport = hdr.transport) : ReadInto [] hdr hdr' := by
  intro i
  rw [hsame]
  rfl

theorem ReadInto.trans (h : ReadInto reads hdr hdr') (h' : ReadInto reads' hdr' hdr'') :
    ReadInto (reads ++ reads') hdr hdr'' := by
  intro i
  rw [portsRead, List.filter_append, List.flatMap_append, List.foldl_append, h' i, h i]
  rfl

/-! ### The specs -/

theorem string_text (hstring : string m q = .ok l) : text (m.drop q) = l := by
  rw [string] at hstring
  split at hstring
  · exact Except.ok.inj hstring
  · cases hstring

theorem specOf_clientPort (l : Bytes) (t : Transport) :
    (specOf l t).2.clientPort = (portTexts (readable (options l))).foldl portsStep t.clientPort := by
  have hprotocol : (protocolOf ((tokens semicolon l).headD []) (setDefaults t)).clientPort =
      t.clientPort := by
    unfold protocolOf setRtp
    simp only []
    split <;> split <;> rfl
  rw [specOf, optionsOf_eq]
  change ((readable (options l)).foldl applyOption _).clientPort = _
  rw [foldl_clientPort, hprotocol]

theorem parseSpec_ports {t t' : Transport} (h : parseSpec m q t = .ok (ok, t', m')) :
    t'.clientPort =
      (portTexts (readable (options (text (m.drop q))))).foldl portsStep t.clientPort := by
  cases hstring : string m q with
  | error f =>
      have hfault : strtok_r m (some q) semicolon none = .error f := by
        rw [strtok_r]
        change (string m q >>= _) = _
        rw [hstring]
        rfl
      rw [parseSpec, hfault] at h
      cases h
  | ok l =>
      rw [string_text hstring]
      obtain ⟨-, hnot⟩ | ⟨p, t₁, m₁, -, hcall, -, hsettled⟩ := parseSpec_string hstring t
      · exact absurd h (hnot _)
      · obtain ⟨-, hsame⟩ := Prod.mk.inj (Except.ok.inj (hcall.symm.trans h))
        obtain ⟨rfl, rfl⟩ := Prod.mk.inj hsame
        rw [← specOf_clientPort, ← hsettled m₁ fun _ _ _ => rfl]
        rfl

theorem parseSpecs_reads {specs : List (Fin maxTransports × ℕ)}
    (h : parseSpecs specs m hdr = .ok (ok, hdr', m')) : ReadInto (specTexts specs m hdr) hdr hdr' := by
  induction specs generalizing m hdr with
  | nil =>
      obtain ⟨-, rfl, -⟩ : true = ok ∧ hdr = hdr' ∧ m = m' := by simpa [parseSpecs] using h
      exact .of_transport rfl
  | cons spec rest ih =>
      obtain ⟨idx, line⟩ := spec
      rw [parseSpecs] at h
      obtain ⟨⟨taken, t, m₁⟩, hspec, h⟩ := bind_eq_ok.1 h
      have hone : ReadInto [(idx, text (m.drop line))] hdr (hdr.setTransport idx t) := by
        intro i
        by_cases hi : i = idx
        · subst hi
          rw [RtspHeader.transport_setTransport, parseSpec_ports hspec, portsRead]
          simp
        · rw [RtspHeader.transport_setTransport_of_ne hi, portsRead,
            List.filter_cons_of_neg (by simpa using Ne.symm hi)]
          rfl
      rw [specTexts, hspec]
      cases taken with
      | false =>
          obtain ⟨-, rfl, -⟩ : false = ok ∧ hdr.setTransport idx t = hdr' ∧ m₁ = m' := by simpa using h
          exact hone
      | true =>
          have hrest := ih h
          exact hone.trans hrest

theorem parseTransport_reads {save : Option ℕ} (h : parseTransport m hdr save = .ok (ok, hdr', m')) :
    ReadInto (transportTexts m hdr save) hdr hdr' := by
  cases save with
  | none => cases h
  | some ss =>
      obtain ⟨n, hlength, hsearch⟩ := bind_eq_ok.1 h
      obtain ⟨⟨lines, m₁⟩, hfind, hspecs⟩ := bind_eq_ok.1 hsearch
      obtain ⟨l, hstring, hn⟩ := bind_eq_ok.1 hlength
      rw [← Except.ok.inj hn] at hfind
      rw [transportTexts, string_text hstring, hfind]
      exact parseSpecs_reads hspecs

/-! ### The header lines -/

private theorem number_other {save : Option ℕ} (set : ℤ → RtspHeader)
    (hset : ∀ n, (set n).transport = hdr.transport)
    (h : (do
      let (s, _, m) ← strtok_r m none space save
      match ← getNumber m s 10 with
      | none => return (false, hdr, m)
      | some (n, _) => return (true, set n, m)) = Except.ok (ε := Fault) (ok, hdr', m')) :
    hdr'.transport = hdr.transport := by
  obtain ⟨⟨s, save', m₁⟩, -, h⟩ := bind_eq_ok.1 h
  obtain ⟨number, -, h⟩ := bind_eq_ok.1 h
  cases number with
  | none =>
      obtain ⟨-, rfl, -⟩ : false = ok ∧ hdr = hdr' ∧ m₁ = m' := by simpa using h
      rfl
  | some number =>
      obtain ⟨-, rfl, -⟩ : true = ok ∧ set number.1 = hdr' ∧ m₁ = m' := by simpa using h
      exact hset _

theorem readHeader_entries {header : ℕ} {name : Bytes} {save : Option ℕ} (hname : string m header = .ok name)
    (hother : strncasecmpEq (ascii "Transport:") name = false)
    (h : readHeader m header save hdr = .ok (ok, hdr', m')) : hdr'.transport = hdr.transport := by
  rw [readHeader, hname] at h
  simp only [ok_bind] at h
  split at h
  · exact number_other (fun n => { hdr with cseq := n }) (fun _ => rfl) h
  · split at h
    · exact number_other (fun n => { hdr with sessionId := UInt32.ofInt n }) (fun _ => rfl) h
    · split at h
      · obtain ⟨⟨accept, m₁⟩, -, h⟩ := bind_eq_ok.1 h
        obtain ⟨-, rfl, -⟩ : true = ok ∧ { hdr with acceptSdp := accept } = hdr' ∧ m₁ = m' := by
          simpa using h
        rfl
      · rw [if_neg (by rw [hother]; decide)] at h
        obtain ⟨-, rfl, -⟩ : true = ok ∧ hdr = hdr' ∧ m = m' := by simpa using h
        rfl

theorem readHeader_reads {header : ℕ} {save : Option ℕ}
    (h : readHeader m header save hdr = .ok (ok, hdr', m')) :
    ReadInto (headerTexts m header save hdr) hdr hdr' := by
  cases hname : string m header with
  | error f =>
      rw [readHeader, hname] at h
      cases h
  | ok name =>
      rw [headerTexts, string_text hname]
      cases htransport : strncasecmpEq (ascii "Transport:") name with
      | true =>
          rw [readHeader_transport hname htransport] at h
          exact parseTransport_reads h
      | false => exact .of_transport (readHeader_entries hname htransport h)

theorem readLines_reads {fuel : ℕ} {lp : LineParser} (h : readLines fuel m lp hdr = .ok (ok, hdr', m')) :
    ReadInto (lineTexts fuel m lp hdr) hdr hdr' := by
  induction fuel generalizing m lp hdr with
  | zero => cases h
  | succ fuel ih =>
      rw [readLines] at h
      obtain ⟨⟨line, lp₁, m₁⟩, hline, h⟩ := bind_eq_ok.1 h
      rw [lineTexts, hline]
      cases line with
      | none =>
          obtain ⟨-, rfl, -⟩ : true = ok ∧ hdr = hdr' ∧ m₁ = m' := by simpa using h
          exact .of_transport rfl
      | some line =>
          obtain ⟨⟨header, save, m₂⟩, hword, h⟩ := bind_eq_ok.1 h
          simp only [hword]
          cases header with
          | none =>
              obtain ⟨-, rfl, -⟩ : true = ok ∧ hdr = hdr' ∧ m₂ = m' := by simpa using h
              exact .of_transport rfl
          | some header =>
              obtain ⟨⟨read, hdr₁, m₃⟩, hread, h⟩ := bind_eq_ok.1 h
              have hone := readHeader_reads hread
              simp only [hread]
              cases read with
              | false =>
                  obtain ⟨-, rfl, -⟩ : false = ok ∧ hdr₁ = hdr' ∧ m₃ = m' := by simpa using h
                  rw [List.append_nil]
                  exact hone
              | true => exact hone.trans (ih h)

/-! ### What is read last -/

/-- Two ports in the text that is read last are what is left. -/
theorem foldl_lastText {i : Fin maxTransports} {first last : Bytes} (hlast : lastText reads i = some l)
    (hwritten : PortsWritten (readable (options l)) first last) (ports : ℤ × ℤ) :
    (portsRead reads i).foldl portsStep ports =
      ((digitsValue 10 first : ℤ), (digitsValue 10 last : ℤ)) := by
  obtain ⟨spec, hspec, rfl⟩ := Option.map_eq_some_iff.1 hlast
  obtain ⟨specs, hspecs⟩ := List.getLast?_eq_some_iff.1 hspec
  obtain ⟨texts, htexts⟩ := List.getLast?_eq_some_iff.1 hwritten.text_eq
  rw [portsRead, hspecs, List.flatMap_append, List.flatMap_singleton, htexts, ← List.append_assoc,
    List.foldl_append]
  exact portsStep_written hwritten.first_port hwritten.last_port _

end Parser

end WifiAudio
