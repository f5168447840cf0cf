import WifiAudio.Lib.Decimal
import WifiAudio.Lib.Token
import WifiAudio.Proof.Audio.Encode
import WifiAudio.Proof.Rtp.Stream
import WifiAudio.Rtsp.Handler

/-!
# The description and the stream

DESCRIBE answers with a text that a client reads for the payload type, the encoding, the clock rate
and the channels of the stream. The codec prints some of them from its configuration, while the stream
is built with the numbers its methods return, so the two agree on some configurations only.
-/

namespace WifiAudio

open CString Except Transition

/-! ### Reading a description -/

/-- What a client takes from a description: the payload types of the media line and of the rtpmap
line, and the encoding, the clock rate and the channels the latter gives. -/
structure MediaDescription where
  format : ℤ
  mapped : ℤ
  encoding : Bytes
  clock : ℤ
  chans : Option ℤ
  deriving DecidableEq, Repr

namespace MediaDescription

def mediaKey : Bytes := ascii "m=audio 0 RTP/AVP "
def mapKey : Bytes := ascii "a=rtpmap:"

/-- What stands behind `key` in the first line that starts with it. -/
def lineOf (key sdp : Bytes) : Option Bytes :=
  ((sdp.splitOn 10).find? fun line => key.isPrefixOf line).map fun line => line.drop key.length

def number (s : Bytes) : ℤ := (strtoll s 10).1

def read (sdp : Bytes) : Option MediaDescription := do
  let media ← lineOf mediaKey sdp
  let map ← lineOf mapKey sdp
  match (map.drop ((strtoll map 10).2 + 1)).splitOn 47 with
  | encoding :: clock :: chans =>
      some ⟨number media, number map, encoding, number clock, chans.head?.map number⟩
  | _ => none

/-- The bits of a linear encoding, as `16` in `L16`. -/
def bits (d : MediaDescription) : ℤ := number (d.encoding.drop 1)

/-! ### Lines -/

/-- The lines with their line ends. -/
def unlines (lines : List Bytes) : Bytes := lines.flatMap fun line => line ++ [10]

theorem splitOn_unlines {lines : List Bytes} (hlines : ∀ line ∈ lines, 10 ∉ line) (rest : Bytes) :
    (unlines lines ++ rest).splitOn 10 = lines ++ rest.splitOn 10 := by
  induction lines with
  | nil => rfl
  | cons line lines ih =>
      have hline := splitOn_append (s := unlines lines ++ rest) (hlines line List.mem_cons_self)
      rw [unlines, List.flatMap_cons, List.append_assoc, List.append_assoc]
      change (line ++ 10 :: (unlines lines ++ rest)).splitOn 10 = _
      rw [hline, ih fun l hl => hlines l (List.mem_cons_of_mem _ hl)]
      rfl

theorem lineOf_unlines {key value : Bytes} {front back : List Bytes} {rest : Bytes}
    (hlines : ∀ line ∈ front ++ (key ++ value) :: back, 10 ∉ line)
    (hfront : ∀ line ∈ front, key.isPrefixOf line = false) :
    lineOf key (unlines (front ++ (key ++ value) :: back) ++ rest) = some value := by
  have hnone : front.find? (fun line => key.isPrefixOf line) = none := by
    rw [List.find?_eq_none]
    intro line hline
    rw [hfront line hline]
    exact Bool.false_ne_true
  have hfound : key.isPrefixOf (key ++ value) = true :=
    List.isPrefixOf_iff_prefix.2 (List.prefix_append _ _)
  rw [lineOf, splitOn_unlines hlines, List.append_assoc, List.find?_append, hnone, Option.none_or,
    List.cons_append, List.find?_cons_of_pos (h := hfound), Option.map_some, List.drop_left]

end MediaDescription

/-! ### Numbers in a description -/

theorem decimal_not_mem {v : ℤ} {b : UInt8} (hb : b = 10 ∨ b = 47) : b ∉ decimal v := by
  intro hmem
  rcases mem_ascii_toString hmem with rfl | hdigit
  · exact absurd hb (by decide)
  · rcases hb with rfl | rfl
    · exact absurd hdigit (by decide)
    · exact absurd hdigit (by decide)

theorem length_decimal {v : ℤ} (hlow : -2 ^ 31 ≤ v) (hhigh : v < 2 ^ 31) :
    (decimal v).length ≤ 11 := by
  rw [decimal, ascii_toString_int]
  split
  · exact (length_natDigits (k := 10) (by decide) (by omega)).trans (by decide)
  · exact Nat.succ_le_succ (length_natDigits (k := 10) (by decide) (by omega))

/-- The value fits into an `int`. -/
def InRange (v : ℤ) : Prop := -2 ^ 31 ≤ v ∧ v < 2 ^ 31

instance (v : ℤ) : Decidable (InRange v) := inferInstanceAs (Decidable (_ ∧ _))

theorem strtoll_before {v : ℤ} (hv : InRange v) {b : UInt8} (hb : digitValue b = none) (rest : Bytes) :
    strtoll (decimal v ++ b :: rest) 10 = (v, (decimal v).length) := by
  obtain ⟨hlow, hhigh⟩ := hv
  refine strtoll_decimal (.inr rfl) (by omega) (by omega) ?_
  rintro _ ⟨⟩
  exact hb

theorem strtoll_whole {v : ℤ} (hv : InRange v) : strtoll (decimal v) 10 = (v, (decimal v).length) := by
  obtain ⟨hlow, hhigh⟩ := hv
  have hread : strtoll (decimal v ++ []) 10 = _ :=
    strtoll_decimal (.inr rfl) (by omega) (by omega) fun b hb => by cases hb
  rwa [List.append_nil] at hread

/-! ### The two lines a client looks for -/

namespace MediaDescription

def mediaLine (pt : ℤ) : Bytes := mediaKey ++ (decimal pt ++ [13])

def chansText : Option ℤ → Bytes
  | none => [13]
  | some c => 47 :: (decimal c ++ [13])

def mapLine (pt : ℤ) (name : Bytes) (clock : ℤ) (chans : Option ℤ) : Bytes :=
  mapKey ++ (decimal pt ++ 32 :: (name ++ 47 :: (decimal clock ++ chansText chans)))

variable {front mid : List Bytes} {rest name : Bytes} {pt clock : ℤ} {chans : Option ℤ}

theorem mediaLine_noFeed : 10 ∉ mediaLine pt := by
  have hdecimal : 10 ∉ decimal pt := decimal_not_mem (.inl rfl)
  have hkey : (10 : UInt8) ∉ mediaKey := by decide
  simp [mediaLine, hkey, hdecimal]

theorem mapLine_noFeed (hname : 10 ∉ name) : 10 ∉ mapLine pt name clock chans := by
  have hdecimal : ∀ v, 10 ∉ decimal v := fun v => decimal_not_mem (.inl rfl)
  have hkey : (10 : UInt8) ∉ mapKey := by decide
  cases chans with
  | none => simp [mapLine, chansText, hkey, hdecimal, hname]
  | some c => simp [mapLine, chansText, hkey, hdecimal, hname]

/-- The texts of the clock rate and the channels. -/
def rateFields (clock : ℤ) : Option ℤ → List Bytes
  | none => [decimal clock ++ [13]]
  | some c => [decimal clock, decimal c ++ [13]]

theorem splitOn_map (hname : 47 ∉ name) :
    (name ++ 47 :: (decimal clock ++ chansText chans)).splitOn 47 = name :: rateFields clock chans := by
  have hdecimal : ∀ v, 47 ∉ decimal v := fun v => decimal_not_mem (.inr rfl)
  have hlast : ∀ v, (decimal v ++ [13]).splitOn 47 = [decimal v ++ [13]] := by
    intro v
    apply List.splitOn_eq_singleton
    simp [hdecimal]
  rw [splitOn_append hname]
  cases chans with
  | none => rw [chansText, hlast, rateFields]
  | some c => rw [chansText, splitOn_append (hdecimal clock), hlast, rateFields]

theorem number_whole {v : ℤ} (hv : InRange v) : number (decimal v) = v := by
  rw [number, strtoll_whole hv]

/-- A description with the two lines is read as what they say. -/
theorem read_unlines
    (hfront : ∀ line ∈ front,
      10 ∉ line ∧ mediaKey.isPrefixOf line = false ∧ mapKey.isPrefixOf line = false)
    (hmid : ∀ line ∈ mid, 10 ∉ line ∧ mapKey.isPrefixOf line = false) (hname : 10 ∉ name ∧ 47 ∉ name)
    (hpt : InRange pt) (hclock : InRange clock) (hchans : ∀ c ∈ chans, InRange c) :
    read (unlines (front ++ mediaLine pt :: (mid ++ [mapLine pt name clock chans])) ++ rest) =
      some ⟨pt, pt, name, clock, chans⟩ := by
  have hlines : ∀ line ∈ front ++ mediaLine pt :: (mid ++ [mapLine pt name clock chans]),
      10 ∉ line := by
    intro line hline
    simp only [List.mem_append, List.mem_cons, List.not_mem_nil, or_false] at hline
    rcases hline with hline | rfl | hline | rfl
    · exact (hfront line hline).1
    · exact mediaLine_noFeed
    · exact (hmid line hline).1
    · exact mapLine_noFeed hname.1
  have hmedia : lineOf mediaKey (unlines (front ++ mediaLine pt ::
      (mid ++ [mapLine pt name clock chans])) ++ rest) = some (decimal pt ++ [13]) :=
    lineOf_unlines hlines fun line hline => (hfront line hline).2.1
  have hsplit : front ++ mediaLine pt :: (mid ++ [mapLine pt name clock chans]) =
      (front ++ mediaLine pt :: mid) ++ [mapLine pt name clock chans] := by
    simp
  rw [hsplit] at hlines
  have hmap : lineOf mapKey (unlines (front ++ mediaLine pt ::
      (mid ++ [mapLine pt name clock chans])) ++ rest) =
        some (decimal pt ++ 32 :: (name ++ 47 :: (decimal clock ++ chansText chans))) := by
    rw [hsplit]
    refine lineOf_unlines hlines ?_
    intro line hline
    simp only [List.mem_append, List.mem_cons] at hline
    rcases hline with hline | rfl | hline
    · exact (hfront line hline).2.2
    · rfl
    · exact (hmid line hline).2
  have hread : ∀ v, InRange v → number (decimal v ++ [13]) = v := by
    intro v hv
    rw [number, strtoll_before hv rfl]
  have hmapped := strtoll_before hpt (b := 32) rfl (name ++ 47 :: (decimal clock ++ chansText chans))
  have hdrop : (decimal pt ++ 32 :: (name ++ 47 :: (decimal clock ++ chansText chans))).drop
      ((decimal pt).length + 1) = name ++ 47 :: (decimal clock ++ chansText chans) := by
    rw [← List.drop_drop, List.drop_left]
    rfl
  have hmapped' : number (decimal pt ++ 32 :: (name ++ 47 :: (decimal clock ++ chansText chans))) =
      pt := by
    rw [number, hmapped]
  rw [read, hmedia, hmap]
  simp only [Option.bind_eq_bind, Option.bind_some, hmapped, hmapped', hdrop, splitOn_map hname.2,
    hread pt hpt]
  cases chans with
  | none => simp only [rateFields, List.head?_nil, Option.map_none, hread clock hclock]
  | some c =>
      simp only [rateFields, List.head?_cons, Option.map_some, number_whole hclock,
        hread c (hchans c rfl)]

end MediaDescription

/-! ### The descriptions of the codecs -/

/-- The session's part of a description is printable: the version is the one it is created with, and
the address is the text of one, shorter than `INET6_ADDRSTRLEN`. -/
structure RtspHandler.Printable (h : RtspHandler) : Prop where
  version : h.sessionVersion = 1
  short : h.ipAddr.length < 46
  line : 10 ∉ h.ipAddr

namespace MediaDescription

variable {h : RtspHandler}

/-- The lines of PCM and Opus in front of the media line. -/
def sessionLines (h : RtspHandler) (title : Bytes) : List Bytes :=
  [title, ascii "v=0\r", ascii "o=- " ++ (decimal (toInt h.sessionId.toNat) ++
      (32 :: (decimal h.sessionVersion ++ (ascii " IN IP4 " ++ (h.ipAddr ++ [13]))))),
    ascii "s=Audio Stream\r", ascii "c=IN IP4 0.0.0.0\r", ascii "t=0 0\r"]

theorem sessionLines_plain (hh : h.Printable) {title : Bytes}
    (htitle : 10 ∉ title ∧ mediaKey.isPrefixOf title = false ∧ mapKey.isPrefixOf title = false) :
    ∀ line ∈ sessionLines h title,
      10 ∉ line ∧ mediaKey.isPrefixOf line = false ∧ mapKey.isPrefixOf line = false := by
  have hdecimal : ∀ v, 10 ∉ decimal v := fun v => decimal_not_mem (.inl rfl)
  have hfirst : (10 : UInt8) ∉ ascii "o=- " := by decide
  have hsecond : (10 : UInt8) ∉ ascii " IN IP4 " := by decide
  intro line hline
  simp only [sessionLines, List.mem_cons, List.not_mem_nil, or_false] at hline
  rcases hline with rfl | rfl | rfl | rfl | rfl | rfl
  · exact htitle
  · decide
  · exact ⟨by simp [hdecimal, hfirst, hsecond, hh.line], rfl, rfl⟩
  all_goals decide

private theorem pcm_text (bits freq chans : ℤ) (h : RtspHandler) :
    [SdpPart.text (ascii "k=clear: PCM Encoder\r\nv=0\r\no=- "), .sessionId, .text (ascii " "),
      .sessionVersion, .text (ascii " IN IP4 "), .ipAddr,
      .text (ascii "\r\ns=Audio Stream\r\nc=IN IP4 0.0.0.0\r\nt=0 0\r\nm=audio 0 RTP/AVP " ++
        decimal 96 ++ ascii "\r\na=rtpmap:" ++ decimal 96 ++ ascii " L" ++ decimal bits ++
        ascii "/" ++ decimal freq ++ ascii "/" ++ decimal chans ++ ascii "\r\n")].flatMap h.sdpText =
      unlines (sessionLines h (ascii "k=clear: PCM Encoder\r") ++ mediaLine 96 ::
        ([] ++ [mapLine 96 (ascii "L" ++ decimal bits) freq (some chans)])) ++ [] := by
  have hopen : ascii "k=clear: PCM Encoder\r\nv=0\r\no=- " =
      ascii "k=clear: PCM Encoder\r" ++ 10 :: (ascii "v=0\r" ++ 10 :: ascii "o=- ") := by decide
  have hmiddle : ascii "\r\ns=Audio Stream\r\nc=IN IP4 0.0.0.0\r\nt=0 0\r\nm=audio 0 RTP/AVP " =
      13 :: 10 :: (ascii "s=Audio Stream\r" ++ 10 :: (ascii "c=IN IP4 0.0.0.0\r" ++
        10 :: (ascii "t=0 0\r" ++ 10 :: mediaKey))) := by decide
  have hmap : ascii "\r\na=rtpmap:" = 13 :: 10 :: mapKey := by decide
  have hspace : ascii " L" = 32 :: ascii "L" := by decide
  have hone : ascii " " = [32] := by decide
  have hslash : ascii "/" = [47] := by decide
  have hend : ascii "\r\n" = [13, 10] := by decide
  simp only [RtspHandler.sdpText, sessionLines, mediaLine, mapLine, chansText, unlines, hopen,
    hmiddle, hmap, hspace, hone, hslash, hend, List.flatMap_cons, List.flatMap_nil,
    List.append_assoc, List.cons_append, List.nil_append, List.append_nil]

theorem pcm_lines (bits chans freq : UInt32) (h : RtspHandler) :
    (AudioCodec.pcmSdpFmt bits chans freq).flatMap h.sdpText =
      unlines (sessionLines h (ascii "k=clear: PCM Encoder\r") ++ mediaLine 96 ::
        ([] ++ [mapLine 96 (ascii "L" ++ decimal (toInt bits.toNat)) (toInt freq.toNat)
          (some (toInt chans.toNat))])) ++ [] :=
  pcm_text _ _ _ h

theorem opus_lines (c : OpusCodec) (h : RtspHandler) :
    ∃ rest, (AudioCodec.sdpFmt (.opus c)).flatMap h.sdpText =
      unlines (sessionLines h (ascii "k=clear: Opus Encoder\r") ++ mediaLine 97 ::
        ([] ++ [mapLine 97 (ascii "opus") 48000 (some 2)])) ++ rest := by
  have hopen : ascii "k=clear: Opus Encoder\r\nv=0\r\no=- " =
      ascii "k=clear: Opus Encoder\r" ++ 10 :: (ascii "v=0\r" ++ 10 :: ascii "o=- ") := by decide
  have hmiddle : ascii "\r\ns=Audio Stream\r\nc=IN IP4 0.0.0.0\r\nt=0 0\r\nm=audio 0 RTP/AVP " =
      13 :: 10 :: (ascii "s=Audio Stream\r" ++ 10 :: (ascii "c=IN IP4 0.0.0.0\r" ++
        10 :: (ascii "t=0 0\r" ++ 10 :: mediaKey))) := by decide
  have hmap : ascii "\r\na=rtpmap:" = 13 :: 10 :: mapKey := by decide
  have hname : ascii " opus/48000/2\r\na=fmtp:" =
      32 :: (ascii "opus" ++ 47 :: (decimal 48000 ++ 47 :: (decimal 2 ++ 13 :: 10 ::
        ascii "a=fmtp:"))) := by decide
  have hone : ascii " " = [32] := by decide
  refine ⟨ascii "a=fmtp:" ++ (decimal 97 ++ (ascii " stereo=" ++
    (decimal (if c.config.chans = 2 then 1 else 0) ++ ascii "\r\n"))), ?_⟩
  simp only [AudioCodec.sdpFmt, RtspHandler.sdpText, sessionLines, mediaLine, mapLine, chansText,
    unlines, hopen, hmiddle, hmap, hname, hone, List.flatMap_cons, List.flatMap_nil,
    List.append_assoc, List.cons_append, List.nil_append, List.append_nil]

private theorem codec2_text (clock : ℤ) (mode : Bytes) (h : RtspHandler) :
    [SdpPart.text (ascii "k=clear: Codec2 Encoder\r\nm=audio 0 RTP/AVP " ++ decimal 98 ++
      ascii "\r\nc=IN IP4 0.0.0.0\r\na=rtpmap:" ++ decimal 98 ++ ascii " codec2/" ++ decimal clock ++
      ascii "\r\na=fmtp:" ++ decimal 98 ++ ascii " mode=" ++ mode ++ ascii "\r\n")].flatMap h.sdpText =
      unlines ([ascii "k=clear: Codec2 Encoder\r"] ++ mediaLine 98 ::
        ([ascii "c=IN IP4 0.0.0.0\r"] ++ [mapLine 98 (ascii "codec2") clock none])) ++
        (ascii "a=fmtp:" ++ (decimal 98 ++ (ascii " mode=" ++ (mode ++ ascii "\r\n")))) := by
  have hopen : ascii "k=clear: Codec2 Encoder\r\nm=audio 0 RTP/AVP " =
      ascii "k=clear: Codec2 Encoder\r" ++ 10 :: mediaKey := by decide
  have hmap : ascii "\r\nc=IN IP4 0.0.0.0\r\na=rtpmap:" =
      13 :: 10 :: (ascii "c=IN IP4 0.0.0.0\r" ++ 10 :: mapKey) := by decide
  have hname : ascii " codec2/" = 32 :: (ascii "codec2" ++ [47]) := by decide
  have hend : ascii "\r\na=fmtp:" = 13 :: 10 :: ascii "a=fmtp:" := by decide
  simp only [RtspHandler.sdpText, mediaLine, mapLine, chansText, unlines, hopen, hmap, hname, hend, List.flatMap_cons, List.flatMap_nil, List.append_assoc, List.cons_append,
    List.nil_append, List.append_nil]

theorem codec2_lines (c : Codec2) (h : RtspHandler) :
    ∃ rest, (AudioCodec.sdpFmt (.codec2 c)).flatMap h.sdpText =
      unlines ([ascii "k=clear: Codec2 Encoder\r"] ++ mediaLine 98 ::
        ([ascii "c=IN IP4 0.0.0.0\r"] ++ [mapLine 98 (ascii "codec2") (toInt c.fs.toNat) none])) ++
        rest :=
  ⟨_, codec2_text _ _ h⟩

/-- What fits into the buffer is printed as it is. -/
theorem read_sdp {front mid : List Bytes} {rest name : Bytes} {pt clock : ℤ} {chans : Option ℤ}
    {fmt : SdpFmt}
    (htext : fmt.flatMap h.sdpText =
      unlines (front ++ mediaLine pt :: (mid ++ [mapLine pt name clock chans])) ++ rest)
    (hfits : (unlines (front ++ mediaLine pt :: (mid ++ [mapLine pt name clock chans]))).length ≤ 1023)
    (hfront : ∀ line ∈ front,
      10 ∉ line ∧ mediaKey.isPrefixOf line = false ∧ mapKey.isPrefixOf line = false)
    (hmid : ∀ line ∈ mid, 10 ∉ line ∧ mapKey.isPrefixOf line = false) (hname : 10 ∉ name ∧ 47 ∉ name)
    (hpt : InRange pt) (hclock : InRange clock) (hchans : ∀ c ∈ chans, InRange c) :
    read (h.sdp fmt) = some ⟨pt, pt, name, clock, chans⟩ := by
  rw [RtspHandler.sdp, htext, List.take_append, List.take_of_length_le hfits]
  exact read_unlines hfront hmid hname hpt hclock hchans

theorem length_sessionLines (hh : h.Printable) (title : Bytes) (htitle : title.length ≤ 24) :
    (unlines (sessionLines h title)).length ≤ 200 := by
  have hsid := length_decimal (toInt_bounds h.sessionId.toNat).1 (toInt_bounds h.sessionId.toNat).2
  have hversion : (decimal h.sessionVersion).length ≤ 11 := by
    rw [hh.version]
    decide
  have hshort := hh.short
  have hopen : (ascii "o=- ").length = 4 := rfl
  have hnet : (ascii " IN IP4 ").length = 8 := rfl
  have hv : (ascii "v=0\r").length = 4 := rfl
  have hs : (ascii "s=Audio Stream\r").length = 15 := rfl
  have hc : (ascii "c=IN IP4 0.0.0.0\r").length = 17 := rfl
  have ht : (ascii "t=0 0\r").length = 6 := rfl
  simp only [sessionLines, unlines, List.flatMap_cons, List.flatMap_nil, List.length_append,
    List.length_cons, List.length_nil, hopen, hnet, hv, hs, hc, ht]
  omega

end MediaDescription

/-! ### What a client reads for each codec -/

namespace MediaDescription

variable {h : RtspHandler}

theorem number_linear {v : ℤ} (hv : InRange v) :
    number ((ascii "L" ++ decimal v).drop 1) = v := by
  change number (decimal v) = v
  exact number_whole hv

theorem length_pcm (hh : h.Printable) {bits freq chans : ℤ} (hbits : InRange bits)
    (hfreq : InRange freq) (hchans : InRange chans) :
    (unlines (sessionLines h (ascii "k=clear: PCM Encoder\r") ++ mediaLine 96 ::
      ([] ++ [mapLine 96 (ascii "L" ++ decimal bits) freq (some chans)]))).length ≤ 1023 := by
  have hbits := length_decimal hbits.1 hbits.2
  have hfreq := length_decimal hfreq.1 hfreq.2
  have hchans := length_decimal hchans.1 hchans.2
  have hsession := length_sessionLines hh (ascii "k=clear: PCM Encoder\r") (by decide)
  have hpt : (decimal 96).length = 2 := rfl
  have hmedia : mediaKey.length = 18 := rfl
  have hmap : mapKey.length = 9 := rfl
  have hl : (ascii "L").length = 1 := rfl
  rw [unlines, List.flatMap_append, List.length_append]
  simp only [mediaLine, mapLine, chansText, List.nil_append, List.flatMap_cons, List.flatMap_nil,
    List.length_append, List.length_cons, List.length_nil, hmedia, hmap, hpt, hl]
  rw [unlines] at hsession
  omega

theorem length_codec2 {clock : ℤ} (hclock : InRange clock) :
    (unlines ([ascii "k=clear: Codec2 Encoder\r"] ++ mediaLine 98 ::
      ([ascii "c=IN IP4 0.0.0.0\r"] ++ [mapLine 98 (ascii "codec2") clock none]))).length ≤ 1023 := by
  have hfs := length_decimal hclock.1 hclock.2
  have hpt : (decimal 98).length = 2 := rfl
  have htitle : (ascii "k=clear: Codec2 Encoder\r").length = 24 := rfl
  have hconn : (ascii "c=IN IP4 0.0.0.0\r").length = 17 := rfl
  have hname : (ascii "codec2").length = 6 := rfl
  have hmedia : mediaKey.length = 18 := rfl
  have hmap : mapKey.length = 9 := rfl
  simp only [unlines, mediaLine, mapLine, chansText, List.cons_append, List.nil_append,
    List.flatMap_cons, List.flatMap_nil, List.length_append, List.length_cons, List.length_nil, htitle,
    hconn, hname, hmedia, hmap, hpt]
  omega

theorem read_pcm (hh : h.Printable) (config : PcmConfig) :
    read (h.sdp (AudioCodec.createPcm config).sdpFmt) =
      some ⟨96, 96, ascii "L" ++ decimal (toInt config.bits.toNat), toInt config.freq.toNat,
        some (toInt config.chans.toNat)⟩ := by
  have hname : 10 ∉ ascii "L" ++ decimal (toInt config.bits.toNat) ∧
      47 ∉ ascii "L" ++ decimal (toInt config.bits.toNat) := by
    have hl : (10 : UInt8) ∉ ascii "L" ∧ (47 : UInt8) ∉ ascii "L" := by decide
    simp only [List.mem_append, not_or]
    exact ⟨⟨hl.1, decimal_not_mem (.inl rfl)⟩, ⟨hl.2, decimal_not_mem (.inr rfl)⟩⟩
  refine read_sdp (pcm_lines config.bits config.chans config.freq h)
    (length_pcm hh (toInt_bounds _) (toInt_bounds _) (toInt_bounds _))
    (sessionLines_plain hh (by decide)) (by simp) hname (by decide) (toInt_bounds _) ?_
  intro c hc
  obtain rfl := Option.some.inj hc
  exact toInt_bounds _

theorem read_opus (hh : h.Printable) (c : OpusCodec) :
    read (h.sdp (AudioCodec.sdpFmt (.opus c))) =
      some ⟨97, 97, ascii "opus", 48000, some 2⟩ := by
  obtain ⟨rest, htext⟩ := opus_lines c h
  refine read_sdp htext ?_ (sessionLines_plain hh (by decide)) (by simp) (by decide) (by decide)
    (by decide) (by decide)
  have hsession := length_sessionLines hh (ascii "k=clear: Opus Encoder\r") (by decide)
  have hlines : ([mediaLine 97, mapLine 97 (ascii "opus") 48000 (some 2)].flatMap
      fun line => line ++ [10]).length ≤ 800 := by decide
  rw [unlines, List.flatMap_append, List.length_append]
  rw [unlines] at hsession
  exact (Nat.add_le_add hsession hlines).trans (by decide)

theorem read_codec2 (c : Codec2) (h : RtspHandler) :
    read (h.sdp (AudioCodec.sdpFmt (.codec2 c))) =
      some ⟨98, 98, ascii "codec2", toInt c.fs.toNat, none⟩ := by
  obtain ⟨rest, htext⟩ := codec2_lines c h
  exact read_sdp htext (length_codec2 (toInt_bounds _)) (by decide) (by decide) (by decide)
    (by decide) (toInt_bounds _) (by simp)

end MediaDescription

/-! ### The payload type of the packets -/

namespace Engine

variable {codec : AudioCodec} {e e' : Engine} {op : Op}

/-- Every block of the pool carries the payload type of the codec. -/
def Typed (codec : AudioCodec) (e : Engine) : Prop :=
  ∀ block ∈ e.pool, block.head.Fixed codec.payloadType.toNat

theorem typed_new (codec : AudioCodec) (rtp rtcp : ℤ) (numBuffers : ℕ) :
    (new codec rtp rtcp numBuffers).Typed codec := by
  intro block hblock
  obtain rfl := List.eq_of_mem_replicate hblock
  exact (Block.ready_new codec).fixed

theorem Typed.set (h : e.Typed codec) (block : Block) {b : ℕ}
    (hblock : block.head.Fixed codec.payloadType.toNat) (hpool : e'.pool = e.pool.set b block) :
    e'.Typed codec := by
  intro block' hmem
  rw [hpool] at hmem
  rcases List.mem_or_eq_of_mem_set hmem with hmem | rfl
  · exact h block' hmem
  · exact hblock

theorem Typed.step (h : e.Typed codec) (hstep : Step e op e') : e'.Typed codec := by
  cases op with
  | newClient ip port connected =>
      obtain rfl := Option.some.inj hstep
      exact h
  | play client =>
      obtain rfl := Option.some.inj hstep
      cases client with
      | none => exact h
      | some c => exact h
  | remove client =>
      cases hremove : e.remove client with
      | error _ => simp [Step, exec, hremove, Except.toOption] at hstep
      | ok removed =>
          obtain rfl : removed = e' := by simpa [Step, exec, hremove, Except.toOption] using hstep
          obtain ⟨playing, rfl⟩ := remove_eq_ok hremove
          exact h
  | getFree =>
      obtain rfl := Option.some.inj hstep
      unfold getFree
      cases e.blocks.pop with
      | none => exact h
      | some found => exact h
  | putFree b =>
      obtain rfl := Option.some.inj hstep
      exact h
  | writeAudio b bytes =>
      cases hblock : e.pool[b]? with
      | none => simp [Step, exec, writeAudio, hblock, Except.toOption] at hstep
      | some block =>
          by_cases hbytes : block.maxPayload < bytes.length
          · simp [Step, exec, writeAudio, hblock, hbytes, Except.toOption] at hstep
          · obtain rfl : ({ e with pool := e.pool.set b ⟨block.head,
                bytes ++ block.audio.drop bytes.length, block.maxPayload⟩ } : Engine) = e' := by
              simpa [Step, exec, writeAudio, hblock, hbytes, Except.toOption] using hstep
            exact h.set ⟨block.head, bytes ++ block.audio.drop bytes.length, block.maxPayload⟩
              (h block (List.mem_of_getElem? hblock)) rfl
  | send b bytes samples results =>
      obtain ⟨block, visited, hblock, -, -, rfl⟩ := send_eq_ok.1 (send_of_step hstep)
      exact h.set (block.stamp e.packetSeq e.timestamp)
        ((h block (List.mem_of_getElem? hblock)).stamp e.packetSeq e.timestamp) rfl

theorem Typed.packetOf (h : e.Typed codec) {packet : Bytes} (hpacket : e.packetOf op = some packet) :
    ∃ (head : RtpHeader) (payload : Bytes), packet = head.toList ++ payload ∧
      head.payloadType = codec.payloadType.toNat := by
  cases op with
  | send b bytes samples results =>
      obtain ⟨block, hblock, rfl⟩ := Option.map_eq_some_iff.1 hpacket
      exact ⟨_, _, rfl, ((h block (List.mem_of_getElem? hblock)).stamp e.packetSeq
        e.timestamp).payloadType⟩
  | _ => cases hpacket

end Engine

/-! ### Agreement -/

/-- What the timestamp advances by for a packet. -/
def timestampStep (samples : ℕ) : ℕ := (UInt32.ofNat samples).toNat

/-- The description agrees with the stream of `codec`: its payload types are the one of every packet
an engine sends, a timestamp step at its clock rate lasts as long as the samples of a packet, and for
PCM its bits and channels are those of the payload. -/
structure AudioCodec.Agrees (codec : AudioCodec) (d : MediaDescription) : Prop where
  packets : ∀ (rtp rtcp : ℤ) (numBuffers : ℕ) (ops : List Engine.Op) (e : Engine) (op : Engine.Op)
    (packet : Bytes), Run Engine.Step (.new codec rtp rtcp numBuffers) ops e →
    e.packetOf op = some packet → ∃ (head : RtpHeader) (payload : Bytes),
      packet = head.toList ++ payload ∧ (head.payloadType : ℤ) = d.format ∧
        (head.payloadType : ℤ) = d.mapped
  duration : ∀ samples, codec.samplesPerPacket = .ok samples →
    (timestampStep samples : ℤ) * codec.sampleRate.toNat = samples * d.clock
  linear : ∀ c, codec = .pcm c → d.bits = 8 * codec.sampleSize ∧ d.chans = some (codec.numChans : ℤ)

/-- The configuration says what the codec does: PCM samples are 16 bit stereo, Opus samples are taken
at 48 kHz, and the rates fit into an `int`. -/
def CodecConfig.Matches (codec2Lib : Codec2Lib) : CodecConfig → Prop
  | .pcm config => config.bits = 16 ∧ config.chans = 2 ∧ config.freq.toNat < 2 ^ 31
  | .opus config => config.fs = 48000 ∨ config.packetRate * 48 = 0
  | .codec2 config =>
      config.fs.toNat < 2 ^ 31 ∨ codec2Lib.samplesPerFrame (toInt config.mode.toNat) = 0

namespace AudioCodec

variable {codec : AudioCodec} {d : MediaDescription}

theorem agrees_packets (hformat : d.format = codec.payloadType.toNat)
    (hmapped : d.mapped = codec.payloadType.toNat) (rtp rtcp : ℤ) (numBuffers : ℕ)
    (ops : List Engine.Op) (e : Engine) (op : Engine.Op) (packet : Bytes)
    (hrun : Run Engine.Step (.new codec rtp rtcp numBuffers) ops e)
    (hpacket : e.packetOf op = some packet) : ∃ (head : RtpHeader) (payload : Bytes),
      packet = head.toList ++ payload ∧ (head.payloadType : ℤ) = d.format ∧
        (head.payloadType : ℤ) = d.mapped := by
  have htyped : e.Typed codec :=
    hrun.invariant (fun _ _ _ h hstep => h.step hstep) (Engine.typed_new codec rtp rtcp numBuffers)
  obtain ⟨head, payload, hsplit, htype⟩ := htyped.packetOf hpacket
  exact ⟨head, payload, hsplit, by rw [htype, hformat], by rw [htype, hmapped]⟩

theorem eq_toInt_iff {v : ℕ} (hv : v < 2 ^ 32) : (v : ℤ) = toInt v ↔ v < 2 ^ 31 := by
  have hbounds := toInt_bounds v
  constructor
  · intro h
    omega
  · intro h
    exact (Int.bmod_eq_of_le (by omega) (by omega)).symm

theorem toInt_small (u v : UInt32) (hv : v.toNat < 2 ^ 31) :
    toInt u.toNat = v.toNat ↔ u = v := by
  constructor
  · intro h
    have hu := u.toNat_lt
    obtain ⟨k, hk⟩ := Int.dvd_self_sub_bmod (x := u.toNat) (m := 2 ^ 32)
    change (u.toNat : ℤ) - toInt u.toNat = 4294967296 * k at hk
    rw [h] at hk
    apply UInt32.toNat_inj.1
    omega
  · rintro rfl
    exact ((eq_toInt_iff u.toNat_lt).2 hv).symm

theorem timestampStep_eq {samples : ℕ} (hsamples : samples < 2 ^ 32) :
    timestampStep samples = samples := by
  rw [timestampStep, UInt32.toNat_ofNat']
  exact Nat.mod_eq_of_lt hsamples

theorem agrees_pcm (config : PcmConfig) {bits chans clock : ℤ} (hbits : InRange bits) :
    (createPcm config).Agrees ⟨96, 96, ascii "L" ++ decimal bits, clock, some chans⟩ ↔
      bits = 16 ∧ chans = 2 ∧ (config.freq.toNat : ℤ) = clock := by
  have hnumber : MediaDescription.bits ⟨96, 96, ascii "L" ++ decimal bits, clock, some chans⟩ = bits :=
    MediaDescription.number_linear hbits
  constructor
  · intro h
    obtain ⟨hb, hc⟩ := h.linear _ rfl
    have hd := h.duration 360 rfl
    rw [hnumber] at hb
    refine ⟨hb, Option.some.inj hc, ?_⟩
    change (360 : ℤ) * config.freq.toNat = 360 * clock at hd
    omega
  · rintro ⟨rfl, rfl, rfl⟩
    refine ⟨agrees_packets rfl rfl, ?_, fun c _ => ⟨hnumber, rfl⟩⟩
    intro samples hsamples
    obtain rfl := Except.ok.inj hsamples
    rfl

theorem agrees_opus (c : OpusCodec) :
    (AudioCodec.opus c).Agrees ⟨97, 97, ascii "opus", 48000, some 2⟩ ↔
      c.config.fs = 48000 ∨ c.samplesPerBlock = 0 := by
  constructor
  · intro h
    by_cases hzero : c.samplesPerBlock = 0
    · exact .inr hzero
    · have hd := h.duration c.samplesPerBlock.toNat (by simp [samplesPerPacket, hzero])
      rw [timestampStep_eq c.samplesPerBlock.toNat_lt] at hd
      have hpos : c.samplesPerBlock.toNat ≠ 0 := by
        rwa [← UInt32.toNat_zero, ne_eq, UInt32.toNat_inj]
      have hrate : ((c.config.fs.toNat : ℕ) : ℤ) = 48000 :=
        Int.eq_of_mul_eq_mul_left (by omega) hd
      left
      apply UInt32.toNat_inj.1
      change c.config.fs.toNat = 48000
      omega
  · intro h
    refine ⟨agrees_packets rfl rfl, ?_, ?_⟩
    · intro samples hsamples
      rcases h with hfs | hzero
      · have hlt : samples < 2 ^ 32 := by
          change (if c.samplesPerBlock = 0 then .error Fault.assertFailed
            else .ok c.samplesPerBlock.toNat) = Except.ok samples at hsamples
          split at hsamples
          · cases hsamples
          · obtain rfl := Except.ok.inj hsamples
            exact c.samplesPerBlock.toNat_lt
        rw [timestampStep_eq hlt]
        change (samples : ℤ) * (c.config.fs.toNat : ℕ) = samples * 48000
        rw [hfs]
        rfl
      · simp [samplesPerPacket, hzero] at hsamples
    · intro c' hc'
      cases hc'

theorem agrees_codec2 (c : Codec2) {clock : ℤ} (hframe : c.samplesPerFrame < 2 ^ 31) :
    (AudioCodec.codec2 c).Agrees ⟨98, 98, ascii "codec2", clock, none⟩ ↔
      (c.fs.toNat : ℤ) = clock ∨ c.samplesPerFrame = 0 := by
  have hstep : timestampStep c.samplesPerFrame = c.samplesPerFrame := timestampStep_eq (by omega)
  constructor
  · intro h
    have hd := h.duration c.samplesPerFrame rfl
    rw [hstep] at hd
    by_cases hzero : c.samplesPerFrame = 0
    · exact .inr hzero
    · exact .inl (Int.eq_of_mul_eq_mul_left (by omega) hd)
  · intro h
    refine ⟨agrees_packets rfl rfl, ?_, ?_⟩
    · intro samples hsamples
      obtain rfl := Except.ok.inj hsamples
      rw [hstep]
      rcases h with rfl | hzero
      · rfl
      · rw [hzero]
        simp
    · intro c' hc'
      cases hc'

/-- For every codec that is created, the description DESCRIBE prints agrees with the stream exactly
when the configuration says what the codec does. -/
theorem description_agrees_iff (P : Lookup) (opusLib : OpusLib) (codec2Lib : Codec2Lib)
    (hframe : ∀ mode, codec2Lib.samplesPerFrame mode < 2 ^ 31) (config : CodecConfig)
    (codec : AudioCodec) (hcreate : create P opusLib codec2Lib config = .ok codec)
    (h : RtspHandler) (hh : h.Printable) :
    (∃ d, MediaDescription.read (h.sdp codec.sdpFmt) = some d ∧ codec.Agrees d) ↔
      config.Matches codec2Lib := by
  have hread : ∀ d, MediaDescription.read (h.sdp codec.sdpFmt) = some d →
      ((∃ d, MediaDescription.read (h.sdp codec.sdpFmt) = some d ∧ codec.Agrees d) ↔
        codec.Agrees d) := by
    intro d hd
    rw [hd]
    simp
  cases config with
  | pcm config =>
      obtain rfl := Except.ok.inj hcreate
      have hbits : toInt config.bits.toNat = 16 ↔ config.bits = 16 :=
        toInt_small config.bits 16 (by decide)
      have hchans : toInt config.chans.toNat = 2 ↔ config.chans = 2 :=
        toInt_small config.chans 2 (by decide)
      rw [hread _ (MediaDescription.read_pcm hh config), agrees_pcm config (toInt_bounds _), hbits,
        hchans, eq_toInt_iff config.freq.toNat_lt]
      rfl
  | opus config =>
      obtain ⟨c, hc, rfl⟩ := createOpus_eq_ok hcreate
      obtain ⟨hconfig, hblock⟩ := opusCodec_eq_ok hc
      rw [hread _ (MediaDescription.read_opus hh c), agrees_opus, hconfig, hblock]
      rfl
  | codec2 config =>
      simp only [create, createCodec2] at hcreate
      split at hcreate
      · obtain rfl := Except.ok.inj hcreate
        rw [hread _ (MediaDescription.read_codec2 _ h), agrees_codec2 _ (hframe _),
          eq_toInt_iff config.fs.toNat_lt]
        rfl
      · cases hcreate

/-- 24 bit mono PCM is described as what it is configured, and sent as 16 bit stereo. -/
theorem description_of_mono_pcm : ¬∃ d,
    MediaDescription.read ((RtspHandler.new (ascii "10.0.0.1") 7).sdp
      (createPcm ⟨24, 1, 48000⟩).sdpFmt) = some d ∧ (createPcm ⟨24, 1, 48000⟩).Agrees d := by
  rintro ⟨d, hd, hagrees⟩
  rw [MediaDescription.read_pcm ⟨rfl, by decide, by decide⟩] at hd
  obtain rfl := Option.some.inj hd
  exact absurd ((agrees_pcm _ (toInt_bounds _)).1 hagrees).1 (by decide +kernel)

/-- 16 bit stereo PCM at 48 kHz. -/
theorem description_agrees_stereo_pcm : ∃ d,
    MediaDescription.read ((RtspHandler.new (ascii "10.0.0.1") 7).sdp
      (createPcm ⟨16, 2, 48000⟩).sdpFmt) = some d ∧ (createPcm ⟨16, 2, 48000⟩).Agrees d :=
  (description_agrees_iff Lookup.literal ⟨fun _ _ _ => true⟩
    ⟨[(ascii "3200", 0)], fun _ => true, fun _ => 160, fun _ => 8⟩ (fun _ => (by decide : 160 < 2 ^ 31))
    (.pcm ⟨16, 2, 48000⟩) _ rfl _ ⟨rfl, by decide, by decide⟩).2 ⟨rfl, rfl, by decide⟩

end AudioCodec

end WifiAudio
