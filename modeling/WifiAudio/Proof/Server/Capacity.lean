import WifiAudio.Proof.Server.ReadBack

/-!
# The output buffer

A handler prints its answer into a buffer of fixed size and sends what is there. Every answer is shorter
than that, whatever the request: the numbers in it fit into an `int`, the texts of its status and of its
methods are those of tables, and the description of the codec is a short one.
-/

namespace WifiAudio

open CString Except Transition

/-- The size of the buffer that the constructor of the handler makes. -/
def RtspHandler.bufferSize : ℕ := 1024

/-! ### The description -/

/-- How long a part of a description may be. -/
def SdpPart.room : SdpPart → ℕ
  | .text bytes => bytes.length
  | .sessionId => 11
  | .sessionVersion => 1
  | .ipAddr => 45

theorem length_sdpText {v : Speaker} (hip : v.ip.length < 46) (part : SdpPart) :
    ((RtspHandler.new v.ip v.sid).sdpText part).length ≤ part.room := by
  cases part with
  | text bytes => exact le_rfl
  | sessionId => exact length_decimal (toInt_bounds _).1 (toInt_bounds _).2
  | sessionVersion =>
      have hone : (decimal 1).length ≤ 1 := by decide
      exact hone
  | ipAddr => exact Nat.le_of_lt_succ hip

/-- How long a description may be. -/
def SdpFmt.room (fmt : SdpFmt) : ℕ := (fmt.map SdpPart.room).sum

theorem SdpFmt.room_nil : SdpFmt.room [] = 0 := rfl

theorem SdpFmt.room_cons (part : SdpPart) (fmt : SdpFmt) :
    SdpFmt.room (part :: fmt) = part.room + SdpFmt.room fmt := by
  rw [room, List.map_cons, List.sum_cons, room]

theorem length_sdp_le {v : Speaker} (hip : v.ip.length < 46) : v.sdp.length ≤ SdpFmt.room v.fmt := by
  have hparts : ∀ fmt : SdpFmt, (fmt.flatMap (RtspHandler.new v.ip v.sid).sdpText).length ≤ fmt.room := by
    intro fmt
    induction fmt with
    | nil => exact Nat.le_refl 0
    | cons part fmt ih =>
        rw [List.flatMap_cons, List.length_append, SdpFmt.room_cons]
        exact Nat.add_le_add (length_sdpText hip part) ih
  exact (List.length_take_le' _ _).trans (hparts v.fmt)

theorem create_room {P : Lookup} {opusLib : OpusLib} {codec2Lib : Codec2Lib} {config : CodecConfig}
    {codec : AudioCodec} (hcreate : AudioCodec.create P opusLib codec2Lib config = .ok codec)
    (hmodes : ∀ mode, (P.lut ⟨codec2Lib.modes, 0⟩ mode).length ≤ 16) :
    SdpFmt.room codec.sdpFmt ≤ 400 := by
  have hdecimal : ∀ v, (decimal (toInt v)).length ≤ 11 := fun v =>
    length_decimal (toInt_bounds v).1 (toInt_bounds v).2
  have hpt : (decimal 96).length = 2 ∧ (decimal 97).length = 2 ∧ (decimal 98).length = 2 := by decide
  have hmiddle : (ascii "\r\ns=Audio Stream\r\nc=IN IP4 0.0.0.0\r\nt=0 0\r\nm=audio 0 RTP/AVP ").length = 61 := by
    decide +kernel
  have hmap : (ascii "\r\na=rtpmap:").length = 11 := by decide
  have hfmtp : (ascii "\r\na=fmtp:").length = 9 := by decide
  have hend : (ascii "\r\n").length = 2 := by decide
  cases config with
  | pcm config =>
      obtain rfl := Except.ok.inj hcreate
      have hbits := hdecimal config.bits.toNat
      have hfreq := hdecimal config.freq.toNat
      have hchans := hdecimal config.chans.toNat
      have hopen : (ascii "k=clear: PCM Encoder\r\nv=0\r\no=- ").length = 31 := by decide +kernel
      have hsmall : (ascii " ").length = 1 ∧ (ascii " IN IP4 ").length = 8 ∧ (ascii " L").length = 2 ∧
          (ascii "/").length = 1 := by decide
      have hfmt : (AudioCodec.createPcm config).sdpFmt =
          AudioCodec.pcmSdpFmt config.bits config.chans config.freq := rfl
      rw [hfmt, AudioCodec.pcmSdpFmt]
      simp only [SdpFmt.room_cons, SdpFmt.room_nil, SdpPart.room, List.length_append, hopen, hmiddle, hpt,
        hmap, hsmall, hend]
      omega
  | opus config =>
      obtain ⟨c, -, rfl⟩ := AudioCodec.createOpus_eq_ok hcreate
      have hstereo : (decimal (if c.config.chans = 2 then 1 else 0)).length = 1 := by split <;> rfl
      have hopen : (ascii "k=clear: Opus Encoder\r\nv=0\r\no=- ").length = 32 := by decide +kernel
      have hname : (ascii " opus/48000/2\r\na=fmtp:").length = 22 := by decide +kernel
      have hsmall : (ascii " ").length = 1 ∧ (ascii " IN IP4 ").length = 8 ∧
          (ascii " stereo=").length = 8 := by decide
      simp only [AudioCodec.sdpFmt, SdpFmt.room_cons, SdpFmt.room_nil, SdpPart.room,
        List.length_append, hopen, hmiddle, hpt, hmap, hname, hstereo, hsmall, hend]
      decide
  | codec2 config =>
      simp only [AudioCodec.create, AudioCodec.createCodec2] at hcreate
      split at hcreate
      · obtain rfl := Except.ok.inj hcreate
        have hfs := hdecimal config.fs.toNat
        have hmode := hmodes (toInt config.mode.toNat)
        have hopen : (ascii "k=clear: Codec2 Encoder\r\nm=audio 0 RTP/AVP ").length = 43 := by decide +kernel
        have hconn : (ascii "\r\nc=IN IP4 0.0.0.0\r\na=rtpmap:").length = 29 := by decide +kernel
        have hname : (ascii " codec2/").length = 8 := by decide
        have hmodeKey : (ascii " mode=").length = 6 := by decide
        simp only [AudioCodec.sdpFmt, SdpFmt.room_cons, SdpFmt.room_nil, SdpPart.room,
          List.length_append, hopen, hconn, hpt, hname, hfmtp, hmodeKey, hend]
        omega
      · cases hcreate

/-! ### The lines -/

/-- How long a line of an answer may be. -/
def Line.room : Line → ℕ
  | .status _ _ => 60
  | .cseq _ => 20
  | .session _ => 30
  | .contentType => 40
  | .contentLength _ => 40
  | .body text => text.length
  | .methods _ => 100
  | .transport _ _ _ => 100
  | .rtpInfo _ _ _ => 120
  | .blank => 2

/-- The line is no longer than that. -/
def Line.Fits (line : Line) : Prop := line.text.length ≤ line.room

instance (line : Line) : Decidable line.Fits := inferInstanceAs (Decidable (_ ≤ _))

theorem length_response_le {r : Response} (h : ∀ line ∈ r, line.Fits) :
    (Response.text r).length ≤ (r.map Line.room).sum := by
  induction r with
  | nil => exact Nat.le_refl 0
  | cons line r ih =>
      obtain ⟨hline, hrest⟩ := List.forall_mem_cons.1 h
      rw [Response.text, List.flatMap_cons, List.length_append, List.map_cons, List.sum_cons]
      exact Nat.add_le_add hline (ih hrest)

namespace Line

theorem fits_status (P : Lookup) {code : ℤ} (hcode : code ∈ ErrorCode.ok :: errorCodes) :
    (status code (P.lut responseLut code)).Fits := by
  have htable : ∀ code ∈ ErrorCode.ok :: errorCodes, (responseLut.entries.find? fun entry =>
      entry.2 == code).any (fun entry => (status code entry.1).Fits) = true := by decide +kernel
  obtain ⟨entry, hfind, hshort⟩ := (Option.any_eq_true _ _).1 (htable code hcode)
  rw [lut_find hfind]
  exact of_decide_eq_true hshort

theorem fits_cseq {n : ℤ} (hn : InRange n) : (cseq n).Fits := by
  have hlength := length_decimal hn.1 hn.2
  have hname : (ascii "CSeq: ").length = 6 := by decide
  have hend : crlf.length = 2 := by decide
  simp only [Fits, text, room, List.length_append, hname, hend]
  omega

theorem fits_session {n : ℤ} (hn : InRange n) : (session n).Fits := by
  have hlength := length_decimal hn.1 hn.2
  have hname : (ascii "Session: ").length = 9 := by decide
  have hend : crlf.length = 2 := by decide
  simp only [Fits, text, room, List.length_append, hname, hend]
  omega

theorem fits_contentLength {n : ℕ} (hn : InRange n) : (contentLength n).Fits := by
  have hlength := length_decimal hn.1 hn.2
  have hname : (ascii "Content-Length: ").length = 16 := by decide
  have hend : crlf.length = 2 := by decide
  simp only [Fits, text, room, List.length_append, hname, hend]
  omega

theorem fits_transport {rtp rtcp sid : ℤ} (hrtp : InRange rtp) (hrtcp : InRange rtcp) (hsid : InRange sid) :
    (transport rtp rtcp sid).Fits := by
  have hlength := length_decimal hrtp.1 hrtp.2
  have hlength' := length_decimal hrtcp.1 hrtcp.2
  have hlength'' := length_decimal hsid.1 hsid.2
  have hname : (ascii "Transport: RTP/AVP;unicast;server_port=").length = 39 := by decide +kernel
  have hdash : (ascii "-").length = 1 := by decide
  have hsession : (ascii ";session=").length = 9 := by decide
  have hend : crlf.length = 2 := by decide
  simp only [Fits, text, room, List.length_append, hname, hdash, hsession, hend]
  omega

theorem fits_rtpInfo {ip : Bytes} (hip : ip.length < 46) : (rtpInfo ip 1 0).Fits := by
  have hname : (ascii "RTP-Info: url=rtsp://").length = 21 := by decide
  have hseq : (ascii "/media/trackID=0;seq=").length = 21 := by decide
  have htime : (ascii ";rtptime=").length = 9 := by decide
  have hnumbers : (decimal 1).length = 1 ∧ (decimal 0).length = 1 := by decide
  have hend : crlf.length = 2 := by decide
  simp only [Fits, text, room, List.length_append, hname, hseq, htime, hnumbers, hend]
  omega

theorem fits_blank : blank.Fits := by decide

end Line

/-- An answer fits into the buffer where the description does with the headers in front of it. -/
theorem Reply.length_lt {P : Lookup} {v : Speaker} {r : Response} (hreply : Reply P v r)
    (hip : v.ip.length < 46) (hrtp : InRange v.rtpPort) (hrtcp : InRange v.rtcpPort)
    (hsdp : v.sdp.length ≤ 400) : (Response.text r).length < RtspHandler.bufferSize := by
  have hok : ErrorCode.ok ∈ ErrorCode.ok :: errorCodes := List.mem_cons_self
  have hid : InRange v.id := toInt_bounds _
  have hblank := Line.fits_blank
  cases hreply with
  | error code cseq hcode hcseq =>
      have hstatus := Line.fits_status P (List.mem_cons_of_mem _ hcode)
      cases cseq with
      | none =>
          refine (length_response_le (r := [.status code (P.lut responseLut code), .blank]) ?_).trans_lt ?_
          · simp [hstatus, hblank]
          · change 60 + (2 + 0) < 1024
            decide
      | some n =>
          refine (length_response_le (r := [.status code (P.lut responseLut code), .cseq n, .blank]) ?_).trans_lt ?_
          · simp [hstatus, hblank, Line.fits_cseq (hcseq n rfl)]
          · change 60 + (20 + (2 + 0)) < 1024
            decide
  | options hdrs hcseq =>
      have hmethods : (Line.methods (cmdLut.entries.map Prod.fst)).Fits := by decide +kernel
      refine (length_response_le ?_).trans_lt ?_
      · simp only [RtspHandler.commonLines, List.cons_append, List.nil_append, List.forall_mem_cons]
        exact ⟨Line.fits_status P hok, Line.fits_cseq hcseq, hmethods, hblank, List.forall_mem_nil _⟩
      · change 60 + (20 + (100 + (2 + 0))) < 1024
        decide
  | describe hdrs hcseq =>
      have hlength : InRange (v.sdp.length : ℤ) := ⟨by omega, by omega⟩
      have htype : Line.contentType.Fits := by decide +kernel
      refine (length_response_le ?_).trans_lt ?_
      · simp only [RtspHandler.commonLines, List.cons_append, List.nil_append, List.forall_mem_cons]
        exact ⟨Line.fits_status P hok, Line.fits_cseq hcseq, htype, Line.fits_contentLength hlength, hblank,
          Nat.le_refl _, List.forall_mem_nil _⟩
      · change 60 + (20 + (40 + (40 + (2 + (v.sdp.length + 0))))) < 1024
        omega
  | setup hdrs hcseq =>
      refine (length_response_le ?_).trans_lt ?_
      · simp only [RtspHandler.commonLines, List.cons_append, List.nil_append, List.forall_mem_cons]
        exact ⟨Line.fits_status P hok, Line.fits_cseq hcseq, Line.fits_session hid,
          Line.fits_transport hrtp hrtcp hid, hblank, List.forall_mem_nil _⟩
      · change 60 + (20 + (30 + (100 + (2 + 0)))) < 1024
        decide
  | play hdrs hcseq =>
      refine (length_response_le ?_).trans_lt ?_
      · simp only [RtspHandler.commonLines, List.cons_append, List.nil_append, List.forall_mem_cons]
        exact ⟨Line.fits_status P hok, Line.fits_cseq hcseq, Line.fits_session hid, Line.fits_rtpInfo hip,
          hblank, List.forall_mem_nil _⟩
      · change 60 + (20 + (30 + (120 + (2 + 0)))) < 1024
        decide
  | stop hdrs hcseq =>
      refine (length_response_le ?_).trans_lt ?_
      · simp only [RtspHandler.commonLines, List.cons_append, List.nil_append, List.forall_mem_cons]
        exact ⟨Line.fits_status P hok, Line.fits_cseq hcseq, Line.fits_session hid, hblank,
          List.forall_mem_nil _⟩
      · change 60 + (20 + (30 + (2 + 0))) < 1024
        decide

namespace Network

/-- No answer is cut off: in every run of a server whose codec was created from a configuration, every
answer that any session has sent was shorter than the buffer it was printed into. -/
theorem answers_fit (P : Lookup) (opusLib : OpusLib) (codec2Lib : Codec2Lib) (config : CodecConfig)
    (codec : AudioCodec) (hcreate : AudioCodec.create P opusLib codec2Lib config = .ok codec)
    (hmodes : ∀ mode, (P.lut ⟨codec2Lib.modes, 0⟩ mode).length ≤ 16) (rtp rtcp : ℤ) (hrtp : InRange rtp)
    (hrtcp : InRange rtcp) (numBuffers : ℕ) (ip : Bytes) (hip : ip.length < 46) (events : List NetworkEvent)
    (n : Network) (hrun : Run (Step P) (new codec rtp rtcp numBuffers ip) events n) (i : ℕ)
    (w : SocketClient) (hw : n.clients[i]? = some w) :
    ∀ r ∈ w.client.session.2.sent, (Response.text r).length < RtspHandler.bufferSize := by
  intro r hr
  have hsdp : (speaker codec rtp rtcp ip i).sdp.length ≤ 400 :=
    (length_sdp_le (v := speaker codec rtp rtcp ip i) hip).trans (create_room hcreate hmodes)
  exact ((serves_run hrun).replies hw r hr).length_lt hip hrtp hrtcp hsdp

theorem answers_fit_pieces : ∃ n w, Run (Step Lookup.literal) pcmNetwork twoListeners n ∧
    n.clients[0]? = some w ∧ w.client.session.2.sent.length = 2 ∧
    ∀ r ∈ w.client.session.2.sent, (Response.text r).length < RtspHandler.bufferSize := by
  have hrun : (execAll (exec Lookup.literal) pcmNetwork twoListeners).any
      (fun n => n.clients[0]?.any fun w => w.client.session.2.sent.length = 2) = true := by
    decide +kernel
  obtain ⟨n, hn, hfound⟩ := run_of_any hrun
  obtain ⟨w, hw, hcount⟩ := (Option.any_eq_true _ _).1 hfound
  have hmodes : ∀ mode, (Lookup.literal.lut ⟨[], 0⟩ mode).length ≤ 16 := fun _ => Nat.zero_le _
  exact ⟨n, w, hn, hw, of_decide_eq_true hcount,
    answers_fit Lookup.literal ⟨fun _ _ _ => true⟩ ⟨[], fun _ => true, fun _ => 160, fun _ => 8⟩
      (.pcm ⟨16, 2, 48000⟩) _ rfl hmodes 6000 6001 (by decide) (by decide) _ _ (by decide) _ n hn 0 w hw⟩

end Network

end WifiAudio
