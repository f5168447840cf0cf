import WifiAudio.Proof.Server.Playing

/-!
# The session's state and the playing list

The state PLAY lives in the session and the membership in the engine. Every command moves the two
together except for the ones that READY and PLAY both allow but that mean something else in PLAY:
a SETUP replaces the playing client by one that is not linked, and the session goes on reporting
PLAY; a PLAY links the client a second time. While neither is carried out in PLAY the session is in
PLAY exactly when its client receives packets.
-/

namespace WifiAudio

open Except Transition

/-- A connection whose client is on the sequence `xs` just in case its session is in PLAY. -/
structure Connection.InStep (conn : Connection) (xs : List ℕ) : Prop where
  play_iff : conn.session.state = .play ↔ ∃ c, conn.handler.rtpClient = some c ∧ c ∈ xs
  init : conn.session.state = .init → conn.handler.rtpClient = none

namespace Server

variable {P : Lookup} {s s' : Server} {xs ys : List ℕ} {i : ℕ} {conn : Connection} {e : Engine}

/-- Every open connection is in step with the playing list, which holds `xs`. -/
structure InStep (s : Server) (xs : List ℕ) : Prop where
  sound : s.Sound xs
  inStep : ∀ (i : ℕ) (conn : Connection), s.connections[i]? = some conn → conn.phase = .live →
    conn.InStep xs

/-- The request is a PLAY or a SETUP that is carried out in the state PLAY. -/
def ReplacesPlaying (P : Lookup) (s : Server) : Action → Prop
  | .request i _ m size => ∃ conn : Connection, s.connections[i]? = some conn ∧
      conn.session.state = .play ∧ (conn.session.carriesOut P m size = some .play ∨
        conn.session.carriesOut P m size = some .setup)
  | _ => False

theorem InStep.playsOnce (h : s.InStep xs) {a : Action} {s' : Server} (hstep : Step P s a s')
    (hreplace : ¬ReplacesPlaying P s a) : ¬PlaysAgain P s a := by
  cases a with
  | request i net m size =>
      rintro ⟨conn, c, hconn, hplay, hclient, hmem⟩
      obtain ⟨conn', -, -, -, -, -, hconn', hactive, -⟩ := request_effect hstep
      obtain rfl := Option.some.inj (hconn.symm.trans hconn')
      have hstate := ((h.inStep i conn hconn hactive.1).play_iff).2
        ⟨c, hclient, h.sound.playing.mem_iff.1 hmem⟩
      exact hreplace ⟨conn, hconn, hstate, .inl hplay⟩
  | _ => exact id

/-! ### A request -/

theorem remove_mem_other {e' : Engine} {client : Option ℕ} (hx : e.Playing xs)
    (hremove : e.remove client = .ok e') (hy : e'.playing.Holds ys) {d : ℕ} (hd : client ≠ some d) :
    d ∈ ys ↔ d ∈ xs := by
  obtain ⟨playing, rfl, hholds⟩ := hx.removed hremove
  rw [hy.unique hholds, Engine.mem_without hx.holds.nodup]
  exact and_iff_left hd

/-- What a call does to the sequence: clients that are not the connection's keep their place. -/
theorem effect_mem_other {call : HandlerCall} {cmd : RtspCommand} {h h' : RtspHandler} {e' : Engine}
    (hx : e.Playing xs) (hy : e'.playing.Holds ys) (heffect : call.Effect P h e cmd h' e')
    (hagain : call.carriesOut = some .play → ∀ c, h.rtpClient = some c → c ∉ xs) {d : ℕ}
    (hd : h.rtpClient ≠ some d) : d ∈ ys ↔ d ∈ xs := by
  cases heffect with
  | answered hanswer hout hclient hcmd => rw [hy.unique hx.holds]
  | setup hanswer socket hout hremove hclient => exact remove_mem_other hx hremove hy hd
  | play hdrs hanswer c hout hsetup hclient =>
      rw [hy.unique (hx.holds.push (hagain hout c hsetup)), List.mem_cons]
      exact or_iff_right fun hdc => hd (hdc ▸ hsetup)
  | stop hanswer hout hcmd hclient hremove => exact remove_mem_other hx hremove hy hd

theorem effect_inStep {call : HandlerCall} {cmd : RtspCommand} {h' : RtspHandler} {e' : Engine}
    (hx : e.Playing xs) (hy : e'.playing.Holds ys) (hconn : conn.InStep xs) (hactive : conn.Active)
    (heffect : call.Effect P conn.handler e cmd h' e')
    (hout : conn.session.state = .play → call.carriesOut ≠ some .play ∧ call.carriesOut ≠ some .setup)
    (hagain : call.carriesOut = some .play → ∀ c, conn.handler.rtpClient = some c → c ∉ xs) :
    Connection.InStep ⟨(conn.session.transition cmd).2, h', conn.phase⟩ ys := by
  obtain ⟨⟨state, reports⟩, h, phase⟩ := conn
  have hnodup := hx.holds.nodup
  have hdead : state ≠ .dead := hactive.2
  cases heffect with
  | answered hanswer _ hclient hcmd =>
      obtain rfl := hy.unique hx.holds
      have hstate : (Session.transition ⟨state, reports⟩ cmd).2.state = state := by
        rcases hcmd with rfl | rfl | rfl <;> cases state <;> rfl
      exact ⟨by rw [hstate, hclient]; exact hconn.play_iff, by rw [hstate, hclient]; exact hconn.init⟩
  | setup hanswer socket hsetup hremove hclient =>
      have hplay : state ≠ .play := fun hstate => (hout hstate).2 hsetup
      have hstate : (Session.transition ⟨state, reports⟩ .setup).2.state = .ready := by
        cases state <;> first | rfl | exact absurd rfl hdead | exact absurd rfl hplay
      obtain ⟨playing, rfl, hholds⟩ := hx.removed hremove
      obtain rfl := hy.unique hholds
      refine ⟨?_, by simp [hstate]⟩
      rw [hstate, hclient]
      refine iff_of_false (by simp) ?_
      rintro ⟨c, hc, hmem⟩
      obtain rfl := Option.some.inj hc
      exact absurd (hx.exist _ ((Engine.mem_without hnodup).1 hmem).1) (lt_irrefl _)
  | play hdrs hanswer c hplay hsetup hclient =>
      have hready : state = .ready := by
        cases state with
        | init => cases (hconn.init rfl).symm.trans hsetup
        | ready => rfl
        | play => exact absurd hplay (hout rfl).1
        | dead => exact absurd rfl hdead
      subst hready
      have hmem : c ∈ ys := by
        rw [hy.unique (hx.holds.push (hagain hplay c hsetup))]
        exact List.mem_cons_self
      refine ⟨iff_of_true rfl ⟨c, hclient.trans hsetup, hmem⟩, ?_⟩
      intro hstate
      cases hstate
  | stop hanswer hcommand hcmd hclient hremove =>
      obtain ⟨playing, rfl, hholds⟩ := hx.removed hremove
      obtain rfl := hy.unique hholds
      have hplay : (Session.transition ⟨state, reports⟩ cmd).2.state ≠ .play := by
        rcases hcmd with rfl | rfl | rfl <;> cases state <;> simp [Session.transition, Session.setState]
      have hinit : (Session.transition ⟨state, reports⟩ cmd).2.state = .init → state = .init := by
        rcases hcmd with rfl | rfl | rfl <;> cases state <;> simp [Session.transition, Session.setState]
      refine ⟨iff_of_false hplay ?_, fun hstate => hclient.trans (hconn.init (hinit hstate))⟩
      rintro ⟨c, hc, hmem⟩
      exact ((Engine.mem_without hnodup).1 hmem).2 (hclient.symm.trans hc)

theorem InStep.update (h : s.InStep xs) {conn' : Connection} (hconn : s.connections[i]? = some conn)
    (hsound : (s.update i conn' e).Sound ys) (hself : conn'.phase = .live → conn'.InStep ys)
    (hother : ∀ d, conn.handler.rtpClient ≠ some d → (d ∈ ys ↔ d ∈ xs)) :
    (s.update i conn' e).InStep ys := by
  refine ⟨hsound, ?_⟩
  intro j conn₀ hj hlive
  rcases update_cases hconn hj with ⟨rfl, rfl⟩ | ⟨hji, hj⟩
  · exact hself hlive
  · have hold := h.inStep j conn₀ hj hlive
    refine ⟨hold.play_iff.trans (exists_congr fun c => and_congr_right ?_), hold.init⟩
    intro hc
    refine (hother c fun hclient => hji ?_).symm
    exact Option.some.inj ((h.sound.owned j conn₀ c hj hc).symm.trans
      (h.sound.owned i conn c hconn hclient))

theorem InStep.effect (h : s.InStep xs) {call : HandlerCall} {cmd : RtspCommand} {h' : RtspHandler}
    (hconn : s.connections[i]? = some conn) (hactive : conn.Active)
    (heffect : call.Effect P conn.handler s.engine cmd h' e)
    (hout : conn.session.state = .play → call.carriesOut ≠ some .play ∧ call.carriesOut ≠ some .setup) :
    ∃ ys, (s.update i { conn with session := (conn.session.transition cmd).2, handler := h' } e).InStep
      ys := by
  have hin := h.inStep i conn hconn hactive.1
  have hx := h.sound.playing
  have hagain : call.carriesOut = some .play → ∀ c, conn.handler.rtpClient = some c → c ∉ xs :=
    fun hplay c hclient hmem => (hout (hin.play_iff.2 ⟨c, hclient, hmem⟩)).1 hplay
  obtain ⟨ys, hys⟩ := h.sound.effect hconn hactive heffect
    fun hplay c hclient hmem => hagain hplay c hclient (hx.mem_iff.1 hmem)
  refine ⟨ys, h.update hconn hys ?_ ?_⟩
  · intro _
    exact effect_inStep hx hys.playing.holds hin hactive heffect hout hagain
  · intro d
    exact effect_mem_other hx hys.playing.holds heffect hagain

/-! ### Whole runs -/

theorem inStep_new (codec : AudioCodec) (rtp rtcp : ℤ) (numBuffers : ℕ) :
    (new codec rtp rtcp numBuffers).InStep [] :=
  ⟨sound_new codec rtp rtcp numBuffers, by simp [new]⟩

theorem InStep.frame (h : s.InStep xs) (hsound : ({ s with engine := e } : Server).Sound ys)
    (hplaying : e.playing = s.engine.playing) : ({ s with engine := e } : Server).InStep ys := by
  have hholds : s.engine.playing.Holds ys := hplaying ▸ hsound.playing.holds
  obtain rfl := h.sound.playing.holds.unique hholds
  exact ⟨hsound, h.inStep⟩

theorem InStep.step {a : Action} (h : s.InStep xs) (hreplace : ¬ReplacesPlaying P s a)
    (hstep : Step P s a s') : ∃ ys, s'.InStep ys := by
  obtain ⟨ys, hys⟩ := h.sound.step (h.playsOnce hstep hreplace) hstep
  cases a with
  | connect ip sid =>
      obtain rfl := Option.some.inj hstep
      refine ⟨xs, h.sound.connect ip sid, ?_⟩
      intro i conn hi hlive
      rcases connections_append_cases hi with hi | rfl
      · exact h.inStep i conn hi hlive
      · exact ⟨by simp [Session.new, Session.setState, RtspHandler.new], fun _ => rfl⟩
  | request i net m size =>
      obtain ⟨conn, call, m', cmd, h', e, hconn, hactive, hrequest, heffect, rfl⟩ :=
        request_effect hstep
      have hcarries : conn.session.carriesOut P m size = call.carriesOut := by
        rw [Session.carriesOut, hrequest]
      refine h.effect hconn hactive heffect fun hstate => ⟨?_, ?_⟩
      · intro hplay
        exact hreplace ⟨conn, hconn, hstate, .inl (hcarries.trans hplay)⟩
      · intro hsetup
        exact hreplace ⟨conn, hconn, hstate, .inr (hcarries.trans hsetup)⟩
  | disconnect i =>
      obtain ⟨conn, e, hconn, hlive, hremove, rfl⟩ := disconnect_effect hstep
      refine ⟨ys, h.update hconn hys ?_ ?_⟩
      · intro hphase
        cases hphase
      · intro d
        exact remove_mem_other h.sound.playing hremove hys.playing.holds
  | destroy i =>
      obtain ⟨conn, hconn, hphase, rfl⟩ := destroy_effect hstep
      have hholds : s.engine.playing.Holds ys := by
        simpa [Server.update] using hys.playing.holds
      obtain rfl := h.sound.playing.holds.unique hholds
      refine ⟨xs, h.update hconn hys ?_ fun d _ => Iff.rfl⟩
      intro hphase
      cases hphase
  | getFree =>
      obtain rfl := Option.some.inj hstep
      exact ⟨ys, h.frame hys (Engine.getFree_frame s.engine).1⟩
  | putFree b =>
      obtain rfl := Option.some.inj hstep
      exact ⟨ys, h.frame hys rfl⟩
  | send b bytes samples results =>
      obtain ⟨e, hsend, rfl⟩ := send_completes hstep
      obtain ⟨block, visited, -, -, -, rfl⟩ := Engine.send_eq_ok.1 hsend
      exact ⟨ys, h.frame hys rfl⟩

theorem inStep_run {codec : AudioCodec} {rtp rtcp : ℤ} {numBuffers : ℕ} {as : List Action}
    (hrun : Run (Step P) (new codec rtp rtcp numBuffers) as s)
    (hreplace : Along (Step P) (fun s a => ¬ReplacesPlaying P s a) (new codec rtp rtcp numBuffers) as) :
    ∃ xs, s.InStep xs :=
  hrun.invariant_along (I := fun s => ∃ xs, s.InStep xs)
    (fun _ _ _ ⟨_, h⟩ hreplace hstep => h.step hreplace hstep) hreplace
    ⟨[], inStep_new codec rtp rtcp numBuffers⟩

/-- In every run in which no PLAY and no SETUP is carried out in the state PLAY, every session on an
open connection is in PLAY if and only if its client is on the playing list. -/
theorem play_state_iff_playing (P : Lookup) (codec : AudioCodec) (rtp rtcp : ℤ) (numBuffers : ℕ)
    (as : List Action) (s : Server) (hrun : Run (Step P) (new codec rtp rtcp numBuffers) as s)
    (hreplace : Along (Step P) (fun s a => ¬ReplacesPlaying P s a) (new codec rtp rtcp numBuffers) as) :
    ∀ (i : ℕ) (conn : Connection), s.connections[i]? = some conn → conn.phase = .live →
      (conn.session.state = .play ↔
        ∃ c, conn.handler.rtpClient = some c ∧ s.engine.playing.Mem c) := by
  obtain ⟨xs, h⟩ := inStep_run hrun hreplace
  intro i conn hconn hlive
  simp only [h.sound.playing.mem_iff]
  exact (h.inStep i conn hconn hlive).play_iff

/-! ### Runs with and without a second SETUP -/

/-- The session is not in PLAY, or the request is neither a PLAY nor a SETUP. -/
def keepsPlaying (P : Lookup) (s : Server) : Action → Bool
  | .request i _ m size =>
      match s.connections[i]? with
      | some conn => conn.session.state ≠ .play ∨ conn.session.carriesOut P m size ≠ some .play ∧
          conn.session.carriesOut P m size ≠ some .setup
      | none => true
  | _ => true

theorem not_replacesPlaying {a : Action} (h : keepsPlaying P s a = true) :
    ¬ReplacesPlaying P s a := by
  cases a with
  | request i net m size =>
      rintro ⟨conn, hconn, hstate, hcarries⟩
      simp only [keepsPlaying, hconn, hstate, ne_eq, not_true, false_or, decide_eq_true_eq] at h
      rcases hcarries with hplay | hsetup
      · exact h.1 hplay
      · exact h.2 hsetup
  | _ => exact id

/-- SETUP, PLAY, SETUP: the session reports PLAY and nobody receives packets. -/
theorem second_setup_stops_stream : ∃ (s : Server) (conn : Connection), Run (Step Lookup.literal) pcmServer
    [.connect (ascii "10.0.0.1") 7, .ofText 0 simulated setupText, .ofText 0 simulated playText,
      .ofText 0 simulated setupText] s ∧
    s.connections[0]? = some conn ∧ conn.phase = .live ∧ conn.session.state = .play ∧
    ∀ c, ¬s.engine.playing.Mem c := by
  have hrun : (execAll (exec Lookup.literal) pcmServer
      [.connect (ascii "10.0.0.1") 7, .ofText 0 simulated setupText, .ofText 0 simulated playText,
        .ofText 0 simulated setupText]).any (fun s => s.engine.playing.visit 2 = some [] ∧
      s.connections[0]?.any fun conn => conn.phase = .live ∧ conn.session.state = .play) = true := by
    decide +kernel
  obtain ⟨s, hs, hstate⟩ := run_of_any hrun
  obtain ⟨hvisit, hconn⟩ := of_decide_eq_true hstate
  obtain ⟨conn, hconn, hphase⟩ := (Option.any_eq_true _ _).1 hconn
  obtain ⟨hlive, hplay⟩ := of_decide_eq_true hphase
  refine ⟨s, conn, hs, hconn, hlive, hplay, ?_⟩
  intro c hc
  cases (LinkedList.holds_of_visit hvisit).mem_iff.1 hc

/-- A session that plays, pauses, takes a new client and plays again. -/
theorem play_state_iff_playing_after_pause : ∃ (s : Server) (conn : Connection), Run (Step Lookup.literal) pcmServer
    [.connect (ascii "10.0.0.1") 7, .ofText 0 simulated setupText, .ofText 0 simulated playText,
      .ofText 0 simulated pauseText, .ofText 0 simulated setupText, .ofText 0 simulated playText] s ∧
    s.connections[0]? = some conn ∧ conn.phase = .live ∧ (conn.session.state = .play ↔
      ∃ c, conn.handler.rtpClient = some c ∧ s.engine.playing.Mem c) := by
  have hrun : (execAll (exec Lookup.literal) pcmServer
      [.connect (ascii "10.0.0.1") 7, .ofText 0 simulated setupText, .ofText 0 simulated playText,
        .ofText 0 simulated pauseText, .ofText 0 simulated setupText,
        .ofText 0 simulated playText]).any (fun s =>
      s.connections[0]?.any fun conn => conn.phase = .live) = true := by
    decide +kernel
  obtain ⟨s, hs, hconn⟩ := run_of_any hrun
  obtain ⟨conn, hconn, hphase⟩ := (Option.any_eq_true _ _).1 hconn
  have hlive := of_decide_eq_true hphase
  exact ⟨s, conn, hs, hconn, hlive, play_state_iff_playing Lookup.literal _ _ _ _ _ s
    hs (along_of_allAlong (fun _ _ => not_replacesPlaying) (by decide +kernel))
    0 conn hconn hlive⟩

end Server

end WifiAudio
