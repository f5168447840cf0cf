import WifiAudio.Proof.Server.Step
import WifiAudio.Proof.Rtp.Engine

/-!
# The playing list over whole runs of the server

`RTP_Engine::play` pushes the client whether or not it is linked already, and a session in PLAY may
be asked to PLAY again. While that does not happen the playing list holds a sequence without
repetition, and what it holds are the current clients of live connections: a connection that has
called `terminate` has no client on it, and no deleted client is on it.
-/

namespace WifiAudio

open Except Transition

namespace Server

/-- The playing list holds `xs`, and every client there is belongs to the connection whose SETUP
made it. -/
structure Sound (s : Server) (xs : List ℕ) : Prop where
  playing : s.engine.Playing xs
  linked : ∀ c ∈ xs, ∃ (i : ℕ) (conn : Connection), s.connections[i]? = some conn ∧ conn.Active ∧
    conn.handler.rtpClient = some c
  owner_length : s.owner.length = s.engine.clients.length
  owned : ∀ (i : ℕ) (conn : Connection) (c : ℕ), s.connections[i]? = some conn → conn.handler.rtpClient = some c →
    s.owner[c]? = some i
  freed : ∀ c ∈ s.engine.freed, ∃ (i : ℕ) (conn : Connection), s.owner[c]? = some i ∧
    s.connections[i]? = some conn ∧ conn.phase = .destroyed

variable {P : Lookup} {s s' : Server} {xs ys : List ℕ} {i j c : ℕ} {conn conn' : Connection}
  {e : Engine}

theorem Sound.exists (h : s.Sound xs) (hconn : s.connections[i]? = some conn)
    (hclient : conn.handler.rtpClient = some c) : c < s.engine.clients.length := by
  rw [← h.owner_length]
  exact (List.getElem?_eq_some_iff.1 (h.owned i conn c hconn hclient)).1

/-- A linked client is the current one of the connection that owns it, and its loop runs. -/
theorem Sound.owner_active (h : s.Sound xs) (hc : c ∈ xs) (howner : s.owner[c]? = some i)
    (hconn : s.connections[i]? = some conn) :
    conn.Active ∧ conn.handler.rtpClient = some c := by
  obtain ⟨j, conn', hconn', hactive, hclient⟩ := h.linked c hc
  obtain rfl : i = j := Option.some.inj (howner.symm.trans (h.owned j conn' c hconn' hclient))
  obtain rfl : conn = conn' := Option.some.inj (hconn.symm.trans hconn')
  exact ⟨hactive, hclient⟩

theorem Sound.not_freed (h : s.Sound xs) (hc : c ∈ xs) : c ∉ s.engine.freed := by
  intro hfreed
  obtain ⟨i, conn, howner, hconn, hdestroyed⟩ := h.freed c hfreed
  have hlive := (h.owner_active hc howner hconn).1.1
  rw [hdestroyed] at hlive
  cases hlive

theorem sound_new (codec : AudioCodec) (rtp rtcp : ℤ) (numBuffers : ℕ) :
    (new codec rtp rtcp numBuffers).Sound [] where
  playing := ⟨LinkedList.holds_empty, by simp⟩
  linked := by simp
  owner_length := rfl
  owned := by simp [new]
  freed := by simp [new, Engine.new]

/-! ### Steps of one connection

Connection `i` changes and with it the engine. What it needs for the invariant to carry over: the
clients linked afterwards were linked before and are not its old client, or are its new one; its
client is the old one or was made just now; and only the client of a destroyed connection is
deleted. -/

theorem Sound.update (h : s.Sound xs) (hconn : s.connections[i]? = some conn) (hholds : e.playing.Holds ys)
    (hlinked : ∀ c ∈ ys, c ∈ xs ∧ conn.handler.rtpClient ≠ some c ∨
      conn'.Active ∧ conn'.handler.rtpClient = some c)
    (hlength : s.engine.clients.length ≤ e.clients.length)
    (hclient : ∀ c, conn'.handler.rtpClient = some c → conn.handler.rtpClient = some c ∨
      s.engine.clients.length ≤ c ∧ c < e.clients.length)
    (hfreed : ∀ c ∈ e.freed, c ∈ s.engine.freed ∨
      conn.handler.rtpClient = some c ∧ conn'.phase = .destroyed)
    (hphase : conn.phase ≠ .destroyed) : (s.update i conn' e).Sound ys := by
  have howner_left : ∀ c j, s.owner[c]? = some j → (s.update i conn' e).owner[c]? = some j :=
    fun c j hc => List.getElem?_append_left (List.getElem?_eq_some_iff.1 hc).1 ▸ hc
  have howned : ∀ (j : ℕ) (conn₀ : Connection) (c : ℕ), (s.update i conn' e).connections[j]? = some conn₀ →
      conn₀.handler.rtpClient = some c → (s.update i conn' e).owner[c]? = some j := by
    intro j conn₀ c hj hc
    rcases update_cases hconn hj with ⟨rfl, rfl⟩ | ⟨-, hj⟩
    · rcases hclient c hc with hold | ⟨hle, hlt⟩
      · exact howner_left c j (h.owned j conn c hconn hold)
      · change (s.owner ++ _)[c]? = some j
        rw [List.getElem?_append_right (by rw [h.owner_length]; exact hle), h.owner_length,
          List.getElem?_replicate, if_pos (by omega)]
    · exact howner_left c j (h.owned j conn₀ c hj hc)
  have hlinked' : ∀ c ∈ ys, ∃ (j : ℕ) (conn₀ : Connection), (s.update i conn' e).connections[j]? = some conn₀ ∧
      conn₀.Active ∧ conn₀.handler.rtpClient = some c := by
    intro c hc
    rcases hlinked c hc with ⟨hold, hne⟩ | hnew
    · obtain ⟨j, conn₀, hj, hactive, hcurrent⟩ := h.linked c hold
      have hji : j ≠ i := by
        rintro rfl
        obtain rfl := Option.some.inj (hconn.symm.trans hj)
        exact hne hcurrent
      exact ⟨j, conn₀, (update_of_ne hji).trans hj, hactive, hcurrent⟩
    · exact ⟨i, conn', update_self hconn, hnew⟩
  have hlength' : (s.update i conn' e).owner.length = e.clients.length := by
    change (s.owner ++ _).length = _
    rw [List.length_append, List.length_replicate, h.owner_length]
    omega
  refine ⟨⟨hholds, ?_⟩, hlinked', hlength', howned, ?_⟩
  · intro c hc
    obtain ⟨j, conn₀, hj, -, hcurrent⟩ := hlinked' c hc
    change c < e.clients.length
    rw [← hlength']
    exact (List.getElem?_eq_some_iff.1 (howned j conn₀ c hj hcurrent)).1
  · intro c hc
    rcases hfreed c hc with hold | ⟨hold, hdestroyed⟩
    · obtain ⟨j, conn₀, howner, hj, hphase₀⟩ := h.freed c hold
      have hji : j ≠ i := by
        rintro rfl
        obtain rfl := Option.some.inj (hconn.symm.trans hj)
        exact hphase hphase₀
      exact ⟨j, conn₀, howner_left c j howner, (update_of_ne hji).trans hj, hphase₀⟩
    · exact ⟨i, conn', howner_left c i (h.owned i conn c hconn hold), update_self hconn, hdestroyed⟩

/-- The request is a PLAY that is carried out although the client is playing already. -/
def PlaysAgain (P : Lookup) (s : Server) : Action → Prop
  | .request i _ m size => ∃ (conn : Connection) (c : ℕ), s.connections[i]? = some conn ∧
      conn.session.carriesOut P m size = some .play ∧ conn.handler.rtpClient = some c ∧
      s.engine.playing.Mem c
  | _ => False

theorem transition_dead {session : Session} {cmd : RtspCommand} (hdead : session.state ≠ .dead)
    (hcmd : cmd ≠ .kill) (hcmd' : cmd ≠ .teardown) : (session.transition cmd).2.state ≠ .dead := by
  simp only [Session.transition, hcmd, hcmd', if_false]
  cases hstate : session.state with
  | dead => exact absurd hstate hdead
  | _ => simp only; split <;> simp [Session.setState, hstate]

theorem Sound.effect (h : s.Sound xs) {call : HandlerCall} {cmd : RtspCommand} {hd : RtspHandler}
    (hconn : s.connections[i]? = some conn) (hactive : conn.Active)
    (heffect : call.Effect P conn.handler s.engine cmd hd e)
    (hagain : call.carriesOut = some .play → ∀ c, conn.handler.rtpClient = some c →
      ¬s.engine.playing.Mem c) :
    ∃ ys, (s.update i { conn with session := (conn.session.transition cmd).2, handler := hd } e).Sound
      ys := by
  have hnodup := h.playing.holds.nodup
  have hphase : conn.phase ≠ .destroyed := by simp [hactive.1]
  have hactive' (hcmd : cmd ≠ .kill) (hcmd' : cmd ≠ .teardown) :
      Connection.Active ⟨(conn.session.transition cmd).2, hd, conn.phase⟩ :=
    ⟨hactive.1, transition_dead hactive.2 hcmd hcmd'⟩
  cases heffect with
  | answered hanswer hout hclient hcmd =>
      refine ⟨xs, h.update hconn h.playing.holds ?_ le_rfl
        (fun c hc => .inl (hclient ▸ hc)) (fun c hc => .inl hc) hphase⟩
      intro c hc
      by_cases hcurrent : conn.handler.rtpClient = some c
      · refine .inr ⟨hactive' ?_ ?_, hclient.trans hcurrent⟩
        all_goals rcases hcmd with rfl | rfl | rfl <;> simp
      · exact .inl ⟨hc, hcurrent⟩
  | setup hanswer socket hout hremove hclient =>
      obtain ⟨playing, rfl, hholds⟩ := h.playing.removed hremove
      refine ⟨_, h.update hconn hholds (fun c hc => .inl ((Engine.mem_without hnodup).1 hc)) ?_
        (fun c hc => .inr ?_) (fun c hc => .inl hc) hphase⟩
      · simp [Engine.newClient]
      · obtain rfl := Option.some.inj (hclient.symm.trans hc)
        simp [Engine.newClient]
  | play hdrs hanswer c hout hsetup hclient =>
      have hnew : c ∉ xs := fun hc => hagain hout c hsetup (h.playing.mem_iff.2 hc)
      have hplay := h.playing.play hnew (h.exists hconn hsetup)
      refine ⟨_, h.update hconn hplay.holds ?_ le_rfl (fun d hd => .inl (hclient ▸ hd))
        (fun d hd => .inl hd) hphase⟩
      intro d hd
      rcases List.mem_cons.1 hd with rfl | hd
      · exact .inr ⟨hactive' (by simp) (by simp), hclient.trans hsetup⟩
      · refine .inl ⟨hd, fun hcurrent => hnew ?_⟩
        obtain rfl := Option.some.inj (hsetup.symm.trans hcurrent)
        exact hd
  | stop hanswer hout hcmd hclient hremove =>
      obtain ⟨playing, rfl, hholds⟩ := h.playing.removed hremove
      exact ⟨_, h.update hconn hholds (fun c hc => .inl ((Engine.mem_without hnodup).1 hc)) le_rfl
        (fun c hc => .inl (hclient ▸ hc)) (fun c hc => .inl hc) hphase⟩

theorem Sound.frame (h : s.Sound xs) (hplaying : e.playing = s.engine.playing)
    (hlength : e.clients.length = s.engine.clients.length) (hfreed : e.freed = s.engine.freed) :
    ({ s with engine := e } : Server).Sound xs where
  playing := ⟨hplaying ▸ h.playing.holds, fun c hc => hlength ▸ h.playing.exist c hc⟩
  linked := h.linked
  owner_length := h.owner_length.trans hlength.symm
  owned := h.owned
  freed c hc := h.freed c (hfreed ▸ hc)

theorem connections_append_cases {conn₀ : Connection}
    (hi : (s.connections ++ [conn₀])[i]? = some conn) :
    s.connections[i]? = some conn ∨ conn = conn₀ := by
  rcases Nat.lt_or_ge i s.connections.length with hlt | hge
  · rw [List.getElem?_append_left hlt] at hi
    exact .inl hi
  · rw [List.getElem?_append_right hge] at hi
    exact .inr (List.mem_singleton.1 (List.mem_of_getElem? hi))

theorem Sound.connect (h : s.Sound xs) (ip : Bytes) (sid : UInt32) :
    ({ s with connections := s.connections ++ [⟨.new, .new ip sid, .live⟩] } : Server).Sound xs := by
  have hleft : ∀ (i : ℕ) (conn : Connection), s.connections[i]? = some conn →
      (s.connections ++ [⟨.new, .new ip sid, .live⟩])[i]? = some conn := fun i conn hi =>
    List.getElem?_append_left (List.getElem?_eq_some_iff.1 hi).1 ▸ hi
  refine ⟨h.playing, ?_, h.owner_length, ?_, ?_⟩
  · intro c hc
    obtain ⟨i, conn, hi, hactive⟩ := h.linked c hc
    exact ⟨i, conn, hleft i conn hi, hactive⟩
  · intro i conn c hi hclient
    rcases connections_append_cases hi with hi | rfl
    · exact h.owned i conn c hi hclient
    · cases hclient
  · intro c hc
    obtain ⟨i, conn, howner, hi, hphase⟩ := h.freed c hc
    exact ⟨i, conn, howner, hleft i conn hi, hphase⟩

/-- Every step other than a second PLAY keeps the playing list sound. -/
theorem Sound.step {a : Action} (h : s.Sound xs) (hagain : ¬PlaysAgain P s a)
    (hstep : Step P s a s') : ∃ ys, s'.Sound ys := by
  have hnodup := h.playing.holds.nodup
  cases a with
  | connect ip sid =>
      obtain rfl := Option.some.inj hstep
      exact ⟨xs, h.connect ip sid⟩
  | request i net m size =>
      obtain ⟨conn, call, m', cmd, hd, e, hconn, hactive, hrequest, heffect, rfl⟩ :=
        request_effect hstep
      refine h.effect hconn hactive heffect ?_
      intro hout c hclient hmem
      exact hagain ⟨conn, c, hconn, by rw [Session.carriesOut, hrequest]; exact hout, hclient, hmem⟩
  | disconnect i =>
      obtain ⟨conn, e, hconn, hlive, hremove, rfl⟩ := disconnect_effect hstep
      obtain ⟨playing, rfl, hholds⟩ := h.playing.removed hremove
      exact ⟨_, h.update hconn hholds (fun c hc => .inl ((Engine.mem_without hnodup).1 hc)) le_rfl
        (fun c hc => .inl hc) (fun c hc => .inl hc) (by simp [hlive])⟩
  | destroy i =>
      obtain ⟨conn, hconn, hphase, rfl⟩ := destroy_effect hstep
      have hother : ∀ c ∈ xs, conn.handler.rtpClient ≠ some c := fun c hc hclient => by
        have hlive := (h.owner_active hc (h.owned i conn c hconn hclient) hconn).1.1
        cases hphase.symm.trans hlive
      refine ⟨xs, h.update hconn ?_ (fun c hc => .inl ⟨hc, hother c hc⟩) (by simp)
        (fun c hc => .inl hc) ?_ (by simp [hphase])⟩
      · rw [Engine.playing_deleteClient]
        exact h.playing.holds
      · intro c hc
        exact (Engine.mem_freed_deleteClient.1 hc).imp_right fun hclient => ⟨hclient, rfl⟩
  | getFree =>
      obtain rfl := Option.some.inj hstep
      obtain ⟨hplaying, hclients, hfreed⟩ := Engine.getFree_frame s.engine
      exact ⟨xs, h.frame hplaying (congrArg _ hclients) hfreed⟩
  | putFree b =>
      obtain rfl := Option.some.inj hstep
      exact ⟨xs, h.frame rfl rfl rfl⟩
  | send b bytes samples results =>
      obtain ⟨e, hsend, rfl⟩ := send_completes hstep
      obtain ⟨block, visited, -, -, -, rfl⟩ := Engine.send_eq_ok.1 hsend
      exact ⟨xs, h.frame rfl (by simp [Engine.putFree]) rfl⟩

theorem Sound.run {as : List Action} (hrun : Run (Step P) s as s') (h : s.Sound xs)
    (hagain : Along (Step P) (fun s a => ¬PlaysAgain P s a) s as) : ∃ ys, s'.Sound ys :=
  hrun.invariant_along (I := fun s => ∃ ys, s.Sound ys)
    (fun _ _ _ ⟨_, h⟩ hagain hstep => h.step hagain hstep) hagain ⟨xs, h⟩

/-- In every run without a second PLAY of a playing client, the playing list meets each client at
most once and ends, and the clients of a connection whose `terminate` has returned are not on it, be
it the one of a KILL or the one at the end of the loop; so no client on it has been deleted. -/
theorem playing_list_sound (P : Lookup) (codec : AudioCodec) (rtp rtcp : ℤ) (numBuffers : ℕ)
    (as : List Action) (s : Server) (hrun : Run (Step P) (new codec rtp rtcp numBuffers) as s)
    (hagain : Along (Step P) (fun s a => ¬PlaysAgain P s a) (new codec rtp rtcp numBuffers) as) :
    (∀ c, s.engine.playing.OccursOnce c) ∧
      (∃ visited, s.engine.playing.visit s.engine.clients.length = some visited) ∧
      (∀ i conn c, s.connections[i]? = some conn → ¬conn.Active → s.owner[c]? = some i →
        ¬s.engine.playing.Mem c) ∧
      ∀ c ∈ s.engine.freed, ¬s.engine.playing.Mem c := by
  obtain ⟨xs, h⟩ := (sound_new codec rtp rtcp numBuffers).run hrun hagain
  refine ⟨h.playing.holds.occursOnce, ⟨xs, h.playing.visit⟩, ?_, ?_⟩
  · intro i conn c hconn hactive howner hmem
    exact hactive (h.owner_active (h.playing.mem_iff.1 hmem) howner hconn).1
  · intro c hc hmem
    obtain ⟨i, conn, howner, hconn, hdestroyed⟩ := h.freed c hc
    have hlive := (h.owner_active (h.playing.mem_iff.1 hmem) howner hconn).1.1
    cases hdestroyed.symm.trans hlive

/-! ### Runs with and without a second PLAY -/

/-- The request is no PLAY, or the playing list does not have the client. -/
def playsOnce (P : Lookup) (s : Server) : Action → Bool
  | .request i _ m size =>
      match s.connections[i]? with
      | some conn => conn.session.carriesOut P m size ≠ some .play ∨
          (s.engine.playing.visit s.engine.clients.length).any fun visited =>
            conn.handler.rtpClient.all (· ∉ visited)
      | none => true
  | _ => true

theorem not_playsAgain {a : Action} (h : playsOnce P s a = true) : ¬PlaysAgain P s a := by
  cases a with
  | request i net m size =>
      rintro ⟨conn, c, hconn, hplay, hclient, hmem⟩
      simp only [playsOnce, hconn, hplay, ne_eq, not_true, false_or, decide_eq_true_eq,
        Option.any_eq_true, hclient, Option.all_some] at h
      obtain ⟨visited, hvisit, hnot⟩ := h
      exact hnot ((LinkedList.holds_of_visit hvisit).mem_iff.1 hmem)
  | _ => exact id

/-- The engine of the examples streams PCM from ports 6000 and 6001. -/
def pcmServer : Server := new (AudioCodec.createPcm ⟨16, 2, 48000⟩) 6000 6001 4

/-- The calls of a SETUP on a simulated socket. -/
def simulated : SocketCalls := ⟨true, 0, none, true⟩

def setupText : Bytes :=
  requestText "SETUP" ["CSeq: 1", "Transport: RTP/AVP;unicast;client_port=5000-5001"]

def playText : Bytes := requestText "PLAY" ["CSeq: 2"]

def pauseText : Bytes := requestText "PAUSE" ["CSeq: 3"]

/-- SETUP, PLAY, PLAY of one session: its client is linked to itself. -/
theorem second_play_closes_cycle : ∃ s, Run (Step Lookup.literal) pcmServer
    [.connect (ascii "10.0.0.1") 7, .ofText 0 simulated setupText, .ofText 0 simulated playText,
      .ofText 0 simulated playText] s ∧
    ¬s.engine.playing.OccursOnce 0 ∧ ¬s.engine.playing.Ends := by
  have hrun : (execAll (exec Lookup.literal) pcmServer
      [.connect (ascii "10.0.0.1") 7, .ofText 0 simulated setupText, .ofText 0 simulated playText,
        .ofText 0 simulated playText]).any (fun s =>
      s.engine.playing.head = some 0 ∧ s.engine.playing.next 0 = some 0) = true := by
    decide +kernel
  obtain ⟨s, hs, hloop⟩ := run_of_any hrun
  obtain ⟨hhead, hnext⟩ := of_decide_eq_true hloop
  have hall := LinkedList.nodeAt_loop hhead hnext
  refine ⟨s, hs, ?_, ?_⟩
  · intro honce
    exact absurd (honce 0 1 (hall 0) (hall 1)) (by decide)
  · intro hends
    obtain ⟨n, hn⟩ := hends
    cases (hall n).symm.trans hn

/-- Two sessions that play, pause and play again, one of which disconnects and is deleted. -/
theorem playing_list_sound_two_sessions : ∃ s, Run (Step Lookup.literal) pcmServer
    [.connect (ascii "10.0.0.1") 7, .connect (ascii "10.0.0.1") 8, .ofText 0 simulated setupText,
      .ofText 1 simulated setupText, .ofText 0 simulated playText, .ofText 1 simulated playText,
      .ofText 0 simulated pauseText, .ofText 0 simulated playText, .disconnect 1, .destroy 1] s ∧
    (∀ c, s.engine.playing.OccursOnce c) ∧ ∀ c ∈ s.engine.freed, ¬s.engine.playing.Mem c := by
  obtain ⟨s, hs⟩ := Option.isSome_iff_exists.1 (show (execAll (exec Lookup.literal) pcmServer
    [.connect (ascii "10.0.0.1") 7, .connect (ascii "10.0.0.1") 8, .ofText 0 simulated setupText,
      .ofText 1 simulated setupText, .ofText 0 simulated playText, .ofText 1 simulated playText,
      .ofText 0 simulated pauseText, .ofText 0 simulated playText, .disconnect 1,
      .destroy 1]).isSome = true by decide +kernel)
  have hsound := playing_list_sound Lookup.literal _ _ _ _ _ s (run_of_execAll hs)
    (along_of_allAlong (fun _ _ => not_playsAgain) (by decide +kernel))
  exact ⟨s, run_of_execAll hs, hsound.1, hsound.2.2.2⟩

end Server

end WifiAudio
