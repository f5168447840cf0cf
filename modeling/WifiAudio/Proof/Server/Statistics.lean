import WifiAudio.Proof.Server.Broadcast

/-!
# The list of RTP clients

`cmd_rtp` asks the engine how many clients there are and then for one after another, each time by a walk
of the playing list under the lock; the counters of a client are read without it. The other threads go
on in between, so each access finds the engine at a moment of its own. Where the list is sound and the
same at each of them every session in PLAY is found once, and the counters printed are what the history
of the run up to their moment makes them.
-/

namespace WifiAudio

open Except Transition

theorem mapM_eq_map {α β : Type} {f : α → Except Fault β} {g : α → β} {l : List α}
    (h : ∀ a ∈ l, f a = .ok (g a)) : l.mapM f = .ok (l.map g) := by
  induction l with
  | nil => rfl
  | cons a l ih =>
      obtain ⟨ha, hl⟩ := List.forall_mem_cons.1 h
      rw [List.mapM_cons, ha, ih hl]
      rfl

namespace Engine

variable {e : Engine} {xs ys : List ℕ} {p : Option ℕ}

/-- A walk that looks for a position it never reaches counts the clients. -/
theorem findClient_missing {fuel : ℕ} {sought idx : ℤ}
    (hpath : LinkedList.Path e.playing.next p ys none) (hfuel : ys.length ≤ fuel) (hlt : sought < idx) :
    e.findClient sought fuel idx p = .ok (idx + ys.length, none) := by
  induction ys generalizing p idx fuel with
  | nil =>
      obtain rfl := hpath
      simp [findClient]
  | cons c ys ih =>
      obtain ⟨rfl, hpath⟩ := hpath
      rw [List.length_cons] at hfuel ⊢
      cases fuel with
      | zero => omega
      | succ fuel =>
          rw [findClient, if_neg (by omega)]
          rw [ih hpath (by omega) (by omega)]
          congr 2
          omega

/-- A walk that looks for the client `k` places on finds it, if there is one. -/
theorem findClient_found {fuel : ℕ} {idx : ℤ} (hpath : LinkedList.Path e.playing.next p ys none)
    (hfuel : ys.length ≤ fuel) (k : ℕ) :
    ∃ reached, e.findClient (idx + k) fuel idx p = .ok (reached, ys[k]?) := by
  induction ys generalizing p idx fuel k with
  | nil =>
      obtain rfl := hpath
      exact ⟨idx, by rw [findClient, List.getElem?_nil]⟩
  | cons c ys ih =>
      obtain ⟨rfl, hpath⟩ := hpath
      rw [List.length_cons] at hfuel
      cases k with
      | zero => exact ⟨idx, by cases fuel <;> simp [findClient]⟩
      | succ k =>
          cases fuel with
          | zero => omega
          | succ fuel =>
              obtain ⟨reached, hfound⟩ : ∃ reached, e.findClient (idx + 1 + k) fuel (idx + 1)
                  (e.playing.next c) = .ok (reached, ys[k]?) := ih hpath (Nat.le_of_succ_le_succ hfuel) k
              have hsum : idx + 1 + (k : ℤ) = idx + ((k + 1 : ℕ) : ℤ) := by omega
              rw [hsum] at hfound
              refine ⟨reached, ?_⟩
              rw [findClient, if_neg (by omega), List.getElem?_cons_succ]
              exact hfound

/-- The clients a walk of the playing list visits. -/
def listed (e : Engine) : Option (List ℕ) := e.playing.visit e.clients.length

/-- The line of the client `c` at position `idx`. -/
def lineOf (look : Access → Engine) (idx c : ℕ) : ClientLine where
  client := c
  packets := (look (.packets idx)).clients[c]?.elim 0 RtpClient.numPackets
  errors := (look (.errors idx)).clients[c]?.elim 0 RtpClient.numErrors

theorem map_client_lineOf (look : Access → Engine) (xs : List ℕ) :
    (xs.mapIdx (lineOf look)).map ClientLine.client = xs := by
  apply List.ext_getElem?
  intro i
  rw [List.getElem?_map, List.getElem?_mapIdx, Option.map_map]
  exact Option.map_id_fun' ▸ rfl

theorem Playing.getNumClients (h : e.Playing xs) : e.getNumClients = .ok (xs.length : ℤ) := by
  rw [Engine.getNumClients, findClient_missing h.holds h.length_le (by decide), Int.zero_add]
  rfl

theorem Playing.getClient (h : e.Playing xs) (i : ℕ) : e.getClient i = .ok xs[i]? := by
  obtain ⟨reached, hfound⟩ : ∃ reached, e.findClient (0 + i) e.clients.length 0 e.playing.head =
      .ok (reached, xs[i]?) := findClient_found h.holds h.length_le i
  rw [Int.zero_add] at hfound
  rw [Engine.getClient, hfound]
  rfl

theorem Playing.readClient {c : ℕ} (h : e.Playing xs) (hc : c ∈ xs) (hfreed : c ∉ e.freed) :
    ∃ client, e.readClient c = .ok client ∧ e.clients[c]? = some client := by
  obtain ⟨client, hclient⟩ : ∃ client, e.clients[c]? = some client :=
    ⟨_, List.getElem?_eq_getElem (h.exist c hc)⟩
  exact ⟨client, by rw [Engine.readClient, if_neg hfreed, hclient], hclient⟩

/-- The clients of the playing list are listed in its order, where it is the same at every access and
none of them is deleted. -/
theorem cmdRtp_eq_ok {look : Access → Engine} (h : ∀ access, (look access).Playing xs)
    (hfreed : ∀ access, ∀ c ∈ xs, c ∉ (look access).freed) :
    cmdRtp look = .ok ((xs.length : ℤ), xs.mapIdx (lineOf look)) := by
  have hlines : ∀ i ∈ List.range xs.length, clientLine look i = .ok (xs[i]?.map (lineOf look i)) := by
    intro i hi
    obtain ⟨c, hc⟩ : ∃ c, xs[i]? = some c := ⟨_, List.getElem?_eq_getElem (List.mem_range.1 hi)⟩
    have hmem : c ∈ xs := List.mem_of_getElem? hc
    obtain ⟨packets, hpackets, hpackets'⟩ := (h (.packets i)).readClient hmem (hfreed _ c hmem)
    obtain ⟨errors, herrors, herrors'⟩ := (h (.errors i)).readClient hmem (hfreed _ c hmem)
    simp [clientLine, (h (.client i)).getClient, hc, hpackets, herrors, lineOf, hpackets', herrors']
  have hmap : (List.range xs.length).mapM (clientLine look) =
      .ok ((List.range xs.length).map fun i => xs[i]?.map (lineOf look i)) := mapM_eq_map hlines
  have hall : (List.range xs.length).map (fun i => xs[i]?.map (lineOf look i)) =
      (xs.mapIdx (lineOf look)).map some := by
    apply List.ext_getElem?
    intro i
    rcases Nat.lt_or_ge i xs.length with hlt | hge
    · simp [hlt]
    · simp [hge]
  rw [cmdRtp, (h .count).getNumClients]
  change ((List.range (xs.length : ℤ).toNat).mapM (clientLine look)).bind (fun lines =>
    .ok ((xs.length : ℤ), lines.filterMap id)) = _
  rw [Int.toNat_natCast, hmap, hall]
  change Except.ok (_, _) = _
  rw [List.filterMap_map]
  simp

end Engine

theorem toInt_zero : toInt 0 = 0 := Int.zero_bmod

theorem toInt_toInt_add_one (n : ℤ) : toInt (toInt n + 1) = toInt (n + 1) := Int.bmod_add_bmod

theorem RtpClient.numPackets_sendPacket (data : Bytes) (result : ℤ) (c : RtpClient) :
    (c.sendPacket data result).numPackets = toInt (c.numPackets + 1) :=
  rfl

theorem RtpClient.numErrors_sendPacket (data : Bytes) (result : ℤ) (c : RtpClient) :
    (c.sendPacket data result).numErrors =
      if result = data.length then c.numErrors else toInt (c.numErrors + 1) :=
  rfl

theorem RtpClient.sent_sendPacket (data : Bytes) (result : ℤ) (c : RtpClient) :
    (c.sendPacket data result).socket.sent = c.socket.sent ++ [data] :=
  rfl

namespace Server

variable {P : Lookup} {s s' : Server} {xs : List ℕ} {a : Action} {c : ℕ}

/-- The step sends a packet to client `c`, whose socket does not take all of it. -/
def failsFor (c : ℕ) (s : Server) : Action → Bool
  | .send b bytes samples results =>
      (s.engine.playing.visit s.engine.clients.length).any (fun visited => c ∈ visited) &&
        (s.packetOf (.send b bytes samples results)).any fun packet => results c ≠ packet.length
  | _ => false

/-- How many packets the socket of client `c` has not taken on the way. -/
def failures (P : Lookup) (c : ℕ) (s : Server) (as : List Action) : ℕ :=
  (trace (exec P) s as).countP fun step => failsFor c step.1 step.2

/-- The counters of client `c` and what it was sent. -/
structure Counted (s : Server) (c failed : ℕ) : Prop where
  packets : s.engine.clients[c]?.elim 0 RtpClient.numPackets = toInt (s.engine.sentTo c).length
  errors : s.engine.clients[c]?.elim 0 RtpClient.numErrors = toInt failed

theorem counted_new (codec : AudioCodec) (rtp rtcp : ℤ) (numBuffers c : ℕ) :
    (new codec rtp rtcp numBuffers).Counted c 0 :=
  ⟨toInt_zero.symm, toInt_zero.symm⟩

theorem failsFor_quiet (hquiet : s.packetOf a = none) : failsFor c s a = false := by
  cases a with
  | send b bytes samples results => simp [failsFor, hquiet]
  | _ => rfl

theorem Counted.send {failed b bytes samples : ℕ} {results : ℕ → ℤ} {e : Engine} (h : s.Counted c failed)
    (hplaying : s.engine.Playing xs) (hsend : s.engine.send b bytes samples results = .ok e) :
    ({ s with engine := e } : Server).Counted c
      (failed + if failsFor c s (.send b bytes samples results) then 1 else 0) := by
  obtain ⟨block, visited, hblock, -, hvisit, he⟩ := Engine.send_eq_ok.1 hsend
  obtain rfl : xs = visited := Option.some.inj (hplaying.visit.symm.trans hvisit)
  have hpacket : s.packetOf (.send b bytes samples results) =
      some ((block.stamp s.engine.packetSeq s.engine.timestamp).packet bytes) := by
    rw [packetOf, Engine.packetOf, hblock]
    rfl
  have hfails : failsFor c s (.send b bytes samples results) = true ↔
      c ∈ xs ∧ results c ≠ ((block.stamp s.engine.packetSeq s.engine.timestamp).packet bytes).length := by
    simp [failsFor, hpacket, hvisit]
  have hafter : e.clients[c]? = s.engine.clients[c]?.map fun client => if c ∈ xs then
      client.sendPacket ((block.stamp s.engine.packetSeq s.engine.timestamp).packet bytes) (results c)
      else client := by
    rw [he]
    exact Engine.getElem?_sendAll hplaying.holds.nodup _ _
  generalize (block.stamp s.engine.packetSeq s.engine.timestamp).packet bytes = packet at hfails hafter
  obtain ⟨hpackets, herrors⟩ := h
  rw [Engine.sentTo] at hpackets
  cases hclient : s.engine.clients[c]? with
  | none =>
      have hnot : c ∉ xs := fun hmem => by
        have hexists := hplaying.exist c hmem
        rw [List.getElem?_eq_none_iff] at hclient
        omega
      rw [hclient, Option.map_none] at hafter
      rw [hclient, Option.elim_none] at herrors
      constructor
      · simp [Engine.sentTo, hafter, toInt_zero]
      · rw [if_neg fun h => hnot (hfails.1 h).1, hafter, Option.elim_none, Nat.add_zero]
        exact herrors
  | some client =>
      rw [hclient, Option.map_some] at hafter
      rw [hclient, Option.elim_some, Option.elim_some] at hpackets
      rw [hclient, Option.elim_some] at herrors
      by_cases hmem : c ∈ xs
      · rw [if_pos hmem] at hafter
        constructor
        · rw [Engine.sentTo, hafter, Option.elim_some, Option.elim_some, RtpClient.numPackets_sendPacket,
            RtpClient.sent_sendPacket, hpackets, toInt_toInt_add_one, List.length_append]
          exact congrArg toInt (Int.natCast_succ _).symm
        · rw [hafter, Option.elim_some, RtpClient.numErrors_sendPacket]
          by_cases hresult : results c = packet.length
          · rw [if_pos hresult, if_neg fun h => (hfails.1 h).2 hresult, Nat.add_zero]
            exact herrors
          · rw [if_neg hresult, if_pos (hfails.2 ⟨hmem, hresult⟩), herrors, toInt_toInt_add_one]
            exact congrArg toInt (Int.natCast_succ failed).symm
      · rw [if_neg hmem] at hafter
        constructor
        · simp [Engine.sentTo, hafter, hpackets]
        · rw [hafter, if_neg fun h => hmem (hfails.1 h).1, Nat.add_zero]
          exact herrors

theorem Counted.step {failed : ℕ} (h : s.Counted c failed) (hplaying : s.engine.Playing xs)
    (hstep : Step P s a s') : s'.Counted c (failed + if failsFor c s a then 1 else 0) := by
  by_cases hsend : ∃ b bytes samples results, a = .send b bytes samples results
  · obtain ⟨b, bytes, samples, results, rfl⟩ := hsend
    obtain ⟨e, hsend, rfl⟩ := send_completes hstep
    exact h.send hplaying hsend
  · have hquiet : s.packetOf a = none := by
      cases a with
      | send b bytes samples results => exact absurd ⟨b, bytes, samples, results, rfl⟩ hsend
      | _ => rfl
    rw [failsFor_quiet hquiet]
    refine ⟨?_, ?_⟩
    · rw [Engine.sentTo, quiet_clients (fun _ _ _ => rfl) hstep hquiet,
        quiet_clients (fun _ _ _ => rfl) hstep hquiet]
      exact h.packets
    · rw [quiet_clients (fun _ _ _ => rfl) hstep hquiet]
      exact h.errors

theorem Counted.run {failed : ℕ} {as : List Action} (h : s.Counted c failed) (hair : s.InStep xs)
    (hrun : Run (Step P) s as s') (hreplace : Along (Step P) (fun s a => ¬ReplacesPlaying P s a) s as) :
    s'.Counted c (failed + failures P c s as) := by
  induction hrun generalizing failed xs with
  | nil => exact h
  | @cons s u s' a as hstep _ ih =>
      obtain ⟨ys, hys⟩ := hair.step hreplace.1 hstep
      have hrest := ih (h.step hair.sound.playing hstep) hys (hreplace.2 u hstep)
      have hcount : failures P c s (a :: as) = (if failsFor c s a then 1 else 0) + failures P c u as := by
        rw [failures, trace_cons hstep, List.countP_cons, Nat.add_comm]
        rfl
      rw [hcount, ← Nat.add_assoc]
      exact hrest

theorem counted_run {codec : AudioCodec} {rtp rtcp : ℤ} {numBuffers : ℕ} {as : List Action}
    (hrun : Run (Step P) (new codec rtp rtcp numBuffers) as s)
    (hreplace : Along (Step P) (fun s a => ¬ReplacesPlaying P s a) (new codec rtp rtcp numBuffers) as)
    (c : ℕ) : s.Counted c (failures P c (new codec rtp rtcp numBuffers) as) := by
  have hcounted := (counted_new codec rtp rtcp numBuffers c).run (inStep_new codec rtp rtcp numBuffers)
    hrun hreplace
  rwa [Nat.zero_add] at hcounted

theorem InStep.of_listed {ys : List ℕ} (h : s.InStep xs) (hys : s'.InStep ys)
    (hsame : s'.engine.listed = s.engine.listed) : s'.InStep xs := by
  have hlisted : some ys = some xs := calc
    some ys = s'.engine.listed := hys.sound.playing.visit.symm
    _ = s.engine.listed := hsame
    _ = some xs := h.sound.playing.visit
  rwa [← Option.some.inj hlisted]

theorem InStep.playing_iff {i : ℕ} {conn : Connection} (h : s.InStep xs)
    (hconn : s.connections[i]? = some conn) (hlive : conn.phase = .live) :
    conn.session.state = .play ↔ ∃ c ∈ xs, conn.handler.rtpClient = some c := by
  rw [(h.inStep i conn hconn hlive).play_iff]
  exact ⟨fun ⟨c, hclient, hmem⟩ => ⟨c, hmem, hclient⟩, fun ⟨c, hmem, hclient⟩ => ⟨c, hclient, hmem⟩⟩

/-- The accesses of `cmd_rtp` fall into a run in which no PLAY and no SETUP is carried out in PLAY, each
after so many steps of it. Where they all find the same playing list there is a line for the client of
each session in PLAY and no other, once, with the number of packets it was sent when they were read and
the number of those that its socket had not taken, as an `int`. -/
theorem cmd_rtp_lists_sessions (P : Lookup) (codec : AudioCodec) (rtp rtcp : ℤ) (numBuffers : ℕ)
    (as : List Action) (moment : Engine.Access → ℕ) (look : Engine.Access → Server)
    (hreplace : Along (Step P) (fun s a => ¬ReplacesPlaying P s a) (new codec rtp rtcp numBuffers) as)
    (hlook : ∀ access, Run (Step P) (new codec rtp rtcp numBuffers) (as.take (moment access)) (look access))
    (hsame : ∀ access, (look access).engine.listed = (look .count).engine.listed) :
    ∃ lines, Engine.cmdRtp (fun access => (look access).engine) = .ok ((lines.length : ℤ), lines) ∧
      (lines.map Engine.ClientLine.client).Nodup ∧
      (∀ (access : Engine.Access) (i : ℕ) (conn : Connection), (look access).connections[i]? = some conn →
        conn.phase = .live →
        (conn.session.state = .play ↔ ∃ line ∈ lines, conn.handler.rtpClient = some line.client)) ∧
      ∀ (idx : ℕ) (line : Engine.ClientLine), lines[idx]? = some line →
        (∀ access, ∃ (i : ℕ) (conn : Connection), (look access).connections[i]? = some conn ∧
          conn.phase = .live ∧ conn.session.state = .play ∧ conn.handler.rtpClient = some line.client) ∧
        line.packets = toInt ((look (.packets idx)).engine.sentTo line.client).length ∧
        line.errors = toInt (failures P line.client (new codec rtp rtcp numBuffers)
          (as.take (moment (.errors idx)))) := by
  have hbefore : ∀ access, Along (Step P) (fun s a => ¬ReplacesPlaying P s a)
      (new codec rtp rtcp numBuffers) (as.take (moment access)) := by
    intro access
    rw [← List.take_append_drop (moment access) as] at hreplace
    exact hreplace.of_append.1
  obtain ⟨xs, hcount⟩ := inStep_run (hlook .count) (hbefore .count)
  have h : ∀ access, (look access).InStep xs := by
    intro access
    obtain ⟨ys, hys⟩ := inStep_run (hlook access) (hbefore access)
    exact hcount.of_listed hys (hsame access)
  have hclients := Engine.map_client_lineOf (fun access => (look access).engine) xs
  refine ⟨xs.mapIdx (Engine.lineOf fun access => (look access).engine), ?_, ?_, ?_, ?_⟩
  · rw [List.length_mapIdx]
    exact Engine.cmdRtp_eq_ok (fun access => (h access).sound.playing)
      fun access c hc => (h access).sound.not_freed hc
  · rw [hclients]
    exact hcount.sound.playing.holds.nodup
  · intro access i conn hconn hlive
    rw [(h access).playing_iff hconn hlive]
    conv_lhs => rw [← hclients]
    simp only [List.mem_map, exists_exists_and_eq_and]
  · intro idx line hline
    obtain ⟨c, hc, rfl⟩ : ∃ c, xs[idx]? = some c ∧
        Engine.lineOf (fun access => (look access).engine) idx c = line := by
      rw [List.getElem?_mapIdx] at hline
      exact Option.map_eq_some_iff.1 hline
    have hmem : c ∈ xs := List.mem_of_getElem? hc
    refine ⟨fun access => ?_, ?_, ?_⟩
    · obtain ⟨i, conn, hconn, hactive, hclient⟩ := (h access).sound.linked c hmem
      have hplay := ((h access).playing_iff hconn hactive.1).2 ⟨c, hmem, hclient⟩
      exact ⟨i, conn, hconn, hactive.1, hplay, hclient⟩
    · exact (counted_run (hlook (.packets idx)) (hbefore (.packets idx)) c).packets
    · exact (counted_run (hlook (.errors idx)) (hbefore (.errors idx)) c).errors

/-- Two sessions that play, the first from the first packet on and the second from the second. -/
def twoListeners : List Action :=
  [.connect (ascii "10.0.0.1") 7, .connect (ascii "10.0.0.1") 8, .ofText 0 simulated setupText,
    .ofText 0 simulated playText, .ofText 1 simulated setupText, .getFree,
    .send 3 1440 360 fun _ => -1, .ofText 1 simulated playText, .getFree,
    .send 3 1440 360 fun c => if c = 0 then -1 else 1452]

/-- The second packet is sent when the packets of the first line have been read. -/
def amidst : Engine.Access → ℕ
  | .count => 8
  | .client _ => 9
  | .packets idx => if idx = 0 then 9 else 10
  | .errors _ => 10

theorem amidst_mem (access : Engine.Access) : amidst access ∈ [8, 9, 10] := by
  cases access with
  | packets idx => by_cases hidx : idx = 0 <;> simp [amidst, hidx]
  | _ => simp [amidst]

/-- The first of two packets reaches one session; the second, sent while the lines are read, both. The
socket of the first takes neither whole. -/
theorem cmd_rtp_lists_two : ∃ (look : Engine.Access → Server) (lines : List Engine.ClientLine),
    (∀ access, Run (Step Lookup.literal) pcmServer (twoListeners.take (amidst access)) (look access)) ∧
    Engine.cmdRtp (fun access => (look access).engine) = .ok ((lines.length : ℤ), lines) ∧
    (lines.map Engine.ClientLine.client).Nodup ∧ lines = [⟨1, 0, 0⟩, ⟨0, 2, 2⟩] ∧
    toInt (failures Lookup.literal 0 pcmServer (twoListeners.take (amidst (.errors 1)))) = 2 := by
  have hreached : ∀ k ∈ [8, 9, 10], (execAll (exec Lookup.literal) pcmServer (twoListeners.take k)).any
      (fun s => s.engine.listed = some [1, 0]) = true := by
    decide +kernel
  let look : Engine.Access → Server := fun access =>
    (execAll (exec Lookup.literal) pcmServer (twoListeners.take (amidst access))).getD pcmServer
  have hlook : ∀ access, Run (Step Lookup.literal) pcmServer (twoListeners.take (amidst access))
      (look access) ∧ (look access).engine.listed = some [1, 0] := by
    intro access
    obtain ⟨s, hs, hlisted⟩ := run_of_any (hreached (amidst access) (amidst_mem access))
    have heq : look access = s := by
      change Option.getD (execAll _ _ _) _ = s
      rw [execAll_of_run hs, Option.getD_some]
    rw [heq]
    exact ⟨hs, of_decide_eq_true hlisted⟩
  obtain ⟨lines, hcmd, hnodup, -, hlines⟩ := cmd_rtp_lists_sessions Lookup.literal _ _ _ _ twoListeners
    amidst look (along_of_allAlong (fun _ _ => not_replacesPlaying) (by decide +kernel))
    (fun access => (hlook access).1) fun access => (hlook access).2.trans (hlook .count).2.symm
  have hread : (Engine.cmdRtp fun access => (look access).engine).toOption =
      some (2, [⟨1, 0, 0⟩, ⟨0, 2, 2⟩]) := by
    decide +kernel
  rw [hcmd] at hread
  obtain rfl : lines = [⟨1, 0, 0⟩, ⟨0, 2, 2⟩] := congrArg Prod.snd (Option.some.inj hread)
  exact ⟨look, _, fun access => (hlook access).1, hcmd, hnodup, rfl, (hlines 1 ⟨0, 2, 2⟩ rfl).2.2.symm⟩

end Server

end WifiAudio
