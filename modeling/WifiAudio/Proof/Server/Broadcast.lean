import WifiAudio.Lib.Broadcast
import WifiAudio.Proof.Rtp.Stream
import WifiAudio.Proof.Server.InStep
import WifiAudio.Proof.Server.Ownership

/-!
# The server is a broadcast hub

What the server is for: the encoder thread publishes packets, and each goes to the clients on the
playing list. A session is a station that is tuned in while its client is on the list, and what it has
heard is what was sent to the clients it has had, one after another. As long as no PLAY and no SETUP is
carried out in PLAY the server does just what the hub does, whatever the order of its steps. A request is
one step here: it takes effect where it changes the list. A session gets to know of the change when the
handler returns, so it is between two requests that the stations tuned in are the sessions in PLAY.
-/

namespace WifiAudio

open Except Transition Broadcast

/-! ### What is sent -/

namespace HandlerCall

variable {P : Lookup} {net : SocketCalls} {h h' : RtspHandler} {e e' : Engine} {cmd : RtspCommand}
  {call : HandlerCall}

theorem asked_setup {asked : RtspCommand} {uri : Option ℕ} {hdrs : RtspHeader} {code : ℤ} {m : Bytes}
    (hout : (HandlerCall.command asked uri hdrs code m).carriesOut = some .setup) :
    code = ErrorCode.ok ∧ asked = .setup := by
  by_cases hcode : code = ErrorCode.ok
  · refine ⟨hcode, ?_⟩
    subst hcode
    cases asked with
    | setup => rfl
    | describe => cases hsdp : hdrs.acceptSdp <;> simp [carriesOut, hsdp] at hout
    | _ => simp [carriesOut] at hout
  · simp [carriesOut, hcode] at hout

/-- A call of the handler leaves what there is to say about each client as it is, `d` being what is said
of a client that is new or not there. -/
theorem run_clients {β : Type} {f : RtpClient → β} {d : β}
    (hnew : ∀ ip port connected, f (.new ⟨ip, port, connected, []⟩) = d)
    (hrun : call.run (RtspHandler.handler P net) (h, e) = .ok (cmd, (h', e'))) (c : ℕ) :
    e'.clients[c]?.elim d f = e.clients[c]?.elim d f := by
  have heffect := run_effect hrun
  cases heffect with
  | answered hanswer hout hclient hcmd => rfl
  | play hdrs hanswer c' hout hsetup hclient => rfl
  | stop hanswer hout hcmd hclient hremove => rw [Engine.remove_clients hremove]
  | @setup _ removed hanswer socket hout hremove hclient =>
      cases call with
      | error code => cases hout
      | command asked uri hdrs code m =>
          obtain ⟨rfl, rfl⟩ := asked_setup hout
          obtain ⟨⟨code, s⟩, hcommand, hresult⟩ := bind_eq_ok.1 hrun
          obtain ⟨-, rfl⟩ := Prod.mk.inj (Except.ok.inj hresult)
          obtain ⟨-, ⟨-, -, -, hsame⟩ | ⟨t, removed', -, -, hremove', -, hmade⟩⟩ := setup_cases hcommand
          · rw [hsame]
          · rw [hmade]
            change Option.elim (removed'.clients ++ [_])[c]? _ _ = _
            rw [Engine.remove_clients hremove']
            rcases Nat.lt_or_ge c e.clients.length with hlt | hle
            · rw [List.getElem?_append_left hlt]
            · rw [List.getElem?_append_right hle, List.getElem?_eq_none hle, List.getElem?_singleton]
              split
              · exact hnew _ _ _
              · rfl

end HandlerCall

namespace Engine

variable {e e' : Engine} {xs : List ℕ}

/-- A packet is sent to the clients of the playing list. -/
theorem sentTo_send (hplaying : e.Playing xs) {b bytes samples : ℕ} {results : ℕ → ℤ}
    (hsend : e.send b bytes samples results = .ok e') :
    ∃ packet, e.packetOf (.send b bytes samples results) = some packet ∧
      ∀ c, e'.sentTo c = e.sentTo c ++ if c ∈ xs then [packet] else [] := by
  obtain ⟨block, visited, hblock, -, hvisit, rfl⟩ := send_eq_ok.1 hsend
  obtain rfl : xs = visited := Option.some.inj (hplaying.visit.symm.trans hvisit)
  refine ⟨_, by rw [packetOf, hblock]; rfl, ?_⟩
  intro c
  change Option.elim (sendAll _ _ _ _)[c]? _ _ = Option.elim e.clients[c]? _ _ ++ _
  rw [getElem?_sendAll hplaying.holds.nodup]
  cases hclient : e.clients[c]? with
  | none =>
      have hc : c ∉ xs := by
        intro hc
        have hlt := hplaying.exist c hc
        rw [List.getElem?_eq_none_iff] at hclient
        omega
      simp [hc]
  | some client => by_cases hc : c ∈ xs <;> simp [hc, RtpClient.sendPacket]

end Engine

theorem flatMap_range_append {α : Type} {f g : ℕ → List α} {n c : ℕ} {p : List α} (hc : c < n)
    (hself : g c = f c ++ p) (hother : ∀ d, d ≠ c → g d = f d) (hlast : ∀ d, c < d → f d = []) :
    (List.range n).flatMap g = (List.range n).flatMap f ++ p := by
  obtain ⟨k, rfl⟩ := Nat.exists_eq_add_of_lt hc
  have hfront : (List.range c).flatMap g = (List.range c).flatMap f := by
    refine List.flatMap_congr fun d hd => hother d ?_
    have hlt := List.mem_range.1 hd
    omega
  have htail : ∀ h : ℕ → List α, (∀ d, c < d → h d = []) →
      ((List.range k).map fun d => c + 1 + d).flatMap h = [] := by
    intro h hh
    refine List.flatMap_eq_nil_iff.2 ?_
    intro d hd
    obtain ⟨d', -, rfl⟩ := List.mem_map.1 hd
    exact hh _ (by omega)
  have hsplit : List.range (c + k + 1) = List.range c ++ [c] ++ (List.range k).map fun d => c + 1 + d := by
    have hsum : c + k + 1 = c + 1 + k := by omega
    rw [hsum, List.range_add, List.range_succ]
  have hg : ∀ d, c < d → g d = [] := by
    intro d hd
    rw [hother d (by omega)]
    exact hlast d hd
  rw [hsplit]
  simp only [List.flatMap_append, List.flatMap_singleton, htail f hlast, htail g hg, hfront, hself,
    List.append_nil, List.append_assoc]

namespace Server

variable {P : Lookup} {s s' : Server} {xs : List ℕ} {i j : ℕ} {conn conn' : Connection} {e : Engine}
  {a : Action}

/-! ### The hub -/

/-- The client of connection `i` is on the playing list. -/
def tuned (s : Server) (i : ℕ) : Bool :=
  s.connections[i]?.any fun conn => conn.handler.rtpClient.any fun c =>
    (s.engine.playing.visit s.engine.clients.length).any fun xs => xs.contains c

/-- What was sent to the clients connection `i` has had, in the order they were made. -/
def received (s : Server) (i : ℕ) : List Bytes :=
  (List.range s.engine.clients.length).flatMap fun c =>
    if s.owner[c]? = some i then s.engine.sentTo c else []

/-- The server as a hub. -/
def hub (s : Server) : Hub Bytes :=
  (List.range s.connections.length).map fun i => ⟨s.tuned i, s.received i⟩

/-- The packet a step sends. -/
def packetOf (s : Server) : Action → Option Bytes
  | .send b bytes samples results => s.engine.packetOf (.send b bytes samples results)
  | _ => none

/-- The step of the hub that a step of the server amounts to. -/
def hubEvents (P : Lookup) (s : Server) : Action → List (Broadcast.Event Bytes)
  | .connect _ _ => [.join]
  | .request i net m size => [.tune i ((s.request P i net m size).any fun s' => s'.tuned i)]
  | .disconnect i => [.tune i false]
  | .destroy _ => []
  | .getFree => []
  | .putFree _ => []
  | .send b bytes samples results =>
      (s.packetOf (.send b bytes samples results)).toList.map Broadcast.Event.publish

/-- The server is in step, and a connection has no client made after its current one. -/
structure OnAir (s : Server) (xs : List ℕ) : Prop extends InStep s xs where
  owned : s.Owned
  latest : ∀ (i : ℕ) (conn : Connection) (c d : ℕ), s.connections[i]? = some conn →
    conn.handler.rtpClient = some c → s.owner[d]? = some i → d ≤ c

theorem hub_getElem? (s : Server) (i : ℕ) :
    s.hub[i]? = if i < s.connections.length then some ⟨s.tuned i, s.received i⟩ else none := by
  rw [hub, List.getElem?_map]
  split
  · rw [List.getElem?_range ‹_›]
    rfl
  · rw [List.getElem?_eq_none (by rw [List.length_range]; omega)]
    rfl

theorem InStep.tuned_iff (h : s.InStep xs) (hconn : s.connections[i]? = some conn) :
    s.tuned i = true ↔ conn.phase = .live ∧ conn.session.state = .play := by
  have hlisted : s.tuned i = true ↔ ∃ c, conn.handler.rtpClient = some c ∧ c ∈ xs := by
    rw [tuned, hconn, h.sound.playing.visit, Option.any_some, Option.any_eq_true]
    simp
  rw [hlisted]
  constructor
  · rintro ⟨c, hclient, hmem⟩
    have hlive := (h.sound.owner_active hmem (h.sound.owned i conn c hconn hclient) hconn).1.1
    exact ⟨hlive, (h.inStep i conn hconn hlive).play_iff.2 ⟨c, hclient, hmem⟩⟩
  · rintro ⟨hlive, hplay⟩
    exact (h.inStep i conn hconn hlive).play_iff.1 hplay

theorem InStep.tuned_congr {ys : List ℕ} (h : s.InStep xs) (h' : s'.InStep ys)
    (hsame : s'.connections[i]? = s.connections[i]?) : s'.tuned i = s.tuned i := by
  cases hconn : s.connections[i]? with
  | none => rw [tuned, tuned, hsame, hconn]; rfl
  | some conn => rw [Bool.eq_iff_iff, h.tuned_iff hconn, h'.tuned_iff (hsame.trans hconn)]

theorem received_congr (hsent : ∀ c, s'.engine.sentTo c = s.engine.sentTo c)
    (hlength : s.engine.clients.length ≤ s'.engine.clients.length)
    (howner : ∀ c, c < s.engine.clients.length → s'.owner[c]? = s.owner[c]?) (i : ℕ) :
    s'.received i = s.received i := by
  obtain ⟨k, hk⟩ := Nat.exists_eq_add_of_le hlength
  have hfront : (List.range s.engine.clients.length).flatMap (fun c =>
      if s'.owner[c]? = some i then s'.engine.sentTo c else []) = s.received i := by
    refine List.flatMap_congr fun c hc => ?_
    rw [howner c (List.mem_range.1 hc), hsent]
  have htail : ((List.range k).map fun c => s.engine.clients.length + c).flatMap (fun c =>
      if s'.owner[c]? = some i then s'.engine.sentTo c else []) = [] := by
    refine List.flatMap_eq_nil_iff.2 ?_
    intro c hc
    obtain ⟨d, -, rfl⟩ := List.mem_map.1 hc
    rw [hsent, Engine.sentTo, List.getElem?_eq_none (Nat.le_add_right _ _)]
    simp
  rw [received, hk, List.range_add, List.flatMap_append, hfront, htail, List.append_nil]

/-! ### The steps -/

/-- After a step that neither makes a connection nor sends anything the hub has changed at most where
station `i` was tuned. -/
theorem hub_tune (hlength : s'.connections.length = s.connections.length)
    (hreceived : ∀ j, s'.received j = s.received j) (hother : ∀ j, j ≠ i → s'.tuned j = s.tuned j) :
    s'.hub = s.hub.modify i fun station => { station with tuned := s'.tuned i } := by
  apply List.ext_getElem?
  intro j
  rw [List.getElem?_modify, hub_getElem?, hub_getElem?, hlength, hreceived]
  by_cases hj : j < s.connections.length
  · by_cases hij : i = j
    · subst hij
      simp [hj]
    · simp [hj, hij, hother j (Ne.symm hij)]
  · simp [hj]

theorem hub_same (hlength : s'.connections.length = s.connections.length)
    (hreceived : ∀ j, s'.received j = s.received j) (htuned : ∀ j, s'.tuned j = s.tuned j) :
    s'.hub = s.hub := by
  apply List.ext_getElem?
  intro j
  rw [hub_getElem?, hub_getElem?, hlength, hreceived, htuned]

theorem Accounts.owners {k : Option ℕ} (haccounts : s.Accounts k s') (howned : s.Owned) :
    s.engine.clients.length ≤ s'.engine.clients.length ∧
      ∀ c, c < s.engine.clients.length → s'.owner[c]? = s.owner[c]? := by
  cases haccounts with
  | engine e hlength hfreed => exact ⟨hlength.ge, fun _ _ => rfl⟩
  | connect ip sid => exact ⟨le_rfl, fun _ _ => rfl⟩
  | kept hconn hclient hphase hphase' hlength hfreed =>
      refine ⟨hlength.ge, fun c _ => ?_⟩
      rw [owner_update_kept _ _ hlength]
  | made hconn hclient hphase hphase' hlength hfreed =>
      refine ⟨by rw [update, hlength]; exact Nat.le_succ _, fun c hc => ?_⟩
      rw [owner_update_made _ _ hlength, List.getElem?_append_left (by rwa [howned.owner_length])]
  | deleted hconn hphase =>
      refine ⟨by simp [update], fun c _ => ?_⟩
      rw [owner_update_kept _ _ (by simp)]

theorem latest_accounts {k : Option ℕ} (haccounts : s.Accounts k s') (h : s.OnAir xs)
    (hconn' : s'.connections[i]? = some conn') {c d : ℕ} (hc : conn'.handler.rtpClient = some c)
    (hd : s'.owner[d]? = some i) : d ≤ c := by
  cases haccounts with
  | engine e hlength hfreed => exact h.latest i conn' c d hconn' hc hd
  | connect ip sid =>
      rcases connections_append_cases hconn' with hi | rfl
      · exact h.latest i conn' c d hi hc hd
      · cases hc
  | kept hconn hclient hphase hphase' hlength hfreed =>
      rw [owner_update_kept _ _ hlength] at hd
      rcases update_cases hconn hconn' with ⟨rfl, rfl⟩ | ⟨-, hi⟩
      · exact h.latest i _ c d hconn (hclient ▸ hc) hd
      · exact h.latest i conn' c d hi hc hd
  | made hconn hclient hphase hphase' hlength hfreed =>
      have hlt := (List.getElem?_eq_some_iff.1 hd).1
      rw [owner_update_made _ _ hlength] at hd hlt
      rw [List.length_append, List.length_singleton, h.owned.owner_length] at hlt
      rcases update_cases hconn hconn' with ⟨rfl, rfl⟩ | ⟨hij, hi⟩
      · obtain rfl := Option.some.inj (hclient.symm.trans hc)
        omega
      · rcases Nat.lt_or_ge d s.owner.length with hbefore | hafter
        · rw [List.getElem?_append_left hbefore] at hd
          exact h.latest i conn' c d hi hc hd
        · rw [List.getElem?_append_right hafter, List.getElem?_singleton] at hd
          split at hd
          · exact absurd (Option.some.inj hd).symm hij
          · cases hd
  | deleted hconn hphase =>
      rw [owner_update_kept _ _ (by simp)] at hd
      rcases update_cases hconn hconn' with ⟨rfl, rfl⟩ | ⟨-, hi⟩
      · exact h.latest i _ c d hconn hc hd
      · exact h.latest i conn' c d hi hc hd

theorem OnAir.step (h : s.OnAir xs) (hreplace : ¬ReplacesPlaying P s a) (hstep : Step P s a s') :
    ∃ ys, s'.OnAir ys := by
  obtain ⟨ys, hys⟩ := h.toInStep.step hreplace hstep
  have haccounts := step_accounts hstep
  exact ⟨ys, hys, h.owned.accounts haccounts, fun i conn c d hi hc hd =>
    latest_accounts haccounts h hi hc hd⟩

theorem quiet_clients {β : Type} {f : RtpClient → β} {d : β}
    (hnew : ∀ ip port connected, f (.new ⟨ip, port, connected, []⟩) = d)
    (hstep : Step P s a s') (hquiet : s.packetOf a = none) (c : ℕ) :
    s'.engine.clients[c]?.elim d f = s.engine.clients[c]?.elim d f := by
  cases a with
  | connect ip sid =>
      obtain rfl := Option.some.inj hstep
      rfl
  | request i net m size =>
      obtain ⟨conn, r, -, -, hprocess, rfl⟩ := request_completes hstep
      obtain ⟨call, cmd, -, hrun, -⟩ := Session.process_eq_ok.1 hprocess
      exact HandlerCall.run_clients hnew hrun c
  | disconnect i =>
      obtain ⟨conn, e, -, -, hremove, rfl⟩ := disconnect_effect hstep
      change e.clients[c]?.elim d f = _
      rw [Engine.remove_clients hremove]
  | destroy i =>
      obtain ⟨conn, -, -, rfl⟩ := destroy_effect hstep
      change (s.engine.deleteClient _).clients[c]?.elim d f = _
      rw [Engine.clients_deleteClient]
  | getFree =>
      obtain rfl := Option.some.inj hstep
      change s.engine.getFree.2.clients[c]?.elim d f = _
      rw [s.engine.getFree_frame.2.1]
  | putFree b =>
      obtain rfl := Option.some.inj hstep
      rfl
  | send b bytes samples results =>
      obtain ⟨e, hsend, rfl⟩ := send_completes hstep
      obtain ⟨block, visited, hblock, -⟩ := Engine.send_eq_ok.1 hsend
      simp [packetOf, Engine.packetOf, hblock] at hquiet

theorem received_step (howned : s.Owned) (hstep : Step P s a s') (hquiet : s.packetOf a = none) (i : ℕ) :
    s'.received i = s.received i := by
  obtain ⟨hlength, howner⟩ := (step_accounts hstep).owners howned
  exact received_congr (quiet_clients (fun _ _ _ => rfl) hstep hquiet) hlength howner i

theorem OnAir.send (h : s.OnAir xs) {b bytes samples : ℕ} {results : ℕ → ℤ}
    (hsend : s.engine.send b bytes samples results = .ok e) :
    ∃ packet, s.packetOf (.send b bytes samples results) = some packet ∧
      ∀ i, ({ s with engine := e } : Server).received i =
        s.received i ++ if s.tuned i then [packet] else [] := by
  obtain ⟨packet, hpacket, hsent⟩ := Engine.sentTo_send h.sound.playing hsend
  obtain ⟨block, visited, -, -, -, he⟩ := Engine.send_eq_ok.1 hsend
  have hlength : e.clients.length = s.engine.clients.length := by
    rw [he]
    exact Engine.length_sendAll _ _ _ _
  refine ⟨packet, hpacket, ?_⟩
  intro i
  change (List.range e.clients.length).flatMap (fun c =>
    if s.owner[c]? = some i then e.sentTo c else []) = _
  rw [hlength]
  by_cases htuned : s.tuned i = true
  · -- the session's client is on the list, and none of its older ones
    rw [if_pos htuned]
    obtain ⟨conn, hconn, -⟩ := (Option.any_eq_true _ _).1 htuned
    obtain ⟨hlive, hplay⟩ := (h.tuned_iff hconn).1 htuned
    obtain ⟨c, hclient, hmem⟩ := (h.inStep i conn hconn hlive).play_iff.1 hplay
    have howner := h.sound.owned i conn c hconn hclient
    refine flatMap_range_append (h.sound.exists hconn hclient) ?_ ?_ ?_
    · simp only [howner, if_true, hsent, hmem]
    · intro d hd
      by_cases hown : s.owner[d]? = some i
      · have hnot : d ∉ xs := by
          intro hdmem
          have hcurrent := (h.sound.owner_active hdmem hown hconn).2
          exact hd (Option.some.inj (hcurrent.symm.trans hclient))
        simp only [hown, if_true, hsent, hnot, if_false, List.append_nil]
      · simp only [hown, if_false]
    · intro d hd
      refine if_neg fun hown => ?_
      have hle := h.latest i conn c d hconn hclient hown
      omega
  · rw [if_neg htuned, List.append_nil]
    refine List.flatMap_congr fun c _ => ?_
    by_cases hown : s.owner[c]? = some i
    · have hnot : c ∉ xs := by
        intro hmem
        obtain ⟨j, conn, hconn, hactive, hclient⟩ := h.sound.linked c hmem
        obtain rfl := Option.some.inj (hown.symm.trans (h.sound.owned j conn c hconn hclient))
        exact htuned ((h.tuned_iff hconn).2
          ⟨hactive.1, (h.inStep i conn hconn hactive.1).play_iff.2 ⟨c, hclient, hmem⟩⟩)
      simp only [hown, if_true, hsent, hnot, if_false, List.append_nil]
    · simp only [hown, if_false]

/-- The hub publishes the packet. -/
theorem hub_send {ys : List ℕ} (h : s.InStep xs) (h' : ({ s with engine := e } : Server).InStep ys)
    {packet : Bytes} (hreceived : ∀ i, ({ s with engine := e } : Server).received i =
      s.received i ++ if s.tuned i then [packet] else []) :
    ({ s with engine := e } : Server).hub = s.hub.map (Station.hear packet) := by
  apply List.ext_getElem?
  intro i
  rw [List.getElem?_map, hub_getElem?, hub_getElem?, hreceived, h.tuned_congr h' rfl]
  change (if i < s.connections.length then some (⟨s.tuned i, s.received i ++
    if s.tuned i then [packet] else []⟩ : Station Bytes) else none) = _
  by_cases hi : i < s.connections.length
  · cases s.tuned i <;> simp [hi, Station.hear]
  · simp [hi]

/-! ### Whole runs -/

theorem received_unmade (howned : s.Owned) (hi : s.connections.length ≤ i) : s.received i = [] := by
  refine List.flatMap_eq_nil_iff.2 fun c _ => if_neg ?_
  intro hc
  have hlt := howned.exist i (List.mem_of_getElem? hc)
  omega

theorem hub_connect (howned : s.Owned) (ip : Bytes) (sid : UInt32) (hstep : Step P s (.connect ip sid) s') :
    s'.hub = s.hub ++ [⟨false, []⟩] := by
  have hreceived := received_step howned hstep rfl
  obtain rfl := Option.some.inj hstep
  apply List.ext_getElem?
  intro j
  have hlength : s.hub.length = s.connections.length := by simp [hub]
  rw [hub_getElem?, hreceived, tuned]
  change (if j < (s.connections ++ _).length then some (⟨(s.connections ++ _)[j]?.any _,
    s.received j⟩ : Station Bytes) else none) = _
  rcases Nat.lt_trichotomy j s.connections.length with hlt | rfl | hgt
  · rw [List.getElem?_append_left (by omega), List.getElem?_append_left (by omega), hub_getElem?,
      if_pos hlt, if_pos (by rw [List.length_append]; omega)]
    rfl
  · rw [← hlength, List.getElem?_concat_length, hlength, List.getElem?_concat_length,
      if_pos (by simp), received_unmade howned le_rfl]
    rfl
  · rw [if_neg (by simp; omega), List.getElem?_eq_none (by simp [hlength]; omega)]

theorem broadcast_simulation (P : Lookup) :
    Simulation (exec P) Broadcast.Step (fun s hub => hub = s.hub ∧ ∃ xs, s.OnAir xs)
      (fun s a => ¬ReplacesPlaying P s a) (hubEvents P) where
  forward s a s' hub := by
    rintro ⟨rfl, xs, h⟩ hreplace hstep
    obtain ⟨ys, hys⟩ := h.step hreplace hstep
    have hon : ∃ ys, s'.OnAir ys := ⟨ys, hys⟩
    have hkept : ∀ j, s'.connections[j]? = s.connections[j]? → s'.tuned j = s.tuned j :=
      fun j => h.tuned_congr hys.toInStep
    cases a with
    | connect ip sid =>
        exact ⟨s'.hub, .single (congrArg some (hub_connect h.owned ip sid hstep).symm), rfl, hon⟩
    | request i net m size =>
        refine ⟨s'.hub, .single ?_, rfl, hon⟩
        have hreceived := received_step h.owned hstep rfl
        have hresult : s.request P i net m size = some s' := hstep
        obtain ⟨conn, r, hconn, -, -, hs'⟩ := request_completes hresult
        rw [hresult, Option.any_some]
        refine congrArg some (hub_tune ?_ hreceived ?_).symm
        · rw [hs']
          exact length_update
        · intro j hj
          apply hkept
          rw [hs', update_of_ne hj]
    | disconnect i =>
        refine ⟨s'.hub, .single ?_, rfl, hon⟩
        have hreceived := received_step h.owned hstep rfl
        obtain ⟨conn, e, hconn, -, -, hs'⟩ := disconnect_effect hstep
        have hoff : s'.tuned i = false := by
          have hconn' : s'.connections[i]? = some { conn with phase := .terminated } := by
            rw [hs', update_self hconn]
          rw [Bool.eq_false_iff, ne_eq, hys.tuned_iff hconn']
          rintro ⟨hlive, -⟩
          cases hlive
        rw [← hoff]
        refine congrArg some (hub_tune ?_ hreceived ?_).symm
        · rw [hs']
          exact length_update
        · intro j hj
          apply hkept
          rw [hs', update_of_ne hj]
    | destroy i =>
        have hreceived := received_step h.owned hstep rfl
        obtain ⟨conn, hconn, hphase, hs'⟩ := destroy_effect hstep
        refine ⟨s'.hub, ?_, rfl, hon⟩
        have hsame : s'.hub = s.hub := by
          refine hub_same ?_ hreceived ?_
          · rw [hs']
            exact length_update
          · intro j
            by_cases hij : j = i
            · subst hij
              have hconn' : s'.connections[j]? = some { conn with phase := .destroyed } := by
                rw [hs', update_self hconn]
              rw [Bool.eq_iff_iff, h.tuned_iff hconn, hys.tuned_iff hconn', hphase]
              simp
            · apply hkept
              rw [hs', update_of_ne hij]
        rw [hsame]
        exact .nil _
    | getFree =>
        have hreceived := received_step h.owned hstep rfl
        have hsame : s'.hub = s.hub := by
          obtain rfl := Option.some.inj hstep
          exact hub_same rfl hreceived fun j => hkept j rfl
        exact ⟨s'.hub, hsame ▸ .nil _, rfl, hon⟩
    | putFree b =>
        have hreceived := received_step h.owned hstep rfl
        have hsame : s'.hub = s.hub := by
          obtain rfl := Option.some.inj hstep
          exact hub_same rfl hreceived fun j => hkept j rfl
        exact ⟨s'.hub, hsame ▸ .nil _, rfl, hon⟩
    | send b bytes samples results =>
        obtain ⟨e, hsend, rfl⟩ := send_completes hstep
        obtain ⟨packet, hpacket, hreceived⟩ := h.send hsend
        refine ⟨_, ?_, rfl, hon⟩
        rw [hubEvents, hpacket]
        exact .single (congrArg some (hub_send h.toInStep hys.toInStep hreceived).symm)

/-- The packets sent in a run. -/
def packetsSent (P : Lookup) (s : Server) (as : List Action) : List Bytes :=
  labels (exec P) (fun s a => (s.packetOf a).toList) s as

theorem published_hubEvents (P : Lookup) (s : Server) (a : Action) :
    published (hubEvents P s a) = (s.packetOf a).toList := by
  cases a with
  | send b bytes samples results =>
      rw [hubEvents]
      cases s.packetOf (.send b bytes samples results) <;> rfl
  | _ => rfl

theorem published_labels {as : List Action} (hrun : Run (Step P) s as s') :
    published (labels (exec P) (hubEvents P) s as) = packetsSent P s as := by
  induction hrun with
  | nil => rfl
  | @cons s t u a as hstep _ ih =>
      have hfirst := published_hubEvents P s a
      rw [labels_cons hstep, published, List.filterMap_append]
      change published (hubEvents P s a) ++ published (labels (exec P) (hubEvents P) t as) = _
      rw [hfirst, ih, packetsSent, packetsSent, labels_cons hstep]

/-- The packets sent in a run while the client of connection `i` was on the playing list. -/
def packetsTo (P : Lookup) (i : ℕ) (s : Server) (as : List Action) : List Bytes :=
  labels (exec P) (fun s a => if s.tuned i then (s.packetOf a).toList else []) s as

theorem reaches_hub (packet : Bytes) :
    reaches i s.hub (.publish packet) = if s.tuned i then [packet] else [] := by
  rw [reaches, hub_getElem?]
  by_cases hi : i < s.connections.length
  · rw [if_pos hi, Option.any_some]
  · rw [if_neg hi, tuned, List.getElem?_eq_none (by omega)]
    rfl

theorem aired_hubEvents (P : Lookup) (s : Server) (a : Action) :
    aired i s.hub (hubEvents P s a) = if s.tuned i then (s.packetOf a).toList else [] := by
  cases a with
  | send b bytes samples results =>
      rw [hubEvents]
      cases s.packetOf (.send b bytes samples results) with
      | none => exact (ite_self _).symm
      | some packet =>
          change aired i s.hub [.publish packet] = _
          rw [aired_cons rfl, reaches_hub]
          exact List.append_nil _
  | _ => exact (ite_self _).symm

theorem onAir_new (codec : AudioCodec) (rtp rtcp : ℤ) (numBuffers : ℕ) :
    (new codec rtp rtcp numBuffers).OnAir [] where
  toInStep := inStep_new codec rtp rtcp numBuffers
  owned := (ledger_new codec rtp rtcp numBuffers).toOwned
  latest i conn c d hconn := by cases hconn

/-- In every run in which no PLAY and no SETUP is carried out in PLAY the server does what a hub does
that publishes the packets sent and has a station for each connection, tuned in while its client is on the
playing list: between two requests, while its session is in PLAY. So what a session has received is, in
order and once each, the packets sent while its client was on the list. -/
theorem server_broadcasts (P : Lookup) (codec : AudioCodec) (rtp rtcp : ℤ) (numBuffers : ℕ)
    (as : List Action) (s : Server) (hrun : Run (Step P) (new codec rtp rtcp numBuffers) as s)
    (hreplace : Along (Step P) (fun s a => ¬ReplacesPlaying P s a) (new codec rtp rtcp numBuffers) as) :
    let events := labels (exec P) (hubEvents P) (new codec rtp rtcp numBuffers) as
    Run Broadcast.Step [] events s.hub ∧
    published events = packetsSent P (new codec rtp rtcp numBuffers) as ∧
    ∀ (i : ℕ) (conn : Connection), s.connections[i]? = some conn →
      s.hub[i]? = some ⟨s.tuned i, s.received i⟩ ∧
      (s.tuned i = true ↔ conn.phase = .live ∧ conn.session.state = .play) ∧
      s.received i = packetsTo P i (new codec rtp rtcp numBuffers) as ∧
      (s.received i).Sublist (packetsSent P (new codec rtp rtcp numBuffers) as) := by
  have hstart : (new codec rtp rtcp numBuffers).hub = [] := rfl
  have hrelated := And.intro hstart.symm (Exists.intro [] (onAir_new codec rtp rtcp numBuffers))
  obtain ⟨hub, hhub, rfl, xs, hon⟩ := (broadcast_simulation P).run hrun hreplace hrelated
  refine ⟨hhub, published_labels hrun, ?_⟩
  intro i conn hconn
  have hi := (List.getElem?_eq_some_iff.1 hconn).1
  have hstation : s.hub[i]? = some ⟨s.tuned i, s.received i⟩ := by rw [hub_getElem?, if_pos hi]
  have hheard : s.received i = aired i [] (labels (exec P) (hubEvents P) (new codec rtp rtcp numBuffers) as) := by
    have hrest := heardBy_run (i := i) hhub
    rw [heardBy, hstation] at hrest
    exact hrest
  refine ⟨hstation, hon.tuned_iff hconn, ?_, ?_⟩
  · rw [hheard, aired]
    refine (broadcast_simulation P).labels_labels ?_ hrun hreplace hrelated
    rintro s a s' hub ⟨rfl, -⟩ -
    exact aired_hubEvents P s a
  · rw [hheard, ← published_labels hrun]
    exact aired_sublist hhub

/-- The second session plays while the second of three packets is sent. -/
theorem server_broadcasts_joining : ∃ s : Server, Run (Step Lookup.literal) pcmServer
      [.connect (ascii "10.0.0.1") 7, .connect (ascii "10.0.0.1") 8, .ofText 0 simulated setupText,
        .ofText 0 simulated playText, .ofText 1 simulated setupText, .getFree,
        .send 3 1440 360 fun _ => 1452, .ofText 1 simulated playText, .getFree,
        .send 3 1440 360 fun _ => 1452, .ofText 1 simulated pauseText, .getFree,
        .send 3 1440 360 fun _ => 1452] s ∧
    (s.received 0).length = 3 ∧ (s.received 1).length = 1 ∧
    s.received 1 = packetsTo Lookup.literal 1 pcmServer
      [.connect (ascii "10.0.0.1") 7, .connect (ascii "10.0.0.1") 8, .ofText 0 simulated setupText,
        .ofText 0 simulated playText, .ofText 1 simulated setupText, .getFree,
        .send 3 1440 360 fun _ => 1452, .ofText 1 simulated playText, .getFree,
        .send 3 1440 360 fun _ => 1452, .ofText 1 simulated pauseText, .getFree,
        .send 3 1440 360 fun _ => 1452] := by
  have hrun : (execAll (exec Lookup.literal) pcmServer
      [.connect (ascii "10.0.0.1") 7, .connect (ascii "10.0.0.1") 8, .ofText 0 simulated setupText,
        .ofText 0 simulated playText, .ofText 1 simulated setupText, .getFree,
        .send 3 1440 360 fun _ => 1452, .ofText 1 simulated playText, .getFree,
        .send 3 1440 360 fun _ => 1452, .ofText 1 simulated pauseText, .getFree,
        .send 3 1440 360 fun _ => 1452]).any (fun s =>
      s.connections[1]?.isSome ∧ (s.received 0).length = 3 ∧ (s.received 1).length = 1) = true := by
    decide +kernel
  obtain ⟨s, hs, hstate⟩ := run_of_any hrun
  obtain ⟨hisSome, hfirst, hsecond⟩ := of_decide_eq_true hstate
  obtain ⟨conn, hconn⟩ := Option.isSome_iff_exists.1 hisSome
  have hbroadcast := server_broadcasts Lookup.literal _ _ _ _ _ s hs
    (along_of_allAlong (fun _ _ => not_replacesPlaying) (by decide +kernel))
  obtain ⟨-, -, hreceived, -⟩ := hbroadcast.2.2 1 conn hconn
  exact ⟨s, hs, hfirst, hsecond, hreceived⟩

end Server

end WifiAudio
