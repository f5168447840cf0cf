import WifiAudio.Proof.Server.Machine
import Mathlib.Data.List.Duplicate
import Mathlib.Data.List.NodupEquivFin

/-!
# Who deletes the RTP clients

A handler has one pointer to a client. SETUP makes a client and writes the pointer, and only the
destructor deletes what it points to: the client of an earlier SETUP is taken off the playing list,
but nothing points to it any more. So what a session leaves behind depends on how many of its
requests are carried out as a SETUP, and on nothing else it does.
-/

namespace WifiAudio

open Except Transition

namespace Server

/-- The connection whose SETUP the step carries out. -/
def setupOf (P : Lookup) (s : Server) : Action → Option ℕ
  | .request i _ m size =>
      if s.connections[i]?.any fun conn => conn.session.carriesOut P m size = some .setup then some i
      else none
  | _ => none

/-- How many SETUPs of connection `i` are carried out on the way. -/
def setUps (P : Lookup) (i : ℕ) (s : Server) (as : List Action) : ℕ :=
  (trace (exec P) s as).countP fun step => setupOf P step.1 step.2 = some i

/-! ### What a step does to the clients -/

/-- The clients made and deleted by a step, which is a SETUP of the given connection or none. -/
inductive Accounts (s : Server) : Option ℕ → Server → Prop
  | engine (e : Engine) (hlength : e.clients.length = s.engine.clients.length)
      (hfreed : e.freed = s.engine.freed) : Accounts s none { s with engine := e }
  | connect (ip : Bytes) (sid : UInt32) :
      Accounts s none { s with connections := s.connections ++ [⟨.new, .new ip sid, .live⟩] }
  | kept {i : ℕ} {conn conn' : Connection} {e : Engine} (hconn : s.connections[i]? = some conn)
      (hclient : conn'.handler.rtpClient = conn.handler.rtpClient)
      (hphase : conn.phase = .live) (hphase' : conn'.phase ≠ .destroyed)
      (hlength : e.clients.length = s.engine.clients.length) (hfreed : e.freed = s.engine.freed) :
      Accounts s none (s.update i conn' e)
  | made {i : ℕ} {conn conn' : Connection} {e : Engine} (hconn : s.connections[i]? = some conn)
      (hclient : conn'.handler.rtpClient = some s.engine.clients.length)
      (hphase : conn.phase = .live) (hphase' : conn'.phase ≠ .destroyed)
      (hlength : e.clients.length = s.engine.clients.length + 1)
      (hfreed : e.freed = s.engine.freed) : Accounts s (some i) (s.update i conn' e)
  | deleted {i : ℕ} {conn : Connection} (hconn : s.connections[i]? = some conn)
      (hphase : conn.phase = .terminated) :
      Accounts s none (s.update i { conn with phase := .destroyed }
        (s.engine.deleteClient conn.handler.rtpClient))

variable {P : Lookup} {s s' : Server} {a : Action} {i j c : ℕ} {conn conn' : Connection} {e : Engine}

theorem setupOf_request {net : SocketCalls} {m m' : Bytes} {size : ℕ} {call : HandlerCall}
    (hconn : s.connections[i]? = some conn)
    (hrequest : conn.session.request P m size = .ok (call, m')) :
    setupOf P s (.request i net m size) = if call.carriesOut = some .setup then some i else none := by
  simp [setupOf, hconn, Session.carriesOut, hrequest]

theorem step_accounts (hstep : Step P s a s') : s.Accounts (setupOf P s a) s' := by
  cases a with
  | connect ip sid =>
      obtain rfl := Option.some.inj hstep
      exact .connect ip sid
  | request i net m size =>
      obtain ⟨conn, call, m', cmd, hd, e, hconn, hactive, hrequest, heffect, rfl⟩ :=
        request_effect hstep
      rw [setupOf_request hconn hrequest]
      have hlive : conn.phase ≠ .destroyed := by simp [hactive.1]
      cases heffect with
      | answered hanswer hout hclient hcmd =>
          rw [if_neg (by rw [hout]; rcases hcmd with rfl | rfl | rfl <;> simp)]
          exact .kept hconn hclient hactive.1 hlive rfl rfl
      | setup hanswer socket hout hremove hclient =>
          obtain ⟨playing, rfl⟩ := Engine.remove_eq_ok hremove
          rw [if_pos hout]
          exact .made hconn hclient hactive.1 hlive (by simp [Engine.newClient]) rfl
      | play hdrs hanswer c hout hsetup hclient =>
          rw [if_neg (by simp [hout])]
          exact .kept hconn hclient hactive.1 hlive rfl rfl
      | stop hanswer hout hcmd hclient hremove =>
          obtain ⟨playing, rfl⟩ := Engine.remove_eq_ok hremove
          rw [if_neg (by rw [hout]; rcases hcmd with rfl | rfl | rfl <;> simp)]
          exact .kept hconn hclient hactive.1 hlive rfl rfl
  | disconnect i =>
      obtain ⟨conn, e, hconn, hlive, hremove, rfl⟩ := disconnect_effect hstep
      obtain ⟨playing, rfl⟩ := Engine.remove_eq_ok hremove
      exact .kept hconn rfl hlive (by simp) rfl rfl
  | destroy i =>
      obtain ⟨conn, hconn, hphase, rfl⟩ := destroy_effect hstep
      exact .deleted hconn hphase
  | getFree =>
      obtain rfl := Option.some.inj hstep
      obtain ⟨-, hclients, hfreed⟩ := s.engine.getFree_frame
      exact .engine _ (congrArg _ hclients) hfreed
  | putFree b =>
      obtain rfl := Option.some.inj hstep
      exact .engine _ rfl rfl
  | send b bytes samples results =>
      obtain ⟨e, hsend, rfl⟩ := send_completes hstep
      obtain ⟨block, visited, -, -, -, rfl⟩ := Engine.send_eq_ok.1 hsend
      exact .engine _ (by simp [Engine.putFree]) rfl

/-! ### The owners -/

/-- The owner of a client is a connection, and the current client of a connection is its own: it has
one as soon as it owns any. -/
structure Owned (s : Server) : Prop where
  owner_length : s.owner.length = s.engine.clients.length
  owned : ∀ (i : ℕ) (conn : Connection) (c : ℕ), s.connections[i]? = some conn →
    conn.handler.rtpClient = some c → s.owner[c]? = some i
  held : ∀ (i : ℕ) (conn : Connection), s.connections[i]? = some conn → i ∈ s.owner →
    conn.handler.rtpClient ≠ none
  exist : ∀ i ∈ s.owner, i < s.connections.length

theorem owner_update_kept (i : ℕ) (conn : Connection)
    (hlength : e.clients.length = s.engine.clients.length) :
    (s.update i conn e).owner = s.owner := by
  change s.owner ++ List.replicate (e.clients.length - s.engine.clients.length) i = s.owner
  rw [hlength, Nat.sub_self, List.replicate_zero, List.append_nil]

theorem owner_update_made (i : ℕ) (conn : Connection)
    (hlength : e.clients.length = s.engine.clients.length + 1) :
    (s.update i conn e).owner = s.owner ++ [i] := by
  change s.owner ++ List.replicate (e.clients.length - s.engine.clients.length) i = _
  rw [hlength, Nat.add_sub_cancel_left, List.replicate_one]

theorem length_update : (s.update i conn e).connections.length = s.connections.length :=
  List.length_set

theorem Owned.kept (h : s.Owned) (hconn : s.connections[i]? = some conn)
    (hclient : conn'.handler.rtpClient = conn.handler.rtpClient)
    (hlength : e.clients.length = s.engine.clients.length) : (s.update i conn' e).Owned := by
  have howner := owner_update_kept i conn' hlength
  refine ⟨by rw [howner, h.owner_length]; exact hlength.symm, ?_, ?_, ?_⟩
  · intro j conn₀ c hj hc
    rw [howner]
    rcases update_cases hconn hj with ⟨rfl, rfl⟩ | ⟨-, hj⟩
    · exact h.owned j conn c hconn (hclient ▸ hc)
    · exact h.owned j conn₀ c hj hc
  · intro j conn₀ hj hmem
    rw [howner] at hmem
    rcases update_cases hconn hj with ⟨rfl, rfl⟩ | ⟨-, hj⟩
    · exact hclient ▸ h.held j conn hconn hmem
    · exact h.held j conn₀ hj hmem
  · intro j hmem
    rw [howner] at hmem
    rw [length_update]
    exact h.exist j hmem

theorem Owned.made (h : s.Owned) (hconn : s.connections[i]? = some conn)
    (hclient : conn'.handler.rtpClient = some s.engine.clients.length)
    (hlength : e.clients.length = s.engine.clients.length + 1) : (s.update i conn' e).Owned := by
  have howner := owner_update_made i conn' hlength
  refine ⟨?_, ?_, ?_, ?_⟩
  · rw [howner, List.length_append, h.owner_length]
    exact hlength.symm
  · intro j conn₀ c hj hc
    rw [howner]
    rcases update_cases hconn hj with ⟨rfl, rfl⟩ | ⟨-, hj⟩
    · obtain rfl := Option.some.inj (hclient.symm.trans hc)
      rw [← h.owner_length, List.getElem?_concat_length]
    · have hc := h.owned j conn₀ c hj hc
      rw [List.getElem?_append_left (List.getElem?_eq_some_iff.1 hc).1, hc]
  · intro j conn₀ hj hmem
    rcases update_cases hconn hj with ⟨rfl, rfl⟩ | ⟨hji, hj⟩
    · simp [hclient]
    · rw [howner] at hmem
      refine h.held j conn₀ hj ?_
      simpa [hji] using hmem
  · intro j hmem
    rw [howner] at hmem
    rw [length_update]
    rcases List.mem_append.1 hmem with hmem | hmem
    · exact h.exist j hmem
    · obtain rfl := List.mem_singleton.1 hmem
      exact (List.getElem?_eq_some_iff.1 hconn).1

theorem Owned.connect (h : s.Owned) (ip : Bytes) (sid : UInt32) :
    ({ s with connections := s.connections ++ [⟨.new, .new ip sid, .live⟩] } : Server).Owned := by
  refine ⟨h.owner_length, ?_, ?_, ?_⟩
  · intro i conn c hi hc
    rcases connections_append_cases hi with hi | rfl
    · exact h.owned i conn c hi hc
    · cases hc
  · intro i conn hi hmem
    have hi := (List.getElem?_append_left (h.exist i hmem)).symm.trans hi
    exact h.held i conn hi hmem
  · intro i hmem
    change i < (s.connections ++ _).length
    rw [List.length_append]
    exact (h.exist i hmem).trans_le (Nat.le_add_right _ _)

theorem Owned.accounts {k : Option ℕ} (h : s.Owned) (haccounts : s.Accounts k s') : s'.Owned := by
  cases haccounts with
  | engine e hlength hfreed => exact ⟨h.owner_length.trans hlength.symm, h.owned, h.held, h.exist⟩
  | connect ip sid => exact h.connect ip sid
  | kept hconn hclient hphase hphase' hlength hfreed => exact h.kept hconn hclient hlength
  | made hconn hclient hphase hphase' hlength hfreed => exact h.made hconn hclient hlength
  | deleted hconn hphase => exact h.kept hconn rfl (by simp)

/-- A step gives connection `i` one more client if it is a SETUP of it. -/
theorem Accounts.count {k : Option ℕ} (haccounts : s.Accounts k s') (i : ℕ) :
    s'.owner.count i = s.owner.count i + if k = some i then 1 else 0 := by
  cases haccounts with
  | engine e hlength hfreed => rfl
  | connect ip sid => rfl
  | kept hconn hclient hphase hphase' hlength hfreed =>
      rw [owner_update_kept _ _ hlength]
      rfl
  | made hconn hclient hphase hphase' hlength hfreed =>
      rw [owner_update_made _ _ hlength, List.count_append, List.count_singleton]
      simp
  | deleted hconn hphase =>
      rw [owner_update_kept _ _ (by simp)]
      rfl

theorem owner_count {as : List Action} (hrun : Run (Step P) s as s') (i : ℕ) :
    s'.owner.count i = s.owner.count i + setUps P i s as := by
  induction hrun with
  | nil s => rfl
  | @cons s t u a as hstep _ ih =>
      rw [ih, (step_accounts hstep).count i, setUps, setUps, trace_cons hstep, List.countP_cons]
      simp only [decide_eq_true_eq]
      omega

/-! ### The deleted clients -/

/-- The clients that are deleted are the current ones of the connections that are, once each. -/
structure Ledger (s : Server) : Prop extends Owned s where
  deleted : ∀ c ∈ s.engine.freed, ∃ (i : ℕ) (conn : Connection), s.connections[i]? = some conn ∧
    conn.phase = .destroyed ∧ conn.handler.rtpClient = some c
  once : ∀ (i : ℕ) (conn : Connection) (c : ℕ), s.connections[i]? = some conn →
    conn.phase = .destroyed → conn.handler.rtpClient = some c → s.engine.freed.count c = 1

theorem ledger_new (codec : AudioCodec) (rtp rtcp : ℤ) (numBuffers : ℕ) :
    (new codec rtp rtcp numBuffers).Ledger where
  owner_length := rfl
  owned i conn c hconn := by cases hconn
  held i conn hconn := by cases hconn
  exist i hmem := by cases hmem
  deleted c hc := by cases hc
  once i conn c hconn := by cases hconn

theorem Ledger.not_freed (h : s.Ledger) (hconn : s.connections[i]? = some conn)
    (hphase : conn.phase ≠ .destroyed) (hclient : conn.handler.rtpClient = some c) :
    c ∉ s.engine.freed := by
  intro hfreed
  obtain ⟨j, conn₀, hj, hdestroyed, hcurrent⟩ := h.deleted c hfreed
  obtain rfl : i = j := Option.some.inj
    ((h.owned i conn c hconn hclient).symm.trans (h.owned j conn₀ c hj hcurrent))
  obtain rfl := Option.some.inj (hconn.symm.trans hj)
  exact hphase hdestroyed

theorem Ledger.update (h : s.Ledger) (howned : (s.update i conn' e).Owned)
    (hconn : s.connections[i]? = some conn) (hphase : conn.phase ≠ .destroyed)
    (hphase' : conn'.phase ≠ .destroyed) (hfreed : e.freed = s.engine.freed) :
    (s.update i conn' e).Ledger := by
  refine ⟨howned, ?_, ?_⟩
  · intro c hc
    obtain ⟨j, conn₀, hj, hdestroyed, hcurrent⟩ := h.deleted c (hfreed ▸ hc)
    refine ⟨j, conn₀, (update_of_ne ?_).trans hj, hdestroyed, hcurrent⟩
    rintro rfl
    obtain rfl := Option.some.inj (hconn.symm.trans hj)
    exact hphase hdestroyed
  · intro j conn₀ c hj hdestroyed hcurrent
    change e.freed.count c = 1
    rw [hfreed]
    rcases update_cases hconn hj with ⟨rfl, rfl⟩ | ⟨-, hj⟩
    · exact absurd hdestroyed hphase'
    · exact h.once j conn₀ c hj hdestroyed hcurrent

theorem Ledger.destroy (h : s.Ledger) (hconn : s.connections[i]? = some conn)
    (hphase : conn.phase = .terminated) :
    (s.update i { conn with phase := .destroyed }
      (s.engine.deleteClient conn.handler.rtpClient)).Ledger := by
  have hlive : conn.phase ≠ .destroyed := by simp [hphase]
  refine ⟨h.kept hconn rfl (by simp), ?_, ?_⟩
  · intro c hc
    rcases Engine.mem_freed_deleteClient.1 hc with hc | hclient
    · obtain ⟨j, conn₀, hj, hdestroyed, hcurrent⟩ := h.deleted c hc
      refine ⟨j, conn₀, (update_of_ne ?_).trans hj, hdestroyed, hcurrent⟩
      rintro rfl
      obtain rfl := Option.some.inj (hconn.symm.trans hj)
      exact hlive hdestroyed
    · exact ⟨i, _, update_self hconn, rfl, hclient⟩
  · intro j conn₀ c hj hdestroyed hcurrent
    change (s.engine.deleteClient conn.handler.rtpClient).freed.count c = 1
    rcases update_cases hconn hj with ⟨rfl, rfl⟩ | ⟨hji, hj⟩
    · have hclient : conn.handler.rtpClient = some c := hcurrent
      have hzero := List.count_eq_zero.2 (h.not_freed hconn hlive hclient)
      rw [hclient, Engine.deleteClient, List.count_append, hzero, List.count_singleton_self]
    · have hne : conn.handler.rtpClient ≠ some c := by
        intro hclient
        exact hji (Option.some.inj
          ((h.owned j conn₀ c hj hcurrent).symm.trans (h.owned i conn c hconn hclient)))
      have hone := h.once j conn₀ c hj hdestroyed hcurrent
      cases hclient : conn.handler.rtpClient with
      | none => exact hone
      | some d =>
          rw [Engine.deleteClient, List.count_append, hone, List.count_eq_zero.2]
          rw [List.mem_singleton]
          rintro rfl
          exact hne hclient

theorem Ledger.step (h : s.Ledger) (hstep : Step P s a s') : s'.Ledger := by
  have haccounts := step_accounts hstep
  have howned := h.toOwned.accounts haccounts
  generalize setupOf P s a = k at haccounts
  cases haccounts with
  | engine e hlength hfreed =>
      refine ⟨howned, ?_, ?_⟩
      · intro c hc
        exact h.deleted c (hfreed ▸ hc)
      · intro i conn c hconn hdestroyed hclient
        change e.freed.count c = 1
        rw [hfreed]
        exact h.once i conn c hconn hdestroyed hclient
  | connect ip sid =>
      refine ⟨howned, ?_, ?_⟩
      · intro c hc
        obtain ⟨i, conn, hi, hdestroyed⟩ := h.deleted c hc
        have hlt := (List.getElem?_eq_some_iff.1 hi).1
        exact ⟨i, conn, (List.getElem?_append_left hlt).trans hi, hdestroyed⟩
      · intro i conn c hi hdestroyed hclient
        rcases connections_append_cases hi with hi | rfl
        · exact h.once i conn c hi hdestroyed hclient
        · cases hclient
  | kept hconn hclient hphase hphase' hlength hfreed =>
      exact h.update howned hconn (by simp [hphase]) hphase' hfreed
  | made hconn hclient hphase hphase' hlength hfreed =>
      exact h.update howned hconn (by simp [hphase]) hphase' hfreed
  | deleted hconn hphase => exact h.destroy hconn hphase

/-- After its connection is deleted, a client is deleted just in case it is the current one. -/
theorem Ledger.count_freed (h : s.Ledger) (hconn : s.connections[i]? = some conn)
    (hdestroyed : conn.phase = .destroyed) (howner : s.owner[c]? = some i) :
    s.engine.freed.count c = 1 ↔ conn.handler.rtpClient = some c := by
  refine ⟨?_, h.once i conn c hconn hdestroyed⟩
  intro hone
  have hfreed : c ∈ s.engine.freed := List.count_pos_iff.1 (by omega)
  obtain ⟨j, conn₀, hj, -, hcurrent⟩ := h.deleted c hfreed
  obtain rfl : i = j := Option.some.inj (howner.symm.trans (h.owned j conn₀ c hj hcurrent))
  obtain rfl := Option.some.inj (hconn.symm.trans hj)
  exact hcurrent

/-- A connection owns two clients as soon as it has carried out two SETUPs. -/
theorem two_owned : 2 ≤ s.owner.count i ↔
    ∃ c d : ℕ, c ≠ d ∧ s.owner[c]? = some i ∧ s.owner[d]? = some i := by
  rw [← List.duplicate_iff_two_le_count, List.duplicate_iff_exists_distinct_get]
  constructor
  · rintro ⟨c, d, hlt, hc, hd⟩
    refine ⟨c, d, (Fin.lt_def.1 hlt).ne, ?_, ?_⟩
    · rw [hc, List.get_eq_getElem, List.getElem?_eq_getElem]
    · rw [hd, List.get_eq_getElem, List.getElem?_eq_getElem]
  · rintro ⟨c, d, hne, hc, hd⟩
    obtain ⟨hclt, hc⟩ := List.getElem?_eq_some_iff.1 hc
    obtain ⟨hdlt, hd⟩ := List.getElem?_eq_some_iff.1 hd
    rcases Nat.lt_or_gt_of_ne hne with hlt | hlt
    · exact ⟨⟨c, hclt⟩, ⟨d, hdlt⟩, Fin.lt_def.2 hlt, hc.symm, hd.symm⟩
    · exact ⟨⟨d, hdlt⟩, ⟨c, hclt⟩, Fin.lt_def.2 hlt, hd.symm, hc.symm⟩

/-- In every run of the server: when a connection has been deleted, every client its SETUPs made has
been deleted exactly once if and only if at most one of them was carried out. -/
theorem clients_deleted_iff (P : Lookup) (codec : AudioCodec) (rtp rtcp : ℤ) (numBuffers : ℕ)
    (as : List Action) (s : Server) (hrun : Run (Step P) (new codec rtp rtcp numBuffers) as s)
    (i : ℕ) (conn : Connection) (hconn : s.connections[i]? = some conn)
    (hdestroyed : conn.phase = .destroyed) :
    (∀ c, s.owner[c]? = some i → s.engine.freed.count c = 1) ↔
      setUps P i (new codec rtp rtcp numBuffers) as ≤ 1 := by
  have h : s.Ledger :=
    hrun.invariant (fun _ _ _ h hstep => h.step hstep) (ledger_new codec rtp rtcp numBuffers)
  have hcount : s.owner.count i = setUps P i (new codec rtp rtcp numBuffers) as := by
    rw [owner_count hrun i]
    exact Nat.zero_add _
  rw [← hcount, ← not_lt, ← Nat.succ_le_iff, two_owned]
  constructor
  · rintro hdeleted ⟨c, d, hne, hc, hd⟩
    have hclient := (h.count_freed hconn hdestroyed hc).1 (hdeleted c hc)
    have hclient' := (h.count_freed hconn hdestroyed hd).1 (hdeleted d hd)
    exact hne (Option.some.inj (hclient.symm.trans hclient'))
  · intro hone c hc
    have hmem : i ∈ s.owner := List.mem_of_getElem? hc
    obtain ⟨d, hclient⟩ := Option.ne_none_iff_exists'.1 (h.held i conn hconn hmem)
    have hd := h.owned i conn d hconn hclient
    obtain rfl : c = d := by
      by_contra hne
      exact hone ⟨c, d, hne, hc, hd⟩
    exact (h.count_freed hconn hdestroyed hc).2 hclient

/-- A second SETUP overwrites the pointer to the first client, which is never deleted. -/
theorem second_setup_leaks : ∃ (s : Server) (conn : Connection),
    Run (Step Lookup.literal) pcmServer
      [.connect (ascii "10.0.0.1") 7, .ofText 0 simulated setupText, .ofText 0 simulated setupText,
        .disconnect 0, .destroy 0] s ∧
    s.connections[0]? = some conn ∧ conn.phase = .destroyed ∧ s.owner[0]? = some 0 ∧
    s.engine.freed.count 0 = 0 := by
  have hrun : (execAll (exec Lookup.literal) pcmServer
      [.connect (ascii "10.0.0.1") 7, .ofText 0 simulated setupText, .ofText 0 simulated setupText,
        .disconnect 0, .destroy 0]).any
      (fun s => s.connections[0]?.any fun conn => conn.phase = .destroyed ∧
        s.owner[0]? = some 0 ∧ s.engine.freed.count 0 = 0) = true := by
    decide +kernel
  obtain ⟨s, hs, hfound⟩ := run_of_any hrun
  obtain ⟨conn, hconn, hleaks⟩ := (Option.any_eq_true _ _).1 hfound
  exact ⟨s, conn, hs, hconn, of_decide_eq_true hleaks⟩

/-- The client of a single SETUP is deleted with its connection. -/
theorem clients_deleted_once : ∃ (s : Server) (conn : Connection),
    Run (Step Lookup.literal) pcmServer
      [.connect (ascii "10.0.0.1") 7, .ofText 0 simulated setupText, .ofText 0 simulated playText,
        .disconnect 0, .destroy 0] s ∧
    s.connections[0]? = some conn ∧ conn.phase = .destroyed ∧ s.owner[0]? = some 0 ∧
    ∀ c, s.owner[c]? = some 0 → s.engine.freed.count c = 1 := by
  have hrun : (execAll (exec Lookup.literal) pcmServer
      [.connect (ascii "10.0.0.1") 7, .ofText 0 simulated setupText, .ofText 0 simulated playText,
        .disconnect 0, .destroy 0]).any
      (fun s => s.connections[0]?.any fun conn => conn.phase = .destroyed ∧
        s.owner[0]? = some 0) = true := by
    decide +kernel
  have hone : setUps Lookup.literal 0 pcmServer
      [.connect (ascii "10.0.0.1") 7, .ofText 0 simulated setupText, .ofText 0 simulated playText,
        .disconnect 0, .destroy 0] ≤ 1 := by
    decide +kernel
  obtain ⟨s, hs, hfound⟩ := run_of_any hrun
  obtain ⟨conn, hconn, hdeleted⟩ := (Option.any_eq_true _ _).1 hfound
  obtain ⟨hdestroyed, howner⟩ := of_decide_eq_true hdeleted
  exact ⟨s, conn, hs, hconn, hdestroyed, howner,
    (clients_deleted_iff Lookup.literal _ _ _ _ _ s hs 0 conn hconn
      hdestroyed).2 hone⟩

end Server

end WifiAudio
