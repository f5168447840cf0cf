import WifiAudio.Proof.Server.Threads

/-!
# What the server deletes

`_server` deletes the reader and the engine after it has waited for the threads that use them, and
`~RTP_Engine` deletes the blocks it finds in the free list. The encoder thread is done only when it has
given its block back, so these are all the blocks there are.
-/

namespace WifiAudio

open Except Transition

namespace Engine

theorem getFree_of_holds {e : Engine} {b : ℕ} {free : List ℕ} (hholds : e.blocks.Holds (b :: free)) :
    ∃ e', e.getFree = (some b, e') ∧ e'.blocks.Holds free := by
  cases hpop : e.blocks.pop with
  | none => cases hholds.pop_none hpop
  | some popped =>
      obtain ⟨b', blocks⟩ := popped
      obtain ⟨ys, hys, hblocks⟩ := hholds.pop hpop
      obtain ⟨rfl, rfl⟩ := List.cons.inj hys
      exact ⟨{ e with blocks := blocks }, by rw [getFree, hpop], hblocks⟩

/-- The blocks of the free list are deleted, in its order. -/
theorem deleteBlocks_of_holds {e : Engine} {fuel : ℕ} {free : List ℕ} (hholds : e.blocks.Holds free)
    (hfuel : free.length ≤ fuel) : ∃ e', e.deleteBlocks fuel = .ok (free, e') := by
  induction fuel generalizing e free with
  | zero =>
      obtain rfl := List.length_eq_zero_iff.1 (Nat.le_zero.1 hfuel)
      refine ⟨e, ?_⟩
      have hpop : e.blocks.pop = none := by
        rw [LinkedList.pop, show e.blocks.head = none from hholds]
        rfl
      simp [deleteBlocks, getFree, hpop]
  | succ fuel ih =>
      cases free with
      | nil =>
          refine ⟨e, ?_⟩
          have hpop : e.blocks.pop = none := by
            rw [LinkedList.pop, show e.blocks.head = none from hholds]
            rfl
          simp [deleteBlocks, getFree, hpop]
      | cons b free =>
          obtain ⟨e₁, hget, hrest⟩ := getFree_of_holds hholds
          obtain ⟨e', hdelete⟩ := ih hrest (Nat.le_of_succ_le_succ hfuel)
          refine ⟨e', ?_⟩
          rw [deleteBlocks, hget]
          change ((e₁.deleteBlocks fuel).bind fun r => .ok (b :: r.1, r.2)) = _
          rw [hdelete]
          rfl

end Engine

namespace ServerThreads

variable {t t' : ServerThreads} {a : Action}

theorem Works.step {act : AudioCopy.Action} {copy : AudioCopy} (h : t.Works act copy) :
    ∃ act', AudioCopy.Step t.copy act' copy := by
  cases h with
  | samples hloop => exact ⟨.samples, by simp [AudioCopy.Step, AudioCopy.exec, hloop]⟩
  | @encode b bytes result out block e hloop hholding hencode =>
      refine ⟨.encode result (t.copy.engine.codec.encoded (t.reader.data block.data) out), ?_⟩
      simp only [AudioCopy.Step, AudioCopy.exec, hloop, hencode]
      rfl
  | @send b bytes samples results e hloop hsamples hsend =>
      refine ⟨.send results, ?_⟩
      simp only [AudioCopy.Step, AudioCopy.exec, hloop, hsamples]
      exact congrArg some (bind_eq_ok.2 ⟨samples, rfl, bind_eq_ok.2 ⟨e, hsend, rfl⟩⟩)

/-- The blocks that are not in the free list are in the encoder thread's hands, until all are
deleted. -/
structure Keeps (t : ServerThreads) : Prop where
  lends : t.hasEngine = true → t.copy.engine.Lends numBuffers t.copy.loop.held
  deleted : t.hasEngine = false → t.deleted.Perm (List.range numBuffers)

theorem hasEngine_iff : t.hasEngine = true ↔ 2 ≤ t.main.left := by
  unfold hasEngine
  cases t.main <;> simp [Main.left]

theorem worked_copy (t : ServerThreads) (copy : AudioCopy) :
    (t.worked copy).copy = copy ∧ (t.worked copy).main = t.main ∧ (t.worked copy).deleted = t.deleted := by
  unfold worked
  split <;> exact ⟨rfl, rfl, rfl⟩

/-- At the head of the loop all blocks are in the free list. -/
theorem Keeps.delete (h : t.Keeps) (hplaced : t.Placed) (hordered : t.Ordered)
    (hmain : t.main = .deleteEngine) : ∃ deleted engine,
    t.copy.engine.deleteBlocks t.copy.engine.pool.length = .ok (deleted, engine) ∧
      deleted.Perm (List.range numBuffers) := by
  have hencoder := hordered.encoder (by simp [hmain, Main.left])
  have hloop := hplaced.loop (by simp [hencoder])
  have hlends := h.lends (hasEngine_iff.2 (by simp [hmain, Main.left]))
  rw [hloop] at hlends
  obtain ⟨free, hholds, hperm⟩ := hlends.free
  rw [Loop.held, List.append_nil] at hperm
  have hlength : free.length ≤ t.copy.engine.pool.length := by
    rw [hperm.length_eq, List.length_range, hlends.length_pool]
  obtain ⟨engine, hdelete⟩ := Engine.deleteBlocks_of_holds hholds hlength
  exact ⟨free, engine, hdelete, hperm⟩

theorem Keeps.step (h : t.Keeps) (hplaced : t.Placed) (hordered : t.Ordered) (hstep : Step t a t') :
    t'.Keeps := by
  cases moves_of_step hstep with
  | work hworking copy hworks =>
      obtain ⟨act', hcopy⟩ := hworks.step
      obtain ⟨hcopy', hmain', hdeleted'⟩ := t.worked_copy copy
      have hengine' : (t.worked copy).hasEngine = t.hasEngine := by rw [hasEngine, hasEngine, hmain']
      constructor
      · rw [hengine', hcopy']
        exact fun hengine => AudioCopy.lends_step (h.lends hengine) hcopy
      · rw [hengine', hdeleted']
        exact h.deleted
  | client hown copy hengine hcopy hloop =>
      refine ⟨fun hengine => AudioCopy.lends_step (h.lends hengine) hcopy, h.deleted⟩
  | kill hmain | joinEncoder hmain | joinReader hmain | deleteReader hmain =>
      refine ⟨fun _ => h.lends (by simp [hasEngine, hmain]), ?_⟩
      intro hengine
      simp [hasEngine] at hengine
  | deleteEngine hmain deleted engine hdelete =>
      refine ⟨fun hengine => by simp [hasEngine] at hengine, fun _ => ?_⟩
      obtain ⟨deleted', engine', hdelete', hperm⟩ := h.delete hplaced hordered hmain
      obtain ⟨rfl, -⟩ := Prod.mk.inj (Except.ok.inj (hdelete.symm.trans hdelete'))
      exact hperm
  | deleteCodec hmain =>
      refine ⟨fun hengine => by simp [hasEngine] at hengine, fun _ => h.deleted ?_⟩
      simp [hasEngine, hmain]
  | _ => exact ⟨h.lends, h.deleted⟩

theorem keeps_new {codec : AudioCodec} {rtp rtcp : ℤ} {maxRead : ℕ} {t₀ : ServerThreads}
    {memory : ℕ → ℕ → UInt8} (hnew : new codec rtp rtcp maxRead memory = .ok t₀) : t₀.Keeps := by
  obtain ⟨size, rfl⟩ := new_eq_ok hnew
  exact ⟨fun _ => Engine.lends_new codec rtp rtcp numBuffers, nofun⟩

/-- In every run, when the thread of the server comes to delete the reader and then the engine, the other
two threads are done, no block is in the encoder thread's hands, and of the three only the thread of the
server goes on. The engine's destructor comes to an end, and it deletes each of the blocks exactly
once. -/
theorem deletes_each_block_once (codec : AudioCodec) (rtp rtcp : ℤ) (maxRead : ℕ)
    (t₀ t : ServerThreads) (as : List Action) {memory : ℕ → ℕ → UInt8}
    (hnew : new codec rtp rtcp maxRead memory = .ok t₀)
    (hrun : Run Step t₀ as t) :
    (t.main.left ≤ 3 → t.encoder = .done ∧ t.reader.producer = .done ∧ t.copy.loop.held = [] ∧
      ∀ a t', Step t a t' → a.own = true → a = .main) ∧
      (t.main = .deleteEngine → ∃ t', Step t .main t') ∧
      (t.main.left ≤ 1 → t.deleted.Perm (List.range numBuffers)) := by
  obtain ⟨hplaced, hordered, hkeeps⟩ := hrun.invariant (I := fun t => t.Placed ∧ t.Ordered ∧ t.Keeps)
    (fun _ _ _ ⟨h, h', h''⟩ hstep => ⟨h.step hstep, h'.step hstep, h''.step h h' hstep⟩)
    ⟨placed_new hnew, ordered_new hnew, keeps_new hnew⟩
  refine ⟨?_, ?_, ?_⟩
  · intro hleft
    have hencoder := hordered.encoder (by omega)
    have hreader := hordered.reader hleft
    have hloop : t.copy.loop = .head := hplaced.loop (by simp [hencoder])
    refine ⟨hencoder, hreader, by rw [hloop]; rfl, ?_⟩
    intro a t' hstep hown
    cases moves_of_step hstep with
    | acquire _ r hr => cases hr with | acquire hidle => cases hidle.symm.trans hreader
    | read bytes r hr => cases hr with | read _ _ _ hfilling _ => cases hfilling.symm.trans hreader
    | put r hr => cases hr with | put _ hputting _ => cases hputting.symm.trans hreader
    | halt _ r hr => cases hr with | halt hidle => cases hidle.symm.trans hreader
    | loop hhead => cases hhead.symm.trans hencoder
    | get hreading r hr => cases hreading.symm.trans hencoder
    | work hworking copy hworks => cases hworking.symm.trans hencoder
    | client hclient copy hengine hcopy hloop => cases hown.symm.trans hclient
    | _ => rfl
  · intro hmain
    obtain ⟨deleted, engine, hdelete, -⟩ := hkeeps.delete hplaced hordered hmain
    refine ⟨{ t with
      main := .deleteCodec
      copy := { t.copy with engine := engine }
      deleted := deleted }, ?_⟩
    simp only [Step, exec, exit, hmain]
    exact congrArg some (bind_eq_ok.2 ⟨(deleted, engine), hdelete, rfl⟩)
  · intro hleft
    apply hkeeps.deleted
    rw [Bool.eq_false_iff, ne_eq, hasEngine_iff]
    omega

/-- A server whose encoder thread has sent a packet. -/
theorem deletes_each_block_after_packet : ∃ t₀ t : ServerThreads,
    new (AudioCodec.createPcm ⟨16, 2, 48000⟩) 6000 6001 512 (fun _ _ => 0) = .ok t₀ ∧
    Run Step t₀ [.copy (.newClient ⟨none, 5000, true, []⟩), .copy (.play 0), .acquire, .loop, .read [1, 2],
      .read [], .put, .get, .copy .samples, .main, .copy (.encode 0 []), .copy (.send fun _ => 1452),
      .halt, .loop, .main, .main, .main, .main] t ∧
    t.deleted.Perm (List.range numBuffers) := by
  obtain ⟨t₀, hnew⟩ : ∃ t₀, new (AudioCodec.createPcm ⟨16, 2, 48000⟩) 6000 6001 512 (fun _ _ => 0) = .ok t₀ := ⟨_, rfl⟩
  have hruns : (execAll next t₀ [.copy (.newClient ⟨none, 5000, true, []⟩), .copy (.play 0), .acquire, .loop,
      .read [1, 2], .read [], .put, .get, .copy .samples, .main, .copy (.encode 0 []),
      .copy (.send fun _ => 1452), .halt, .loop, .main, .main, .main, .main]).any (fun t =>
      t.main.left ≤ 1) = true := by
    obtain rfl := Except.ok.inj hnew
    decide +kernel
  obtain ⟨t, hrun, hstate⟩ := run_of_any hruns
  rw [← step_eq_next] at hrun
  exact ⟨t₀, t, hnew, hrun, (deletes_each_block_once _ _ _ _ t₀ t _ hnew hrun).2.2
    (of_decide_eq_true hstate)⟩

end ServerThreads

end WifiAudio
