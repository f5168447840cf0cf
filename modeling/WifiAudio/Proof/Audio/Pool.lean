import WifiAudio.Proof.Audio.Encode

/-!
# The pool of packet buffers

The constructor makes the blocks and puts them on the free list. From then on a block is on that list
or in the hands of whoever took it: `get_free` hands out the first one, `put_free` and `send` take a
block back. `audio_copy` holds one block at most, and none when it is at the head of its loop.
-/

namespace WifiAudio

open Except Transition

namespace Engine

/-- The block an operation gives back. -/
def Op.returned : Op → Option ℕ
  | .putFree b => some b
  | .send b _ _ _ => some b
  | _ => none

/-- The blocks the callers hold after an operation, `held` being those they hold before. -/
def heldAfter (e : Engine) (held : List ℕ) : Op → List ℕ
  | .getFree => e.getFree.1.toList ++ held
  | op => op.returned.elim held held.erase

/-- An operation of callers that give back only blocks they hold. -/
def lend (s : Engine × List ℕ) (op : Op) : Option (Engine × List ℕ) :=
  if ∀ b, op.returned = some b → b ∈ s.2 then
    (s.1.exec op).map fun e => (e, s.1.heldAfter s.2 op)
  else none

/-- The engine, its callers holding the blocks `held`, has the others on its free list. -/
structure Lends (n : ℕ) (e : Engine) (held : List ℕ) : Prop where
  length_pool : e.pool.length = n
  free : ∃ free, e.blocks.Holds free ∧ (free ++ held).Perm (List.range n)

variable {n : ℕ} {e e' : Engine} {held : List ℕ} {b : ℕ}

theorem lends_new (codec : AudioCodec) (rtp rtcp : ℤ) (numBuffers : ℕ) :
    (new codec rtp rtcp numBuffers).Lends numBuffers [] := by
  refine ⟨List.length_replicate, _, LinkedList.Holds.pushAll LinkedList.holds_empty List.nodup_range ?_, ?_⟩
  · intro i _ hmem
    cases hmem
  · rw [List.append_nil, List.append_nil]
    exact List.reverse_perm _

/-- Free and held blocks are disjoint, without duplicates, and all there are. -/
theorem Lends.conserved (h : e.Lends n held) : ∃ free, e.blocks.Holds free ∧ free.Nodup ∧
    held.Nodup ∧ free.Disjoint held ∧ ∀ b, b ∈ free ∨ b ∈ held ↔ b < n := by
  obtain ⟨free, hholds, hperm⟩ := h.free
  have hnodup := hperm.nodup_iff.2 List.nodup_range
  obtain ⟨hfree, hheld, hdisjoint⟩ := List.nodup_append'.1 hnodup
  refine ⟨free, hholds, hfree, hheld, hdisjoint, ?_⟩
  intro b
  rw [← List.mem_append, hperm.mem_iff, List.mem_range]

theorem Lends.frame (h : e.Lends n held) (hpool : e'.pool.length = e.pool.length)
    (hblocks : e'.blocks = e.blocks) : e'.Lends n held :=
  ⟨hpool.trans h.length_pool, hblocks ▸ h.free⟩

theorem Lends.getFree (h : e.Lends n held) :
    e.getFree.2.Lends n (e.getFree.1.toList ++ held) := by
  obtain ⟨free, hholds, hperm⟩ := h.free
  unfold Engine.getFree
  cases hpop : e.blocks.pop with
  | none => exact h
  | some taken =>
      obtain ⟨b, blocks⟩ := taken
      obtain ⟨rest, rfl, hrest⟩ := hholds.pop hpop
      refine ⟨h.length_pool, rest, hrest, ?_⟩
      exact List.perm_middle.trans hperm

theorem Lends.putFree (h : e.Lends n held) (hb : b ∈ held) :
    (e.putFree b).Lends n (held.erase b) := by
  obtain ⟨free, hholds, hperm⟩ := h.free
  have hdisjoint := (List.nodup_append'.1 (hperm.nodup_iff.2 List.nodup_range)).2.2
  refine ⟨h.length_pool, b :: free, hholds.push fun hmem => hdisjoint hmem hb, ?_⟩
  -- the block moves from the held ones to the head of the free list
  have hmoved : (b :: free ++ held.erase b).Perm (free ++ held) :=
    List.perm_middle.symm.trans ((List.perm_cons_erase hb).symm.append_left free)
  exact hmoved.trans hperm

theorem Lends.writeAudio {bytes : Bytes} (h : e.Lends n held)
    (hwrite : e.writeAudio b bytes = .ok e') : e'.Lends n held := by
  unfold Engine.writeAudio at hwrite
  cases hblock : e.pool[b]? with
  | none => simp [hblock] at hwrite
  | some block =>
      simp only [hblock] at hwrite
      split at hwrite
      · simp at hwrite
      · obtain rfl := Except.ok.inj hwrite
        exact h.frame List.length_set rfl

theorem Lends.send {bytes samples : ℕ} {results : ℕ → ℤ} (h : e.Lends n held) (hb : b ∈ held)
    (hsend : e.send b bytes samples results = .ok e') : e'.Lends n (held.erase b) := by
  obtain ⟨block, visited, -, -, -, rfl⟩ := send_eq_ok.1 hsend
  have hstamped : Lends n { e with
      pool := e.pool.set b (block.stamp e.packetSeq e.timestamp)
      packetSeq := e.packetSeq + 1
      timestamp := e.timestamp + UInt32.ofNat samples
      clients := sendAll ((block.stamp e.packetSeq e.timestamp).packet bytes) results visited
        e.clients } held := h.frame List.length_set rfl
  exact hstamped.putFree hb

theorem Lends.exec {op : Op} (h : e.Lends n held) (hreturned : ∀ b, op.returned = some b → b ∈ held)
    (hexec : e.exec op = some e') : e'.Lends n (e.heldAfter held op) := by
  have hok : ∀ {x : Except Fault Engine}, x.toOption = some e' → x = .ok e' := by
    intro x hx
    cases x with
    | error f => cases hx
    | ok e => rw [Option.some.inj hx]
  cases op with
  | newClient ip port connected =>
      obtain rfl := Option.some.inj hexec
      exact h.frame rfl rfl
  | play client =>
      obtain rfl := Option.some.inj hexec
      cases client with
      | none => exact h
      | some c => exact h.frame rfl rfl
  | remove client =>
      obtain ⟨playing, rfl⟩ := remove_eq_ok (hok hexec)
      exact h.frame rfl rfl
  | getFree =>
      obtain rfl := Option.some.inj hexec
      exact h.getFree
  | putFree b =>
      obtain rfl := Option.some.inj hexec
      exact h.putFree (hreturned b rfl)
  | writeAudio b bytes => exact h.writeAudio (hok hexec)
  | send b bytes samples results => exact h.send (hreturned b rfl) (hok hexec)

theorem Lends.lend {s s' : Engine × List ℕ} {op : Op} (h : s.1.Lends n s.2)
    (hlend : Engine.lend s op = some s') : s'.1.Lends n s'.2 := by
  unfold Engine.lend at hlend
  split at hlend
  case isTrue hreturned =>
    obtain ⟨e, hexec, rfl⟩ := Option.map_eq_some_iff.1 hlend
    exact h.exec hreturned hexec
  case isFalse => cases hlend

end Engine

/-! ### The streaming loop -/

/-- The block the loop has taken. -/
def Loop.held : Loop → List ℕ
  | .head => []
  | .encoding b => [b]
  | .sending b _ => [b]

namespace AudioCopy

/-- A step of `audio_copy`, or a call of an encoder that reports any number of bytes the block has
room for. -/
inductive Takes : AudioCopy → Option Action → AudioCopy → Prop
  | step {a a' : AudioCopy} {act : Action} (hstep : Step a act a') : Takes a (some act) a'
  | encoded {e e' : Engine} {b bytes : ℕ} {block : Block} {written : Bytes}
      (hblock : e.pool[b]? = some block) (hfits : bytes ≤ block.maxPayload)
      (hwrite : e.writeAudio b written = .ok e') : Takes ⟨e, .encoding b⟩ none ⟨e', .sending b bytes⟩

theorem samples_eq_some {a a' : AudioCopy} (hstep : Step a .samples a') :
    a.loop = .head ∧ a' = a.takeBlock := by
  simp only [Step, exec] at hstep
  split at hstep
  case h_1 hloop => exact ⟨hloop, (Except.ok.inj (Option.some.inj hstep)).symm⟩
  case h_2 => cases hstep

theorem encode_eq_some {a a' : AudioCopy} {result : ℤ} {written : Bytes}
    (hstep : Step a (.encode result written) a') : ∃ b bytes e, a.loop = .encoding b ∧
      encode a.engine b result written = .ok (bytes, e) ∧ a' = ⟨e, .sending b bytes⟩ := by
  simp only [Step, exec] at hstep
  split at hstep
  case h_1 b hloop =>
    obtain ⟨⟨bytes, e⟩, hencode, hresult⟩ := bind_eq_ok.1 (Option.some.inj hstep)
    exact ⟨b, bytes, e, hloop, hencode, (Except.ok.inj hresult).symm⟩
  case h_2 => cases hstep

theorem send_eq_some {a a' : AudioCopy} {results : ℕ → ℤ} (hstep : Step a (.send results) a') :
    ∃ b bytes samples e, a.loop = .sending b bytes ∧ a.engine.codec.samplesPerPacket = .ok samples ∧
      a.engine.send b bytes samples results = .ok e ∧ a' = ⟨e, .head⟩ := by
  simp only [Step, exec] at hstep
  split at hstep
  case h_1 b bytes hloop =>
    obtain ⟨samples, hsamples, hrest⟩ := bind_eq_ok.1 (Option.some.inj hstep)
    obtain ⟨e, hsend, hresult⟩ := bind_eq_ok.1 hrest
    exact ⟨b, bytes, samples, e, hloop, hsamples, hsend, (Except.ok.inj hresult).symm⟩
  case h_2 => cases hstep

/-- What a step of the loop does with the blocks: they stay where they are, or it is one operation of
the engine that takes a block or gives it back. -/
theorem lends_step {n : ℕ} {a a' : AudioCopy} {act : Action} (h : a.engine.Lends n a.loop.held)
    (hstep : Step a act a') : a'.engine.Lends n a'.loop.held := by
  obtain ⟨e, loop⟩ := a
  cases act with
  | samples =>
      cases loop with
      | head =>
          obtain rfl := Except.ok.inj (Option.some.inj hstep)
          unfold takeBlock
          split
          · have hfree := Engine.Lends.getFree h
            cases htaken : e.getFree with
            | mk taken e' =>
                rw [htaken] at hfree
                cases taken with
                | none => exact hfree
                | some b => exact hfree
          · exact h
      | encoding b => cases hstep
      | sending b bytes => cases hstep
  | encode result written =>
      cases loop with
      | encoding b =>
          obtain ⟨⟨bytes, e'⟩, hencode, hresult⟩ := bind_eq_ok.1 (Option.some.inj hstep)
          obtain rfl := Except.ok.inj hresult
          obtain ⟨call, -, hencode⟩ := bind_eq_ok.1 hencode
          obtain ⟨reported, -, hencode⟩ := bind_eq_ok.1 hencode
          obtain ⟨e'', hwrite, hencode⟩ := bind_eq_ok.1 hencode
          obtain ⟨-, rfl⟩ := Prod.mk.inj (Except.ok.inj hencode)
          exact Engine.Lends.writeAudio h hwrite
      | head => cases hstep
      | sending b bytes => cases hstep
  | send results =>
      cases loop with
      | sending b bytes =>
          obtain ⟨samples, -, hrest⟩ := bind_eq_ok.1 (Option.some.inj hstep)
          obtain ⟨e', hsend, hresult⟩ := bind_eq_ok.1 hrest
          obtain rfl := Except.ok.inj hresult
          have hsent := Engine.Lends.send h (List.mem_singleton_self b) hsend
          rw [Loop.held, List.erase_cons_head] at hsent
          exact hsent
      | head => cases hstep
      | encoding b => cases hstep
  | newClient socket =>
      obtain rfl := Except.ok.inj (Option.some.inj hstep)
      exact h.frame rfl rfl
  | play c =>
      obtain rfl := Except.ok.inj (Option.some.inj hstep)
      exact h.frame rfl rfl
  | remove c =>
      obtain ⟨e', hremove, hresult⟩ := bind_eq_ok.1 (Option.some.inj hstep)
      obtain rfl := Except.ok.inj hresult
      obtain ⟨playing, rfl⟩ := Engine.remove_eq_ok hremove
      exact h.frame rfl rfl

theorem Takes.lends {n : ℕ} {a a' : AudioCopy} {act : Option Action}
    (h : a.engine.Lends n a.loop.held) (htakes : a.Takes act a') : a'.engine.Lends n a'.loop.held := by
  cases htakes with
  | step hstep => exact lends_step h hstep
  | encoded hblock hfits hwrite => exact Engine.Lends.writeAudio h hwrite

theorem getFree_isSome {n : ℕ} {e : Engine} (hpos : 1 ≤ n) (h : e.Lends n []) :
    e.getFree.1 ≠ none := by
  obtain ⟨free, hholds, hperm⟩ := h.free
  intro hnone
  have hpop : e.blocks.pop = none := by
    unfold Engine.getFree at hnone
    cases hpop : e.blocks.pop with
    | none => rfl
    | some taken => simp [hpop] at hnone
  rw [LinkedList.Holds.pop_none hholds hpop] at hperm
  have hlength := hperm.length_eq
  rw [List.length_range, List.append_nil, List.length_nil] at hlength
  omega

end AudioCopy

open AudioCopy in
/-- The blocks are conserved. In every run of the engine whose callers give back only what they hold,
the free blocks and the held ones are disjoint, without duplicates, and all the constructor made; and
whenever `audio_copy` is at the head of its loop, whatever sizes its encoder reports, all of them are
free and there is one to take. -/
theorem blocks_conserved (codec : AudioCodec) (rtp rtcp : ℤ) (numBuffers : ℕ)
    (hbuffers : 1 ≤ numBuffers) :
    (∀ ops e held, Run (fun s op s' => Engine.lend s op = some s')
        (.new codec rtp rtcp numBuffers, []) ops (e, held) →
      e.pool.length = numBuffers ∧ ∃ free, e.blocks.Holds free ∧ free.Nodup ∧ held.Nodup ∧
        free.Disjoint held ∧ ∀ b, b ∈ free ∨ b ∈ held ↔ b < numBuffers) ∧
    ∀ acts a, Run Takes (.new (.new codec rtp rtcp numBuffers)) acts a → a.loop = .head →
      (∃ free, a.engine.blocks.Holds free ∧ free.Nodup ∧ ∀ b, b ∈ free ↔ b < numBuffers) ∧
        a.engine.getFree.1 ≠ none := by
  have hnew := Engine.lends_new codec rtp rtcp numBuffers
  constructor
  · intro ops e held hrun
    have h : e.Lends numBuffers held := hrun.invariant
      (I := fun s => s.1.Lends numBuffers s.2) (fun _ _ _ h hlend => h.lend hlend) hnew
    exact ⟨h.length_pool, h.conserved⟩
  · intro acts a hrun hhead
    have h : a.engine.Lends numBuffers a.loop.held := hrun.invariant
      (I := fun a => a.engine.Lends numBuffers a.loop.held) (fun _ _ _ h htakes => htakes.lends h) hnew
    rw [hhead, Loop.held] at h
    obtain ⟨free, hholds, hnodup, -, -, hall⟩ := h.conserved
    refine ⟨⟨free, hholds, hnodup, ?_⟩, getFree_isSome hbuffers h⟩
    intro b
    rw [← hall b, or_iff_left (List.not_mem_nil)]

/-- The first block of samples is encoded and sent. -/
def AudioCopy.firstPacket : List Action :=
  firstBlock ++ [.encode 0 [], .send fun _ => 1452]

open AudioCopy in
/-- After a packet was sent the four blocks of the pool are free. -/
theorem blocks_conserved_four : ∃ a, Run Takes
      (.new (.new (AudioCodec.createPcm ⟨16, 2, 48000⟩) 6000 6001 4)) (firstPacket.map some) a ∧
    a.loop = .head ∧ ∃ free, a.engine.blocks.Holds free ∧ free.Nodup ∧ ∀ b, b ∈ free ↔ b < 4 := by
  have hrun : Run Takes (.new (.new (AudioCodec.createPcm ⟨16, 2, 48000⟩) 6000 6001 4))
      (firstPacket.map some) _ :=
    .cons (.step rfl) (.cons (.step rfl) (.cons (.step rfl) (.cons (.step rfl)
      (.cons (.step rfl) (.nil _)))))
  exact ⟨_, hrun, rfl, ((blocks_conserved _ 6000 6001 4 (by decide)).2 _ _ hrun rfl).1⟩

end WifiAudio
