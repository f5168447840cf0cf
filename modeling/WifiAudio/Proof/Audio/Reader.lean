import WifiAudio.Audio.Reader
import Mathlib.Data.List.Range
import Mathlib.Data.Nat.ModEq

/-!
# The buffers of the reader

The blocks are filled into the buffers in turn, so the blocks the encoder thread still needs lie in
consecutive buffers, and the one being filled is the next after them. It is one of theirs as soon as
there are as many of them as buffers. The queue does not keep that from happening: it waits only when
it holds `numBlocks` blocks itself, with one more in the encoder's hands and one being filled.
-/

namespace WifiAudio

open Transition

namespace Reader

/-- The reader is about to read into a buffer. -/
def Reading (r : Reader) (a : Action) : Prop :=
  ∃ bytes buff content, a = .read bytes ∧ r.producer = .filling buff content

/-- The read goes into the buffer of a block the encoder thread still needs. -/
def Overwrites (r : Reader) (a : Action) : Prop :=
  ∃ bytes buff content, a = .read bytes ∧ r.producer = .filling buff content ∧
    ∃ block ∈ r.outstanding, block.data = buff

/-- When the reader reads, the encoder thread needs fewer blocks than there are buffers. -/
def HasRoom (r : Reader) (a : Action) : Prop := r.Reading a → r.outstanding.length < r.numBlocks

/-- The block holds what was read for it. -/
def Intact (r : Reader) (block : Block) : Prop :=
  (r.data block.data).take block.bytes = block.content

/-- The buffer the reader thread has taken, with what it holds so far. -/
def current (r : Reader) : Option Block :=
  match r.producer with
  | .filling buff content => some (filled buff content)
  | .putting block => some block
  | _ => none

/-- The blocks that were filled, from number `first` on, are in the buffers of their number; `idx` is
the buffer of the next one. -/
structure Numbered (r : Reader) (numBlocks first : ℕ) : Prop where
  numBlocks_eq : r.numBlocks = numBlocks
  outstanding_data : r.outstanding.map Block.data =
    (List.range' first r.outstanding.length).map (· % numBlocks)
  current_data : ∀ block, r.current = some block →
    block.data = (first + r.outstanding.length) % numBlocks
  idx_eq : r.idx = (first + r.outstanding.length + r.current.toList.length) % numBlocks

variable {r r' : Reader} {a : Action} {numBlocks first : ℕ}

theorem numbered_new (size maxRead numBlocks : ℕ) (memory : ℕ → ℕ → UInt8) :
    (new size maxRead numBlocks memory).Numbered numBlocks 0 where
  numBlocks_eq := rfl
  outstanding_data := rfl
  current_data := nofun
  idx_eq := (Nat.zero_mod _).symm

/-- The buffer taken is the one of an outstanding block when there are `numBlocks` of these. -/
theorem Numbered.mem_iff (h : r.Numbered numBlocks first) (hpos : 0 < numBlocks) {block : Block}
    (hcurrent : r.current = some block) :
    (∃ block' ∈ r.outstanding, block'.data = block.data) ↔ numBlocks ≤ r.outstanding.length := by
  have hmem : (∃ block' ∈ r.outstanding, block'.data = block.data) ↔
      block.data ∈ r.outstanding.map Block.data := by simp
  rw [hmem, h.outstanding_data, h.current_data block hcurrent, List.mem_map]
  simp only [List.mem_range'_1]
  constructor
  · rintro ⟨k, ⟨hle, hlt⟩, hmod⟩
    -- two numbers with one buffer lie at least `numBlocks` apart
    by_contra hfew
    have hdvd : numBlocks ∣ first + r.outstanding.length - k := (Nat.modEq_iff_dvd' hlt.le).1 hmod
    exact absurd (Nat.le_of_dvd (by omega) hdvd) (by omega)
  · intro hle
    refine ⟨first + r.outstanding.length - numBlocks, ⟨by omega, by omega⟩, ?_⟩
    rw [← Nat.add_mod_right, Nat.sub_add_cancel (by omega)]

/-! ### One step -/

/-- What a step finds and what it does. -/
inductive Moves (r : Reader) : Action → Reader → Prop
  | acquire (hidle : r.producer = .idle) :
      Moves r .acquire { r with producer := r.startFill r.idx, idx := (r.idx + 1) % r.numBlocks }
  | read (buff : ℕ) (content bytes : Bytes) (hfilling : r.producer = .filling buff content)
      (hle : bytes.length ≤ r.todo content.length) : Moves r (.read bytes) { r with
        producer := r.continueFill buff content bytes
        data := Function.update r.data buff (overwrite (r.data buff) content.length bytes) }
  | put (block : Block) (hputting : r.producer = .putting block)
      (hroom : r.queue.length < r.numBlocks) : Moves r .put { r with
        producer := if block.bytes = 0 then .done else .idle
        queue := r.queue ++ [block] }
  | halt (hidle : r.producer = .idle) : Moves r .halt { r with producer := .done }
  | release (block : Block) (hholding : r.consumer = .holding block) :
      Moves r .release { r with consumer := .waiting }
  | get (block : Block) (rest : List Block) (hwaiting : r.consumer = .waiting)
      (hqueue : r.queue = block :: rest) :
      Moves r .get { r with consumer := .holding block, queue := rest }

theorem moves_of_step (hstep : Step r a r') : r.Moves a r' := by
  cases a with
  | acquire =>
      simp only [Step, exec] at hstep
      split at hstep
      · exact Option.some.inj hstep ▸ .acquire ‹_›
      · cases hstep
  | read bytes =>
      simp only [Step, exec] at hstep
      split at hstep
      · split at hstep
        · exact Option.some.inj hstep ▸ .read _ _ bytes ‹_› ‹_›
        · cases hstep
      · cases hstep
  | put =>
      simp only [Step, exec] at hstep
      split at hstep
      · split at hstep
        · exact Option.some.inj hstep ▸ .put _ ‹_› ‹_›
        · cases hstep
      · cases hstep
  | halt =>
      simp only [Step, exec] at hstep
      split at hstep
      · exact Option.some.inj hstep ▸ .halt ‹_›
      · cases hstep
  | release =>
      simp only [Step, exec] at hstep
      split at hstep
      · exact Option.some.inj hstep ▸ .release _ ‹_›
      · cases hstep
  | get =>
      simp only [Step, exec] at hstep
      split at hstep
      · exact Option.some.inj hstep ▸ .get _ _ ‹_› ‹_›
      · cases hstep

theorem step_of_moves (hmoves : r.Moves a r') : Step r a r' := by
  cases hmoves with
  | acquire hidle => simp only [Step, exec, hidle]
  | read buff content bytes hfilling hle => simp only [Step, exec, hfilling, if_pos hle]
  | put block hputting hroom => simp only [Step, exec, hputting, if_pos hroom]
  | halt hidle => simp only [Step, exec, hidle]
  | release block hholding => simp only [Step, exec, hholding]
  | get block rest hwaiting hqueue => simp only [Step, exec, hwaiting, hqueue]

theorem current_startFill (r : Reader) (buff idx : ℕ) :
    ({ r with producer := r.startFill buff, idx := idx } : Reader).current = some (filled buff []) := by
  unfold startFill
  split <;> rfl

theorem current_continueFill (r : Reader) (buff : ℕ) (content bytes : Bytes) (data : ℕ → Bytes) :
    ({ r with producer := r.continueFill buff content bytes, data := data } : Reader).current =
      some (filled buff (content ++ bytes)) := by
  unfold continueFill
  split <;> rfl

theorem current_put (r : Reader) (block : Block) (queue : List Block) :
    ({ r with producer := if block.bytes = 0 then .done else .idle, queue := queue } : Reader).current =
      none := by
  unfold current
  by_cases hzero : block.bytes = 0 <;> simp [hzero]

theorem outstanding_put (r : Reader) (block : Block) (producer : Producer) :
    ({ r with producer := producer, queue := r.queue ++ [block] } : Reader).outstanding =
      r.outstanding ++ [block] := by
  unfold outstanding
  cases r.consumer <;> rfl

theorem outstanding_get (r : Reader) {block : Block} {rest : List Block}
    (hwaiting : r.consumer = .waiting) (hqueue : r.queue = block :: rest) :
    ({ r with consumer := .holding block, queue := rest } : Reader).outstanding = r.outstanding := by
  simp [outstanding, hwaiting, hqueue]

theorem Numbered.step (h : r.Numbered numBlocks first) (hstep : Step r a r') :
    ∃ first', r'.Numbered numBlocks first' := by
  obtain ⟨hn, hout, hcurrent, hidx⟩ := h
  cases moves_of_step hstep with
  | acquire hidle =>
      have hnone : r.current = none := by simp [current, hidle]
      rw [hnone] at hidx
      refine ⟨first, hn, hout, ?_, ?_⟩
      · intro block hblock
        obtain rfl := Option.some.inj ((current_startFill r _ _).symm.trans hblock)
        exact hidx
      · rw [current_startFill]
        change (r.idx + 1) % r.numBlocks = (first + r.outstanding.length + 1) % numBlocks
        rw [hn, hidx, Nat.mod_add_mod]
        rfl
  | read buff content bytes hfilling hle =>
      have hsome : r.current = some (filled buff content) := by simp [current, hfilling]
      rw [hsome] at hidx
      refine ⟨first, hn, hout, ?_, ?_⟩
      · intro block hblock
        obtain rfl := Option.some.inj ((current_continueFill r _ _ _ _).symm.trans hblock)
        exact hcurrent (filled buff content) hsome
      · rw [current_continueFill]
        exact hidx
  | put block hputting hroom =>
      have hsome : r.current = some block := by simp [current, hputting]
      rw [hsome] at hidx
      refine ⟨first, hn, ?_, ?_, ?_⟩
      · rw [outstanding_put, List.length_append, List.length_singleton, List.range'_concat,
          List.map_append, List.map_append, hout, Nat.one_mul]
        simp [hcurrent block hsome]
      · intro block' hblock'
        cases (current_put r _ _).symm.trans hblock'
      · rw [current_put, outstanding_put, List.length_append]
        exact hidx
  | halt hidle =>
      have hnone : r.current = none := by simp [current, hidle]
      rw [hnone] at hidx
      exact ⟨first, hn, hout, nofun, hidx⟩
  | release block hholding =>
      have hcons : r.outstanding = block :: r.queue := by simp [outstanding, hholding]
      rw [hcons, List.length_cons] at hout hcurrent hidx
      rw [List.range'_succ] at hout
      have hshift : first + (r.queue.length + 1) = first + 1 + r.queue.length := by omega
      rw [hshift] at hcurrent hidx
      exact ⟨first + 1, hn, (List.cons.inj hout).2, hcurrent, hidx⟩
  | get block rest hwaiting hqueue =>
      have hsame := outstanding_get r hwaiting hqueue
      refine ⟨first, hn, ?_, ?_, ?_⟩
      all_goals rw [hsame]
      exacts [hout, hcurrent, hidx]

/-! ### The contents of the blocks -/

/-- Everything read for the block being filled is in its buffer, and the blocks the encoder thread
needs are intact. -/
structure Contents (r : Reader) : Prop where
  current_intact : ∀ block, r.current = some block → r.Intact block
  outstanding_intact : ∀ block ∈ r.outstanding, r.Intact block

theorem contents_new (size maxRead numBlocks : ℕ) (memory : ℕ → ℕ → UInt8) :
    (new size maxRead numBlocks memory).Contents :=
  ⟨nofun, nofun⟩

theorem take_overwrite {buffer content : Bytes} (h : buffer.take content.length = content)
    (bytes : Bytes) :
    (overwrite buffer content.length bytes).take (content ++ bytes).length = content ++ bytes := by
  rw [overwrite, h, List.take_left]

theorem Contents.step (h : r.Contents) (hkeeps : ¬r.Overwrites a) (hstep : Step r a r') :
    r'.Contents := by
  cases moves_of_step hstep with
  | acquire hidle =>
      refine ⟨?_, h.outstanding_intact⟩
      intro block hblock
      obtain rfl := Option.some.inj ((current_startFill r _ _).symm.trans hblock)
      exact List.take_zero
  | read buff content bytes hfilling hle =>
      have hfilled : r.Intact (filled buff content) := h.current_intact _ (by simp [current, hfilling])
      refine ⟨?_, ?_⟩
      · intro block hblock
        obtain rfl := Option.some.inj ((current_continueFill r _ _ _ _).symm.trans hblock)
        change (Function.update r.data buff _ buff).take _ = _
        rw [Function.update_self]
        exact take_overwrite hfilled bytes
      · intro block hblock
        have hne : block.data ≠ buff := fun heq =>
          hkeeps ⟨bytes, buff, content, rfl, hfilling, block, hblock, heq⟩
        change (Function.update r.data buff _ block.data).take _ = _
        rw [Function.update_of_ne hne]
        exact h.outstanding_intact block hblock
  | put block hputting hroom =>
      refine ⟨?_, ?_⟩
      · intro block' hblock'
        cases (current_put r _ _).symm.trans hblock'
      · intro block' hblock'
        rw [outstanding_put, List.mem_append, List.mem_singleton] at hblock'
        rcases hblock' with hblock' | rfl
        · exact h.outstanding_intact block' hblock'
        · exact h.current_intact block' (by simp [current, hputting])
  | halt hidle => exact ⟨nofun, h.outstanding_intact⟩
  | release block hholding =>
      refine ⟨h.current_intact, fun block' hblock' => h.outstanding_intact block' ?_⟩
      simp only [outstanding, hholding]
      exact List.mem_cons_of_mem block hblock'
  | get block rest hwaiting hqueue =>
      refine ⟨h.current_intact, ?_⟩
      intro block' hblock'
      rw [outstanding_get r hwaiting hqueue] at hblock'
      exact h.outstanding_intact block' hblock'

/-! ### Whole runs -/

theorem Numbered.overwrites_iff (h : r.Numbered numBlocks first) (hpos : 0 < numBlocks) :
    ¬r.Overwrites a ↔ r.HasRoom a := by
  constructor
  · rintro hkeeps ⟨bytes, buff, content, rfl, hfilling⟩
    by_contra hfull
    rw [h.numBlocks_eq, not_lt] at hfull
    have hcurrent : r.current = some (filled buff content) := by simp [current, hfilling]
    exact hkeeps ⟨bytes, buff, content, rfl, hfilling, (h.mem_iff hpos hcurrent).2 hfull⟩
  · rintro hroom ⟨bytes, buff, content, rfl, hfilling, hmem⟩
    have hcurrent : r.current = some (filled buff content) := by simp [current, hfilling]
    have hfull := (h.mem_iff hpos hcurrent).1 hmem
    have := hroom ⟨bytes, buff, content, rfl, hfilling⟩
    rw [h.numBlocks_eq] at this
    omega

/-- In every interleaving of the two threads no read goes into the buffer of a block the encoder
thread still needs if and only if at each read it needs fewer blocks than there are buffers; and then
every such block holds exactly what was read for it. -/
theorem reads_keep_blocks_iff (size maxRead numBlocks : ℕ) (memory : ℕ → ℕ → UInt8) (hpos : 0 < numBlocks)
    (as : List Action) :
    (Along Step (fun r a => ¬r.Overwrites a) (new size maxRead numBlocks memory) as ↔
      Along Step HasRoom (new size maxRead numBlocks memory) as) ∧
    (Along Step HasRoom (new size maxRead numBlocks memory) as →
      ∀ r, Run Step (new size maxRead numBlocks memory) as r → ∀ block ∈ r.outstanding, r.Intact block) := by
  have hiff : Along Step (fun r a => ¬r.Overwrites a) (new size maxRead numBlocks memory) as ↔
      Along Step HasRoom (new size maxRead numBlocks memory) as :=
    along_congr (I := fun r => ∃ first, r.Numbered numBlocks first)
      (fun _ _ _ ⟨_, h⟩ hstep => h.step hstep) (fun _ _ ⟨_, h⟩ => h.overwrites_iff hpos)
      ⟨0, numbered_new size maxRead numBlocks memory⟩
  refine ⟨hiff, ?_⟩
  intro hroom r hrun
  have h : r.Contents := hrun.invariant_along (fun _ _ _ h hkeeps hstep => h.step hkeeps hstep)
    (hiff.2 hroom) (contents_new size maxRead numBlocks memory)
  exact h.outstanding_intact

/-- Two buffers: a third block overwrites the one the encoder thread works on. -/
theorem third_block_overwrites : ∃ r, Run Step (new 4 4 2 fun _ _ => 0)
      [.acquire, .read [1, 2, 3, 4], .put, .get, .acquire, .read [5, 6, 7, 8], .put, .acquire,
        .read [9, 9, 9, 9]] r ∧
    r.consumer = .holding ⟨0, 4, [1, 2, 3, 4]⟩ ∧ r.data 0 = [9, 9, 9, 9] :=
  ⟨_, run_of_execAll rfl, rfl, rfl⟩

/-- A read finds fewer blocks needed than there are buffers. -/
def hasRoom (r : Reader) : Action → Bool
  | .read _ => r.outstanding.length < r.numBlocks
  | _ => true

theorem hasRoom_sound (h : r.hasRoom a = true) : r.HasRoom a := by
  rintro ⟨bytes, buff, content, rfl, -⟩
  exact of_decide_eq_true h

/-- Two buffers and an encoder thread that is done with a block before the next one is filled. -/
theorem reads_keep_blocks_lockstep : Along Step (fun r a => ¬r.Overwrites a) (new 4 2 2 fun _ _ => 0)
    [.acquire, .read [1, 2], .read [3, 4], .put, .get, .acquire, .read [5, 6], .read [7, 8], .put,
      .release, .get, .acquire, .read [9, 9]] :=
  (reads_keep_blocks_iff 4 2 2 (fun _ _ => 0) (by decide) _).1.2
    (along_of_allAlong (fun _ _ => hasRoom_sound) (by decide))

end Reader

end WifiAudio
