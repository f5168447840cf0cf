import WifiAudio.Audio.Poll
import WifiAudio.Proof.Audio.Reader

/-!
# What the polled loop encodes

A block is put into the queue whether or not it was filled, and the loop passes its buffer to the
encoder with a fixed number of samples. So the last block of a stream that ends inside a block is
encoded too, completed with what its buffer held before. Otherwise the buffers are the stream, cut into
blocks.
-/

namespace WifiAudio

open Except Transition

namespace Poll

/-- The consecutive pieces of `size` bytes, an incomplete last one dropped. -/
def fullPieces (size : ℕ) (s : Bytes) : List Bytes :=
  (List.range (s.length / size)).map fun i => (s.drop (i * size)).take size

theorem length_fullPieces (size : ℕ) (s : Bytes) : (fullPieces size s).length = s.length / size := by
  rw [fullPieces, List.length_map, List.length_range]

theorem fullPieces_append {size : ℕ} {s piece : Bytes} (hdvd : size ∣ s.length) (hpos : 0 < size)
    (hpiece : piece.length = size) : fullPieces size (s ++ piece) = fullPieces size s ++ [piece] := by
  obtain ⟨k, hk⟩ := hdvd
  have hcount : s.length / size = k := by rw [hk, Nat.mul_div_cancel_left k hpos]
  have hcount' : (s ++ piece).length / size = k + 1 := by
    rw [List.length_append, hpiece, hk, ← Nat.mul_succ, Nat.mul_div_cancel_left _ hpos]
  rw [fullPieces, hcount', List.range_succ, List.map_append, fullPieces, hcount]
  congr 1
  · apply List.map_congr_left
    intro i hi
    have hle : (i + 1) * size ≤ s.length := by
      rw [hk, Nat.mul_comm size k]
      exact Nat.mul_le_mul_right size (Nat.succ_le_of_lt (List.mem_range.1 hi))
    rw [Nat.succ_mul] at hle
    rw [List.drop_append_of_le_length (by omega), List.take_append_of_le_length]
    rw [List.length_drop]
    omega
  · have hdrop : (s ++ piece).drop (k * size) = piece := by
      rw [Nat.mul_comm, ← hk, List.drop_left]
    rw [List.map_singleton, hdrop, ← hpiece, List.take_length]

/-! ### One step -/

/-- Where the second half of the loop is afterwards, and how it got there. -/
inductive Works (p : Poll) : AudioCopy.Action → List Bytes → Loop → Prop
  | samples (hloop : p.copy.loop = .head) :
      Works p .samples p.inputs p.copy.takeBlock.loop
  | encode {b bytes : ℕ} {result : ℤ} {written : Bytes} {block : Reader.Block}
      (hloop : p.copy.loop = .encoding b) (hblock : p.reader.consumer = .holding block) :
      Works p (.encode result written) (p.inputs ++ [p.reader.data block.data]) (.sending b bytes)
  | send {b bytes : ℕ} {results : ℕ → ℤ} (hloop : p.copy.loop = .sending b bytes) :
      Works p (.send results) p.inputs .head

/-- What a step finds and what it does. -/
inductive Moves (p : Poll) : Action → Poll → Prop
  | halt (hplace : p.place = .head) : Moves p .halt { p with place := .done }
  | acquire (hplace : p.place = .head) (r : Reader) (hr : p.reader.Moves .acquire r) :
      Moves p .acquire { p with reader := r, place := .acquiring }
  | read (bytes : Bytes) (hplace : p.place = .acquiring) (hended : p.ended = true → bytes = [])
      (r : Reader) (hr : p.reader.Moves (.read bytes) r) : Moves p (.read bytes) { p with
        reader := r
        ended := p.ended || bytes.isEmpty
        stream := p.stream ++ bytes }
  | put (hplace : p.place = .acquiring) (r : Reader) (hr : p.reader.Moves .put r) : Moves p .put { p with
        reader := r
        place := if r.producer = .done then .done else .reading }
  | get (hplace : p.place = .reading) (r : Reader) (hr : p.reader.Moves .get r) :
      Moves p .get { p with reader := r, place := .working }
  | work {act : AudioCopy.Action} {inputs : List Bytes} (hplace : p.place = .working)
      (copy : AudioCopy) (hworks : p.Works act inputs copy.loop) :
      Moves p (.copy act) (p.worked inputs copy)
  | other {act : AudioCopy.Action} (copy : AudioCopy) (hloop : copy.loop = p.copy.loop) :
      Moves p (.copy act) { p with copy := copy }

variable {p p' : Poll} {a : Action}

theorem work_eq_some {act : AudioCopy.Action} {inputs : List Bytes}
    (h : p.work act inputs = some (.ok p')) :
    p.place = .working ∧ ∃ copy, AudioCopy.Step p.copy act copy ∧ p' = p.worked inputs copy := by
  unfold work at h
  split at h
  case isTrue hplace =>
    obtain ⟨r, hr, hresult⟩ := Option.map_eq_some_iff.1 h
    obtain ⟨copy, rfl, hcopy⟩ := bind_eq_ok.1 hresult
    exact ⟨hplace, copy, hr, (Except.ok.inj hcopy).symm⟩
  case isFalse => cases h

theorem reader_eq_some {act : Reader.Action} {f : Reader → Poll}
    (h : ((p.reader.exec act).map fun r => (Except.ok (f r) : Except Fault Poll)) = some (.ok p')) :
    ∃ r, p.reader.Moves act r ∧ p' = f r := by
  obtain ⟨r, hr, hresult⟩ := Option.map_eq_some_iff.1 h
  exact ⟨r, Reader.moves_of_step hr, (Except.ok.inj hresult).symm⟩

theorem other_moves {act : AudioCopy.Action}
    (hloop : ∀ copy, AudioCopy.Step p.copy act copy → copy.loop = p.copy.loop)
    (h : ((p.copy.exec act).map fun r => (do return { p with copy := ← r } : Except Fault Poll)) =
      some (.ok p')) : p.Moves (.copy act) p' := by
  obtain ⟨r, hr, hresult⟩ := Option.map_eq_some_iff.1 h
  obtain ⟨copy, rfl, hcopy⟩ := bind_eq_ok.1 hresult
  obtain rfl := Except.ok.inj hcopy
  exact .other copy (hloop copy hr)

theorem copy_moves {act : AudioCopy.Action} (hstep : Step p (.copy act) p') : p.Moves (.copy act) p' := by
  cases act with
  | samples =>
      obtain ⟨hplace, copy, hcopy, rfl⟩ := work_eq_some hstep
      refine .work hplace copy ?_
      simp only [AudioCopy.Step, AudioCopy.exec] at hcopy
      split at hcopy
      · obtain rfl := Except.ok.inj (Option.some.inj hcopy)
        exact .samples ‹_›
      · cases hcopy
  | encode result written =>
      simp only [Step, exec] at hstep
      split at hstep
      case h_1 block hblock =>
        obtain ⟨hplace, copy, hcopy, rfl⟩ := work_eq_some hstep
        refine .work hplace copy ?_
        simp only [AudioCopy.Step, AudioCopy.exec] at hcopy
        split at hcopy
        · obtain ⟨⟨bytes, e⟩, -, hresult⟩ := bind_eq_ok.1 (Option.some.inj hcopy)
          obtain rfl := Except.ok.inj hresult
          exact .encode ‹_› hblock
        · cases hcopy
      case h_2 => cases hstep
  | send results =>
      obtain ⟨hplace, copy, hcopy, rfl⟩ := work_eq_some hstep
      refine .work hplace copy ?_
      simp only [AudioCopy.Step, AudioCopy.exec] at hcopy
      split at hcopy
      · obtain ⟨samples, -, hsend⟩ := bind_eq_ok.1 (Option.some.inj hcopy)
        obtain ⟨e, -, hresult⟩ := bind_eq_ok.1 hsend
        obtain rfl := Except.ok.inj hresult
        exact .send ‹_›
      · cases hcopy
  | newClient socket =>
      refine other_moves ?_ hstep
      intro copy hcopy
      obtain rfl := Except.ok.inj (Option.some.inj hcopy)
      rfl
  | play c =>
      refine other_moves ?_ hstep
      intro copy hcopy
      obtain rfl := Except.ok.inj (Option.some.inj hcopy)
      rfl
  | remove c =>
      refine other_moves ?_ hstep
      intro copy hcopy
      obtain ⟨e, -, hresult⟩ := bind_eq_ok.1 (Option.some.inj hcopy)
      obtain rfl := Except.ok.inj hresult
      rfl

theorem moves_of_step (hstep : Step p a p') : p.Moves a p' := by
  cases a with
  | halt =>
      simp only [Step, exec] at hstep
      split at hstep
      · obtain rfl := Except.ok.inj (Option.some.inj hstep)
        exact .halt ‹_›
      · cases hstep
  | acquire =>
      simp only [Step, exec] at hstep
      split at hstep
      · obtain ⟨r, hr, rfl⟩ := reader_eq_some hstep
        exact .acquire ‹_› r hr
      · cases hstep
  | read bytes =>
      simp only [Step, exec] at hstep
      split at hstep
      case isTrue hguard =>
        obtain ⟨r, hr, rfl⟩ := reader_eq_some hstep
        exact .read bytes hguard.1 hguard.2 r hr
      case isFalse => cases hstep
  | put =>
      simp only [Step, exec] at hstep
      split at hstep
      · obtain ⟨r, hr, rfl⟩ := reader_eq_some hstep
        exact .put ‹_› r hr
      · cases hstep
  | get =>
      simp only [Step, exec] at hstep
      split at hstep
      · obtain ⟨r, hr, rfl⟩ := reader_eq_some hstep
        exact .get ‹_› r hr
      · cases hstep
  | copy act => exact copy_moves hstep

/-! ### The stream, cut into blocks -/

/-- There is a client to encode for and a free block to encode into. -/
def Served (p : Poll) (a : Action) : Prop :=
  a = .copy .samples → p.copy.engine.hasClients = true ∧ p.copy.engine.getFree.1 ≠ none

/-- The block is full, or the source has ended inside it. -/
structure Filled (p : Poll) (block : Reader.Block) : Prop where
  intact : p.reader.Intact block
  bytes_eq : block.bytes = block.content.length
  length_le : block.content.length ≤ p.reader.size
  ended : block.content.length < p.reader.size → p.ended = true

/-- Where the bytes are that have been read and not yet encoded. -/
inductive Stage (p : Poll) : Bytes → Prop
  | head (hplace : p.place = .head) (hloop : p.copy.loop = .head) (hqueue : p.reader.queue = []) :
      Stage p []
  | filling {buff : ℕ} {content : Bytes} (hplace : p.place = .acquiring) (hloop : p.copy.loop = .head)
      (hqueue : p.reader.queue = []) (hproducer : p.reader.producer = .filling buff content)
      (hintact : p.reader.Intact (Reader.filled buff content))
      (hlt : content.length < p.reader.size) : Stage p content
  | putting {block : Reader.Block} (hplace : p.place = .acquiring) (hloop : p.copy.loop = .head)
      (hqueue : p.reader.queue = []) (hproducer : p.reader.producer = .putting block)
      (hfilled : p.Filled block) : Stage p block.content
  | reading {block : Reader.Block} (hplace : p.place = .reading) (hloop : p.copy.loop = .head)
      (hqueue : p.reader.queue = [block]) (hfilled : p.Filled block) (hne : block.content ≠ []) :
      Stage p block.content
  | working {block : Reader.Block} (hplace : p.place = .working)
      (hloop : p.copy.loop = .head ∨ ∃ b, p.copy.loop = .encoding b) (hqueue : p.reader.queue = [])
      (hconsumer : p.reader.consumer = .holding block) (hfilled : p.Filled block)
      (hne : block.content ≠ []) : Stage p block.content
  | sending {b bytes : ℕ} (hplace : p.place = .working) (hloop : p.copy.loop = .sending b bytes)
      (hqueue : p.reader.queue = []) : Stage p []
  | done (hplace : p.place = .done) : Stage p []

/-- The stream has ended inside a block, and that block was encoded. -/
structure Overrun (p : Poll) (size : ℕ) : Prop where
  ended : p.ended = true
  not_dvd : ¬size ∣ p.stream.length
  lt_length : p.stream.length / size < p.inputs.length

/-- The buffers have the size of a block, and the pieces of `whole` were encoded; the `rest` of the
stream was not. -/
structure Cut (p : Poll) (size : ℕ) (whole rest : Bytes) : Prop where
  size_eq : p.reader.size = size
  length_data : ∀ buff, (p.reader.data buff).length = size
  stream_eq : p.stream = whole ++ rest
  dvd : size ∣ whole.length
  inputs_eq : p.inputs = fullPieces size whole
  stage : p.Stage rest

def InPieces (p : Poll) (size : ℕ) : Prop := (∃ whole rest, p.Cut size whole rest) ∨ p.Overrun size

variable {size : ℕ} {whole rest : Bytes}

theorem fullPieces_nil : fullPieces size [] = [] := by
  rw [fullPieces, List.length_nil, Nat.zero_div]
  rfl

theorem length_overwrite {buffer bytes : Bytes} {total : ℕ}
    (h : total + bytes.length ≤ buffer.length) :
    (Reader.overwrite buffer total bytes).length = buffer.length := by
  rw [Reader.overwrite, List.length_append, List.length_append, List.length_take, List.length_drop]
  omega

/-- The last block of a stream that ends inside it is one more than the stream has pieces. -/
theorem Overrun.of_encode {content : Bytes} (hdvd : size ∣ whole.length)
    (hended : p.ended = true) (hstream : p.stream = whole ++ content) (hne : content ≠ [])
    (hlt : content.length < size) {piece : Bytes}
    (hinputs : p.inputs = fullPieces size whole ++ [piece]) : p.Overrun size := by
  have hpos := List.length_pos_of_ne_nil hne
  obtain ⟨k, hk⟩ := hdvd
  have hlength : p.stream.length = content.length + size * k := by
    rw [hstream, List.length_append, hk, Nat.add_comm]
  refine ⟨hended, ?_, ?_⟩
  · rw [hlength]
    intro h
    have := (Nat.dvd_add_left (Nat.dvd_mul_right size k)).1 h
    exact absurd (Nat.le_of_dvd hpos this) (by omega)
  · rw [hlength, hinputs, List.length_append, length_fullPieces, hk,
      Nat.add_mul_div_left _ _ (by omega), Nat.mul_div_cancel_left _ (by omega),
      Nat.div_eq_of_lt hlt, List.length_singleton]
    omega

theorem cut_new {e : Engine} {maxRead : ℕ} {memory : ℕ → ℕ → UInt8}
    (h : new e maxRead memory = .ok p) :
    p.Cut p.reader.size [] [] := by
  obtain ⟨size, -, hp⟩ := bind_eq_ok.1 h
  obtain rfl := Except.ok.inj hp
  exact ⟨rfl, fun buff => Reader.length_data_new _, rfl, Nat.dvd_zero _, fullPieces_nil.symm,
    .head rfl rfl rfl⟩

theorem Overrun.congr (h : p.Overrun size) (hended : p'.ended = p.ended)
    (hstream : p'.stream = p.stream) (hinputs : p.inputs.length ≤ p'.inputs.length) :
    p'.Overrun size := by
  refine ⟨hended.trans h.ended, ?_, ?_⟩
  · rw [hstream]
    exact h.not_dvd
  · rw [hstream]
    exact lt_of_lt_of_le h.lt_length hinputs

theorem worked_stream (p : Poll) (inputs : List Bytes) (copy : AudioCopy) :
    (p.worked inputs copy).stream = p.stream ∧ (p.worked inputs copy).ended = p.ended ∧
    (p.worked inputs copy).inputs = inputs ∧
    (p.worked inputs copy).reader.size = p.reader.size ∧
    (p.worked inputs copy).reader.data = p.reader.data := by
  unfold worked
  split <;> exact ⟨rfl, rfl, rfl, rfl, rfl⟩

theorem Works.length_le {act : AudioCopy.Action} {inputs : List Bytes} {loop : Loop}
    (h : p.Works act inputs loop) : p.inputs.length ≤ inputs.length := by
  cases h with
  | samples => exact le_rfl
  | encode => simp
  | send => exact le_rfl

/-- Once the stream has ended inside a block that was encoded, there are more inputs than pieces. -/
theorem Overrun.step (h : p.Overrun size) (hmoves : p.Moves a p') : p'.Overrun size := by
  cases hmoves with
  | halt | acquire | put | get | other => exact h.congr rfl rfl le_rfl
  | read bytes hplace hended r hr =>
      obtain rfl := hended h.ended
      refine h.congr ?_ (List.append_nil p.stream) le_rfl
      simp [h.ended]
  | work hplace copy hworks =>
      obtain ⟨hstream, hended, hinputs, -, -⟩ := p.worked_stream _ copy
      refine h.congr hended hstream ?_
      rw [hinputs]
      exact hworks.length_le

theorem worked_of_ne {inputs : List Bytes} {copy : AudioCopy} (h : copy.loop ≠ .head) :
    p.worked inputs copy = { p with copy := copy, inputs := inputs } := if_neg h

theorem worked_of_head {inputs : List Bytes} {copy : AudioCopy} (h : copy.loop = .head) :
    p.worked inputs copy = { p with
      reader := { p.reader with consumer := .waiting }
      copy := copy
      place := .head
      inputs := inputs } := if_pos h

theorem Filled.congr {block : Reader.Block} (h : p.Filled block)
    (hdata : p'.reader.data = p.reader.data) (hsize : p'.reader.size = p.reader.size)
    (hended : p'.ended = p.ended) : p'.Filled block := by
  refine ⟨?_, h.bytes_eq, ?_, ?_⟩
  · rw [Reader.Intact, hdata]
    exact h.intact
  · rw [hsize]
    exact h.length_le
  · rw [hsize, hended]
    exact h.ended

theorem Served.takeBlock (h : p.Served (.copy .samples)) :
    ∃ b, p.copy.takeBlock.loop = .encoding b := by
  obtain ⟨hclients, hfree⟩ := h rfl
  obtain ⟨b, hb⟩ := Option.ne_none_iff_exists'.1 hfree
  refine ⟨b, ?_⟩
  rw [AudioCopy.takeBlock, if_pos hclients]
  obtain ⟨e, he⟩ : ∃ e, p.copy.engine.getFree = (some b, e) := ⟨_, Prod.ext hb rfl⟩
  rw [he]

theorem Filled.data_eq {block : Reader.Block} (h : p.Filled block)
    (hlength : (p.reader.data block.data).length = size) (hfull : block.content.length = size) :
    p.reader.data block.data = block.content := by
  have hintact := h.intact
  rwa [Reader.Intact, h.bytes_eq, hfull, ← hlength, List.take_length] at hintact

theorem Cut.work (h : p.Cut size whole rest) {act : AudioCopy.Action} {inputs : List Bytes}
    {copy : AudioCopy} {loop : Loop} (hcopy : copy.loop = loop) (hworks : p.Works act inputs loop)
    (hplace : p.place = .working) (hserved : p.Served (.copy act)) :
    (p.worked inputs copy).InPieces size := by
  obtain ⟨hsize, hlength, hstream, hdvd, hinputs, hstage⟩ := h
  obtain ⟨hstream', hended', hinputs', hsize', hdata'⟩ := p.worked_stream inputs copy
  have hlength' : ∀ buff, ((p.worked inputs copy).reader.data buff).length = size := by
    rw [hdata']
    exact hlength
  cases hworks with
  | samples hloop =>
      obtain ⟨b, hb⟩ := hserved.takeBlock
      rw [hb] at hcopy
      cases hstage with
      | working _ _ hqueue hconsumer hfilled hne =>
          refine .inl ⟨whole, _, hsize'.trans hsize, hlength', hstream'.trans hstream, hdvd,
            hinputs'.trans hinputs, ?_⟩
          rw [worked_of_ne (by simp [hcopy])]
          exact .working hplace (.inr ⟨b, hcopy⟩) hqueue hconsumer (hfilled.congr rfl rfl rfl) hne
      | sending _ hsending => cases hloop.symm.trans hsending
      | head hplace' | filling hplace' | putting hplace' | reading hplace' | done hplace' =>
          cases hplace.symm.trans hplace'
  | @encode b bytes _ _ block hloop hblock =>
      cases hstage with
      | @working block' _ _ hqueue hconsumer hfilled hne =>
          obtain rfl := Reader.Consumer.holding.inj (hblock.symm.trans hconsumer)
          by_cases hfull : block.content.length = size
          · have hpos : 0 < size := hfull ▸ List.length_pos_of_ne_nil hne
            refine .inl ⟨whole ++ block.content, [], hsize'.trans hsize, hlength', ?_, ?_, ?_, ?_⟩
            · rw [hstream', hstream, List.append_nil]
            · rw [List.length_append, hfull]
              exact Nat.dvd_add hdvd (Nat.dvd_refl size)
            · rw [hinputs', hinputs, hfilled.data_eq (hlength _) hfull,
                fullPieces_append hdvd hpos hfull]
            · rw [worked_of_ne (by simp [hcopy])]
              exact .sending hplace hcopy hqueue
          · -- the source has ended, and the whole buffer is encoded all the same
            have hlt : block.content.length < size := lt_of_le_of_ne (hsize ▸ hfilled.length_le) hfull
            have hended : p.ended = true := hfilled.ended (hsize.symm ▸ hlt)
            have hinput : p.inputs ++ [p.reader.data block.data] =
                fullPieces size whole ++ [p.reader.data block.data] := by rw [hinputs]
            exact .inr (.of_encode hdvd (hended'.trans hended) (hstream'.trans hstream) hne hlt
              (hinputs'.trans hinput))
      | sending _ hsending => cases hloop.symm.trans hsending
      | head hplace' | filling hplace' | putting hplace' | reading hplace' | done hplace' =>
          cases hplace.symm.trans hplace'
  | send hloop =>
      cases hstage with
      | working _ hworking =>
          obtain hhead | ⟨b, hencoding⟩ := hworking
          · cases hloop.symm.trans hhead
          · cases hloop.symm.trans hencoding
      | sending _ _ hqueue =>
          refine .inl ⟨whole, [], hsize'.trans hsize, hlength', hstream'.trans hstream, hdvd,
            hinputs'.trans hinputs, ?_⟩
          rw [worked_of_head hcopy]
          exact .head rfl hcopy hqueue
      | head hplace' | filling hplace' | putting hplace' | reading hplace' | done hplace' =>
          cases hplace.symm.trans hplace'

theorem Cut.read (h : p.Cut size whole rest) {bytes : Bytes} {r : Reader}
    (hplace : p.place = .acquiring) (hr : p.reader.Moves (.read bytes) r) :
    ({ p with
        reader := r
        ended := p.ended || bytes.isEmpty
        stream := p.stream ++ bytes } : Poll).Cut size whole (rest ++ bytes) := by
  obtain ⟨hsize, hlength, hstream, hdvd, hinputs, hstage⟩ := h
  obtain ⟨buff, content, hfilling, hle, rfl⟩ : ∃ buff content,
      p.reader.producer = .filling buff content ∧ bytes.length ≤ p.reader.todo content.length ∧
      r = { p.reader with
        producer := p.reader.continueFill buff content bytes
        data := Function.update p.reader.data buff
          (Reader.overwrite (p.reader.data buff) content.length bytes) } := by
    cases hr with
    | read buff content _ hfilling hle => exact ⟨buff, content, hfilling, hle, rfl⟩
  cases hstage with
  | @filling buff' _ _ hloop hqueue hproducer hintact hlt =>
      obtain ⟨rfl, rfl⟩ := Reader.Producer.filling.inj (hfilling.symm.trans hproducer)
      have hfits : content.length + bytes.length ≤ p.reader.size := by
        rw [Reader.todo] at hle
        omega
      have hintact' : (Function.update p.reader.data buff
          (Reader.overwrite (p.reader.data buff) content.length bytes) buff).take
            (content ++ bytes).length = content ++ bytes := by
        rw [Function.update_self]
        exact Reader.take_overwrite hintact bytes
      refine ⟨hsize, ?_, ?_, hdvd, hinputs, ?_⟩
      · intro buff'
        change (Function.update p.reader.data buff _ buff').length = size
        by_cases hbuff : buff' = buff
        · subst hbuff
          rw [Function.update_self, length_overwrite, hlength]
          rwa [hlength, ← hsize]
        · rw [Function.update_of_ne hbuff, hlength]
      · rw [hstream, List.append_assoc]
      · by_cases hmore : bytes ≠ [] ∧ (content ++ bytes).length < p.reader.size
        · exact .filling hplace hloop hqueue (if_pos hmore) hintact' hmore.2
        · change Stage _ (Reader.filled buff (content ++ bytes)).content
          refine .putting hplace hloop hqueue (if_neg hmore) ⟨hintact', rfl, ?_, ?_⟩
          · change (content ++ bytes).length ≤ _
            rwa [List.length_append]
          · intro hshort
            have hend : bytes = [] := by
              by_contra hne
              exact hmore ⟨hne, hshort⟩
            simp [hend]
  | putting _ _ _ hputting => cases hfilling.symm.trans hputting
  | head hplace' | reading hplace' | working hplace' | sending hplace' | done hplace' =>
      cases hplace.symm.trans hplace'

theorem Stage.at_head (h : p.Stage rest) (hplace : p.place = .head) :
    rest = [] ∧ p.copy.loop = .head ∧ p.reader.queue = [] := by
  cases h with
  | head _ hloop hqueue => exact ⟨rfl, hloop, hqueue⟩
  | filling hplace' | putting hplace' | reading hplace' | working hplace' | sending hplace'
  | done hplace' => cases hplace.symm.trans hplace'

theorem Stage.acquire (h : p.Stage rest) {r : Reader} (hplace : p.place = .head)
    (hr : p.reader.Moves .acquire r) :
    ({ p with reader := r, place := .acquiring } : Poll).Stage rest := by
  obtain ⟨rfl, hloop, hqueue⟩ := h.at_head hplace
  cases hr with
  | acquire hidle =>
      by_cases hpos : 0 < p.reader.size
      · exact .filling rfl hloop hqueue (if_pos hpos) List.take_zero hpos
      · change Stage _ (Reader.filled p.reader.idx []).content
        refine .putting rfl hloop hqueue (if_neg hpos) ⟨List.take_zero, rfl, Nat.zero_le _, ?_⟩
        intro hlt
        exact absurd hlt hpos

/-- The block goes into the queue; without a byte in it the loop is left. -/
theorem Stage.put (h : p.Stage rest) {r : Reader} (hplace : p.place = .acquiring)
    (hr : p.reader.Moves .put r) : ({ p with
        reader := r
        place := if r.producer = .done then .done else .reading } : Poll).Stage rest := by
  cases hr with
  | put block hputting hroom =>
      cases h with
      | @putting block' _ hloop hqueue hproducer hfilled =>
          obtain rfl := Reader.Producer.putting.inj (hputting.symm.trans hproducer)
          by_cases hempty : block.bytes = 0
          · have hnil : block.content = [] := List.length_eq_zero_iff.1 (hfilled.bytes_eq ▸ hempty)
            rw [hnil]
            apply Stage.done
            simp [hempty]
          · refine .reading ?_ hloop ?_ (hfilled.congr rfl rfl rfl) ?_
            · simp [hempty]
            · simp [hqueue]
            · intro hnil
              exact hempty (by rw [hfilled.bytes_eq, hnil, List.length_nil])
      | filling _ _ _ hfilling => cases hputting.symm.trans hfilling
      | head hplace' | reading hplace' | working hplace' | sending hplace' | done hplace' =>
          cases hplace.symm.trans hplace'

theorem Stage.get (h : p.Stage rest) {r : Reader} (hplace : p.place = .reading)
    (hr : p.reader.Moves .get r) :
    ({ p with reader := r, place := .working } : Poll).Stage rest := by
  cases hr with
  | get block queue hwaiting hqueue =>
      cases h with
      | reading _ hloop hqueue' hfilled hne =>
          obtain ⟨rfl, rfl⟩ := List.cons.inj (hqueue.symm.trans hqueue')
          exact .working rfl (.inl hloop) rfl rfl (hfilled.congr rfl rfl rfl) hne
      | head hplace' | filling hplace' | putting hplace' | working hplace' | sending hplace'
      | done hplace' => cases hplace.symm.trans hplace'

theorem Stage.other {copy : AudioCopy} (h : p.Stage rest) (hcopy : copy.loop = p.copy.loop) :
    ({ p with copy := copy } : Poll).Stage rest := by
  cases h with
  | head hplace hloop hqueue => exact .head hplace (hcopy.trans hloop) hqueue
  | filling hplace hloop hqueue hproducer hintact hlt =>
      exact .filling hplace (hcopy.trans hloop) hqueue hproducer hintact hlt
  | putting hplace hloop hqueue hproducer hfilled =>
      exact .putting hplace (hcopy.trans hloop) hqueue hproducer (hfilled.congr rfl rfl rfl)
  | reading hplace hloop hqueue hfilled hne =>
      exact .reading hplace (hcopy.trans hloop) hqueue (hfilled.congr rfl rfl rfl) hne
  | working hplace hloop hqueue hconsumer hfilled hne =>
      rw [← hcopy] at hloop
      exact .working hplace hloop hqueue hconsumer (hfilled.congr rfl rfl rfl) hne
  | sending hplace hloop hqueue => exact .sending hplace (hcopy.trans hloop) hqueue
  | done hplace => exact .done hplace

theorem Cut.congr (h : p.Cut size whole rest) (hsize : p'.reader.size = p.reader.size)
    (hdata : p'.reader.data = p.reader.data) (hstream : p'.stream = p.stream)
    (hinputs : p'.inputs = p.inputs) (hstage : p'.Stage rest) : p'.Cut size whole rest := by
  refine ⟨hsize.trans h.size_eq, ?_, hstream.trans h.stream_eq, h.dvd, hinputs.trans h.inputs_eq,
    hstage⟩
  rw [hdata]
  exact h.length_data

theorem Cut.step (h : p.Cut size whole rest) (hserved : p.Served a) (hmoves : p.Moves a p') :
    p'.InPieces size := by
  cases hmoves with
  | halt hplace =>
      obtain ⟨rfl, -, -⟩ := h.stage.at_head hplace
      exact .inl ⟨whole, [], h.congr rfl rfl rfl rfl (.done rfl)⟩
  | acquire hplace r hr =>
      refine .inl ⟨whole, rest, h.congr ?_ ?_ rfl rfl (h.stage.acquire hplace hr)⟩
      all_goals cases hr; rfl
  | read bytes hplace hended r hr => exact .inl ⟨whole, rest ++ bytes, h.read hplace hr⟩
  | put hplace r hr =>
      refine .inl ⟨whole, rest, h.congr ?_ ?_ rfl rfl (h.stage.put hplace hr)⟩
      all_goals cases hr; rfl
  | get hplace r hr =>
      refine .inl ⟨whole, rest, h.congr ?_ ?_ rfl rfl (h.stage.get hplace hr)⟩
      all_goals cases hr; rfl
  | work hplace copy hworks => exact h.work rfl hworks hplace hserved
  | other copy hloop => exact .inl ⟨whole, rest, h.congr rfl rfl rfl rfl (h.stage.other hloop)⟩

theorem InPieces.step (h : p.InPieces size) (hserved : p.Served a) (hstep : Step p a p') :
    p'.InPieces size := by
  obtain ⟨whole, rest, hcut⟩ | hover := h
  · exact hcut.step hserved (moves_of_step hstep)
  · exact .inr (hover.step (moves_of_step hstep))

/-- At the head of the loop, and when it is left, no block is at hand. -/
theorem Stage.at_rest (h : p.Stage rest) (hplace : p.place = .head ∨ p.place = .done) :
    rest = [] := by
  cases h with
  | head | done | sending => rfl
  | filling hplace' | putting hplace' | reading hplace' | working hplace' =>
      rw [hplace'] at hplace
      obtain hplace | hplace := hplace <;> cases hplace

theorem InPieces.inputs_iff (h : p.InPieces size) (hplace : p.place = .head ∨ p.place = .done) :
    p.inputs = fullPieces size p.stream ↔ size ∣ p.stream.length := by
  obtain ⟨whole, rest, hcut⟩ | hover := h
  · obtain rfl := hcut.stage.at_rest hplace
    have hstream : p.stream = whole := by rw [hcut.stream_eq, List.append_nil]
    rw [hstream]
    exact iff_of_true hcut.inputs_eq hcut.dvd
  · refine iff_of_false ?_ hover.not_dvd
    intro hinputs
    have hlt := hover.lt_length
    rw [hinputs, length_fullPieces] at hlt
    exact absurd hlt (lt_irrefl _)

/-- A run with a client and a free block for all its samples encodes the stream, cut into pieces of
`rx_bytes()` with an incomplete last one dropped, if and only if the source does not end inside a
piece. -/
theorem encodes_pieces_iff (e : Engine) (maxRead : ℕ) {p₀ : Poll} (hsize : e.rxBytes = .ok size)
    {memory : ℕ → ℕ → UInt8} (hnew : new e maxRead memory = .ok p₀) {as : List Action}
    (hserved : Along Step Served p₀ as)
    (hrun : Run Step p₀ as p) (hplace : p.place = .head ∨ p.place = .done) :
    p.inputs = fullPieces size p.stream ↔ size ∣ p.stream.length := by
  have hsize₀ : p₀.reader.size = size := by
    obtain ⟨size', hsize', hp⟩ := bind_eq_ok.1 hnew
    obtain rfl := Except.ok.inj (hsize.symm.trans hsize')
    obtain rfl := Except.ok.inj hp
    rfl
  have hpieces₀ : p₀.InPieces size := .inl ⟨[], [], hsize₀ ▸ cut_new hnew⟩
  have hpieces : p.InPieces size :=
    hrun.invariant_along (I := fun p => p.InPieces size)
      (fun _ _ _ h hserved hstep => h.step hserved hstep) hserved hpieces₀
  exact hpieces.inputs_iff hplace

/-- The step as a function. -/
def next (p : Poll) (a : Action) : Option Poll := (p.exec a).bind Except.toOption

theorem step_eq_next : Step = fun p a p' => p.next a = some p' := by
  funext p a p'
  rw [Step, next, eq_iff_iff]
  cases p.exec a with
  | none => simp
  | some r => cases r <;> simp [Except.toOption]

def served (p : Poll) : Action → Bool
  | .copy .samples => p.copy.engine.hasClients && p.copy.engine.getFree.1.isSome
  | _ => true

theorem served_sound (h : p.served a = true) : p.Served a := by
  rintro rfl
  obtain ⟨hclients, hfree⟩ := Bool.and_eq_true_iff.1 h
  exact ⟨hclients, Option.isSome_iff_ne_none.1 hfree⟩

/-- A PCM engine with a client that plays. -/
def pcmEngine : Engine :=
  ((Engine.new (AudioCodec.createPcm ⟨16, 2, 48000⟩) 6000 6001 4).newClient ⟨none, 5000, true, []⟩).2.play
    (some 0)

/-- The source ends after one sample, which is encoded with 1438 bytes of the buffer behind it. -/
theorem incomplete_piece_is_encoded : ∃ as p₀ p, pcmEngine.rxBytes = .ok 1440 ∧
    new pcmEngine 512 (fun _ _ => 0) = .ok p₀ ∧ Along Step Served p₀ as ∧ Run Step p₀ as p ∧ p.place = .done ∧
    p.stream = [1, 2] ∧ p.inputs ≠ fullPieces 1440 p.stream := by
  let as : List Action := [.acquire, .read [1, 2], .read [], .put, .get, .copy .samples,
    .copy (.encode 0 []), .copy (.send fun _ => 4), .acquire, .read [], .put]
  rw [step_eq_next]
  refine ⟨as, _, _, rfl, rfl, along_of_allAlong (fun _ _ => served_sound) ?_, run_of_execAll rfl, rfl,
    rfl, ?_⟩
  · rfl
  · apply ne_of_apply_ne List.length
    decide

/-- An engine whose packets take two samples. -/
def shortEngine : Engine :=
  ((Engine.new (.codec2 ⟨0, 8000, 2, 4, []⟩) 6000 6001 4).newClient ⟨none, 5000, true, []⟩).2.play (some 0)

/-- Two pieces, the first one assembled from two reads. -/
theorem encodes_pieces_two : ∃ as p₀ p, Run Step p₀ as p ∧ p.place = .head ∧
    p.stream = [1, 2, 3, 4, 5, 6, 7, 8] ∧ p.inputs = fullPieces 4 p.stream := by
  let as : List Action := [.acquire, .read [1, 2, 3], .read [4], .put, .get, .copy .samples,
    .copy (.encode 0 []), .copy (.send fun _ => 4), .acquire, .read [5, 6, 7, 8], .put, .get,
    .copy .samples, .copy (.encode 0 []), .copy (.send fun _ => 4)]
  obtain ⟨p₀, hnew⟩ : ∃ p₀, new shortEngine 512 (fun _ _ => 0) = .ok p₀ := ⟨_, rfl⟩
  have hserved : Along Step Served p₀ as := by
    obtain rfl := Except.ok.inj hnew
    rw [step_eq_next]
    exact along_of_allAlong (fun _ _ => served_sound) rfl
  obtain ⟨p, hrun, hplace, hstream⟩ : ∃ p, Run Step p₀ as p ∧ p.place = .head ∧
      p.stream = [1, 2, 3, 4, 5, 6, 7, 8] := by
    obtain rfl := Except.ok.inj hnew
    rw [step_eq_next]
    exact ⟨_, run_of_execAll rfl, rfl, rfl⟩
  refine ⟨as, p₀, p, hrun, hplace, hstream, ?_⟩
  exact (encodes_pieces_iff shortEngine 512 rfl hnew hserved hrun (.inl hplace)).2 (by
    rw [hstream]; decide)

end Poll

end WifiAudio
