import WifiAudio.Lib.Termination
import WifiAudio.Proof.Audio.Pool
import WifiAudio.Proof.Audio.Reader
import WifiAudio.Server.Threads

/-!
# The end of the server

When `dead` is set the encoder thread may be waiting for a block and the reader thread for room in the
queue. Each of them is released only by the other, which may have seen `dead` first. Otherwise the
server ends in every schedule, after a bounded number of steps.
-/

namespace WifiAudio

open Except Transition

namespace ServerThreads

/-- None of the three threads can go on. -/
def Halted (t : ServerThreads) : Prop := ∀ a : Action, a.own = true → t.exec a = none

/-- The reader thread is inside `acquire`. -/
def Acquiring (t : ServerThreads) : Prop := t.reader.current.isSome

/-- The encoder thread waits for a block nobody will put, or the reader thread for room nobody will
make. -/
def Hangs (t : ServerThreads) : Prop :=
  (t.encoder = .reading ∧ t.reader.queue = [] ∧ ¬t.Acquiring) ∨
    (t.encoder ≠ .reading ∧ t.reader.queue.length = t.reader.numBlocks ∧ t.Acquiring)

/-- A step of the second half of the encoder thread's loop, on the block it has. -/
inductive Works (t : ServerThreads) : AudioCopy.Action → AudioCopy → Prop
  | samples (hloop : t.copy.loop = .head) : Works t .samples t.copy.takeBlock
  | encode {b bytes : ℕ} {result : ℤ} {out : Bytes} {block : Reader.Block} {e : Engine}
      (hloop : t.copy.loop = .encoding b) (hholding : t.reader.consumer = .holding block)
      (hencode : AudioCopy.encode t.copy.engine b result
        (t.copy.engine.codec.encoded (t.reader.data block.data) out) = .ok (bytes, e)) :
      Works t (.encode result out) ⟨e, .sending b bytes⟩
  | send {b bytes samples : ℕ} {results : ℕ → ℤ} {e : Engine} (hloop : t.copy.loop = .sending b bytes)
      (hsamples : t.copy.engine.codec.samplesPerPacket = .ok samples)
      (hsend : t.copy.engine.send b bytes samples results = .ok e) : Works t (.send results) ⟨e, .head⟩

/-- What a step finds and what it does. -/
inductive Moves (t : ServerThreads) : Action → ServerThreads → Prop
  | acquire (hdead : t.dead = false) (r : Reader) (hr : t.reader.Moves .acquire r) :
      Moves t .acquire { t with reader := r }
  | read (bytes : Bytes) (r : Reader) (hr : t.reader.Moves (.read bytes) r) :
      Moves t (.read bytes) { t with reader := r }
  | put (r : Reader) (hr : t.reader.Moves .put r) : Moves t .put { t with reader := r }
  | halt (hdead : t.dead = true) (r : Reader) (hr : t.reader.Moves .halt r) :
      Moves t .halt { t with reader := r }
  | loop (hhead : t.encoder = .head) :
      Moves t .loop { t with encoder := if t.dead then .done else .reading }
  | get (hreading : t.encoder = .reading) (r : Reader) (hr : t.reader.Moves .get r) :
      Moves t .get { t with reader := r, encoder := .working }
  | work {act : AudioCopy.Action} (hworking : t.encoder = .working) (copy : AudioCopy)
      (hworks : t.Works act copy) : Moves t (.copy act) (t.worked copy)
  | client {act : AudioCopy.Action} (hown : (Action.copy act).own = false) (copy : AudioCopy)
      (hengine : t.hasEngine = true) (hcopy : AudioCopy.Step t.copy act copy)
      (hloop : copy.loop = t.copy.loop) : Moves t (.copy act) { t with copy := copy }
  | kill (hmain : t.main = .serve) : Moves t .main { t with main := .joinEncoder, dead := true }
  | joinEncoder (hmain : t.main = .joinEncoder) (hdone : t.encoder = .done) :
      Moves t .main { t with main := .joinReader }
  | joinReader (hmain : t.main = .joinReader) (hdone : t.reader.producer = .done) :
      Moves t .main { t with main := .deleteReader }
  | deleteReader (hmain : t.main = .deleteReader) : Moves t .main { t with main := .deleteEngine }
  | deleteEngine (hmain : t.main = .deleteEngine) (deleted : List ℕ) (engine : Engine)
      (hdelete : t.copy.engine.deleteBlocks t.copy.engine.pool.length = .ok (deleted, engine)) :
      Moves t .main { t with
        main := .deleteCodec
        copy := { t.copy with engine := engine }
        deleted := deleted }
  | deleteCodec (hmain : t.main = .deleteCodec) : Moves t .main { t with main := .done }

variable {t t' : ServerThreads} {a : Action}

theorem reader_eq_some {act : Reader.Action} {f : Reader → ServerThreads}
    (h : ((t.reader.exec act).map fun r => (Except.ok (f r) : Except Fault ServerThreads)) =
      some (.ok t')) : ∃ r, t.reader.Moves act r ∧ t' = f r := by
  obtain ⟨r, hr, hresult⟩ := Option.map_eq_some_iff.1 h
  exact ⟨r, Reader.moves_of_step hr, (Except.ok.inj hresult).symm⟩

theorem work_eq_some {act : AudioCopy.Action} (h : t.work act = some (.ok t')) :
    t.encoder = .working ∧ ∃ copy, AudioCopy.Step t.copy act copy ∧ t' = t.worked copy := by
  unfold work at h
  split at h
  case isTrue hworking =>
    obtain ⟨r, hr, hresult⟩ := Option.map_eq_some_iff.1 h
    obtain ⟨copy, rfl, hcopy⟩ := bind_eq_ok.1 hresult
    exact ⟨hworking, copy, hr, (Except.ok.inj hcopy).symm⟩
  case isFalse => cases h

theorem client_eq_some {act : AudioCopy.Action}
    (h : (if t.hasEngine then (t.copy.exec act).map fun r =>
      (do return { t with copy := ← r } : Except Fault ServerThreads)
      else some (.error .outOfBounds)) = some (.ok t')) :
    t.hasEngine = true ∧ ∃ copy, AudioCopy.Step t.copy act copy ∧ t' = { t with copy := copy } := by
  split at h
  case isTrue hengine =>
    obtain ⟨r, hr, hresult⟩ := Option.map_eq_some_iff.1 h
    obtain ⟨copy, rfl, hcopy⟩ := bind_eq_ok.1 hresult
    exact ⟨hengine, copy, hr, (Except.ok.inj hcopy).symm⟩
  case isFalse => cases h

theorem loop_of_client {act : AudioCopy.Action} {copy : AudioCopy}
    (hown : (Action.copy act).own = false) (hcopy : AudioCopy.Step t.copy act copy) :
    copy.loop = t.copy.loop := by
  cases act with
  | samples => cases hown
  | encode result written => cases hown
  | send results => cases hown
  | newClient socket =>
      obtain rfl := Except.ok.inj (Option.some.inj hcopy)
      rfl
  | play c =>
      obtain rfl := Except.ok.inj (Option.some.inj hcopy)
      rfl
  | remove c =>
      obtain ⟨e, -, hresult⟩ := bind_eq_ok.1 (Option.some.inj hcopy)
      obtain rfl := Except.ok.inj hresult
      rfl

theorem exit_moves (hstep : t.exit = some (.ok t')) : t.Moves .main t' := by
  unfold exit at hstep
  split at hstep
  case h_1 hmain =>
    obtain rfl := Except.ok.inj (Option.some.inj hstep)
    exact .kill hmain
  case h_2 hmain =>
    split at hstep
    · obtain rfl := Except.ok.inj (Option.some.inj hstep)
      exact .joinEncoder hmain ‹_›
    · cases hstep
  case h_3 hmain =>
    split at hstep
    · obtain rfl := Except.ok.inj (Option.some.inj hstep)
      exact .joinReader hmain ‹_›
    · cases hstep
  case h_4 hmain =>
    obtain rfl := Except.ok.inj (Option.some.inj hstep)
    exact .deleteReader hmain
  case h_5 hmain =>
    obtain ⟨⟨deleted, engine⟩, hdelete, hresult⟩ := bind_eq_ok.1 (Option.some.inj hstep)
    obtain rfl := Except.ok.inj hresult
    exact .deleteEngine hmain deleted engine hdelete
  case h_6 hmain =>
    obtain rfl := Except.ok.inj (Option.some.inj hstep)
    exact .deleteCodec hmain
  case h_7 => cases hstep

theorem copy_moves {act : AudioCopy.Action} (hstep : Step t (.copy act) t') : t.Moves (.copy act) t' := by
  cases act with
  | samples =>
      obtain ⟨hworking, copy, hcopy, rfl⟩ := work_eq_some hstep
      obtain ⟨hloop, rfl⟩ := AudioCopy.samples_eq_some hcopy
      exact .work hworking _ (.samples hloop)
  | encode result out =>
      simp only [Step, exec] at hstep
      split at hstep
      case h_1 block hholding =>
        obtain ⟨hworking, copy, hcopy, rfl⟩ := work_eq_some hstep
        obtain ⟨b, bytes, e, hloop, hencode, rfl⟩ := AudioCopy.encode_eq_some hcopy
        exact .work hworking _ (.encode hloop hholding hencode)
      case h_2 => cases hstep
  | send results =>
      obtain ⟨hworking, copy, hcopy, rfl⟩ := work_eq_some hstep
      obtain ⟨b, bytes, samples, e, hloop, hsamples, hsend, rfl⟩ := AudioCopy.send_eq_some hcopy
      exact .work hworking _ (.send hloop hsamples hsend)
  | newClient socket | play c | remove c =>
      obtain ⟨hengine, copy, hcopy, rfl⟩ := client_eq_some hstep
      exact .client rfl copy hengine hcopy (loop_of_client rfl hcopy)

theorem moves_of_step (hstep : Step t a t') : t.Moves a t' := by
  cases a with
  | acquire =>
      simp only [Step, exec] at hstep
      split at hstep
      · cases hstep
      · obtain ⟨r, hr, rfl⟩ := reader_eq_some hstep
        exact .acquire (Bool.eq_false_iff.2 ‹_›) r hr
  | read bytes =>
      obtain ⟨r, hr, rfl⟩ := reader_eq_some hstep
      exact .read bytes r hr
  | put =>
      obtain ⟨r, hr, rfl⟩ := reader_eq_some hstep
      exact .put r hr
  | halt =>
      simp only [Step, exec] at hstep
      split at hstep
      · obtain ⟨r, hr, rfl⟩ := reader_eq_some hstep
        exact .halt ‹_› r hr
      · cases hstep
  | loop =>
      simp only [Step, exec] at hstep
      split at hstep
      · obtain rfl := Except.ok.inj (Option.some.inj hstep)
        exact .loop ‹_›
      · cases hstep
  | get =>
      simp only [Step, exec] at hstep
      split at hstep
      · obtain ⟨r, hr, rfl⟩ := reader_eq_some hstep
        exact .get ‹_› r hr
      · cases hstep
  | copy act => exact copy_moves hstep
  | main => exact exit_moves hstep

/-! ### Where the threads are -/

/-- The queue has room for as many blocks as it is made for, and the encoder thread works on a block
exactly while it has one. -/
structure Placed (t : ServerThreads) : Prop where
  numBlocks_pos : 0 < t.reader.numBlocks
  queue_le : t.reader.queue.length ≤ t.reader.numBlocks
  filling : ∀ buff content, t.reader.producer = .filling buff content → content.length < t.reader.size
  working : t.encoder = .working ↔ t.reader.consumer ≠ .waiting
  loop : t.encoder ≠ .working → t.copy.loop = .head

theorem worked_of_head {copy : AudioCopy} (hloop : copy.loop = .head) : t.worked copy =
    { t with reader := { t.reader with consumer := .waiting }, encoder := .head, copy := copy } :=
  if_pos hloop

theorem worked_of_ne {copy : AudioCopy} (hloop : copy.loop ≠ .head) :
    t.worked copy = { t with copy := copy } := if_neg hloop

theorem Placed.worked {copy : AudioCopy} (h : t.Placed) (hworking : t.encoder = .working) :
    (t.worked copy).Placed := by
  by_cases hloop : copy.loop = .head
  · rw [worked_of_head hloop]
    exact ⟨h.numBlocks_pos, h.queue_le, h.filling, by simp, fun _ => hloop⟩
  · rw [worked_of_ne hloop]
    exact ⟨h.numBlocks_pos, h.queue_le, h.filling, h.working, fun hne => absurd hworking hne⟩

theorem filling_startFill {r : Reader} {buff buff' : ℕ} {content : Bytes}
    (h : r.startFill buff = .filling buff' content) : content.length < r.size := by
  unfold Reader.startFill at h
  split at h
  · obtain ⟨-, rfl⟩ := Reader.Producer.filling.inj h
    exact ‹0 < r.size›
  · cases h

theorem filling_continueFill {r : Reader} {buff buff' : ℕ} {content content' bytes : Bytes}
    (h : r.continueFill buff content bytes = .filling buff' content') :
    bytes ≠ [] ∧ content' = content ++ bytes ∧ content'.length < r.size := by
  unfold Reader.continueFill at h
  split at h
  case isTrue hmore =>
    obtain ⟨-, rfl⟩ := Reader.Producer.filling.inj h
    exact ⟨hmore.1, rfl, hmore.2⟩
  case isFalse => cases h

theorem Placed.step (h : t.Placed) (hstep : Step t a t') : t'.Placed := by
  cases moves_of_step hstep with
  | acquire hdead r hr =>
      cases hr with
      | acquire hidle =>
          exact ⟨h.numBlocks_pos, h.queue_le, fun _ _ => filling_startFill, h.working, h.loop⟩
  | read bytes r hr =>
      cases hr with
      | read buff content _ hfilling hle =>
          exact ⟨h.numBlocks_pos, h.queue_le, fun _ _ hmore => (filling_continueFill hmore).2.2,
            h.working, h.loop⟩
  | put r hr =>
      cases hr with
      | put block hputting hroom =>
          refine ⟨h.numBlocks_pos, ?_, ?_, h.working, h.loop⟩
          · rw [List.length_append]
            exact hroom
          · intro buff content hfilling
            split at hfilling <;> cases hfilling
  | halt hdead r hr =>
      cases hr with
      | halt hidle => exact ⟨h.numBlocks_pos, h.queue_le, nofun, h.working, h.loop⟩
  | loop hhead =>
      have hloop : t.copy.loop = .head := h.loop (by simp [hhead])
      have hwaiting : t.reader.consumer = .waiting := by
        by_contra hne
        cases hhead.symm.trans (h.working.2 hne)
      refine ⟨h.numBlocks_pos, h.queue_le, h.filling, ?_, fun _ => hloop⟩
      rw [hwaiting]
      cases t.dead <;> simp
  | get hreading r hr =>
      cases hr with
      | get block rest hwaiting hqueue =>
          refine ⟨h.numBlocks_pos, ?_, h.filling, by simp, by simp⟩
          have hle := h.queue_le
          rw [hqueue, List.length_cons] at hle
          exact Nat.le_of_succ_le hle
  | work hworking copy hworks => exact h.worked hworking
  | client hown copy hengine hcopy hloop =>
      exact ⟨h.numBlocks_pos, h.queue_le, h.filling, h.working, fun hne => hloop.trans (h.loop hne)⟩
  | kill hmain => exact ⟨h.numBlocks_pos, h.queue_le, h.filling, h.working, h.loop⟩
  | joinEncoder hmain hdone => exact ⟨h.numBlocks_pos, h.queue_le, h.filling, h.working, h.loop⟩
  | joinReader hmain hdone => exact ⟨h.numBlocks_pos, h.queue_le, h.filling, h.working, h.loop⟩
  | deleteReader hmain => exact ⟨h.numBlocks_pos, h.queue_le, h.filling, h.working, h.loop⟩
  | deleteEngine hmain deleted engine hdelete =>
      exact ⟨h.numBlocks_pos, h.queue_le, h.filling, h.working, h.loop⟩
  | deleteCodec hmain => exact ⟨h.numBlocks_pos, h.queue_le, h.filling, h.working, h.loop⟩

/-- How many steps the thread of the server has left. -/
def Main.left : Main → ℕ
  | .serve => 6
  | .joinEncoder => 5
  | .joinReader => 4
  | .deleteReader => 3
  | .deleteEngine => 2
  | .deleteCodec => 1
  | .done => 0

/-- What the thread of the server has waited for. -/
structure Ordered (t : ServerThreads) : Prop where
  dead : t.dead = true ↔ t.main.left ≤ 5
  encoder : t.main.left ≤ 4 → t.encoder = .done
  reader : t.main.left ≤ 3 → t.reader.producer = .done

theorem Ordered.step (h : t.Ordered) (hstep : Step t a t') : t'.Ordered := by
  obtain ⟨hdead, hencoder, hreader⟩ := h
  cases moves_of_step hstep with
  | acquire halive r hr =>
      cases hr with
      | acquire hidle =>
          refine ⟨hdead, hencoder, fun hle => ?_⟩
          cases hidle.symm.trans (hreader hle)
  | read bytes r hr =>
      cases hr with
      | read buff content _ hfilling hle =>
          refine ⟨hdead, hencoder, fun hle => ?_⟩
          cases hfilling.symm.trans (hreader hle)
  | put r hr =>
      cases hr with
      | put block hputting hroom =>
          refine ⟨hdead, hencoder, fun hle => ?_⟩
          cases hputting.symm.trans (hreader hle)
  | halt _ r hr =>
      cases hr with
      | halt hidle => exact ⟨hdead, hencoder, fun _ => rfl⟩
  | loop hhead =>
      refine ⟨hdead, fun hle => ?_, hreader⟩
      cases hhead.symm.trans (hencoder hle)
  | get hreading r hr =>
      cases hr with
      | get block rest hwaiting hqueue =>
          refine ⟨hdead, fun hle => ?_, hreader⟩
          cases hreading.symm.trans (hencoder hle)
  | work hworking copy hworks =>
      unfold worked
      split
      · refine ⟨hdead, fun hle => ?_, hreader⟩
        cases hworking.symm.trans (hencoder hle)
      · exact ⟨hdead, hencoder, hreader⟩
  | client hown copy hengine hcopy hloop => exact ⟨hdead, hencoder, hreader⟩
  | kill hmain => exact ⟨by simp [Main.left], by simp [Main.left], by simp [Main.left]⟩
  | joinEncoder hmain hdone =>
      exact ⟨by simpa [Main.left, hmain] using hdead, fun _ => hdone, by simp [Main.left]⟩
  | joinReader hmain hdone =>
      rw [hmain] at hdead hencoder
      exact ⟨by simpa [Main.left] using hdead, fun _ => hencoder le_rfl, fun _ => hdone⟩
  | deleteReader hmain | deleteEngine hmain | deleteCodec hmain =>
      rw [hmain] at hdead hencoder hreader
      simp only [Main.left] at hdead hencoder hreader
      exact ⟨by simpa [Main.left] using hdead, fun _ => hencoder (by omega), fun _ => hreader (by omega)⟩

/-! ### After the server is over -/

/-- The threads once `dead` is set. -/
structure Ending (t : ServerThreads) : Prop extends Placed t, Ordered t where
  isDead : t.dead = true

theorem Ending.step (h : t.Ending) (hstep : Step t a t') : t'.Ending := by
  refine ⟨h.toPlaced.step hstep, h.toOrdered.step hstep, ?_⟩
  cases moves_of_step hstep with
  | work hworking copy hworks =>
      unfold worked
      split <;> exact h.isDead
  | kill hmain => rfl
  | _ => exact h.isDead

/-- How many steps the reader thread has left, at most. -/
def readerLeft (r : Reader) : ℕ :=
  match r.producer with
  | .idle => 1
  | .filling _ content => r.size - content.length + 2
  | .putting _ => 2
  | .done => 0

/-- How many steps the encoder thread has left, at most. -/
def encoderLeft (t : ServerThreads) : ℕ :=
  match t.encoder, t.copy.loop with
  | .head, _ => 1
  | .reading, _ => 6
  | .working, .head => 5
  | .working, .encoding _ => 4
  | .working, .sending _ _ => 3
  | .done, _ => 0

def left (t : ServerThreads) : ℕ := readerLeft t.reader + t.encoderLeft + t.main.left

theorem readerLeft_read {r : Reader} {buff : ℕ} {content : Bytes} (bytes : Bytes) (data : ℕ → Bytes)
    (hfilling : r.producer = .filling buff content) (hlt : content.length < r.size) :
    readerLeft { r with producer := r.continueFill buff content bytes, data := data } < readerLeft r := by
  have hbefore : readerLeft r = r.size - content.length + 2 := by simp [readerLeft, hfilling]
  rw [hbefore]
  unfold Reader.continueFill
  split
  case isTrue hmore =>
    have hpos := List.length_pos_iff.2 hmore.1
    simp only [readerLeft, List.length_append]
    omega
  case isFalse =>
    simp only [readerLeft]
    omega

theorem readerLeft_put {r : Reader} {block : Reader.Block} {queue : List Reader.Block}
    (hputting : r.producer = .putting block) :
    readerLeft { r with producer := if block.bytes = 0 then .done else .idle, queue := queue } <
      readerLeft r := by
  by_cases hzero : block.bytes = 0 <;> simp [readerLeft, hputting, hzero]

theorem encoderLeft_worked {act : AudioCopy.Action} {copy : AudioCopy} (hworking : t.encoder = .working)
    (hworks : t.Works act copy) : (t.worked copy).encoderLeft < t.encoderLeft := by
  unfold worked
  cases hworks with
  | samples hloop =>
      split
      · simp [encoderLeft, hworking, hloop]
      · rename_i htaken
        cases hafter : t.copy.takeBlock.loop <;> simp_all [encoderLeft]
  | encode hloop hholding hencode => simp [encoderLeft, hworking, hloop]
  | send hloop hsamples hsend => simp [encoderLeft, hworking, hloop]

/-- Each step of the three threads brings the end nearer, and no client's step moves it away. -/
theorem ending_usesUp : UsesUp Step Action.own Ending left where
  keeps _ _ _ h hstep := h.step hstep
  lowers t a t' h hstep hown := by
    cases moves_of_step hstep with
    | acquire halive r hr => cases halive.symm.trans h.isDead
    | read bytes r hr =>
        cases hr with
        | read buff content _ hfilling hle =>
            have hlt := readerLeft_read bytes
              (Function.update t.reader.data buff
                (Reader.overwrite (t.reader.data buff) content.length bytes))
              hfilling (h.filling buff content hfilling)
            exact Nat.add_lt_add_right (Nat.add_lt_add_right hlt _) _
    | put r hr =>
        cases hr with
        | put block hputting hroom =>
            exact Nat.add_lt_add_right (Nat.add_lt_add_right (readerLeft_put hputting) _) _
    | halt hdead r hr =>
        cases hr with
        | halt hidle =>
            have hlt : readerLeft { t.reader with producer := .done } < readerLeft t.reader := by
              simp [readerLeft, hidle]
            exact Nat.add_lt_add_right (Nat.add_lt_add_right hlt _) _
    | loop hhead =>
        have hlt : ({ t with encoder := if t.dead then .done else .reading } : ServerThreads).encoderLeft <
            t.encoderLeft := by simp [encoderLeft, h.isDead, hhead]
        exact Nat.add_lt_add_right (Nat.add_lt_add_left hlt _) _
    | get hreading r hr =>
        cases hr with
        | get block rest hwaiting hqueue =>
            have hloop : t.copy.loop = .head := h.loop (by simp [hreading])
            have hlt : ({ t with encoder := .working } : ServerThreads).encoderLeft < t.encoderLeft := by
              simp [encoderLeft, hreading, hloop]
            exact Nat.add_lt_add_right (Nat.add_lt_add_left hlt _) _
    | work hworking copy hworks =>
        have hlt := encoderLeft_worked hworking hworks
        have hreader : readerLeft (t.worked copy).reader = readerLeft t.reader := by
          unfold worked
          split <;> rfl
        have hmain : (t.worked copy).main = t.main := by
          unfold worked
          split <;> rfl
        rw [left, left, hreader, hmain]
        omega
    | client hclient copy hengine hcopy hloop => cases hown.symm.trans hclient
    | kill hmain | joinEncoder hmain | joinReader hmain | deleteReader hmain | deleteCodec hmain =>
        refine Nat.add_lt_add_left ?_ _
        simp [Main.left, hmain]
    | deleteEngine hmain deleted engine hdelete =>
        refine Nat.add_lt_add_left ?_ _
        simp [Main.left, hmain]
  le t a t' h hstep hown := by
    cases moves_of_step hstep with
    | work hworking copy hworks => cases hworks <;> cases hown
    | client hclient copy hengine hcopy hloop =>
        have hsame : ({ t with copy := copy } : ServerThreads).encoderLeft = t.encoderLeft := by
          simp [encoderLeft, hloop]
        rw [left, hsame]
        exact le_rfl
    | _ => cases hown

theorem Ending.hangs_step (h : t.Ending) (hstep : Step t a t') : t.Hangs ↔ t'.Hangs := by
  cases moves_of_step hstep with
  | acquire halive r hr => cases halive.symm.trans h.isDead
  | read bytes r hr =>
      cases hr with
      | read buff content _ hfilling hle =>
          have hbefore : t.Acquiring := by simp [Acquiring, Reader.current, hfilling]
          have hafter : ∀ data : ℕ → Bytes, ({ t with reader := { t.reader with
              producer := t.reader.continueFill buff content bytes
              data := data } } : ServerThreads).Acquiring := by
            intro data
            rw [Acquiring, Reader.current_continueFill, Option.isSome_some]
          simp only [Hangs, hbefore, hafter, not_true, and_false, and_true]
  | put r hr =>
      cases hr with
      | put block hputting hroom =>
          have hbefore : t.Acquiring := by simp [Acquiring, Reader.current, hputting]
          have hafter : ¬({ t with reader := { t.reader with
              producer := if block.bytes = 0 then .done else .idle
              queue := t.reader.queue ++ [block] } } : ServerThreads).Acquiring := by
            rw [Acquiring, Reader.current_put]
            exact Bool.false_ne_true
          have hne := hroom.ne
          simp [Hangs, hbefore, hafter, hne]
  | halt hdead r hr =>
      cases hr with
      | halt hidle =>
          have hbefore : ¬t.Acquiring := by simp [Acquiring, Reader.current, hidle]
          have hafter : ¬({ t with reader := { t.reader with producer := .done } } : ServerThreads).Acquiring :=
            Bool.false_ne_true
          simp only [Hangs, hbefore, hafter]
  | loop hhead => simp [Hangs, hhead, h.isDead, Acquiring]
  | get hreading r hr =>
      cases hr with
      | get block rest hwaiting hqueue =>
          have hle := h.queue_le
          rw [hqueue, List.length_cons] at hle
          have hne : rest.length ≠ t.reader.numBlocks := by omega
          simp [Hangs, hreading, hqueue, hne]
  | work hworking copy hworks =>
      unfold worked
      split
      · simp [Hangs, hworking, Acquiring, Reader.current]
      · simp [Hangs, hworking, Acquiring]
  | client hown copy hengine hcopy hloop => rfl
  | kill hmain | joinEncoder hmain | joinReader hmain | deleteReader hmain | deleteCodec hmain => rfl
  | deleteEngine hmain deleted engine hdelete => rfl

theorem Halted.reader (hhalted : t.Halted) (hdead : t.dead = true) : t.reader.producer = .done ∨
    (t.Acquiring ∧ t.reader.numBlocks ≤ t.reader.queue.length) := by
  cases hproducer : t.reader.producer with
  | idle =>
      have hnone := hhalted .halt rfl
      simp [exec, hdead, Reader.exec, hproducer] at hnone
  | filling buff content =>
      have hnone := hhalted (.read []) rfl
      simp [exec, Reader.exec, hproducer] at hnone
  | putting block =>
      refine .inr ⟨by simp [Acquiring, Reader.current, hproducer], ?_⟩
      by_contra hroom
      have hnone := hhalted .put rfl
      simp [exec, Reader.exec, hproducer, not_le.1 hroom] at hnone
  | done => exact .inl rfl

theorem Halted.encoder (hhalted : t.Halted) (h : t.Placed) :
    t.encoder = .done ∨ (t.encoder = .reading ∧ t.reader.queue = []) := by
  cases hencoder : t.encoder with
  | head =>
      have hnone := hhalted .loop rfl
      simp [exec, hencoder] at hnone
  | reading =>
      refine .inr ⟨rfl, ?_⟩
      have hwaiting : t.reader.consumer = .waiting := by
        by_contra hne
        cases hencoder.symm.trans (h.working.2 hne)
      cases hqueue : t.reader.queue with
      | nil => rfl
      | cons block rest =>
          have hnone := hhalted .get rfl
          simp [exec, hencoder, Reader.exec, hwaiting, hqueue] at hnone
  | working =>
      have hholding := h.working.1 hencoder
      cases hconsumer : t.reader.consumer with
      | waiting => exact absurd hconsumer hholding
      | holding block =>
          cases hloop : t.copy.loop with
          | head =>
              have hnone := hhalted (.copy .samples) rfl
              simp [exec, work, hencoder, AudioCopy.exec, hloop] at hnone
          | encoding b =>
              have hnone := hhalted (.copy (.encode 0 [])) rfl
              simp [exec, hconsumer, work, hencoder, AudioCopy.exec, hloop] at hnone
          | sending b bytes =>
              have hnone := hhalted (.copy (.send fun _ => 0)) rfl
              simp [exec, work, hencoder, AudioCopy.exec, hloop] at hnone
  | done => exact .inl rfl

/-- When none of the threads can go on the server is over, or it hangs. -/
theorem Ending.halted (h : t.Ending) (hhalted : t.Halted) : t.main = .done ↔ ¬t.Hangs := by
  constructor
  · intro hmain hhangs
    have hencoder := h.encoder (by simp [hmain, Main.left])
    have hreader := h.reader (by simp [hmain, Main.left])
    rcases hhangs with ⟨hreading, -⟩ | ⟨-, -, hacquiring⟩
    · cases hencoder.symm.trans hreading
    · simp [Acquiring, Reader.current, hreader] at hacquiring
  · intro hhangs
    have hreader := hhalted.reader h.isDead
    rcases hhalted.encoder h.toPlaced with hencoder | ⟨hreading, hempty⟩
    · have hproducer : t.reader.producer = .done := by
        refine hreader.resolve_right ?_
        rintro ⟨hacquiring, hfull⟩
        exact hhangs (.inr ⟨by simp [hencoder], le_antisymm h.queue_le hfull, hacquiring⟩)
      have hnone := hhalted .main rfl
      cases hmain : t.main with
      | serve =>
          have hleft := h.dead.1 h.isDead
          simp [hmain, Main.left] at hleft
      | done => rfl
      | _ => simp [exec, exit, hmain, hencoder, hproducer] at hnone
    · refine absurd (.inl ⟨hreading, hempty, ?_⟩) hhangs
      rcases hreader with hproducer | ⟨-, hfull⟩
      · simp [Acquiring, Reader.current, hproducer]
      · have hpos := h.numBlocks_pos
        rw [hempty, List.length_nil] at hfull
        omega

/-! ### Whole runs -/

variable {codec : AudioCodec} {rtp rtcp : ℤ} {maxRead : ℕ} {t₀ : ServerThreads}

theorem new_eq_ok {memory : ℕ → ℕ → UInt8} (hnew : new codec rtp rtcp maxRead memory = .ok t₀) :
    ∃ size : ℕ, t₀ =
      ⟨.serve, false, .new size maxRead 2 memory, .head, .new (.new codec rtp rtcp numBuffers), []⟩ := by
  obtain ⟨size, -, hresult⟩ := bind_eq_ok.1 hnew
  exact ⟨size, (Except.ok.inj hresult).symm⟩

theorem placed_new {memory : ℕ → ℕ → UInt8} (hnew : new codec rtp rtcp maxRead memory = .ok t₀) :
    t₀.Placed := by
  obtain ⟨size, rfl⟩ := new_eq_ok hnew
  exact ⟨Nat.two_pos, Nat.zero_le _, nofun, by simp [Reader.new], fun _ => rfl⟩

theorem ordered_new {memory : ℕ → ℕ → UInt8} (hnew : new codec rtp rtcp maxRead memory = .ok t₀) :
    t₀.Ordered := by
  obtain ⟨size, rfl⟩ := new_eq_ok hnew
  exact ⟨by simp [Main.left], by simp [Main.left], by simp [Main.left]⟩

theorem left_kill (t : ServerThreads) : ({ t with main := .joinEncoder, dead := true } :
    ServerThreads).left ≤ t.reader.size + 13 := by
  have hreader : readerLeft t.reader ≤ t.reader.size + 2 := by
    unfold readerLeft
    split <;> omega
  have hencoder : t.encoderLeft ≤ 6 := by
    unfold encoderLeft
    split <;> omega
  change readerLeft t.reader + t.encoderLeft + 5 ≤ _
  omega

/-- From the moment the RTSP server is over the three threads take a bounded number of steps. When none
of them can go on, the server is over if and only if at that moment the encoder thread was not waiting
for a block that nobody was filling, nor the reader thread filling one that the queue has no room
for. -/
theorem shutdown_completes_iff (codec : AudioCodec) (rtp rtcp : ℤ) (maxRead : ℕ)
    (t₀ t t₁ t₂ : ServerThreads) (as bs : List Action) {memory : ℕ → ℕ → UInt8}
    (hnew : new codec rtp rtcp maxRead memory = .ok t₀)
    (hrun : Run Step t₀ as t) (hmain : t.main = .serve) (hkill : Step t .main t₁)
    (hrest : Run Step t₁ bs t₂) :
    bs.countP Action.own ≤ t.reader.size + 13 ∧ (t₂.Halted → (t₂.main = .done ↔ ¬t.Hangs)) := by
  have hplaced : t.Placed := hrun.invariant (fun _ _ _ h hstep => h.step hstep) (placed_new hnew)
  have hordered : t.Ordered := hrun.invariant (fun _ _ _ h hstep => h.step hstep) (ordered_new hnew)
  have hkilled : t₁ = { t with main := .joinEncoder, dead := true } := by
    simp only [Step, exec, exit, hmain] at hkill
    exact (Except.ok.inj (Option.some.inj hkill)).symm
  have hending : t₁.Ending :=
    ⟨hplaced.step hkill, hordered.step hkill, by rw [hkilled]⟩
  constructor
  · have hcount := ending_usesUp.count_le hrest hending
    have hbound := left_kill t
    rw [← hkilled] at hbound
    omega
  · intro hhalted
    have hend : t₂.Ending := hrest.invariant (fun _ _ _ h hstep => h.step hstep) hending
    have hsettled := hrest.settled (Q := Hangs) (fun _ _ _ h hstep => h.step hstep)
      (fun _ _ _ h hstep => h.hangs_step hstep) hending
    rw [hend.halted hhalted, ← hsettled, hkilled]
    rfl

theorem step_eq_next : Step = fun t a t' => t.next a = some t' := by
  funext t a t'
  rw [Step, next, eq_iff_iff]
  cases t.exec a with
  | none => simp
  | some r => cases r <;> simp [Except.toOption]

theorem Ordered.halted (h : t.Ordered) (hmain : t.main = .done) : t.Halted := by
  have hencoder := h.encoder (by simp [hmain, Main.left])
  have hreader := h.reader (by simp [hmain, Main.left])
  intro a hown
  cases a with
  | copy act =>
      cases act with
      | encode result out => cases hconsumer : t.reader.consumer <;> simp [exec, hconsumer, work, hencoder]
      | samples | send results => simp [exec, work, hencoder]
      | newClient socket | play c | remove c => cases hown
  | _ => simp [exec, exit, Reader.exec, hmain, hencoder, hreader]

/-- The server is over while a block is being filled for an encoder thread that waits for it. -/
theorem shutdown_while_filling : ∃ t₀ t t₁ t₂ : ServerThreads,
    new (AudioCodec.createPcm ⟨16, 2, 48000⟩) 6000 6001 512 (fun _ _ => 0) = .ok t₀ ∧
    Run Step t₀ [.acquire, .loop, .read [1, 2]] t ∧ Step t .main t₁ ∧
    Run Step t₁ [.read [], .put, .get, .halt, .copy .samples, .loop, .main, .main, .main, .main,
      .main] t₂ ∧ t.encoder = .reading ∧ t₂.main = .done ∧ ¬t.Hangs := by
  obtain ⟨t₀, hnew⟩ : ∃ t₀, new (AudioCodec.createPcm ⟨16, 2, 48000⟩) 6000 6001 512 (fun _ _ => 0) = .ok t₀ := ⟨_, rfl⟩
  have hruns : (execAll next t₀ [.acquire, .loop, .read [1, 2]]).any (fun t =>
      t.main = .serve ∧ t.encoder = .reading ∧ ((t.next .main).any fun t₁ =>
        (execAll next t₁ [.read [], .put, .get, .halt, .copy .samples, .loop, .main, .main, .main, .main,
          .main]).any fun t₂ => t₂.main = .done) = true) = true := by
    obtain rfl := Except.ok.inj hnew
    decide +kernel
  obtain ⟨t, hrun, hstate⟩ := run_of_any hruns
  obtain ⟨hmain, hreading, hkill⟩ := of_decide_eq_true hstate
  obtain ⟨t₁, hkill, hends⟩ := (Option.any_eq_true _ _).1 hkill
  obtain ⟨t₂, hrest, hdone⟩ := run_of_any hends
  have hdone := of_decide_eq_true hdone
  rw [← step_eq_next] at hrun hrest
  replace hkill : Step t .main t₁ := by rwa [step_eq_next]
  have hordered : t₂.Ordered :=
    ((hrun.append (.cons hkill hrest)).invariant (fun _ _ _ h hstep => h.step hstep) (ordered_new hnew))
  exact ⟨t₀, t, t₁, t₂, hnew, hrun, hkill, hrest, hreading, hdone,
    ((shutdown_completes_iff _ _ _ _ t₀ t t₁ t₂ _ _ hnew hrun hmain hkill hrest).2
      (hordered.halted hdone)).1 hdone⟩

end ServerThreads

end WifiAudio
