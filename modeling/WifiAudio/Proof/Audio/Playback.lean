import WifiAudio.Audio.Playback
import WifiAudio.Lib.Termination
import WifiAudio.Proof.Audio.Poll
import WifiAudio.Proof.Audio.Pool
import WifiAudio.Proof.Audio.WavSource

/-!
# A file that is played

The loop that polls a file fills a block and works on it before it fills the next one, so it waits for
nobody: its queue has room when it puts a block there and holds one when it takes it. It comes to the
end of the file and stops, and till then every block of the file was worked on. A block that the file
ends in has behind its bytes what was in its buffer before, and that is the block two before it.
-/

namespace WifiAudio

open Except Transition

namespace Playback

/-! ### Blocks -/

/-- The bytes of a file that lie in block `k`. -/
def piece (size : ℕ) (data : Bytes) (k : ℕ) : Bytes := (data.drop (k * size)).take size

/-- What is in the buffer of block `k` before the file is read into it. -/
def before (blank : ℕ → Bytes) (size : ℕ) (data : Bytes) (k : ℕ) : Bytes :=
  if k < 2 then blank k else piece size data (k - 2)

/-- Block `k` of a file, as it is encoded. -/
def block (blank : ℕ → Bytes) (size : ℕ) (data : Bytes) (k : ℕ) : Bytes :=
  piece size data k ++ (before blank size data k).drop (piece size data k).length

/-- The buffers after the first `k` blocks. -/
def buffers (blank : ℕ → Bytes) (size : ℕ) (data : Bytes) : ℕ → ℕ → Bytes
  | 0 => blank
  | k + 1 => Function.update (buffers blank size data k) (k % 2)
      (Reader.overwrite (buffers blank size data k (k % 2)) 0 (piece size data k))

/-- The blocks that were not dropped. -/
def chosen (blank : ℕ → Bytes) (size : ℕ) (data : Bytes) (taken : List Bool) : List Bytes :=
  (taken.zipIdx.filter Prod.fst).map fun flag => block blank size data flag.2

section

variable {blank : ℕ → Bytes} {size k : ℕ} {data content rest : Bytes}

theorem length_piece_le (size : ℕ) (data : Bytes) (k : ℕ) : (piece size data k).length ≤ size := by
  rw [piece, List.length_take]
  exact Nat.min_le_left _ _

theorem length_piece (h : (k + 1) * size ≤ data.length) : (piece size data k).length = size := by
  rw [piece, List.length_take, List.length_drop]
  rw [Nat.succ_mul] at h
  omega

theorem piece_ne_nil (hpos : 0 < size) (h : k * size < data.length) : piece size data k ≠ [] := by
  apply List.ne_nil_of_length_pos
  rw [piece, List.length_take, List.length_drop]
  omega

theorem piece_of_full (hrest : data.drop (k * size) = content ++ rest) (hfull : content.length = size) :
    piece size data k = content ∧ rest = data.drop ((k + 1) * size) := by
  constructor
  · rw [piece, hrest, ← hfull, List.take_left]
  · rw [Nat.succ_mul, ← List.drop_drop, hrest, ← hfull, List.drop_left]

theorem piece_of_end (hrest : data.drop (k * size) = content) (hle : content.length ≤ size) :
    piece size data k = content ∧ [] = data.drop ((k + 1) * size) := by
  constructor
  · rw [piece, hrest, List.take_of_length_le hle]
  · rw [Nat.succ_mul, ← List.drop_drop, hrest, List.drop_eq_nil_of_le hle]

theorem overwrite_append (buffer content bytes : Bytes) :
    Reader.overwrite (Reader.overwrite buffer 0 content) content.length bytes =
      Reader.overwrite buffer 0 (content ++ bytes) := by
  simp only [Reader.overwrite, List.take_zero, List.nil_append, Nat.zero_add, List.take_left,
    List.length_append]
  rw [← List.drop_drop, List.drop_left, List.drop_drop, List.append_assoc]

theorem overwrite_nil (buffer : Bytes) : Reader.overwrite buffer 0 [] = buffer := by
  simp [Reader.overwrite]

theorem length_buffers (hblank : ∀ buff, (blank buff).length = size) (k buff : ℕ) :
    (buffers blank size data k buff).length = size := by
  induction k generalizing buff with
  | zero => exact hblank buff
  | succ k ih =>
      rw [buffers]
      by_cases hbuff : buff = k % 2
      · have hle : 0 + (piece size data k).length ≤ (buffers blank size data k (k % 2)).length := by
          rw [ih, Nat.zero_add]
          exact length_piece_le size data k
        rw [hbuff, Function.update_self, Poll.length_overwrite hle, ih]
      · rw [Function.update_of_ne hbuff, ih]

/-- The buffer of a block that the file reaches holds the piece of two blocks before. -/
theorem buffers_before (hblank : ∀ buff, (blank buff).length = size) (hmore : k * size < data.length) :
    buffers blank size data k (k % 2) = before blank size data k := by
  have hother : ∀ j, (j + 1) % 2 ≠ j % 2 := by omega
  cases k with
  | zero => rfl
  | succ k =>
      rw [buffers, Function.update_of_ne (hother k)]
      cases k with
      | zero => rfl
      | succ j =>
          have hsame : (j + 1 + 1) % 2 = j % 2 := by omega
          have hfull : (piece size data j).length = size := by
            apply length_piece
            exact Nat.le_of_lt (Nat.lt_of_le_of_lt (Nat.mul_le_mul_right size (Nat.le_succ _)) hmore)
          rw [hsame, buffers, Function.update_self, before, if_neg (by omega)]
          simp only [Reader.overwrite, List.take_zero, List.nil_append, Nat.zero_add, hfull]
          rw [List.drop_eq_nil_of_le (Nat.le_of_eq (length_buffers hblank j _)), List.append_nil]
          rfl

theorem buffers_block (hblank : ∀ buff, (blank buff).length = size) (hmore : k * size < data.length) :
    buffers blank size data (k + 1) (k % 2) = block blank size data k := by
  rw [buffers, Function.update_self, buffers_before hblank hmore, block]
  simp only [Reader.overwrite, List.take_zero, List.nil_append, Nat.zero_add]

theorem chosen_append (taken : List Bool) (flag : Bool) :
    chosen blank size data (taken ++ [flag]) =
      chosen blank size data taken ++ if flag then [block blank size data taken.length] else [] := by
  rw [chosen, List.zipIdx_append, List.filter_append, List.map_append, chosen]
  cases flag <;> simp

end

/-! ### Where the loop is -/

/-- The bytes of the file that have not been read. -/
def rest (p : Playback) : Bytes := p.source.file.elim [] FileStream.rest

section

variable (blank : ℕ → Bytes) (size : ℕ) (data : Bytes)

/-- `k` blocks have been read. -/
structure Read (p : Playback) (k : ℕ) : Prop where
  data_eq : p.poll.reader.data = buffers blank size data k
  idx_eq : p.poll.reader.idx = k % 2
  rest_eq : p.rest = data.drop (k * size)

/-- The block of piece `k`. -/
def held (k : ℕ) : Reader.Block := ⟨k % 2, (piece size data k).length, piece size data k⟩

/-- Where the loop is after `k` blocks; `pending` says that it has begun to work on the next one. -/
inductive Stage (p : Playback) (k : ℕ) : List Bool → Prop
  | head (hplace : p.poll.place = .head) (hloop : p.poll.copy.loop = .head)
      (hqueue : p.poll.reader.queue = []) (hproducer : p.poll.reader.producer = .idle)
      (hconsumer : p.poll.reader.consumer = .waiting) (hread : Read blank size data p k) : Stage p k []
  | filling {content : Bytes} (hplace : p.poll.place = .acquiring) (hloop : p.poll.copy.loop = .head)
      (hqueue : p.poll.reader.queue = []) (hproducer : p.poll.reader.producer = .filling (k % 2) content)
      (hconsumer : p.poll.reader.consumer = .waiting)
      (hdata : p.poll.reader.data = Function.update (buffers blank size data k) (k % 2)
        (Reader.overwrite (buffers blank size data k (k % 2)) 0 content))
      (hidx : p.poll.reader.idx = (k + 1) % 2) (hrest : data.drop (k * size) = content ++ p.rest)
      (hlt : content.length < size) : Stage p k []
  | putting (hplace : p.poll.place = .acquiring) (hloop : p.poll.copy.loop = .head)
      (hqueue : p.poll.reader.queue = []) (hproducer : p.poll.reader.producer = .putting (held size data k))
      (hconsumer : p.poll.reader.consumer = .waiting) (hread : Read blank size data p (k + 1)) :
      Stage p k []
  | reading (hplace : p.poll.place = .reading) (hloop : p.poll.copy.loop = .head)
      (hqueue : p.poll.reader.queue = [held size data k]) (hproducer : p.poll.reader.producer = .idle)
      (hconsumer : p.poll.reader.consumer = .waiting) (hread : Read blank size data p (k + 1))
      (hmore : k * size < data.length) : Stage p k []
  | working (hplace : p.poll.place = .working) (hloop : p.poll.copy.loop = .head)
      (hqueue : p.poll.reader.queue = []) (hproducer : p.poll.reader.producer = .idle)
      (hconsumer : p.poll.reader.consumer = .holding (held size data k))
      (hread : Read blank size data p (k + 1)) (hmore : k * size < data.length) : Stage p k []
  | encoding {b : ℕ} (hplace : p.poll.place = .working) (hloop : p.poll.copy.loop = .encoding b)
      (hqueue : p.poll.reader.queue = []) (hproducer : p.poll.reader.producer = .idle)
      (hconsumer : p.poll.reader.consumer = .holding (held size data k))
      (hread : Read blank size data p (k + 1)) (hmore : k * size < data.length) : Stage p k [true]
  | sending {b bytes : ℕ} (hplace : p.poll.place = .working) (hloop : p.poll.copy.loop = .sending b bytes)
      (hqueue : p.poll.reader.queue = []) (hproducer : p.poll.reader.producer = .idle)
      (hread : Read blank size data p k) : Stage p k []
  | done (hplace : p.poll.place = .done) (hloop : p.poll.copy.loop = .head)
      (hend : data.length ≤ k * size) : Stage p k []

/-- The blocks of the file are worked on one after another, as far as the flags say. -/
structure Plays (p : Playback) (taken : List Bool) : Prop where
  length_blank : ∀ buff, (blank buff).length = size
  size_eq : p.poll.reader.size = size
  numBlocks_eq : p.poll.reader.numBlocks = 2
  limit : data = [] ∨ 0 < p.poll.reader.maxRead
  opened : ∃ file, p.source.file = some file
  ended : p.source.done = true ∨ p.dead = true → p.rest = []
  drained : p.poll.ended = true → p.rest = []
  count : taken.length * size < data.length + size
  stage : ∃ finished pending, taken = finished ++ pending ∧
    p.poll.inputs = chosen blank size data finished ∧ Stage blank size data p finished.length pending

end

theorem Read.frame {blank : ℕ → Bytes} {size k : ℕ} {data : Bytes} {p p' : Playback}
    (h : Read blank size data p k) (hdata : p'.poll.reader.data = p.poll.reader.data)
    (hidx : p'.poll.reader.idx = p.poll.reader.idx) (hsource : p'.source = p.source) :
    Read blank size data p' k := by
  refine ⟨hdata.trans h.data_eq, hidx.trans h.idx_eq, ?_⟩
  rw [rest, hsource]
  exact h.rest_eq

/-- What becomes of the block the loop has, when it takes it up. -/
def flags (p : Playback) : Action → List Bool
  | .copy .samples => [p.poll.copy.engine.hasClients && p.poll.copy.engine.getFree.1.isSome]
  | _ => []

variable {blank : ℕ → Bytes} {size k : ℕ} {data : Bytes} {taken finished : List Bool} {p p' : Playback}
  {a : Action}

theorem polled_eq_some {act : Poll.Action} (h : p.polled act = some (.ok p')) :
    ∃ poll, p.poll.Moves act poll ∧ p' = { p with poll := poll } := by
  obtain ⟨r, hr, hresult⟩ := Option.map_eq_some_iff.1 h
  obtain ⟨poll, rfl, hpoll⟩ := bind_eq_ok.1 hresult
  exact ⟨poll, Poll.moves_of_step hr, (Except.ok.inj hpoll).symm⟩

theorem Plays.frame {poll : Poll} {taken' : List Bool} (h : Plays blank size data p taken)
    (hsize : poll.reader.size = p.poll.reader.size)
    (hnumBlocks : poll.reader.numBlocks = p.poll.reader.numBlocks)
    (hmaxRead : poll.reader.maxRead = p.poll.reader.maxRead) (hended : poll.ended = p.poll.ended)
    (hcount : taken'.length * size < data.length + size)
    (hstage : ∃ finished pending, taken' = finished ++ pending ∧
      poll.inputs = chosen blank size data finished ∧ Stage blank size data { p with poll := poll } finished.length pending) :
    Plays blank size data { p with poll := poll } taken' := by
  refine ⟨h.length_blank, hsize.trans h.size_eq, hnumBlocks.trans h.numBlocks_eq, ?_, h.opened, h.ended,
    ?_, hcount, hstage⟩
  · rw [hmaxRead]
    exact h.limit
  · rw [hended]
    exact h.drained

theorem Plays.halt {poll : Poll} (h : Plays blank size data p taken) (hdead : p.dead = true)
    (hmoves : p.poll.Moves .halt poll) : Plays blank size data { p with poll := poll } taken := by
  cases hmoves with
  | halt hplace =>
      obtain ⟨finished, pending, htaken, hinputs, hstage⟩ := h.stage
      refine h.frame rfl rfl rfl rfl h.count ⟨finished, pending, htaken, hinputs, ?_⟩
      cases hstage with
      | head _ hloop _ _ _ hread =>
          refine .done rfl hloop ?_
          have hrest := hread.rest_eq
          rw [h.ended (.inr hdead)] at hrest
          exact List.drop_eq_nil_iff.1 hrest.symm
      | filling hplace' | putting hplace' | reading hplace' | working hplace' | encoding hplace'
      | sending hplace' | done hplace' => cases hplace.symm.trans hplace'

theorem Plays.acquire {poll : Poll} (h : Plays blank size data p taken) (hpos : 0 < size)
    (hmoves : p.poll.Moves .acquire poll) : Plays blank size data { p with poll := poll } taken := by
  cases hmoves with
  | acquire hplace r hr =>
      obtain ⟨finished, pending, htaken, hinputs, hstage⟩ := h.stage
      cases hr with
      | acquire hidle =>
          refine h.frame rfl rfl rfl rfl h.count ⟨finished, pending, htaken, hinputs, ?_⟩
          cases hstage with
          | head _ hloop hqueue _ hconsumer hread =>
              have hproducer : p.poll.reader.startFill p.poll.reader.idx =
                  .filling (finished.length % 2) [] := by
                simp [Reader.startFill, h.size_eq, hpos, hread.idx_eq]
              refine .filling rfl hloop hqueue hproducer hconsumer ?_ ?_ ?_ hpos
              · rw [overwrite_nil, Function.update_eq_self]
                exact hread.data_eq
              · rw [h.numBlocks_eq, hread.idx_eq, Nat.mod_add_mod]
              · exact hread.rest_eq.symm
          | filling hplace' | putting hplace' | reading hplace' | working hplace' | encoding hplace'
          | sending hplace' | done hplace' => cases hplace.symm.trans hplace'

theorem Plays.put {poll : Poll} (h : Plays blank size data p taken) (hpos : 0 < size)
    (hmoves : p.poll.Moves .put poll) : Plays blank size data { p with poll := poll } taken := by
  cases hmoves with
  | put hplace r hr =>
      obtain ⟨finished, pending, htaken, hinputs, hstage⟩ := h.stage
      cases hr with
      | put block hputting hroom =>
          refine h.frame rfl rfl rfl rfl h.count ⟨finished, pending, htaken, hinputs, ?_⟩
          cases hstage with
          | putting _ hloop hqueue hproducer hconsumer hread =>
              obtain rfl := Reader.Producer.putting.inj (hputting.symm.trans hproducer)
              by_cases hmore : finished.length * size < data.length
              · have hne : (held size data finished.length).bytes ≠ 0 := by
                  exact Nat.ne_of_gt (List.length_pos_iff.2 (piece_ne_nil hpos hmore))
                refine .reading ?_ hloop ?_ (if_neg hne) hconsumer (hread.frame rfl rfl rfl) hmore
                · rw [if_neg hne]
                  rfl
                · change p.poll.reader.queue ++ _ = _
                  rw [hqueue]
                  rfl
              · have hempty : (held size data finished.length).bytes = 0 := by
                  change (piece size data finished.length).length = 0
                  rw [piece, List.drop_eq_nil_of_le (Nat.le_of_not_lt hmore), List.take_nil]
                  rfl
                refine .done ?_ hloop (Nat.le_of_not_lt hmore)
                rw [if_pos hempty]
                rfl
          | filling _ _ _ hproducer => cases hputting.symm.trans hproducer
          | head hplace' | reading hplace' | working hplace' | encoding hplace'
          | sending hplace' | done hplace' => cases hplace.symm.trans hplace'

theorem Plays.get {poll : Poll} (h : Plays blank size data p taken) (hmoves : p.poll.Moves .get poll) :
    Plays blank size data { p with poll := poll } taken := by
  cases hmoves with
  | get hplace r hr =>
      obtain ⟨finished, pending, htaken, hinputs, hstage⟩ := h.stage
      cases hr with
      | get block queue hwaiting hqueue =>
          refine h.frame rfl rfl rfl rfl h.count ⟨finished, pending, htaken, hinputs, ?_⟩
          cases hstage with
          | reading _ hloop hqueue' hproducer hconsumer hread hmore =>
              obtain ⟨rfl, rfl⟩ := List.cons.inj (hqueue.symm.trans hqueue')
              exact .working rfl hloop rfl hproducer rfl (hread.frame rfl rfl rfl) hmore
          | head hplace' | filling hplace' | putting hplace' | working hplace' | encoding hplace'
          | sending hplace' | done hplace' => cases hplace.symm.trans hplace'

theorem read_source {s source : RawSource} {file : FileStream UInt8} {n : ℕ} {bytes : Bytes}
    (hfile : s.file = some file) (hread : s.read n = .ok (bytes, source)) :
    bytes = (file.read n).1 ∧ source.file = some (file.read n).2 ∧
      (0 < source.doneCalls → s.done = true ∨ 0 < s.doneCalls) := by
  unfold RawSource.read at hread
  cases hcall : s.onDone && s.done with
  | true =>
      rw [hcall] at hread
      simp only [if_true, hfile] at hread
      obtain ⟨rfl, rfl⟩ := Prod.mk.inj (Except.ok.inj hread)
      exact ⟨rfl, rfl, fun _ => .inl (Bool.and_eq_true_iff.1 hcall).2⟩
  | false =>
      rw [hcall] at hread
      simp only [Bool.false_eq_true, if_false, hfile] at hread
      obtain ⟨rfl, rfl⟩ := Prod.mk.inj (Except.ok.inj hread)
      exact ⟨rfl, rfl, .inr⟩

theorem Plays.rest_of_nil (h : Plays blank size data p taken) {content : Bytes}
    (hdata : data.drop (k * size) = content ++ p.rest) (hlt : content.length < size)
    (hnil : p.rest.take (p.poll.reader.todo content.length) = []) : p.rest = [] := by
  rcases List.take_eq_nil_iff.1 hnil with htodo | hrest
  · have hmaxRead : p.poll.reader.maxRead = 0 := by
      rw [Reader.todo, h.size_eq] at htodo
      omega
    rcases h.limit with rfl | hpos
    · rw [List.drop_nil] at hdata
      exact (List.append_eq_nil_iff.1 hdata.symm).2
    · omega
  · exact hrest

theorem Plays.read {poll : Poll} {source : RawSource} {buff : ℕ} {content bytes : Bytes}
    (h : Plays blank size data p taken) (hfilling : p.poll.reader.producer = .filling buff content)
    (hread : p.source.read (p.poll.reader.todo content.length) = .ok (bytes, source))
    (hmoves : p.poll.Moves (.read bytes) poll) : Plays blank size data ⟨poll, source⟩ taken := by
  obtain ⟨file, hfile⟩ := h.opened
  obtain ⟨hbytes, hfile', hcalls⟩ := read_source hfile hread
  have hrest : p.rest = file.rest := by rw [rest, hfile]; rfl
  have hrest' : ∀ poll, (⟨poll, source⟩ : Playback).rest =
      p.rest.drop (p.poll.reader.todo content.length) := by
    intro poll
    rw [hrest, ← FileStream.rest_read, rest, hfile']
    rfl
  rw [FileStream.read, ← hrest] at hbytes
  have hbefore : p.source.done = true ∨ 0 < p.source.doneCalls →
      p.rest.drop (p.poll.reader.todo content.length) = [] := by
    intro hor
    rw [h.ended (hor.imp id decide_eq_true), List.drop_nil]
  have hended : source.done = true ∨ 0 < source.doneCalls →
      p.rest.drop (p.poll.reader.todo content.length) = [] := by
    rintro (hdone | hdead)
    · have heof : (file.eof || decide ((file.rest.take (p.poll.reader.todo content.length)).length <
          p.poll.reader.todo content.length)) = true := by
        rw [RawSource.done, hfile'] at hdone
        exact hdone
      rcases Bool.or_eq_true_iff.1 heof with heof | hshort
      · refine hbefore (.inl ?_)
        rw [RawSource.done, hfile]
        exact heof
      · have hlt := of_decide_eq_true hshort
        rw [← hrest, List.length_take] at hlt
        exact List.drop_eq_nil_of_le (by omega)
    · exact hbefore (hcalls hdead)
  have hsplit : p.rest = bytes ++ p.rest.drop (p.poll.reader.todo content.length) := by
    rw [hbytes]
    exact (List.take_append_drop _ _).symm
  obtain ⟨finished, pending, htaken, hinputs, hstage⟩ := h.stage
  cases hmoves with
  | read _ hplace _ r hr =>
      cases hr with
      | read _ _ _ hfilling' hle =>
          obtain ⟨rfl, rfl⟩ := Reader.Producer.filling.inj (hfilling.symm.trans hfilling')
          cases hstage with
          | filling _ hloop hqueue hproducer hconsumer hdata hidx hrest₀ hlt =>
              obtain ⟨rfl, rfl⟩ := Reader.Producer.filling.inj (hfilling.symm.trans hproducer)
              refine ⟨h.length_blank, h.size_eq, h.numBlocks_eq, h.limit, ⟨_, hfile'⟩, ?_, ?_, h.count,
                finished, [], htaken, hinputs, ?_⟩
              · rw [hrest']
                exact fun hor => hended (hor.imp id of_decide_eq_true)
              · rw [hrest']
                intro hor
                have hend : p.rest = [] := by
                  rcases Bool.or_eq_true_iff.1 hor with hended | hempty
                  · exact h.drained hended
                  · exact h.rest_of_nil hrest₀ hlt (hbytes.symm.trans (List.isEmpty_iff.1 hempty))
                rw [hend, List.drop_nil]
              have hdata' : Function.update p.poll.reader.data (finished.length % 2)
                  (Reader.overwrite (p.poll.reader.data (finished.length % 2)) content.length bytes) =
                  Function.update (buffers blank size data finished.length) (finished.length % 2)
                    (Reader.overwrite (buffers blank size data finished.length (finished.length % 2)) 0
                      (content ++ bytes)) := by
                rw [hdata, Function.update_self, overwrite_append, Function.update_idem]
              have hrest₁ : data.drop (finished.length * size) = (content ++ bytes) ++
                  p.rest.drop (p.poll.reader.todo content.length) := by
                rw [hrest₀, List.append_assoc, ← hsplit]
              by_cases hmore : bytes ≠ [] ∧ (content ++ bytes).length < p.poll.reader.size
              · refine .filling hplace hloop hqueue (if_pos hmore) hconsumer hdata' hidx ?_ ?_
                · rw [hrest']
                  exact hrest₁
                · rw [← h.size_eq]
                  exact hmore.2
              · have hpiece : piece size data finished.length = content ++ bytes ∧
                    p.rest.drop (p.poll.reader.todo content.length) =
                      data.drop ((finished.length + 1) * size) := by
                  by_cases hnil : bytes = []
                  · have hend := h.rest_of_nil hrest₀ hlt (hbytes.symm.trans hnil)
                    rw [hend, List.append_nil] at hrest₀
                    rw [hend, hnil, List.append_nil, List.drop_nil]
                    exact piece_of_end hrest₀ (Nat.le_of_lt hlt)
                  · have hfull : (content ++ bytes).length = size := by
                      have hge := Nat.le_of_not_lt fun hlt => hmore ⟨hnil, hlt⟩
                      rw [Reader.todo] at hle
                      rw [h.size_eq] at hge hle
                      rw [List.length_append] at hge ⊢
                      omega
                    exact piece_of_full hrest₁ hfull
                have hheld : Reader.filled (finished.length % 2) (content ++ bytes) =
                    held size data finished.length := by
                  rw [held, hpiece.1]
                  rfl
                refine .putting hplace hloop hqueue ((if_neg hmore).trans (congrArg _ hheld)) hconsumer ?_
                refine ⟨?_, hidx, ?_⟩
                · rw [buffers, hpiece.1]
                  exact hdata'
                · rw [hrest']
                  exact hpiece.2
          | head hplace' | reading hplace' | working hplace' | encoding hplace'
          | sending hplace' | done hplace' => cases hplace.symm.trans hplace'
          | putting _ _ _ hproducer => cases hfilling.symm.trans hproducer

theorem takeBlock_loop (a : AudioCopy) (hloop : a.loop = .head) :
    ((a.engine.hasClients && a.engine.getFree.1.isSome) = true ∧ ∃ b, a.takeBlock.loop = .encoding b) ∨
      ((a.engine.hasClients && a.engine.getFree.1.isSome) = false ∧ a.takeBlock.loop = .head) := by
  unfold AudioCopy.takeBlock
  cases a.engine.hasClients with
  | false => exact .inr ⟨rfl, hloop⟩
  | true =>
      rcases hfree : a.engine.getFree with ⟨_ | b, e⟩
      · exact .inr ⟨rfl, rfl⟩
      · exact .inl ⟨rfl, b, rfl⟩

theorem Plays.next {poll : Poll} {flag : Bool} {inputs : List Bytes}
    (h : Plays blank size data p taken) (hsize : poll.reader.size = p.poll.reader.size)
    (hnumBlocks : poll.reader.numBlocks = p.poll.reader.numBlocks)
    (hmaxRead : poll.reader.maxRead = p.poll.reader.maxRead) (hended : poll.ended = p.poll.ended)
    (hmore : finished.length * size < data.length)
    (hinputs : inputs = chosen blank size data finished)
    (hpoll : poll.inputs = inputs ++ if flag then [block blank size data finished.length] else [])
    (hstage : Stage blank size data { p with poll := poll } (finished.length + 1) []) :
    Plays blank size data { p with poll := poll } (finished ++ [flag]) := by
  refine h.frame hsize hnumBlocks hmaxRead hended ?_ ⟨finished ++ [flag], [], (List.append_nil _).symm, ?_, ?_⟩
  · rw [List.length_append, List.length_singleton, Nat.succ_mul]
    exact Nat.add_lt_add_right hmore size
  · rw [chosen_append, ← hinputs]
    exact hpoll
  · rw [List.length_append, List.length_singleton]
    exact hstage

theorem Plays.work {act : AudioCopy.Action} {inputs : List Bytes} {copy : AudioCopy} {loop : Loop}
    (h : Plays blank size data p taken) (hcopy : copy.loop = loop) (hplace : p.poll.place = .working)
    (hworks : p.poll.Works act inputs loop) :
    Plays blank size data { p with poll := p.poll.worked inputs copy } (taken ++ p.flags (.copy act)) := by
  obtain ⟨finished, pending, rfl, hinputs, hstage⟩ := h.stage
  cases hworks with
  | samples hloop =>
      cases hstage with
      | working _ _ hqueue hproducer hconsumer hread hmore =>
          have hflags : p.flags (.copy .samples) =
              [p.poll.copy.engine.hasClients && p.poll.copy.engine.getFree.1.isSome] := rfl
          rw [List.append_nil, hflags]
          rcases takeBlock_loop p.poll.copy hloop with ⟨hflag, b, hblock⟩ | ⟨hflag, hdropped⟩
          · rw [hflag, Poll.worked_of_ne (by rw [hcopy, hblock]; exact Loop.noConfusion)]
            refine h.frame rfl rfl rfl rfl ?_ ⟨finished, [true], rfl, hinputs, ?_⟩
            · rw [List.length_append, List.length_singleton, Nat.succ_mul]
              exact Nat.add_lt_add_right hmore size
            · exact .encoding hplace (hcopy.trans hblock) hqueue hproducer hconsumer
                (hread.frame rfl rfl rfl) hmore
          · rw [hflag, Poll.worked_of_head (hcopy.trans hdropped)]
            refine h.next rfl rfl rfl rfl hmore hinputs (List.append_nil _).symm ?_
            exact .head rfl (hcopy.trans hdropped) hqueue hproducer rfl (hread.frame rfl rfl rfl)
      | encoding _ hloop' | sending _ hloop' => cases hloop.symm.trans hloop'
      | head hplace' | filling hplace' | putting hplace' | reading hplace'
      | done hplace' => cases hplace.symm.trans hplace'
  | encode hloop hblock =>
      have hflags : ∀ result written, p.flags (.copy (.encode result written)) = [] := fun _ _ => rfl
      rw [hflags, List.append_nil, Poll.worked_of_ne (by rw [hcopy]; exact Loop.noConfusion)]
      cases hstage with
      | encoding _ _ hqueue hproducer hconsumer hread hmore =>
          obtain rfl := Reader.Consumer.holding.inj (hblock.symm.trans hconsumer)
          refine h.next rfl rfl rfl rfl hmore hinputs ?_ (.sending hplace hcopy hqueue hproducer
            (hread.frame rfl rfl rfl))
          rw [← buffers_block h.length_blank hmore, ← hread.data_eq]
          rfl
      | working _ hloop' | sending _ hloop' => cases hloop.symm.trans hloop'
      | head hplace' | filling hplace' | putting hplace' | reading hplace'
      | done hplace' => cases hplace.symm.trans hplace'
  | send hloop =>
      have hflags : ∀ results, p.flags (.copy (.send results)) = [] := fun _ => rfl
      rw [hflags, List.append_nil, Poll.worked_of_head hcopy]
      cases hstage with
      | sending _ _ hqueue hproducer hread =>
          refine h.frame rfl rfl rfl rfl h.count ⟨finished, [], rfl, hinputs, ?_⟩
          exact .head rfl hcopy hqueue hproducer rfl (hread.frame rfl rfl rfl)
      | working _ hloop' | encoding _ hloop' => cases hloop.symm.trans hloop'
      | head hplace' | filling hplace' | putting hplace' | reading hplace'
      | done hplace' => cases hplace.symm.trans hplace'

theorem Plays.other {copy : AudioCopy} (h : Plays blank size data p taken)
    (hcopy : copy.loop = p.poll.copy.loop) :
    Plays blank size data { p with poll := { p.poll with copy := copy } } taken := by
  obtain ⟨finished, pending, htaken, hinputs, hstage⟩ := h.stage
  refine h.frame rfl rfl rfl rfl h.count ⟨finished, pending, htaken, hinputs, ?_⟩
  cases hstage with
  | head hplace hloop hqueue hproducer hconsumer hread =>
      exact .head hplace (hcopy.trans hloop) hqueue hproducer hconsumer (hread.frame rfl rfl rfl)
  | filling hplace hloop hqueue hproducer hconsumer hdata hidx hrest hlt =>
      exact .filling hplace (hcopy.trans hloop) hqueue hproducer hconsumer hdata hidx hrest hlt
  | putting hplace hloop hqueue hproducer hconsumer hread =>
      exact .putting hplace (hcopy.trans hloop) hqueue hproducer hconsumer (hread.frame rfl rfl rfl)
  | reading hplace hloop hqueue hproducer hconsumer hread hmore =>
      exact .reading hplace (hcopy.trans hloop) hqueue hproducer hconsumer (hread.frame rfl rfl rfl) hmore
  | working hplace hloop hqueue hproducer hconsumer hread hmore =>
      exact .working hplace (hcopy.trans hloop) hqueue hproducer hconsumer (hread.frame rfl rfl rfl) hmore
  | encoding hplace hloop hqueue hproducer hconsumer hread hmore =>
      exact .encoding hplace (hcopy.trans hloop) hqueue hproducer hconsumer (hread.frame rfl rfl rfl) hmore
  | sending hplace hloop hqueue hproducer hread =>
      exact .sending hplace (hcopy.trans hloop) hqueue hproducer (hread.frame rfl rfl rfl)
  | done hplace hloop hend => exact .done hplace (hcopy.trans hloop) hend

theorem work_moves {p p' : Poll} {act : AudioCopy.Action} (hown : Action.own (.copy act) = true)
    (hstep : Poll.Step p (.copy act) p') : p.place = .working ∧
      ∃ inputs copy, p.Works act inputs copy.loop ∧ p' = p.worked inputs copy := by
  cases act with
  | samples =>
      obtain ⟨hplace, copy, hcopy, rfl⟩ := Poll.work_eq_some hstep
      obtain ⟨hloop, rfl⟩ := AudioCopy.samples_eq_some hcopy
      exact ⟨hplace, _, _, .samples hloop, rfl⟩
  | encode result written =>
      simp only [Poll.Step, Poll.exec] at hstep
      split at hstep
      case h_1 block hblock =>
        obtain ⟨hplace, copy, hcopy, rfl⟩ := Poll.work_eq_some hstep
        obtain ⟨b, bytes, e, hloop, -, rfl⟩ := AudioCopy.encode_eq_some hcopy
        exact ⟨hplace, _, _, .encode hloop hblock, rfl⟩
      case h_2 => cases hstep
  | send results =>
      obtain ⟨hplace, copy, hcopy, rfl⟩ := Poll.work_eq_some hstep
      obtain ⟨b, bytes, samples, e, hloop, -, -, rfl⟩ := AudioCopy.send_eq_some hcopy
      exact ⟨hplace, _, _, .send hloop, rfl⟩
  | newClient | play | remove => cases hown

theorem own_of_works {p : Poll} {act : AudioCopy.Action} {inputs : List Bytes} {loop : Loop}
    (hworks : p.Works act inputs loop) : Action.own (.copy act) = true := by cases hworks <;> rfl

theorem client_moves {p p' : Poll} {act : AudioCopy.Action} (hown : Action.own (.copy act) = false)
    (hstep : Poll.Step p (.copy act) p') :
    ∃ copy, copy.loop = p.copy.loop ∧ p' = { p with copy := copy } := by
  cases Poll.moves_of_step hstep with
  | work hplace copy hworks => cases hown.symm.trans (own_of_works hworks)
  | other copy hloop => exact ⟨copy, hloop, rfl⟩

theorem Plays.copy {act : AudioCopy.Action} {poll : Poll} (h : Plays blank size data p taken)
    (hstep : Poll.Step p.poll (.copy act) poll) :
    Plays blank size data { p with poll := poll } (taken ++ p.flags (.copy act)) := by
  cases hown : Action.own (.copy act) with
  | true =>
      obtain ⟨hplace, inputs, copy, hworks, rfl⟩ := work_moves hown hstep
      exact h.work rfl hplace hworks
  | false =>
      obtain ⟨copy, hloop, rfl⟩ := client_moves hown hstep
      have hflags : p.flags (.copy act) = [] := by
        cases act with
        | samples => cases hown
        | _ => rfl
      rw [hflags, List.append_nil]
      exact h.other hloop

theorem own_call (p : Playback) (act : AudioCopy.Action) :
    Action.own (.copy (p.call act)) = Action.own (.copy act) := by
  cases act with
  | encode result out =>
      rw [call]
      split <;> rfl
  | _ => rfl

theorem flags_call (p : Playback) (act : AudioCopy.Action) :
    p.flags (.copy (p.call act)) = p.flags (.copy act) := by
  cases act with
  | encode result out =>
      rw [call]
      split <;> rfl
  | _ => rfl

/-- What a step of the loop is. -/
inductive Moves (p : Playback) : Action → Playback → Prop
  | halt (hdead : p.dead = true) (poll : Poll) (hpoll : p.poll.Moves .halt poll) :
      Moves p .halt { p with poll := poll }
  | acquire (poll : Poll) (hpoll : p.poll.Moves .acquire poll) : Moves p .acquire { p with poll := poll }
  | read {buff : ℕ} {content : Bytes} (bytes : Bytes) (source : RawSource) (poll : Poll)
      (hfilling : p.poll.reader.producer = .filling buff content)
      (hread : p.source.read (p.poll.reader.todo content.length) = .ok (bytes, source))
      (hpoll : p.poll.Moves (.read bytes) poll) : Moves p .read ⟨poll, source⟩
  | put (poll : Poll) (hpoll : p.poll.Moves .put poll) : Moves p .put { p with poll := poll }
  | get (poll : Poll) (hpoll : p.poll.Moves .get poll) : Moves p .get { p with poll := poll }
  | copy {act : AudioCopy.Action} (poll : Poll) (hpoll : Poll.Step p.poll (.copy (p.call act)) poll) :
      Moves p (.copy act) { p with poll := poll }

theorem moves_of_step (hstep : Step p a p') : p.Moves a p' := by
  cases a with
  | halt =>
      simp only [Step, exec] at hstep
      split at hstep
      case isTrue hdead =>
        obtain ⟨poll, hpoll, rfl⟩ := polled_eq_some hstep
        exact .halt hdead poll hpoll
      case isFalse => cases hstep
  | acquire =>
      simp only [Step, exec] at hstep
      split at hstep
      · cases hstep
      · obtain ⟨poll, hpoll, rfl⟩ := polled_eq_some hstep
        exact .acquire poll hpoll
  | read =>
      simp only [Step, exec] at hstep
      split at hstep
      case h_1 buff content hfilling =>
        split at hstep
        case h_1 bytes source hread =>
          obtain ⟨poll, hpoll, rfl⟩ := polled_eq_some hstep
          exact .read bytes source poll hfilling hread hpoll
        case h_2 => cases hstep
      case h_2 => cases hstep
  | put =>
      obtain ⟨poll, hpoll, rfl⟩ := polled_eq_some hstep
      exact .put poll hpoll
  | get =>
      obtain ⟨poll, hpoll, rfl⟩ := polled_eq_some hstep
      exact .get poll hpoll
  | copy act =>
      obtain ⟨r, hr, hresult⟩ := Option.map_eq_some_iff.1 hstep
      obtain ⟨poll, rfl, hpoll⟩ := bind_eq_ok.1 hresult
      obtain rfl := Except.ok.inj hpoll
      exact .copy poll hr

theorem Plays.step (h : Plays blank size data p taken) (hpos : 0 < size) (hstep : Step p a p') :
    Plays blank size data p' (taken ++ p.flags a) := by
  cases moves_of_step hstep with
  | @copy act poll hpoll =>
      rw [← flags_call]
      exact h.copy hpoll
  | halt hdead poll hpoll =>
      change Plays blank size data _ (taken ++ [])
      rw [List.append_nil]
      exact h.halt hdead hpoll
  | acquire poll hpoll =>
      change Plays blank size data _ (taken ++ [])
      rw [List.append_nil]
      exact h.acquire hpos hpoll
  | read bytes source poll hfilling hread hpoll =>
      change Plays blank size data _ (taken ++ [])
      rw [List.append_nil]
      exact h.read hfilling hread hpoll
  | put poll hpoll =>
      change Plays blank size data _ (taken ++ [])
      rw [List.append_nil]
      exact h.put hpos hpoll
  | get poll hpoll =>
      change Plays blank size data _ (taken ++ [])
      rw [List.append_nil]
      exact h.get hpoll

/-! ### Whole runs -/

/-- The step as a function. -/
def next (p : Playback) (a : Action) : Option Playback := (p.exec a).bind Except.toOption

theorem step_eq_next : Step = fun p a p' => p.next a = some p' := by
  funext p a p'
  rw [Step, next, eq_iff_iff]
  cases p.exec a with
  | none => simp
  | some r => cases r <;> simp [Except.toOption]

/-- What became of the blocks of a run. -/
def takenAlong (p : Playback) (as : List Action) : List Bool :=
  (trace next p as).flatMap fun step => step.1.flags step.2

theorem Plays.run {as : List Action} (h : Plays blank size data p taken) (hpos : 0 < size)
    (hrun : Run Step p as p') : Plays blank size data p' (taken ++ p.takenAlong as) := by
  induction hrun generalizing taken with
  | nil =>
      change Plays blank size data _ (taken ++ [])
      rw [List.append_nil]
      exact h
  | @cons p q p' a as hstep _ ih =>
      have hnext : p.next a = some q := by
        rw [step_eq_next] at hstep
        exact hstep
      have hcons : p.takenAlong (a :: as) = p.flags a ++ q.takenAlong as := by
        rw [takenAlong, trace_cons hnext, List.flatMap_cons]
        rfl
      rw [hcons, ← List.append_assoc]
      exact ih (h.step hpos hstep)

/-! ### The end of the file -/

/-- How much may still be done with the block that is being filled. -/
def aheadOf : Reader.Producer → ℕ
  | .filling _ content => if content = [] then 3 else 10
  | .putting block => if block.content = [] then 1 else 9
  | _ => 0

/-- How much the loop may still do with what it has read. -/
def ahead (p : Playback) : ℕ :=
  match p.poll.place with
  | .head => 4
  | .acquiring => aheadOf p.poll.reader.producer
  | .reading => 8
  | .working =>
      match p.poll.copy.loop with
      | .head => 7
      | .encoding _ => 6
      | .sending _ _ => 5
  | .done => 0

def left (p : Playback) : ℕ := 8 * p.rest.length + p.ahead

theorem ahead_worked {act : AudioCopy.Action} {inputs : List Bytes} {copy : AudioCopy} {loop : Loop}
    (hcopy : copy.loop = loop) (hplace : p.poll.place = .working) (hworks : p.poll.Works act inputs loop) :
    ({ p with poll := p.poll.worked inputs copy } : Playback).ahead < p.ahead := by
  by_cases hhead : copy.loop = .head
  · rw [Poll.worked_of_head hhead]
    cases hworks with
    | samples hloop | encode hloop | send hloop => simp [ahead, hplace, hloop]
  · rw [Poll.worked_of_ne hhead]
    cases hworks with
    | samples hloop =>
        rcases takeBlock_loop p.poll.copy hloop with ⟨-, b, hblock⟩ | ⟨-, hdropped⟩
        · simp [ahead, hplace, hloop, hcopy, hblock]
        · exact absurd (hcopy.trans hdropped) hhead
    | encode hloop => simp [ahead, hplace, hloop, hcopy]
    | send hloop => exact absurd hcopy hhead

theorem aheadOf_continueFill (r : Reader) (buff : ℕ) (content bytes : Bytes) :
    aheadOf (r.continueFill buff content bytes) < aheadOf (.filling buff content) + 8 * bytes.length := by
  unfold Reader.continueFill
  by_cases hnil : bytes = []
  · rw [if_neg fun hmore => hmore.1 hnil, hnil, List.append_nil]
    by_cases hcontent : content = [] <;> simp [aheadOf, Reader.filled, hcontent]
  · have hpos := List.length_pos_iff.2 hnil
    have hge : 3 ≤ aheadOf (.filling buff content) := by
      by_cases hcontent : content = [] <;> simp [aheadOf, hcontent]
    have hle : aheadOf (if bytes ≠ [] ∧ (content ++ bytes).length < r.size
        then .filling buff (content ++ bytes) else .putting (Reader.filled buff (content ++ bytes))) ≤ 10 := by
      split <;> simp [aheadOf, Reader.filled, hnil]
    omega

theorem Plays.left_read {poll : Poll} {source : RawSource} {buff : ℕ} {content bytes : Bytes}
    (h : Plays blank size data p taken) (hfilling : p.poll.reader.producer = .filling buff content)
    (hread : p.source.read (p.poll.reader.todo content.length) = .ok (bytes, source))
    (hmoves : p.poll.Moves (.read bytes) poll) : (⟨poll, source⟩ : Playback).left < p.left := by
  obtain ⟨file, hfile⟩ := h.opened
  obtain ⟨hbytes, hfile', -⟩ := read_source hfile hread
  have hlength : (source.file.elim [] FileStream.rest).length + bytes.length = p.rest.length := by
    have hrest : p.rest = file.rest := by rw [rest, hfile]; rfl
    rw [hfile', Option.elim_some, FileStream.rest_read, hbytes, hrest, Nat.add_comm, ← List.length_append]
    exact congrArg List.length (List.take_append_drop _ _)
  cases hmoves with
  | read _ hplace _ r hr =>
      cases hr with
      | read _ _ _ hfilling' hle =>
          obtain ⟨rfl, rfl⟩ := Reader.Producer.filling.inj (hfilling.symm.trans hfilling')
          have hlt := aheadOf_continueFill p.poll.reader buff content bytes
          simp only [left, ahead, hplace, hfilling]
          change 8 * (source.file.elim [] FileStream.rest).length + _ < _
          omega

theorem Plays.left_step (h : Plays blank size data p taken) (hpos : 0 < size) (hstep : Step p a p')
    (hown : a.own = true) : p'.left < p.left := by
  cases moves_of_step hstep with
  | halt hdead poll hpoll =>
      cases hpoll with
      | halt hplace => exact Nat.add_lt_add_left (by simp [ahead, hplace]) _
  | acquire poll hpoll =>
      cases hpoll with
      | acquire hplace r hr =>
          cases hr with
          | acquire hidle =>
              have hsize : 0 < p.poll.reader.size := h.size_eq ▸ hpos
              exact Nat.add_lt_add_left (by simp [ahead, hplace, Reader.startFill, hsize, aheadOf]) _
  | read bytes source poll hfilling hread hpoll => exact h.left_read hfilling hread hpoll
  | put poll hpoll =>
      obtain ⟨finished, pending, -, -, hstage⟩ := h.stage
      cases hpoll with
      | put hplace r hr =>
          cases hr with
          | put block hputting hroom =>
              have hbytes : block.bytes = block.content.length := by
                cases hstage with
                | putting _ _ _ hproducer =>
                    obtain rfl := Reader.Producer.putting.inj (hputting.symm.trans hproducer)
                    rfl
                | filling _ _ _ hproducer => cases hputting.symm.trans hproducer
                | head hplace' | reading hplace' | working hplace' | encoding hplace'
                | sending hplace' | done hplace' => cases hplace.symm.trans hplace'
              refine Nat.add_lt_add_left ?_ _
              simp only [ahead, hplace, hputting, aheadOf]
              by_cases hnil : block.content = [] <;> simp [hbytes, hnil]
  | get poll hpoll =>
      cases hpoll with
      | get hplace r hr =>
          refine Nat.add_lt_add_left ?_ _
          simp only [ahead, hplace]
          split <;> omega
  | @copy act poll hpoll =>
      obtain ⟨hplace, inputs, copy, hworks, rfl⟩ := work_moves ((own_call p act).trans hown) hpoll
      exact Nat.add_lt_add_left (ahead_worked rfl hplace hworks) _

/-- What is left of the file bounds the steps of the loop. -/
theorem usesUp (hpos : 0 < size) :
    UsesUp Step Action.own (fun p => ∃ taken, Plays blank size data p taken) left where
  keeps _ _ _ := fun ⟨_, h⟩ hstep => ⟨_, h.step hpos hstep⟩
  lowers _ _ _ := fun ⟨_, h⟩ hstep hown => h.left_step hpos hstep hown
  le p a p' _ hstep hown := by
    cases moves_of_step hstep with
    | @copy act poll hpoll =>
        obtain ⟨copy, hloop, rfl⟩ := client_moves ((own_call p act).trans hown) hpoll
        refine Nat.le_of_eq ?_
        simp only [left, ahead, hloop]
        rfl
    | halt | acquire | read | put | get => cases hown

/-- The loop is never stuck: where its file has been opened, its next step can be taken. -/
theorem Plays.progress (h : Plays blank size data p taken) (hplace : p.poll.place ≠ .done) :
    ∃ a : Action, a.own = true ∧ (p.exec a).isSome = true := by
  obtain ⟨finished, pending, -, -, hstage⟩ := h.stage
  cases hstage with
  | head hplace' hloop hqueue hproducer =>
      cases hdead : p.dead with
      | true => exact ⟨.halt, rfl, by simp [exec, polled, Poll.exec, hdead, hplace']⟩
      | false => exact ⟨.acquire, rfl, by simp [exec, polled, Poll.exec, Reader.exec, hdead, hplace', hproducer]⟩
  | @filling content hplace' hloop hqueue hproducer =>
      obtain ⟨file, hfile⟩ := h.opened
      obtain ⟨source, hread, -⟩ := RawSource.read_file hfile (p.poll.reader.todo content.length)
      have hbytes : (file.read (p.poll.reader.todo content.length)).1 =
          p.rest.take (p.poll.reader.todo content.length) := by rw [rest, hfile]; rfl
      have hended : p.poll.ended = true → (file.read (p.poll.reader.todo content.length)).1 = [] := by
        intro hended
        rw [hbytes, h.drained hended, List.take_nil]
      have hle : (file.read (p.poll.reader.todo content.length)).1.length ≤
          p.poll.reader.todo content.length := by
        rw [hbytes]
        exact List.length_take_le _ _
      refine ⟨.read, rfl, ?_⟩
      simp [exec, polled, Poll.exec, Reader.exec, hplace', hproducer, hread, hle]
      exact hended
  | putting hplace' hloop hqueue hproducer =>
      refine ⟨.put, rfl, ?_⟩
      simp [exec, polled, Poll.exec, Reader.exec, hplace', hproducer, hqueue, h.numBlocks_eq]
  | reading hplace' hloop hqueue hproducer hconsumer =>
      refine ⟨.get, rfl, ?_⟩
      simp [exec, polled, Poll.exec, Reader.exec, hplace', hconsumer, hqueue]
  | working hplace' hloop =>
      refine ⟨.copy .samples, rfl, ?_⟩
      simp [exec, polled, call, Poll.exec, Poll.work, AudioCopy.exec, hplace', hloop]
  | encoding hplace' hloop hqueue hproducer hconsumer =>
      refine ⟨.copy (.encode 0 []), rfl, ?_⟩
      simp [exec, polled, call, Poll.exec, Poll.work, AudioCopy.exec, hplace', hloop, hconsumer]
  | sending hplace' hloop =>
      refine ⟨.copy (.send fun _ => 0), rfl, ?_⟩
      simp [exec, polled, call, Poll.exec, Poll.work, AudioCopy.exec, hplace', hloop]
  | done hplace' => exact absurd hplace' hplace

/-- A source with which a file has just been opened, and what it will return of it. -/
inductive Opened : RawSource → Bytes → Prop
  | raw {source : RawSource} {data : Bytes} (onDone : Bool) (hlength : data.length < 2 ^ 32)
      (hopen : RawSource.open .new (.file data) = (true, source)) : Opened (source.setOnDone onDone) data
  | wav {source : RawSource} {header data : Bytes} (onDone : Bool)
      (hheader : header.length = WavFileHeader.size) (hlength : (header ++ data).length < 2 ^ 32)
      (hopen : WavSource.open .new (.file (header ++ data)) = (true, source)) :
      Opened (source.setOnDone onDone) data

/-- Nothing of the file has been read yet. -/
structure Fresh (source : RawSource) (data : Bytes) : Prop where
  file : ∃ file, source.file = some file ∧ file.rest = data ∧ file.eof = false
  doneCalls : source.doneCalls = 0
  limit : data = [] ∨ 0 < source.size

theorem Opened.fresh {source : RawSource} (h : Opened source data) : Fresh source data := by
  cases h with
  | raw onDone hlength hopen =>
      obtain rfl := congrArg Prod.snd hopen
      refine ⟨⟨_, rfl, List.drop_zero, rfl⟩, rfl, ?_⟩
      by_cases hnil : data = []
      · exact .inl hnil
      · refine .inr ?_
        change 0 < toSize data.length
        rw [toSize, Nat.mod_eq_of_lt hlength]
        exact List.length_pos_iff.2 hnil
  | @wav source header data onDone hheader hlength hopen =>
      obtain ⟨file, hfile, hrest⟩ := WavSource.open_rest hheader hopen
      simp only [WavSource.open, RawSource.open] at hopen
      split at hopen
      · cases congrArg Prod.fst hopen
      case isFalse hshort =>
        obtain rfl := congrArg Prod.snd hopen
        refine ⟨⟨file, hfile, hrest, ?_⟩, rfl, .inr ?_⟩
        · obtain rfl := Option.some.inj hfile
          exact decide_eq_false hshort
        · change 0 < toSize _
          rw [toSize, Nat.mod_eq_of_lt hlength, List.length_append, hheader]
          exact Nat.lt_add_right _ (by decide)

theorem new_eq_ok {e : Engine} {source : RawSource} (hsize : e.rxBytes = .ok size)
    {memory : ℕ → ℕ → UInt8} (hnew : new e source memory = .ok p) :
    p = ⟨⟨.new size source.maxReadBytes 2 memory, .new e, .head, false, [], []⟩, source⟩ := by
  obtain ⟨poll, hpoll, hp⟩ := bind_eq_ok.1 hnew
  obtain rfl := Except.ok.inj hp
  obtain ⟨size', hsize', hresult⟩ := bind_eq_ok.1 hpoll
  obtain rfl := Except.ok.inj (hsize.symm.trans hsize')
  obtain rfl := Except.ok.inj hresult
  rfl

theorem plays_new {e : Engine} {source : RawSource} (hsize : e.rxBytes = .ok size) (hpos : 0 < size)
    (hfresh : Fresh source data) {memory : ℕ → ℕ → UInt8} (hnew : new e source memory = .ok p) :
    Plays p.poll.reader.data size data p [] := by
  obtain rfl := new_eq_ok hsize hnew
  obtain ⟨file, hfile, hrest, heof⟩ := hfresh.file
  have hread : ∀ poll, (⟨poll, source⟩ : Playback).rest = data := by
    intro poll
    rw [rest, hfile]
    exact hrest
  refine ⟨fun buff => Reader.length_data_new buff, rfl, rfl, hfresh.limit, ⟨file, hfile⟩, ?_, ?_, ?_, ?_⟩
  · rintro (hdone | hdead)
    · rw [RawSource.done, hfile] at hdone
      cases heof.symm.trans hdone
    · have hcalls := of_decide_eq_true hdead
      rw [hfresh.doneCalls] at hcalls
      cases hcalls
  · intro hended
    cases hended
  · rw [List.length_nil, Nat.zero_mul]
    exact Nat.add_pos_right _ hpos
  · refine ⟨[], [], rfl, rfl, .head rfl rfl rfl rfl rfl ⟨rfl, rfl, ?_⟩⟩
    rw [hread, List.length_nil, Nat.zero_mul, List.drop_zero]

theorem left_new {e : Engine} {source : RawSource} (hsize : e.rxBytes = .ok size) (hfresh : Fresh source data)
    {memory : ℕ → ℕ → UInt8} (hnew : new e source memory = .ok p) : p.left = 8 * data.length + 4 := by
  obtain ⟨file, hfile, hrest, -⟩ := hfresh.file
  rw [new_eq_ok hsize hnew, left, rest, hfile, Option.elim_some, hrest]
  rfl

/-- Where no block is at hand, those that were taken up have been encoded. -/
theorem Plays.inputs_eq (h : Plays blank size data p taken)
    (hplace : p.poll.place = .head ∨ p.poll.place = .done) : p.poll.inputs = chosen blank size data taken := by
  obtain ⟨finished, pending, rfl, hinputs, hstage⟩ := h.stage
  cases hstage with
  | encoding hplace' =>
      rw [hplace'] at hplace
      rcases hplace with hplace | hplace <;> cases hplace
  | _ =>
      rw [List.append_nil]
      exact hinputs

/-- Where the loop is left, the file has been read to its end, and no further. -/
theorem Plays.length_eq (h : Plays blank size data p taken) (hpos : 0 < size)
    (hplace : p.poll.place = .done) : taken.length = (data.length + size - 1) / size := by
  have hcount := h.count
  obtain ⟨finished, pending, rfl, -, hstage⟩ := h.stage
  cases hstage with
  | done _ _ hend =>
      rw [List.append_nil] at hcount ⊢
      refine (Nat.div_eq_of_lt_le ?_ ?_).symm
      · omega
      · rw [Nat.succ_mul]
        omega
  | head hplace' | filling hplace' | putting hplace' | reading hplace' | working hplace'
  | encoding hplace' | sending hplace' => cases hplace'.symm.trans hplace

/-- A file is played to its end: the loop takes no more steps than the file allows for and never waits
for itself; where it is left, each block of the file has been taken up, and it has been encoded if there
were a client and a packet for it, an incomplete one with the end of an earlier block behind it. -/
theorem plays_whole_file (e : Engine) (hsize : e.rxBytes = .ok size) (hpos : 0 < size)
    {source : RawSource} (hopened : Opened source data) {memory : ℕ → ℕ → UInt8} {p₀ : Playback}
    (hnew : new e source memory = .ok p₀) {as : List Action} (hrun : Run Step p₀ as p) :
    as.countP Action.own ≤ 8 * data.length + 4 ∧
      (p.poll.place ≠ .done → ∃ a : Action, a.own = true ∧ (p.exec a).isSome = true) ∧
      (p.poll.place = .head ∨ p.poll.place = .done →
        p.poll.inputs = chosen p₀.poll.reader.data size data (p₀.takenAlong as)) ∧
      (p.poll.place = .done → (p₀.takenAlong as).length = (data.length + size - 1) / size) := by
  have hplays₀ := plays_new hsize hpos hopened.fresh hnew
  have hplays : Plays p₀.poll.reader.data size data p (p₀.takenAlong as) := hplays₀.run hpos hrun
  refine ⟨?_, hplays.progress, hplays.inputs_eq, hplays.length_eq hpos⟩
  have hcount := (usesUp hpos).count_le hrun ⟨[], hplays₀⟩
  rw [left_new hsize hopened.fresh hnew] at hcount
  exact Nat.le_of_add_right_le hcount

/-- A source that has opened a WAV file with ten bytes behind its header. -/
def tenBytes : RawSource :=
  (WavSource.open .new
    (.file (WavFileHeader.initial.toBytes ++ [1, 2, 3, 4, 5, 6, 7, 8, 9, 10]))).2.setOnDone true

/-- The rounds of the loop for the three blocks, and the last look at `dead`. -/
def rounds : List Action :=
  let work : List Action := [.put, .get, .copy .samples, .copy (.encode 0 []), .copy (.send fun _ => 4)]
  [.acquire, .read] ++ work ++ [.acquire, .read] ++ work ++ [.acquire, .read, .read] ++ work ++ [.halt]

/-- The third block has the end of the first one behind its bytes. -/
theorem plays_whole_file_short : ∃ p₀ p : Playback, new Poll.shortEngine tenBytes (fun _ _ => 0) = .ok p₀ ∧
    Run Step p₀ rounds p ∧ p.poll.place = .done ∧ (p₀.takenAlong rounds).length = (10 + 4 - 1) / 4 ∧
    p.poll.inputs = [[1, 2, 3, 4], [5, 6, 7, 8], [9, 10, 3, 4]] := by
  have hopen : (WavSource.open .new
      (.file (WavFileHeader.initial.toBytes ++ [1, 2, 3, 4, 5, 6, 7, 8, 9, 10]))).1 = true := by decide +kernel
  have hopened : Opened tenBytes [1, 2, 3, 4, 5, 6, 7, 8, 9, 10] :=
    .wav true rfl (by decide) (Prod.ext hopen rfl)
  obtain ⟨p₀, hnew⟩ : ∃ p₀, new Poll.shortEngine tenBytes (fun _ _ => 0) = .ok p₀ := ⟨_, rfl⟩
  have hrun : (execAll next p₀ rounds).any (fun p => p.poll.place = .done) = true := by
    obtain rfl := Except.ok.inj hnew
    decide +kernel
  have htaken : p₀.takenAlong rounds = [true, true, true] := by
    obtain rfl := Except.ok.inj hnew
    decide +kernel
  obtain ⟨p, hp, hplace⟩ := run_of_any hrun
  have hdone := of_decide_eq_true hplace
  rw [← step_eq_next] at hp
  obtain ⟨-, -, hinputs, hlength⟩ := plays_whole_file Poll.shortEngine rfl (by decide) hopened hnew hp
  refine ⟨p₀, p, hnew, hp, hdone, hlength hdone, ?_⟩
  rw [hinputs (.inr hdone), htaken]
  obtain rfl := Except.ok.inj hnew
  decide

end Playback

end WifiAudio
