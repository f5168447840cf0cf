import WifiAudio.Audio.Acquire
import WifiAudio.Lib.Except
import WifiAudio.Proof.Audio.Reader

/-!
# What `acquire` reads

Every read of the loop but the last brings at least one byte, so the loop ends. The reads lie one behind
the other in the buffer, and each asks for what is missing in the block, up to the limit of the source.
The index of a read is an `int`: it is the number of the read as long as that fits.
-/

namespace WifiAudio

open Except Transition

namespace Reader

variable {σ : Type} {maxRead : ℕ}

/-- The read loop as a relation: the block is full, a read returned nothing, or a read brought some
bytes and the loop went on. -/
inductive Fills (src : AudioSource maxRead σ) (size : ℕ) : ℕ → ℤ → Bytes → σ → Filled σ → Prop
  | full {total : ℕ} {read : ℤ} {buff : Bytes} {s : σ} (hfull : size ≤ total) :
      Fills src size total read buff s ⟨buff, total, s, []⟩
  | ended {total asked : ℕ} {read : ℤ} {buff data : Bytes} {s s' : σ}
      (hasked : asked = min (size - total) maxRead) (hlt : total < size)
      (hread : src.read s ((buff.drop total).take asked) read = .ok (data, 0, s'))
      (hdata : data.length = asked) :
      Fills src size total read buff s ⟨overwrite buff total data, total, s', [⟨total, asked, read, []⟩]⟩
  | more {total asked rd : ℕ} {read : ℤ} {buff data : Bytes} {s s' : σ} {filled : Filled σ}
      (hasked : asked = min (size - total) maxRead) (hlt : total < size)
      (hread : src.read s ((buff.drop total).take asked) read = .ok (data, rd, s'))
      (hdata : data.length = asked) (hrd : rd ≤ asked) (hpos : 0 < rd)
      (hrest : Fills src size (total + rd) (toInt (read + 1)) (overwrite buff total data) s' filled) :
      Fills src size total read buff s
        { filled with calls := ⟨total, asked, read, data.take rd⟩ :: filled.calls }

variable {src : AudioSource maxRead σ} {size total : ℕ} {read : ℤ} {buff : Bytes} {s : σ}
  {filled : Filled σ}

theorem length_overwrite_of_le {data : Bytes} (hfits : total + data.length ≤ buff.length) :
    (overwrite buff total data).length = buff.length := by
  simp only [overwrite, List.length_append, List.length_take, List.length_drop]
  omega

theorem fill_full (hfull : size ≤ total) (fuel : ℕ) :
    fill src size fuel total read buff s = .ok ⟨buff, total, s, []⟩ := by
  unfold fill
  exact if_neg (not_lt.2 hfull)

theorem fill_round {asked rd : ℕ} {data : Bytes} {s' : σ} (hasked : asked = min (size - total) maxRead)
    (hlt : total < size) (hroom : total + asked ≤ buff.length)
    (hread : src.read s ((buff.drop total).take asked) read = .ok (data, rd, s')) (fuel : ℕ) :
    fill src size (fuel + 1) total read buff s =
      if rd = 0 then
        .ok ⟨overwrite buff total data, total + rd, s', [⟨total, asked, read, data.take rd⟩]⟩
      else do
        let filled ← fill src size fuel (total + rd) (toInt (read + 1)) (overwrite buff total data) s'
        return { filled with calls := ⟨total, asked, read, data.take rd⟩ :: filled.calls } := by
  have hblock : (if size - total > maxRead then maxRead else size - total) = asked := by
    rw [hasked]
    split <;> omega
  rw [fill]
  simp only [if_pos hlt, hblock, if_neg (not_lt.2 hroom), hread, ok_bind, pure_eq_ok]

/-- The loop ends, with one round for each missing byte and one more. -/
theorem fill_fills (src : AudioSource maxRead σ) (hbuff : buff.length = size) (total : ℕ) (read : ℤ)
    (s : σ) :
    ∃ filled, Fills src size total read buff s filled ∧
      ∀ fuel, size - total < fuel → fill src size fuel total read buff s = .ok filled := by
  -- on the number of bytes that are missing
  induction hmissing : size - total using Nat.strongRecOn generalizing total read buff s with
  | _ missing ih =>
      by_cases hlt : total < size
      · obtain ⟨asked, hasked⟩ : ∃ asked, asked = min (size - total) maxRead := ⟨_, rfl⟩
        have hdest : ((buff.drop total).take asked).length = asked := by
          rw [List.length_take, List.length_drop]
          omega
        obtain ⟨data, rd, s', hread, hdata, hrd⟩ := src.returns s
          ((buff.drop total).take asked) read (by omega)
        rw [hdest] at hdata hrd
        have hround := fill_round hasked hlt (by omega) hread
        cases rd with
        | zero =>
            refine ⟨_, .ended hasked hlt hread hdata, ?_⟩
            intro fuel hfuel
            obtain ⟨fuel, rfl⟩ : ∃ n, fuel = n + 1 := ⟨fuel - 1, by omega⟩
            exact hround fuel
        | succ rd =>
            have hlength : (overwrite buff total data).length = size := by
              rw [length_overwrite_of_le (by omega), hbuff]
            obtain ⟨filled, hrest, hfuel⟩ := ih (size - (total + (rd + 1))) (by omega)
              hlength (total + (rd + 1)) (toInt (read + 1)) s' rfl
            refine ⟨_, .more hasked hlt hread hdata hrd (Nat.succ_pos rd) hrest, ?_⟩
            intro fuel hmore
            obtain ⟨fuel, rfl⟩ : ∃ n, fuel = n + 1 := ⟨fuel - 1, by omega⟩
            rw [hround fuel, if_neg (Nat.succ_ne_zero rd), hfuel fuel (by omega)]
            rfl
      · refine ⟨_, .full (not_lt.1 hlt), ?_⟩
        intro fuel _
        exact fill_full (not_lt.1 hlt) fuel

/-! ### The reads of one call -/

theorem Fills.inside (h : Fills src size total read buff s filled) : ∀ call ∈ filled.calls,
    call.start < size ∧ call.asked = min (size - call.start) maxRead := by
  induction h with
  | full hfull =>
      intro call hcall
      cases hcall
  | ended hasked hlt hread hdata =>
      intro call hcall
      obtain rfl := List.mem_singleton.1 hcall
      exact ⟨hlt, hasked⟩
  | more hasked hlt hread hdata hrd hpos hrest ih =>
      intro call hcall
      rcases List.mem_cons.1 hcall with rfl | hcall
      · exact ⟨hlt, hasked⟩
      · exact ih call hcall

/-- The index of a read is its number, as an `int`. -/
theorem Fills.idx (h : Fills src size total read buff s filled) {first : ℤ} (hfirst : read = toInt first) :
    ∀ (k : ℕ) (call : ReadCall), filled.calls[k]? = some call → call.idx = toInt (first + k) := by
  induction h generalizing first with
  | full hfull =>
      intro k call hcall
      cases hcall
  | ended hasked hlt hread hdata =>
      intro k call hcall
      cases k with
      | zero =>
          obtain rfl := Option.some.inj hcall
          exact hfirst.trans (congrArg toInt (Int.add_zero first).symm)
      | succ k => cases hcall
  | @more total asked rd read buff data s s' filled hasked hlt hread hdata hrd hpos hrest ih =>
      intro k call hcall
      cases k with
      | zero =>
          obtain rfl := Option.some.inj hcall
          exact hfirst.trans (congrArg toInt (Int.add_zero first).symm)
      | succ k =>
          have hnext : toInt (read + 1) = toInt (first + 1) := by
            rw [hfirst, toInt, toInt, toInt, Int.bmod_add_bmod]
          rw [ih hnext k call hcall]
          congr 1
          omega

theorem Fills.contents (h : Fills src size total read buff s filled) {content : Bytes}
    (hlength : content.length = total) (hcontent : buff.take total = content)
    (hbuff : buff.length = size) :
    filled.total = (content ++ filled.calls.flatMap ReadCall.bytes).length ∧
      filled.buff.take filled.total = content ++ filled.calls.flatMap ReadCall.bytes := by
  induction h generalizing content with
  | full hfull => simp [hlength, hcontent]
  | ended hasked hlt hread hdata =>
      simp only [List.flatMap_cons, List.flatMap_nil, List.append_nil]
      refine ⟨hlength.symm, ?_⟩
      rw [overwrite, hcontent, ← hlength, List.append_assoc, List.take_left]
  | @more total asked rd read buff data s s' filled hasked hlt hread hdata hrd hpos hrest ih =>
      have htake : (data.take rd).length = rd := by
        rw [List.length_take]
        omega
      have hnext : (overwrite buff total data).take (total + rd) = content ++ data.take rd := by
        rw [overwrite, hcontent, ← hlength, List.append_assoc, List.take_length_add_append,
          List.take_append_of_le_length (by omega)]
      have hrest := ih (by rw [List.length_append, hlength, htake]) hnext
        (by rw [length_overwrite_of_le (by omega), hbuff])
      rw [List.append_assoc] at hrest
      exact hrest

/-- The block is full unless a read brought nothing. -/
theorem Fills.short (h : Fills src size total read buff s filled) (hlt : filled.total < size) :
    ∃ call ∈ filled.calls, call.bytes = [] := by
  induction h with
  | full hfull => exact absurd hlt (not_lt.2 hfull)
  | ended hasked hlt hread hdata => exact ⟨_, List.mem_singleton_self _, rfl⟩
  | more hasked hlt' hread hdata hrd hpos hrest ih =>
      obtain ⟨call, hcall, hempty⟩ := ih hlt
      exact ⟨call, List.mem_cons_of_mem _ hcall, hempty⟩

theorem Fills.complete (h : Fills src size total read buff s filled)
    (hsource : ∀ s dest idx data s', dest ≠ [] → src.read s dest idx ≠ .ok (data, 0, s'))
    (hmax : 0 < maxRead) (hbuff : buff.length = size) : size ≤ filled.total := by
  induction h with
  | full hfull => exact hfull
  | ended hasked hlt hread hdata =>
      refine absurd hread (hsource _ _ _ _ _ ?_)
      apply List.ne_nil_of_length_pos
      rw [List.length_take, List.length_drop]
      omega
  | more hasked hlt hread hdata hrd hpos hrest ih =>
      exact ih (by rw [length_overwrite_of_le (by omega), hbuff])

theorem Fills.total_le (h : Fills src size total read buff s filled) :
    filled.total ≤ total + filled.calls.length * maxRead := by
  induction h with
  | full hfull => exact Nat.le_add_right _ _
  | ended hasked hlt hread hdata => exact Nat.le_add_right _ _
  | more hasked hlt hread hdata hrd hpos hrest ih =>
      change _ ≤ _ + (_ + 1) * _
      rw [Nat.succ_mul]
      exact ih.trans (by omega)

/-! ### The steps of the reader thread -/

/-- The reads of the loop are steps of the reader thread, from where `total` bytes are in its block to
where it puts the block. -/
theorem Fills.run {r : Reader} (h : Fills src size total read buff s filled) (hsize : r.size = size)
    (hmax : r.maxRead = maxRead) {b : ℕ} {content : Bytes} (hlength : content.length = total)
    (hproducer : r.producer =
      if total < size then .filling b content else .putting (Reader.filled b content)) :
    ∃ r', Run Step r (filled.calls.map fun call => .read call.bytes) r' ∧
      r'.producer = .putting (Reader.filled b (content ++ filled.calls.flatMap ReadCall.bytes)) ∧
      r'.queue = r.queue ∧ r'.idx = r.idx ∧ r'.numBlocks = r.numBlocks := by
  induction h generalizing r content with
  | full hfull =>
      rw [if_neg (not_lt.2 hfull)] at hproducer
      refine ⟨r, .nil r, ?_, rfl, rfl, rfl⟩
      rw [hproducer, List.flatMap_nil, List.append_nil]
  | ended hasked hlt hread hdata =>
      rw [if_pos hlt] at hproducer
      refine ⟨_, .single (step_of_moves (.read b content [] hproducer (Nat.zero_le _))), ?_, rfl, rfl,
        rfl⟩
      simp [continueFill]
  | @more total asked rd read buff data s s' filled hasked hlt hread hdata hrd hpos hrest ih =>
      rw [if_pos hlt] at hproducer
      have htake : (data.take rd).length = rd := by
        rw [List.length_take]
        omega
      have hle : (data.take rd).length ≤ r.todo content.length := by
        rw [htake, todo, hsize, hmax, hlength]
        omega
      have hne : data.take rd ≠ [] := List.ne_nil_of_length_pos (by omega)
      have hstep := step_of_moves (.read b content (data.take rd) hproducer hle)
      have htotal : (content ++ data.take rd).length = total + rd := by
        rw [List.length_append, hlength, htake]
      obtain ⟨r', hrun, hputting, hqueue, hidx, hblocks⟩ := ih
        (r := { r with
          producer := r.continueFill b content (data.take rd)
          data := Function.update r.data b (overwrite (r.data b) content.length (data.take rd)) })
        hsize hmax htotal (by simp only [continueFill, hne, htotal, hsize, ne_eq, not_false_eq_true,
          true_and])
      rw [List.append_assoc] at hputting
      exact ⟨r', .cons hstep hrun, hputting, hqueue, hidx, hblocks⟩

/-! ### The call as a whole -/

/-- The parts of one call: how much was asked for and where, the indices, and what was queued. -/
structure Acquires (r : Reader) (out : Acquired σ) : Prop where
  asked : ∀ call ∈ out.calls, call.asked ≤ r.maxRead
  inside : ∀ call ∈ out.calls, call.start + call.asked ≤ r.size
  idx : ∀ (k : ℕ) (call : ReadCall), out.calls[k]? = some call → k < 2 ^ 31 → call.idx = k
  block : ∃ block : Block, out.reader.queue = r.queue ++ [block] ∧ block.data = r.idx ∧
    block.bytes = (out.calls.flatMap ReadCall.bytes).length ∧
    (out.reader.data block.data).take block.bytes = out.calls.flatMap ReadCall.bytes ∧
    (block.bytes < r.size → ∃ call ∈ out.calls, call.bytes = [])

theorem acquire_of_fill {r : Reader} {src : AudioSource r.maxRead σ} {fuel : ℕ}
    (hfill : fill src r.size fuel 0 0 (r.data r.idx) s = .ok filled) :
    r.acquire src fuel s = .ok ⟨filled.total ≠ 0, { r with
      idx := (r.idx + 1) % r.numBlocks
      data := Function.update r.data r.idx filled.buff
      queue := r.queue ++ [⟨r.idx, filled.total, filled.calls.flatMap ReadCall.bytes⟩] },
      filled.source, filled.calls⟩ := by
  rw [acquire, hfill]
  rfl

/-- A call of `acquire` is a run of the reader thread's steps, when the queue has room. -/
theorem acquire_run {r : Reader} {src : AudioSource r.maxRead σ} {out : Acquired σ}
    (hbuff : (r.data r.idx).length = r.size) (hidle : r.producer = .idle)
    (hroom : r.queue.length < r.numBlocks) (hout : ∀ fuel > r.size, r.acquire src fuel s = .ok out) :
    ∃ r', Run Step r (.acquire :: out.calls.map (fun call => .read call.bytes) ++ [.put]) r' ∧
      r'.queue = out.reader.queue ∧ r'.idx = out.reader.idx ∧
      r'.producer = if out.result then .idle else .done := by
  obtain ⟨filled, h, hfuel⟩ := fill_fills src hbuff 0 0 s
  obtain ⟨htotal, -⟩ := h.contents List.length_nil rfl hbuff
  obtain rfl := Except.ok.inj
    ((acquire_of_fill (hfuel _ (Nat.lt_succ_self _))).symm.trans (hout _ (Nat.lt_succ_self _)))
  have hacquire := step_of_moves (.acquire hidle)
  obtain ⟨r', hrun, hputting, hqueue, hidx, hblocks⟩ := h.run
    (r := { r with producer := r.startFill r.idx, idx := (r.idx + 1) % r.numBlocks }) rfl rfl
    List.length_nil (b := r.idx) rfl
  have hput := step_of_moves (.put _ hputting (by rw [hqueue, hblocks]; exact hroom))
  refine ⟨_, (Run.cons hacquire hrun).append (.single hput), ?_, hidx, ?_⟩
  · change r'.queue ++ _ = r.queue ++ _
    rw [hqueue, htotal]
    rfl
  · rw [List.nil_append] at htotal
    simp [Reader.filled, htotal]

/-- For every source, block size and limit: with enough fuel `acquire` ends; no read asks for more
than the limit or leaves the block, so `ESP32_I2S::read` does not fail its assertion; the read number
`k` has the index `k` while that is an `int`; and the block that is queued holds the bytes of the
reads, one behind the other, as many as fit unless a read returned none. -/
theorem acquire_fills {σ : Type} (r : Reader) (src : AudioSource r.maxRead σ) (s : σ)
    (hbuff : (r.data r.idx).length = r.size) :
    ∃ out, (∀ fuel > r.size, r.acquire src fuel s = .ok out) ∧ r.Acquires out ∧
      (r.maxRead = Esp32I2s.maxReadBytes → ∀ call ∈ out.calls, Esp32I2s.readAsserts call.asked) := by
  obtain ⟨filled, h, hfuel⟩ := fill_fills src hbuff 0 0 s
  obtain ⟨htotal, hcontent⟩ := h.contents List.length_nil rfl hbuff
  have hasked : ∀ call ∈ filled.calls, call.asked ≤ r.maxRead := by
    intro call hcall
    rw [(h.inside call hcall).2]
    exact Nat.min_le_right _ _
  refine ⟨_, fun fuel hmore => acquire_of_fill (hfuel fuel hmore), ⟨hasked, ?_, ?_, ?_⟩, ?_⟩
  · intro call hcall
    obtain ⟨hlt, hasked⟩ := h.inside call hcall
    omega
  · intro k call hcall hk
    have hzero : (0 : ℤ) = toInt 0 := rfl
    rw [h.idx hzero k call hcall, Int.zero_add, toInt, Int.bmod_eq_of_le] <;> omega
  · refine ⟨_, rfl, rfl, htotal, ?_, h.short⟩
    change (Function.update r.data r.idx filled.buff r.idx).take filled.total = _
    rw [Function.update_self]
    exact hcontent
  · intro hlimit call hcall
    exact decide_eq_true ((hasked call hcall).trans_eq hlimit)

/-- A source that delivers one byte at a time, as it finds it. -/
def oneByte : AudioSource 1 Unit where
  read s dest _ := .ok (dest, dest.length, s)
  returns s dest _ _ := ⟨dest, dest.length, s, rfl, rfl, le_rfl⟩

/-- In a block of more than 2 ^ 31 bytes the index of the last of these reads is not its number. -/
theorem read_index_overflows : ∃ out call,
    (∀ fuel > 2 ^ 31 + 1, (Reader.new (2 ^ 31 + 1) 1 2 fun _ _ => 0).acquire oneByte fuel () = .ok out) ∧
      out.calls[2 ^ 31]? = some call ∧ call.idx ≠ 2 ^ 31 := by
  have hbuff : ((Reader.new (2 ^ 31 + 1) 1 2 fun _ _ => 0).data 0).length = 2 ^ 31 + 1 := length_data_new 0
  obtain ⟨filled, h, hfuel⟩ := fill_fills oneByte hbuff 0 0 ()
  have hcomplete := h.complete (by simp [oneByte]) Nat.one_pos hbuff
  have htotal := h.total_le
  rw [Nat.zero_add, Nat.mul_one] at htotal
  have hlt : 2 ^ 31 < filled.calls.length := by omega
  refine ⟨_, filled.calls[2 ^ 31], fun fuel hmore => acquire_of_fill (hfuel fuel hmore),
    List.getElem?_eq_getElem hlt, ?_⟩
  have hzero : (0 : ℤ) = toInt 0 := rfl
  rw [h.idx hzero (2 ^ 31) _ (List.getElem?_eq_getElem hlt)]
  decide

/-- A driver whose reads return at most 3000 bytes. -/
def shortReads : Esp32I2s.Driver Unit where
  channelRead s dest := (dest.map fun _ => 7, some (min dest.length 3000), s)
  stores s dest := List.length_map _
  reports s dest n hn := by
    obtain rfl := Option.some.inj hn
    exact Nat.min_le_left _ _

/-- A block of the Opus codec is filled from the microphone. -/
theorem acquire_fills_i2s : ∃ out,
    (∀ fuel > 11520, (Reader.new 11520 Esp32I2s.maxReadBytes 2 fun _ _ => 0).acquire
      (Esp32I2s.source shortReads) fuel () = .ok out) ∧
    (Reader.new 11520 Esp32I2s.maxReadBytes 2 fun _ _ => 0).Acquires out ∧
    ∀ call ∈ out.calls, Esp32I2s.readAsserts call.asked := by
  obtain ⟨out, hout, hacquires, hasserts⟩ :=
    acquire_fills (Reader.new 11520 Esp32I2s.maxReadBytes 2 fun _ _ => 0) (Esp32I2s.source shortReads) ()
      (length_data_new 0)
  exact ⟨out, hout, hacquires, hasserts rfl⟩

end Reader

end WifiAudio
