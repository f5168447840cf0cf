import WifiAudio.Proof.Rtp.Engine
import Mathlib.Algebra.GroupWithZero.Nat

/-!
# The packet stream

A block's header is filled in when the engine is made and only its sequence number and timestamp are
written again, so every block of the pool can carry the next packet, whichever way it has gone
through the free list. With both counters advanced once for each send the packets are numbered
without a gap, and each goes to the clients that are on the playing list at that time.
-/

namespace WifiAudio

open Except Transition

/-- A packet of `codec`: the header fields and the length. -/
def IsRtpPacket (codec : AudioCodec) (seq timestamp bytes : ℕ) (packet : Bytes) : Prop :=
  ∃ (head : RtpHeader) (payload : Bytes), packet = head.toList ++ payload ∧
    payload.length = bytes ∧ head.Fixed codec.payloadType.toNat ∧ head.seq = seq ∧
    head.timestamp = timestamp

/-- A block that can carry a packet of `codec`. -/
structure Block.Ready (codec : AudioCodec) (b : Block) : Prop where
  fixed : b.head.Fixed codec.payloadType.toNat
  length_audio : b.audio.length = b.maxPayload

namespace Block

variable {codec : AudioCodec} {b : Block}

theorem ready_new (codec : AudioCodec) : (Block.new codec).Ready codec where
  fixed := by
    cases codec with
    | pcm c => change (RtpHeader.initial 96).Fixed 96; constructor <;> decide
    | opus c => change (RtpHeader.initial 97).Fixed 97; constructor <;> decide
    | codec2 c => change (RtpHeader.initial 98).Fixed 98; constructor <;> decide
  length_audio := by simp [Block.new]

theorem Ready.stamp (h : b.Ready codec) (seq : UInt16) (ts : UInt32) : (b.stamp seq ts).Ready codec :=
  ⟨h.fixed.stamp seq ts, h.length_audio⟩

theorem Ready.packet (h : b.Ready codec) (seq : UInt16) (ts : UInt32) {bytes : ℕ}
    (hbytes : bytes ≤ b.maxPayload) :
    IsRtpPacket codec seq.toNat ts.toNat bytes ((b.stamp seq ts).packet bytes) := by
  refine ⟨_, _, rfl, ?_, h.fixed.stamp seq ts, by simp [Block.stamp], by simp [Block.stamp]⟩
  rw [List.length_take]
  exact min_eq_left (h.length_audio ▸ hbytes)

end Block

namespace Engine

/-- What the operations rely on: a well formed playing list and a pool of ready blocks. -/
structure Streams (e : Engine) (xs : List ℕ) : Prop where
  playing : e.Playing xs
  ready : ∀ block ∈ e.pool, block.Ready e.codec

/-- `play` is called with a client that exists and is not playing. -/
def PlaysNew (e : Engine) : Op → Prop
  | .play (some c) => c < e.clients.length ∧ ¬e.playing.Mem c
  | _ => True

/-- What has been sent to client `c`. -/
def sentTo (e : Engine) (c : ℕ) : List Bytes := e.clients[c]?.elim [] (·.socket.sent)

def Op.sends : Op → Option (ℕ × ℕ)
  | .send _ bytes samples _ => some (bytes, samples)
  | _ => none

variable {e e' : Engine} {xs : List ℕ} {op : Op} {c : ℕ}

/-! ### One operation -/

theorem getElem?_sendAll {data : Bytes} {results : ℕ → ℤ} {visited : List ℕ} (hnodup : visited.Nodup)
    (clients : List RtpClient) (c : ℕ) : (sendAll data results visited clients)[c]? =
      clients[c]?.map fun client =>
        if c ∈ visited then client.sendPacket data (results c) else client := by
  induction visited generalizing clients with
  | nil => simp [sendAll]
  | cons d visited ih =>
      obtain ⟨hd, hnodup⟩ := List.nodup_cons.1 hnodup
      change (sendAll data results visited _)[c]? = _
      rw [ih hnodup, List.getElem?_modify]
      by_cases hdc : d = c
      · subst hdc
        simp [hd, RtpClient.sendPacket, Function.comp_def]
      · simp [hdc, Ne.symm hdc]

theorem Streams.send {b bytes samples : ℕ} {results : ℕ → ℤ} (h : e.Streams xs)
    (hsend : e.send b bytes samples results = .ok e') :
    ∃ packet, e.packetOf (.send b bytes samples results) = some packet ∧
      IsRtpPacket e.codec e.packetSeq.toNat e.timestamp.toNat bytes packet ∧
      e'.packetSeq = e.packetSeq + 1 ∧ e'.timestamp = e.timestamp + UInt32.ofNat samples ∧
      e'.Streams xs ∧ e'.codec = e.codec ∧
      ∀ c, e'.sentTo c = e.sentTo c ++ if c ∈ xs then [packet] else [] := by
  obtain ⟨block, visited, hblock, hbytes, hvisit, rfl⟩ := send_eq_ok.1 hsend
  obtain rfl : xs = visited := Option.some.inj (h.playing.visit.symm.trans hvisit)
  have hready := h.ready block (List.mem_of_getElem? hblock)
  refine ⟨_, by rw [packetOf, hblock]; rfl, hready.packet _ _ hbytes, rfl, rfl, ⟨⟨h.playing.holds, ?_⟩,
    ?_⟩, rfl, ?_⟩
  · intro c hc
    change c < (sendAll _ _ _ _).length
    rw [length_sendAll]
    exact h.playing.exist c hc
  · intro block' hmem
    rcases List.mem_or_eq_of_mem_set hmem with hmem | rfl
    · exact h.ready block' hmem
    · exact hready.stamp _ _
  · intro c
    change Option.elim (sendAll _ _ _ _)[c]? _ _ = Option.elim e.clients[c]? _ _ ++ _
    rw [getElem?_sendAll h.playing.holds.nodup]
    cases hclient : e.clients[c]? with
    | none =>
        have hc : c ∉ xs := fun hc => by
          have := h.playing.exist c hc
          rw [List.getElem?_eq_none_iff] at hclient
          omega
        simp [hc]
    | some client => by_cases hc : c ∈ xs <;> simp [hc, RtpClient.sendPacket]

theorem Streams.quiet (h : e.Streams xs) (hnew : e.PlaysNew op) (hop : op.sends = none)
    (hstep : Step e op e') :
    e.packetOf op = none ∧ e'.packetSeq = e.packetSeq ∧ e'.timestamp = e.timestamp ∧
      (∃ ys, e'.Streams ys) ∧ e'.codec = e.codec ∧ ∀ c, e'.sentTo c = e.sentTo c := by
  cases op with
  | newClient ip port connected =>
      obtain rfl := Option.some.inj hstep
      refine ⟨rfl, rfl, rfl, ⟨xs, ⟨h.playing.holds, ?_⟩, h.ready⟩, rfl, ?_⟩
      · intro c hc
        change c < (e.clients ++ _).length
        rw [List.length_append]
        exact Nat.lt_add_right _ (h.playing.exist c hc)
      · intro c
        change Option.elim (e.clients ++ [_])[c]? _ _ = Option.elim e.clients[c]? _ _
        rcases Nat.lt_trichotomy c e.clients.length with hlt | rfl | hgt
        · rw [List.getElem?_append_left hlt]
        · simp [RtpClient.new]
        · rw [List.getElem?_eq_none (by simp; omega), List.getElem?_eq_none hgt.le]
  | play client =>
      obtain rfl := Option.some.inj hstep
      cases client with
      | none => exact ⟨rfl, rfl, rfl, ⟨xs, h⟩, rfl, fun c => rfl⟩
      | some d =>
          have hplay := h.playing.play (fun hd => hnew.2 (h.playing.mem_iff.2 hd)) hnew.1
          exact ⟨rfl, rfl, rfl, ⟨_, hplay, h.ready⟩, rfl, fun c => rfl⟩
  | remove client =>
      obtain ⟨playing, hremove, hholds⟩ := h.playing.remove client
      obtain rfl : ({ e with playing := playing } : Engine) = e' := by
        simpa [Step, exec, hremove, Except.toOption] using hstep
      refine ⟨rfl, rfl, rfl, ⟨_, ⟨hholds, ?_⟩, h.ready⟩, rfl, fun c => rfl⟩
      intro c hc
      exact h.playing.exist c ((mem_without h.playing.holds.nodup).1 hc).1
  | getFree =>
      obtain rfl := Option.some.inj hstep
      unfold getFree
      cases e.blocks.pop <;> exact ⟨rfl, rfl, rfl, ⟨xs, ⟨h.playing.holds, h.playing.exist⟩, h.ready⟩,
        rfl, fun c => rfl⟩
  | putFree b =>
      obtain rfl := Option.some.inj hstep
      exact ⟨rfl, rfl, rfl, ⟨xs, ⟨h.playing.holds, h.playing.exist⟩, h.ready⟩, rfl, fun c => rfl⟩
  | writeAudio b bytes =>
      cases hblock : e.pool[b]? with
      | none => simp [Step, exec, writeAudio, hblock, Except.toOption] at hstep
      | some block =>
          by_cases hbytes : block.maxPayload < bytes.length
          · simp [Step, exec, writeAudio, hblock, hbytes, Except.toOption] at hstep
          · obtain rfl : ({ e with pool := e.pool.set b ⟨block.head,
                bytes ++ block.audio.drop bytes.length, block.maxPayload⟩ } : Engine) = e' := by
              simpa [Step, exec, writeAudio, hblock, hbytes, Except.toOption] using hstep
            have hready := h.ready block (List.mem_of_getElem? hblock)
            refine ⟨rfl, rfl, rfl, ⟨xs, ⟨h.playing.holds, h.playing.exist⟩, ?_⟩, rfl,
              fun c => rfl⟩
            intro block' hmem
            rcases List.mem_or_eq_of_mem_set hmem with hmem | rfl
            · exact h.ready block' hmem
            · refine ⟨hready.fixed, ?_⟩
              have := hready.length_audio
              simp only [List.length_append, List.length_drop]
              omega
  | send b bytes samples results => cases hop

theorem Op.of_sends {sizes : ℕ × ℕ} (h : op.sends = some sizes) :
    ∃ b bytes samples results, op = .send b bytes samples results := by
  cases op with
  | send b bytes samples results => exact ⟨b, bytes, samples, results, rfl⟩
  | _ => cases h

theorem send_of_step {b bytes samples : ℕ} {results : ℕ → ℤ}
    (hstep : Step e (.send b bytes samples results) e') : e.send b bytes samples results = .ok e' := by
  cases hsend : e.send b bytes samples results with
  | error _ => simp [Step, exec, hsend, Except.toOption] at hstep
  | ok t => simpa [Step, exec, hsend, Except.toOption] using hstep

theorem Streams.step (h : e.Streams xs) (hnew : e.PlaysNew op) (hstep : Step e op e') :
    ∃ ys, e'.Streams ys := by
  cases hop : op.sends with
  | none => exact (h.quiet hnew hop hstep).2.2.2.1
  | some sizes =>
      obtain ⟨b, bytes, samples, results, rfl⟩ := Op.of_sends hop
      obtain ⟨packet, -, -, -, -, hstreams, -⟩ := h.send (send_of_step hstep)
      exact ⟨xs, hstreams⟩

/-! ### Whole runs -/

/-- The packets sent in a run. -/
def packets (trace : List (Engine × Op)) : List Bytes := trace.filterMap fun x => x.1.packetOf x.2

open Classical in
/-- The packets sent in a run while client `c` is on the playing list. -/
noncomputable def packetsWhile (c : ℕ) (trace : List (Engine × Op)) : List Bytes :=
  packets (trace.filter fun x => x.1.playing.Mem c)

/-- The sends of a run from any engine that is ready, numbered from its counters. -/
theorem Streams.packets {ops : List Op} (h : e.Streams xs) (hrun : Run Step e ops e')
    (hnew : Along Step PlaysNew e ops) :
    (packets (trace exec e ops)).length = (ops.filterMap Op.sends).length ∧
      ∀ (k : ℕ) (packet : Bytes), (Engine.packets (trace exec e ops))[k]? = some packet →
        ∃ bytes samples, (ops.filterMap Op.sends)[k]? = some (bytes, samples) ∧
          IsRtpPacket e.codec ((e.packetSeq.toNat + k) % 2 ^ 16)
            ((e.timestamp.toNat + (((ops.filterMap Op.sends).take k).map Prod.snd).sum) % 2 ^ 32)
            bytes packet := by
  induction hrun generalizing xs with
  | nil => exact ⟨rfl, by simp [Transition.trace, Engine.packets]⟩
  | @cons e t u op ops hstep hrest ih =>
      rw [trace_cons hstep]
      cases hop : op.sends with
      | none =>
          obtain ⟨hpacket, hseq, hts, ⟨ys, hys⟩, hcodec, -⟩ := h.quiet hnew.1 hop hstep
          have := ih hys (hnew.2 t hstep)
          rw [hseq, hts, hcodec] at this
          simpa [Engine.packets, hpacket, hop] using this
      | some sizes =>
          obtain ⟨b, bytes, samples, results, rfl⟩ := Op.of_sends hop
          obtain ⟨packet, hpacket, hrtp, hseq, hts, hstreams, hcodec, -⟩ := h.send (send_of_step hstep)
          obtain ⟨hlength, hrtps⟩ := ih hstreams (hnew.2 t hstep)
          have hpackets : Engine.packets ((e, .send b bytes samples results) :: trace exec t ops) =
              packet :: Engine.packets (trace exec t ops) := by
            simp [Engine.packets, hpacket]
          have hsends : (Op.send b bytes samples results :: ops).filterMap Op.sends =
              (bytes, samples) :: ops.filterMap Op.sends := rfl
          rw [hpackets, hsends]
          refine ⟨by simp [hlength], ?_⟩
          intro k packet' hk
          cases k with
          | zero =>
              obtain rfl := Option.some.inj hk
              refine ⟨bytes, samples, rfl, ?_⟩
              simpa [Nat.mod_eq_of_lt e.packetSeq.toNat_lt, Nat.mod_eq_of_lt e.timestamp.toNat_lt] using
                hrtp
          | succ k =>
              obtain ⟨bytes', samples', hsend, hrtp'⟩ := hrtps k packet' hk
              refine ⟨bytes', samples', hsend, ?_⟩
              have hseq' : (t.packetSeq.toNat + k) % 2 ^ 16 = (e.packetSeq.toNat + (k + 1)) % 2 ^ 16 := by
                rw [hseq, UInt16.toNat_add]
                simp only [UInt16.reduceToNat]
                omega
              rw [hcodec, hseq', hts, UInt32.toNat_add, UInt32.toNat_ofNat'] at hrtp'
              convert hrtp' using 1
              simp only [List.take_succ_cons, List.map_cons, List.sum_cons]
              omega

/-- What a client has been sent grows by the packets sent while it is on the playing list. -/
theorem Streams.sentTo {ops : List Op} (h : e.Streams xs) (hrun : Run Step e ops e')
    (hnew : Along Step PlaysNew e ops) (c : ℕ) :
    e'.sentTo c = e.sentTo c ++ packetsWhile c (trace exec e ops) := by
  induction hrun generalizing xs with
  | nil => simp [Transition.trace, packetsWhile, Engine.packets]
  | @cons e t u op ops hstep hrest ih =>
      rw [trace_cons hstep]
      cases hop : op.sends with
      | none =>
          obtain ⟨hpacket, -, -, ⟨ys, hys⟩, -, hsent⟩ := h.quiet hnew.1 hop hstep
          rw [ih hys (hnew.2 t hstep), hsent]
          by_cases hmem : e.playing.Mem c <;> simp [packetsWhile, Engine.packets, hmem, hpacket]
      | some sizes =>
          obtain ⟨b, bytes, samples, results, rfl⟩ := Op.of_sends hop
          obtain ⟨packet, hpacket, -, -, -, hstreams, -, hsent⟩ := h.send (send_of_step hstep)
          rw [ih hstreams (hnew.2 t hstep), hsent]
          by_cases hc : c ∈ xs <;>
            simp [packetsWhile, Engine.packets, h.playing.mem_iff, hc, hpacket]

theorem streams_new (codec : AudioCodec) (rtp rtcp : ℤ) (numBuffers : ℕ) :
    (new codec rtp rtcp numBuffers).Streams [] where
  playing := ⟨LinkedList.holds_empty, by simp⟩
  ready := fun block hmem => by
    rw [List.eq_of_mem_replicate hmem]
    exact Block.ready_new codec

/-- In every run in which `play` is called with clients that are not playing, the packets are
numbered from 1, their timestamps count the samples sent before, and every client is sent exactly the
packets that go out while it is on the playing list, in order, whatever the sockets return. A further
send of a payload that fits completes; `play` puts its client on the list and `remove`, which completes,
takes it off, and neither touches another. -/
theorem packet_stream (codec : AudioCodec) (rtp rtcp : ℤ) (numBuffers : ℕ) (ops : List Op) (e : Engine)
    (hrun : Run Step (new codec rtp rtcp numBuffers) ops e)
    (hnew : Along Step PlaysNew (new codec rtp rtcp numBuffers) ops) :
    (packets (trace exec (new codec rtp rtcp numBuffers) ops)).length =
        (ops.filterMap Op.sends).length ∧
      (∀ (k : ℕ) (packet : Bytes),
        (packets (trace exec (new codec rtp rtcp numBuffers) ops))[k]? = some packet →
          ∃ bytes samples, (ops.filterMap Op.sends)[k]? = some (bytes, samples) ∧
            packet.length = 12 + bytes ∧ IsRtpPacket codec ((1 + k) % 2 ^ 16)
              ((((ops.filterMap Op.sends).take k).map Prod.snd).sum % 2 ^ 32) bytes packet) ∧
      (∀ c, e.sentTo c = packetsWhile c (trace exec (new codec rtp rtcp numBuffers) ops)) ∧
      (∀ b block bytes samples results, e.pool[b]? = some block → bytes ≤ block.maxPayload →
        ∃ e', e.send b bytes samples results = .ok e') ∧
      (∀ c, ¬e.playing.Mem c → ∀ d, (e.play (some c)).playing.Mem d ↔ d = c ∨ e.playing.Mem d) ∧
      ∀ client, ∃ e', e.remove client = .ok e' ∧
        ∀ d, e'.playing.Mem d ↔ e.playing.Mem d ∧ client ≠ some d := by
  have h := streams_new codec rtp rtcp numBuffers
  obtain ⟨hlength, hpackets⟩ := h.packets hrun hnew
  obtain ⟨xs, hend⟩ := hrun.invariant_along (I := fun e => ∃ xs, e.Streams xs)
    (fun _ _ _ ⟨_, h⟩ hnew hstep => h.step hnew hstep) hnew ⟨[], h⟩
  refine ⟨hlength, fun k packet hk => ?_, fun c => h.sentTo hrun hnew c, ?_, fun c hc d => ?_,
    fun client => ?_⟩
  rotate_left
  · intro b block bytes samples results hblock hbytes
    exact ⟨_, send_eq_ok.2 ⟨block, xs, hblock, hbytes, hend.playing.visit, rfl⟩⟩
  · rw [hend.playing.mem_iff] at hc ⊢
    exact ((hend.playing.holds.push hc).mem_iff).trans List.mem_cons
  · obtain ⟨playing, hremove, hholds⟩ := hend.playing.remove client
    refine ⟨_, hremove, fun d => ?_⟩
    rw [hend.playing.mem_iff]
    exact hholds.mem_iff.trans (mem_without hend.playing.holds.nodup)
  obtain ⟨bytes, samples, hsend, hrtp⟩ := hpackets k packet hk
  have hzero : (new codec rtp rtcp numBuffers).timestamp.toNat = 0 := rfl
  rw [hzero, Nat.zero_add] at hrtp
  refine ⟨bytes, samples, hsend, ?_, hrtp⟩
  obtain ⟨head, payload, rfl, rfl, -⟩ := hrtp
  rw [List.length_append, Vector.length_toList]

/-- Every `play` is of a client that exists and that the playing list does not have. -/
def playsNew (e : Engine) : Op → Bool
  | .play (some c) => c < e.clients.length ∧
      (e.playing.visit e.clients.length).any fun visited => c ∉ visited
  | _ => true

theorem playsNew_sound {op : Op} (h : e.playsNew op = true) : e.PlaysNew op := by
  cases op with
  | play client =>
      cases client with
      | none => trivial
      | some c =>
          simp only [playsNew, Option.any_eq_true, decide_eq_true_eq] at h
          obtain ⟨hexists, visited, hvisit, hnot⟩ := h
          exact ⟨hexists, fun hmem => hnot ((LinkedList.holds_of_visit hvisit).mem_iff.1 hmem)⟩
  | _ => trivial

/-- Two clients, one of which joins later and stays when the other leaves; no socket sends. -/
theorem packet_stream_two_clients : ∃ e, Run Step (new (AudioCodec.createPcm ⟨16, 2, 48000⟩) 6000 6001 2)
    [.newClient none 5000 true, .newClient none 5002 true, .play (some 0), .getFree, .writeAudio 1 [1, 2, 3, 4],
      .send 1 4 1 fun _ => -1, .play (some 1), .send 0 1440 360 fun _ => -1, .remove (some 0),
      .send 1 8 2 fun _ => -1] e ∧
    ∀ c, e.sentTo c = packetsWhile c (trace exec (new (AudioCodec.createPcm ⟨16, 2, 48000⟩) 6000 6001 2)
      [.newClient none 5000 true, .newClient none 5002 true, .play (some 0), .getFree,
        .writeAudio 1 [1, 2, 3, 4], .send 1 4 1 fun _ => -1, .play (some 1),
        .send 0 1440 360 fun _ => -1, .remove (some 0), .send 1 8 2 fun _ => -1]) := by
  obtain ⟨e, he⟩ := Option.isSome_iff_exists.1 (show (execAll exec
    (new (AudioCodec.createPcm ⟨16, 2, 48000⟩) 6000 6001 2)
    [.newClient none 5000 true, .newClient none 5002 true, .play (some 0), .getFree, .writeAudio 1 [1, 2, 3, 4],
      .send 1 4 1 fun _ => -1, .play (some 1), .send 0 1440 360 fun _ => -1, .remove (some 0),
      .send 1 8 2 fun _ => -1]).isSome = true by decide +kernel)
  exact ⟨e, run_of_execAll he, (packet_stream _ _ _ _ _ e (run_of_execAll he)
    (along_of_allAlong (fun _ _ => playsNew_sound) (by decide +kernel))).2.2.1⟩

end Engine

end WifiAudio
