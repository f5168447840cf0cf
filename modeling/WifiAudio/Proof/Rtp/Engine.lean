import WifiAudio.Rtp.Engine
import Mathlib.Data.List.Perm.Subperm

/-!
# The engine's operations on a well formed playing list

While the playing list holds a sequence of clients that exist, adding and removing clients act on
that sequence, and the walk of `send` visits it in order and ends.
-/

namespace WifiAudio

open Except

namespace Engine

variable {e e' : Engine} {xs : List ℕ}

/-- The playing list holds `xs`, clients that exist. -/
structure Playing (e : Engine) (xs : List ℕ) : Prop where
  holds : e.playing.Holds xs
  exist : ∀ c ∈ xs, c < e.clients.length

theorem Playing.length_le (h : e.Playing xs) : xs.length ≤ e.clients.length := by
  have hsubset : xs ⊆ List.range e.clients.length := fun c hc => List.mem_range.2 (h.exist c hc)
  simpa using (List.subperm_of_subset h.holds.nodup hsubset).length_le

theorem Playing.mem_iff {c : ℕ} (h : e.Playing xs) : e.playing.Mem c ↔ c ∈ xs := h.holds.mem_iff

theorem Playing.visit (h : e.Playing xs) : e.playing.visit e.clients.length = some xs :=
  h.holds.visit h.length_le

theorem remove_eq_ok {client : Option ℕ} (h : e.remove client = .ok e') :
    ∃ playing, e' = { e with playing := playing } := by
  cases client with
  | none => exact ⟨e.playing, (Except.ok.inj h).symm⟩
  | some c =>
      unfold remove at h
      cases hplaying : e.playing.remove e.clients.length c with
      | none => simp [hplaying] at h
      | some playing => exact ⟨playing, by simpa [hplaying, eq_comm] using h⟩

theorem remove_clients {client : Option ℕ} (h : e.remove client = .ok e') : e'.clients = e.clients := by
  obtain ⟨playing, rfl⟩ := remove_eq_ok h
  rfl

theorem remove_links {client : Option ℕ} (h : e.remove client = .ok e') {c : ℕ}
    (hc : e'.playing.Links c) : e.playing.Links c := by
  cases client with
  | none => exact Except.ok.inj h ▸ hc
  | some d =>
      unfold remove at h
      cases hplaying : e.playing.remove e.clients.length d with
      | none => simp [hplaying] at h
      | some playing =>
          obtain rfl : { e with playing := playing } = e' := by simpa [hplaying] using h
          exact LinkedList.links_remove hplaying hc

/-- When every link leads to a client that exists, a removal ends just in case the links lead to the
client or to the end. -/
theorem remove_completes_iff (hlinks : ∀ c, e.playing.Links c → c < e.clients.length)
    {client : Option ℕ} : (∃ e', e.remove client = .ok e') ↔
      ∀ c, client = some c → e.playing.Ends ∨ e.playing.Mem c := by
  cases client with
  | none => simp [remove]
  | some c =>
      have hitems : ∀ d, e.playing.Links d → d ∈ Finset.range e.clients.length :=
        fun d hd => Finset.mem_range.2 (hlinks d hd)
      have hremove := LinkedList.remove_isSome_iff (i := c) hitems (Finset.card_range _).le
      simp only [Option.some.injEq, forall_eq']
      rw [← hremove, remove]
      cases e.playing.remove e.clients.length c <;> simp

theorem Playing.remove (h : e.Playing xs) (client : Option ℕ) :
    ∃ playing, e.remove client = .ok { e with playing := playing } ∧
      playing.Holds (client.elim xs xs.erase) := by
  cases client with
  | none => exact ⟨e.playing, rfl, h.holds⟩
  | some c =>
      obtain ⟨playing, hremove, hholds⟩ := h.holds.remove h.length_le c
      exact ⟨playing, by rw [Engine.remove, hremove], hholds⟩

theorem Playing.removed (h : e.Playing xs) {client : Option ℕ} (hremove : e.remove client = .ok e') :
    ∃ playing, e' = { e with playing := playing } ∧ playing.Holds (client.elim xs xs.erase) := by
  obtain ⟨playing, hremove', hholds⟩ := h.remove client
  have he : { e with playing := playing } = e' := Except.ok.inj (hremove'.symm.trans hremove)
  exact ⟨playing, he.symm, hholds⟩

/-- The sequence left when a client, or the null pointer, is taken off. -/
theorem mem_without (hnodup : xs.Nodup) {client : Option ℕ} {c : ℕ} :
    c ∈ client.elim xs xs.erase ↔ c ∈ xs ∧ client ≠ some c := by
  cases client with
  | none => simp
  | some d =>
      rw [Option.elim_some, hnodup.mem_erase_iff, and_comm, ne_comm]
      simp

theorem Playing.play {c : ℕ} (h : e.Playing xs) (hc : c ∉ xs) (hexists : c < e.clients.length) :
    (e.play (some c)).Playing (c :: xs) := by
  refine ⟨h.holds.push hc, ?_⟩
  intro d hd
  rcases List.mem_cons.1 hd with rfl | hd
  · exact hexists
  · exact h.exist d hd

@[simp] theorem playing_deleteClient (client : Option ℕ) :
    (e.deleteClient client).playing = e.playing := by
  cases client <;> rfl

@[simp] theorem clients_deleteClient (client : Option ℕ) :
    (e.deleteClient client).clients = e.clients := by
  cases client <;> rfl

theorem mem_freed_deleteClient {client : Option ℕ} {c : ℕ} :
    c ∈ (e.deleteClient client).freed ↔ c ∈ e.freed ∨ client = some c := by
  cases client with
  | none => simp [deleteClient]
  | some d => simp [deleteClient, eq_comm]

theorem getFree_frame (e : Engine) : e.getFree.2.playing = e.playing ∧
    e.getFree.2.clients = e.clients ∧ e.getFree.2.freed = e.freed := by
  unfold getFree
  cases e.blocks.pop <;> exact ⟨rfl, rfl, rfl⟩

@[simp] theorem length_sendAll (data : Bytes) (results : ℕ → ℤ) (visited : List ℕ)
    (clients : List RtpClient) : (sendAll data results visited clients).length = clients.length := by
  induction visited generalizing clients with
  | nil => rfl
  | cons c visited ih => exact (ih _).trans (List.length_modify _ _ _)

/-- What a completed send does: the block is stamped and returned to the free list, both counters
advance and the packet goes to the clients of the playing list. -/
theorem send_eq_ok {b bytes samples : ℕ} {results : ℕ → ℤ} :
    e.send b bytes samples results = .ok e' ↔
      ∃ block visited, e.pool[b]? = some block ∧ bytes ≤ block.maxPayload ∧
        e.playing.visit e.clients.length = some visited ∧
        e' = putFree
          { e with
            pool := e.pool.set b (block.stamp e.packetSeq e.timestamp)
            packetSeq := e.packetSeq + 1
            timestamp := e.timestamp + UInt32.ofNat samples
            clients := sendAll ((block.stamp e.packetSeq e.timestamp).packet bytes) results visited
              e.clients } b := by
  cases hblock : e.pool[b]? with
  | none => simp [send, hblock]
  | some block =>
      by_cases hbytes : block.maxPayload < bytes
      · simp [send, hblock, hbytes, not_le.2 hbytes]
      · cases hvisit : e.playing.visit e.clients.length with
        | none => simp [send, hblock, hbytes, hvisit]
        | some visited =>
            simp [send, hblock, hbytes, hvisit, not_lt.1 hbytes, eq_comm]

end Engine

end WifiAudio
