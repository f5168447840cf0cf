import WifiAudio.Lib.Region

/-!
# Memory in another place

A string does not change its meaning when there is more memory in front of it. What a function does
at a place of `m` it does in `n`, where `m` lies `k` places further on, with the pointers it returns
moved as far.
-/

namespace CString

/-- The memory `m` lies in `n` from `k` on, up to the end. -/
structure Moved (k : ℕ) (m n : Bytes) : Prop where
  drop_eq : n.drop k = m
  le : k ≤ n.length

variable {k p q : ℕ} {m n m' s : Bytes} {b d : UInt8}

theorem moved_drop (hp : p ≤ m.length) : Moved p (m.drop p) m := ⟨rfl, hp⟩

/-! ### Reading -/

theorem Moved.length_eq (h : Moved k m n) : n.length = k + m.length := by
  rw [← h.drop_eq, List.length_drop, Nat.add_sub_cancel' h.le]

theorem Moved.drop_add (h : Moved k m n) (p : ℕ) : n.drop (k + p) = m.drop p := by
  rw [← List.drop_drop, h.drop_eq]

theorem Moved.getElem? (h : Moved k m n) (p : ℕ) : n[k + p]? = m[p]? := by
  rw [← h.drop_eq, List.getElem?_drop]

theorem Moved.load (h : Moved k m n) (p : ℕ) : load n (k + p) = load m p := by
  rw [CString.load, CString.load, h.getElem?]

theorem Moved.string (h : Moved k m n) (p : ℕ) : string n (k + p) = string m p := by
  rw [CString.string, CString.string, h.drop_add, h.length_eq]
  simp only [Nat.add_assoc, Nat.add_lt_add_iff_left]

theorem Moved.strcmpEq (h : Moved k m n) (p : ℕ) (s : Bytes) :
    strcmpEq n (k + p) s = strcmpEq m p s := by
  rw [CString.strcmpEq, CString.strcmpEq, h.string]

theorem Moved.strncmpEq (h : Moved k m n) (p : ℕ) (s : Bytes) :
    strncmpEq n (k + p) s = strncmpEq m p s := by
  induction s generalizing p with
  | nil => rfl
  | cons c s ih =>
      rw [CString.strncmpEq, CString.strncmpEq, h.load, Nat.add_assoc, ih]

/-! ### Writing -/

theorem Moved.set (h : Moved k m n) (p : ℕ) (b : UInt8) : Moved k (m.set p b) (n.set (k + p) b) := by
  constructor
  · rw [List.drop_set, if_neg (by omega), Nat.add_sub_cancel_left, h.drop_eq]
  · rw [List.length_set]
    exact h.le

theorem Moved.store (h : Moved k m n) (hstore : store m p b = .ok m') :
    ∃ n', store n (k + p) b = .ok n' ∧ Moved k m' n' := by
  rw [CString.store] at hstore
  split at hstore
  · obtain rfl := Except.ok.inj hstore
    have hlt : k + p < n.length := by
      rw [h.length_eq]
      omega
    exact ⟨_, if_pos hlt, h.set p b⟩
  · cases hstore

theorem Moved.strtok_r (h : Moved k m n) {start save tok stop : Option ℕ}
    (hcall : strtok_r m start d save = .ok (tok, stop, m')) :
    ∃ n', strtok_r n (start.map (k + ·)) d (save.map (k + ·)) =
        .ok (tok.map (k + ·), stop.map (k + ·), n') ∧ Moved k m' n' := by
  have hmap : (start.map (k + ·) <|> save.map (k + ·)) = (start <|> save).map (k + ·) := by
    cases start <;> rfl
  rw [CString.strtok_r] at hcall ⊢
  rw [hmap]
  cases hq : (start <|> save) with
  | none =>
      rw [hq] at hcall
      cases hcall
  | some q =>
      rw [hq] at hcall
      obtain ⟨l, hstring, hcall⟩ := Except.bind_eq_ok.1 hcall
      simp only [Option.map_some, h.string, hstring, Except.ok_bind]
      simp only [] at hcall
      split at hcall
      case isTrue hempty =>
        obtain ⟨rfl, rfl, rfl⟩ : none = tok ∧ some _ = stop ∧ m = m' := by simpa using hcall
        rw [if_pos hempty]
        exact ⟨n, by simp [Nat.add_assoc], h⟩
      case isFalse hempty =>
        rw [if_neg hempty]
        split at hcall
        case isTrue hmore =>
          obtain ⟨rfl, rfl, rfl⟩ : some _ = tok ∧ some _ = stop ∧ m.set _ 0 = m' := by simpa using hcall
          rw [if_pos hmore]
          refine ⟨_, ?_, h.set _ 0⟩
          simp [Nat.add_assoc]
        case isFalse hlast =>
          obtain ⟨rfl, rfl, rfl⟩ : some _ = tok ∧ some _ = stop ∧ m = m' := by simpa using hcall
          rw [if_neg hlast]
          exact ⟨n, by simp [Nat.add_assoc], h⟩

end CString
