import Mathlib.Data.Finset.Card
import Mathlib.Data.List.Basic
import Mathlib.Data.List.Nodup
import Mathlib.Data.Nat.Find
import Mathlib.Logic.Function.Basic

/-!
# Intrusive singly linked lists

The items live in a heap and carry the link themselves: `next i` is the item behind `i`. A list is
the first item and that link field of every item. `push` puts an item in front through the item's
own link, `remove` unlinks the first occurrence it meets, `visit` follows the links to the end.

Nothing forces the links to describe a finite sequence: pushing an item that is already linked
closes a cycle. `Holds l xs` says that they do describe `xs`. Under it the operations act as on an
ordinary list without duplicates; a cyclic list holds no sequence at all, and walking it does not
end. The walks are executable, so they take a number of links to follow and answer `none` when the
end has not been reached by then.
-/

/-- The head of a list and the link field of every item. -/
structure LinkedList (ι : Type*) where
  head : Option ι
  next : ι → Option ι

namespace LinkedList

variable {ι : Type*}

/-- No item linked, every link field null. -/
def empty : LinkedList ι := ⟨none, fun _ => none⟩

/-- The item met after following `n` links from the head. -/
def nodeAt (l : LinkedList ι) : ℕ → Option ι
  | 0 => l.head
  | n + 1 => (l.nodeAt n).bind l.next

/-- `i` is met when the links are followed from the head. -/
def Mem (l : LinkedList ι) (i : ι) : Prop := ∃ n, l.nodeAt n = some i

/-- Following the links meets `i` at most once. -/
def OccursOnce (l : LinkedList ι) (i : ι) : Prop :=
  ∀ m n, l.nodeAt m = some i → l.nodeAt n = some i → m = n

/-- Following the links reaches the null link. -/
def Ends (l : LinkedList ι) : Prop := ∃ n, l.nodeAt n = none

/-- The items met from `p` on, at most `fuel` of them; `none` when the walk has not ended. -/
def walk (next : ι → Option ι) : ℕ → Option ι → Option (List ι)
  | _, none => some []
  | 0, some _ => none
  | fuel + 1, some i => (walk next fuel (next i)).map (i :: ·)

/-- The items a visit of the whole list meets, in order. -/
def visit (l : LinkedList ι) (fuel : ℕ) : Option (List ι) := walk l.next fuel l.head

section Operations

variable [DecidableEq ι]

/-- Link `i` in front of the head. -/
def push (l : LinkedList ι) (i : ι) : LinkedList ι :=
  ⟨some i, Function.update l.next i l.head⟩

/-- Take the item at the head off the list. -/
def pop (l : LinkedList ι) : Option (ι × LinkedList ι) :=
  l.head.map fun i => (i, { l with head := l.next i })

/-- Make the link that leads to `i`, the head or the one in `prev`, skip it. -/
def unlink (l : LinkedList ι) (prev : Option ι) (i : ι) : LinkedList ι :=
  match prev with
  | none => { l with head := l.next i }
  | some p => { l with next := Function.update l.next p (l.next i) }

/-- Look for `i` from `cur` on, whose predecessor is `prev`, and unlink it. -/
def removeFrom (l : LinkedList ι) (i : ι) : ℕ → Option ι → Option ι → Option (LinkedList ι)
  | _, _, none => some l
  | 0, _, some _ => none
  | fuel + 1, prev, some j =>
      if j = i then some (l.unlink prev i) else l.removeFrom i fuel (some j) (l.next j)

/-- Unlink the first occurrence of `i`. -/
def remove (l : LinkedList ι) (fuel : ℕ) (i : ι) : Option (LinkedList ι) :=
  l.removeFrom i fuel none l.head

end Operations

/-! ### Sequences of links -/

/-- The links lead from `p` through `xs` to `q`. -/
def Path (next : ι → Option ι) : Option ι → List ι → Option ι → Prop
  | p, [], q => p = q
  | p, x :: xs, q => p = some x ∧ Path next (next x) xs q

/-- The list holds exactly the sequence `xs`. -/
def Holds (l : LinkedList ι) (xs : List ι) : Prop := Path l.next l.head xs none

@[simp] theorem path_nil {next : ι → Option ι} {p q : Option ι} : Path next p [] q ↔ p = q := Iff.rfl

@[simp] theorem path_cons {next : ι → Option ι} {p q : Option ι} {x : ι} {xs : List ι} :
    Path next p (x :: xs) q ↔ p = some x ∧ Path next (next x) xs q := Iff.rfl

theorem path_append {next : ι → Option ι} {p q : Option ι} {xs ys : List ι} :
    Path next p (xs ++ ys) q ↔ ∃ r, Path next p xs r ∧ Path next r ys q := by
  induction xs generalizing p with
  | nil => simp
  | cons x xs ih => simp [ih, and_assoc]

theorem path_unique {next : ι → Option ι} {p : Option ι} {xs ys : List ι}
    (hxs : Path next p xs none) (hys : Path next p ys none) : xs = ys := by
  induction xs generalizing p ys with
  | nil =>
      cases ys with
      | nil => rfl
      | cons y ys => exact absurd (hxs.symm.trans hys.1) (by simp)
  | cons x xs ih =>
      cases ys with
      | nil => exact absurd (hys.symm.trans hxs.1) (by simp)
      | cons y ys =>
          obtain rfl : x = y := Option.some.inj (hxs.1.symm.trans hys.1)
          rw [ih hxs.2 hys.2]

/-- A path to null meets no item twice: after a repeated item it would go round for ever. -/
theorem path_nodup {next : ι → Option ι} {p : Option ι} {xs : List ι}
    (h : Path next p xs none) : xs.Nodup := by
  induction xs generalizing p with
  | nil => exact List.nodup_nil
  | cons x xs ih =>
      refine List.nodup_cons.2 ⟨?_, ih h.2⟩
      intro hmem
      obtain ⟨before, after, rfl⟩ := List.append_of_mem hmem
      obtain ⟨r, -, hr⟩ := path_append.1 h.2
      have hloop : before ++ x :: after = after := path_unique h.2 hr.2
      have hlength := congrArg List.length hloop
      simp only [List.length_append, List.length_cons] at hlength
      omega

theorem path_update [DecidableEq ι] {next : ι → Option ι} {p q v : Option ι} {xs : List ι} {i : ι}
    (hi : i ∉ xs) : Path (Function.update next i v) p xs q ↔ Path next p xs q := by
  induction xs generalizing p with
  | nil => rfl
  | cons x xs ih =>
      have hne : x ≠ i := fun he => hi (he ▸ List.mem_cons_self)
      rw [path_cons, path_cons, Function.update_of_ne hne,
        ih fun hmem => hi (List.mem_cons_of_mem x hmem)]

theorem path_walk {next : ι → Option ι} {p : Option ι} {xs : List ι} {fuel : ℕ}
    (h : Path next p xs none) (hfuel : xs.length ≤ fuel) : walk next fuel p = some xs := by
  induction xs generalizing p fuel with
  | nil => rw [path_nil.1 h, walk.eq_1]
  | cons x xs ih =>
      obtain ⟨fuel, rfl⟩ : ∃ n, fuel = n + 1 := ⟨fuel - 1, by simp at hfuel; omega⟩
      rw [h.1, walk, ih h.2 (by simpa using hfuel)]
      rfl

/-! ### What a list that holds a sequence does -/

variable {l l' : LinkedList ι} {xs ys : List ι} {i : ι}

theorem holds_empty : (empty : LinkedList ι).Holds [] := rfl

theorem Holds.nodup (h : l.Holds xs) : xs.Nodup := path_nodup h

theorem Holds.unique (h : l.Holds xs) (h' : l.Holds ys) : xs = ys := path_unique h h'

private theorem path_of_walk {next : ι → Option ι} {p : Option ι} {fuel : ℕ}
    (h : walk next fuel p = some xs) : Path next p xs none := by
  induction fuel generalizing p xs with
  | zero =>
      cases p with
      | none => exact Option.some.inj h ▸ rfl
      | some i => cases h
  | succ fuel ih =>
      cases p with
      | none => exact Option.some.inj h ▸ rfl
      | some i =>
          obtain ⟨ys, hys, rfl⟩ := Option.map_eq_some_iff.1 h
          exact ⟨rfl, ih hys⟩

/-- A visit that ends shows what the list holds. -/
theorem holds_of_visit {fuel : ℕ} (h : l.visit fuel = some xs) : l.Holds xs := path_of_walk h

theorem Holds.visit {fuel : ℕ} (h : l.Holds xs) (hfuel : xs.length ≤ fuel) :
    l.visit fuel = some xs :=
  path_walk h hfuel

private theorem path_nodeAt {p : Option ι} (h : Path l.next p xs none) {k : ℕ}
    (hk : l.nodeAt k = p) (n : ℕ) : l.nodeAt (k + n) = xs[n]? := by
  induction xs generalizing p k n with
  | nil =>
      obtain rfl : p = none := h
      induction n with
      | zero => simpa using hk
      | succ n ih => rw [← Nat.add_assoc, nodeAt, ih]; simp
  | cons x xs ih =>
      cases n with
      | zero => simpa [h.1] using hk
      | succ n =>
          have hnext : l.nodeAt (k + 1) = l.next x := by rw [nodeAt, hk, h.1]; rfl
          have := ih h.2 hnext n
          rw [show k + (n + 1) = k + 1 + n from by omega, this, List.getElem?_cons_succ]

theorem Holds.nodeAt (h : l.Holds xs) (n : ℕ) : l.nodeAt n = xs[n]? := by
  have := path_nodeAt h (k := 0) rfl n
  simpa using this

theorem Holds.mem_iff (h : l.Holds xs) : l.Mem i ↔ i ∈ xs := by
  simp only [Mem, h.nodeAt, List.mem_iff_getElem?]

theorem Holds.occursOnce (h : l.Holds xs) (i : ι) : l.OccursOnce i := by
  intro m n hm hn
  rw [h.nodeAt] at hm hn
  obtain ⟨hm', hm⟩ := List.getElem?_eq_some_iff.1 hm
  obtain ⟨hn', hn⟩ := List.getElem?_eq_some_iff.1 hn
  exact (h.nodup.getElem_inj_iff).1 (hm.trans hn.symm)

/-- A list whose first item is linked to itself meets nothing else, and does not end. -/
theorem nodeAt_loop (hhead : l.head = some i) (hnext : l.next i = some i) (n : ℕ) :
    l.nodeAt n = some i := by
  induction n with
  | zero => exact hhead
  | succ n ih => rw [LinkedList.nodeAt, ih, Option.bind_some, hnext]

theorem Holds.ends (h : l.Holds xs) : l.Ends := ⟨xs.length, by rw [h.nodeAt]; simp⟩

theorem nodeAt_add {a b : ℕ} (h : l.nodeAt a = l.nodeAt b) (n : ℕ) :
    l.nodeAt (a + n) = l.nodeAt (b + n) := by
  induction n with
  | zero => exact h
  | succ n ih => rw [← Nat.add_assoc, ← Nat.add_assoc, LinkedList.nodeAt, LinkedList.nodeAt, ih]

/-- A link, the head or some item's, leads to `i`. -/
def Links (l : LinkedList ι) (i : ι) : Prop := l.head = some i ∨ ∃ j, l.next j = some i

theorem links_of_nodeAt {n : ℕ} (h : l.nodeAt n = some i) : l.Links i := by
  cases n with
  | zero => exact .inl h
  | succ n =>
      obtain ⟨j, -, hj⟩ := Option.bind_eq_some_iff.1 h
      exact .inr ⟨j, hj⟩

theorem Holds.pop {l' : LinkedList ι} (h : l.Holds xs) (hpop : l.pop = some (i, l')) :
    ∃ ys, xs = i :: ys ∧ l'.Holds ys := by
  obtain ⟨j, hhead, hresult⟩ := Option.map_eq_some_iff.1 hpop
  obtain ⟨rfl, rfl⟩ := Prod.mk.inj hresult
  cases xs with
  | nil => cases hhead.symm.trans h
  | cons x xs =>
      obtain rfl := Option.some.inj (hhead.symm.trans h.1)
      exact ⟨xs, rfl, h.2⟩

theorem Holds.pop_none (h : l.Holds xs) (hpop : l.pop = none) : xs = [] := by
  cases xs with
  | nil => rfl
  | cons x xs =>
      rw [LinkedList.pop, h.1] at hpop
      cases hpop

section Operations

variable [DecidableEq ι]

theorem Holds.push (h : l.Holds xs) (hi : i ∉ xs) : (l.push i).Holds (i :: xs) := by
  refine ⟨rfl, ?_⟩
  change Path (Function.update l.next i l.head) (Function.update l.next i l.head i) xs none
  rw [Function.update_self]
  exact (path_update hi).2 h

theorem Holds.pushAll {is : List ι} (h : l.Holds xs) (hnodup : is.Nodup) (hnew : ∀ i ∈ is, i ∉ xs) :
    (is.foldl LinkedList.push l).Holds (is.reverse ++ xs) := by
  induction is generalizing l xs with
  | nil => exact h
  | cons i is ih =>
      obtain ⟨hi, hnodup⟩ := List.nodup_cons.1 hnodup
      obtain ⟨hix, hnew⟩ := List.forall_mem_cons.1 hnew
      rw [List.foldl_cons, List.reverse_cons, List.append_assoc]
      apply ih (h.push hix) hnodup
      intro j hj hmem
      rcases List.mem_cons.1 hmem with rfl | hmem
      · exact hi hj
      · exact hnew j hj hmem

private theorem unlink_holds {before after : List ι} (h : l.Holds (before ++ i :: after)) :
    (l.unlink before.getLast? i).Holds (before ++ after) := by
  have hnodup := h.nodup
  obtain ⟨r, hbefore, hr, hafter⟩ := path_append.1 h
  rcases List.eq_nil_or_concat before with rfl | ⟨start, p, rfl⟩
  · exact hafter
  · rw [List.concat_eq_append] at *
    obtain ⟨q, hstart, hq, rfl⟩ := path_append.1 hbefore
    rw [List.getLast?_append_cons, List.getLast?_singleton]
    have hp : p ∉ start ∧ p ∉ after := by
      simp only [List.append_assoc, List.cons_append, List.nil_append, List.nodup_append,
        List.nodup_cons, List.mem_cons, not_or] at hnodup
      exact ⟨fun hmem => (hnodup.2.2 p hmem p (by simp)) rfl, hnodup.2.1.1.2⟩
    refine path_append.2 ⟨l.next i, path_append.2 ⟨q, (path_update hp.1).2 hstart, hq, ?_⟩,
      (path_update hp.2).2 hafter⟩
    exact Function.update_self ..

private theorem removeFrom_absent {p prev : Option ι} {fuel : ℕ} (h : Path l.next p xs none)
    (hfuel : xs.length ≤ fuel) (hi : i ∉ xs) : l.removeFrom i fuel prev p = some l := by
  induction xs generalizing p prev fuel with
  | nil => rw [path_nil.1 h, removeFrom.eq_1]
  | cons x xs ih =>
      obtain ⟨fuel, rfl⟩ : ∃ n, fuel = n + 1 := ⟨fuel - 1, by simp at hfuel; omega⟩
      rw [List.mem_cons, not_or] at hi
      rw [h.1, removeFrom, if_neg (Ne.symm hi.1)]
      exact ih h.2 (by simpa using hfuel) hi.2

private theorem removeFrom_found {p prev : Option ι} {fuel : ℕ} {before after : List ι}
    (h : Path l.next p (before ++ i :: after) none) (hfuel : before.length < fuel)
    (hi : i ∉ before) :
    l.removeFrom i fuel prev p = some (l.unlink (before.getLast?.or prev) i) := by
  induction before generalizing p prev fuel with
  | nil =>
      obtain ⟨fuel, rfl⟩ : ∃ n, fuel = n + 1 := ⟨fuel - 1, by simp at hfuel; omega⟩
      rw [h.1, removeFrom, if_pos rfl]
      rfl
  | cons x before ih =>
      obtain ⟨fuel, rfl⟩ : ∃ n, fuel = n + 1 := ⟨fuel - 1, by simp at hfuel; omega⟩
      rw [List.mem_cons, not_or] at hi
      rw [h.1, removeFrom, if_neg (Ne.symm hi.1), ih h.2 (by simpa using hfuel) hi.2]
      cases before <;> simp [List.getLast?_cons]

/-- Removing an item from a list that holds a sequence ends, and removes it there. -/
theorem Holds.remove {fuel : ℕ} (h : l.Holds xs) (hfuel : xs.length ≤ fuel) (i : ι) :
    ∃ l', l.remove fuel i = some l' ∧ l'.Holds (xs.erase i) := by
  by_cases hi : i ∈ xs
  · obtain ⟨before, after, hbefore, rfl, herase⟩ := List.exists_erase_eq hi
    refine ⟨l.unlink before.getLast? i, ?_, ?_⟩
    · have hlength : before.length < fuel := by
        simp only [List.length_append, List.length_cons] at hfuel
        omega
      have hfound : l.removeFrom i fuel none l.head = _ := removeFrom_found h hlength hbefore
      rwa [Option.or_none] at hfound
    · rw [herase]
      exact unlink_holds h
  · exact ⟨l, removeFrom_absent h hfuel hi, by rwa [List.erase_of_not_mem hi]⟩

/-! ### When a removal ends

On any list, whether it holds a sequence or goes round. -/

theorem links_push {j : ι} (h : (l.push j).Links i) : i = j ∨ l.Links i := by
  rcases h with hhead | ⟨k, hk⟩
  · exact .inl (Option.some.inj hhead).symm
  · by_cases hkj : k = j
    · subst hkj
      have hself : (l.push k).next k = l.head := Function.update_self ..
      exact .inr (.inl (hself.symm.trans hk))
    · have hother : (l.push j).next k = l.next k := Function.update_of_ne hkj ..
      exact .inr (.inr ⟨k, hother.symm.trans hk⟩)

private theorem links_unlink {prev : Option ι} {j : ι} (h : (l.unlink prev j).Links i) :
    l.Links i := by
  cases prev with
  | none =>
      rcases h with hhead | hnext
      · exact .inr ⟨j, hhead⟩
      · exact .inr hnext
  | some p =>
      rcases h with hhead | ⟨k, hk⟩
      · exact .inl hhead
      · by_cases hkp : k = p
        · subst hkp
          have hself : (l.unlink (some k) j).next k = l.next j := Function.update_self ..
          exact .inr ⟨j, hself.symm.trans hk⟩
        · have hother : (l.unlink (some p) j).next k = l.next k := Function.update_of_ne hkp ..
          exact .inr ⟨k, hother.symm.trans hk⟩

private theorem links_removeFrom {fuel : ℕ} {prev p : Option ι} {j : ι}
    (h : l.removeFrom j fuel prev p = some l') (hi : l'.Links i) : l.Links i := by
  induction fuel generalizing prev p with
  | zero =>
      cases p with
      | none => exact Option.some.inj h ▸ hi
      | some k => cases h
  | succ fuel ih =>
      cases p with
      | none => exact Option.some.inj h ▸ hi
      | some k =>
          rw [removeFrom] at h
          split at h
          · exact links_unlink (Option.some.inj h ▸ hi)
          · exact ih h

theorem links_remove {fuel : ℕ} {j : ι} (h : l.remove fuel j = some l') (hi : l'.Links i) :
    l.Links i := links_removeFrom h hi

private theorem removeFrom_isSome {k fuel : ℕ} {prev p : Option ι} (hk : l.nodeAt k = p) :
    (l.removeFrom i fuel prev p).isSome ↔
      ∃ n, n ≤ fuel ∧ l.nodeAt (k + n) = none ∨ n < fuel ∧ l.nodeAt (k + n) = some i := by
  induction fuel generalizing k prev p with
  | zero =>
      cases p with
      | none => exact iff_of_true rfl ⟨0, .inl ⟨le_rfl, hk⟩⟩
      | some j =>
          refine iff_of_false (by simp [removeFrom]) ?_
          rintro ⟨n, ⟨hn, hnone⟩ | ⟨hn, -⟩⟩
          · obtain rfl := Nat.le_zero.1 hn
            cases hk.symm.trans hnone
          · exact Nat.not_lt_zero n hn
  | succ fuel ih =>
      cases p with
      | none => exact iff_of_true rfl ⟨0, .inl ⟨Nat.zero_le _, hk⟩⟩
      | some j =>
          rw [removeFrom]
          by_cases hji : j = i
          · rw [if_pos hji]
            exact iff_of_true rfl ⟨0, .inr ⟨Nat.zero_lt_succ _, hk.trans (congrArg some hji)⟩⟩
          · have hnext : l.nodeAt (k + 1) = l.next j := by rw [nodeAt, hk, Option.bind_some]
            rw [if_neg hji, ih hnext]
            constructor
            · rintro ⟨n, hn⟩
              rw [Nat.add_right_comm, Nat.add_assoc] at hn
              exact ⟨n + 1, hn.imp (fun h => ⟨Nat.succ_le_succ h.1, h.2⟩)
                fun h => ⟨Nat.succ_lt_succ h.1, h.2⟩⟩
            · rintro ⟨n, hn⟩
              cases n with
              | zero =>
                  simp only [Nat.add_zero, hk] at hn
                  rcases hn with ⟨-, hnone⟩ | ⟨-, hsome⟩
                  · cases hnone
                  · exact absurd (Option.some.inj hsome) hji
              | succ n =>
                  refine ⟨n, ?_⟩
                  rw [Nat.add_right_comm, Nat.add_assoc]
                  exact hn.imp (fun h => ⟨Nat.le_of_succ_le_succ h.1, h.2⟩)
                    fun h => ⟨Nat.lt_of_succ_lt_succ h.1, h.2⟩

/-- With a step for every item there may be, a removal ends when the links lead to the item or to
the end. -/
theorem remove_isSome_iff {items : Finset ι} {fuel : ℕ} (hitems : ∀ j, l.Links j → j ∈ items)
    (hfuel : items.card ≤ fuel) : (l.remove fuel i).isSome ↔ l.Ends ∨ l.Mem i := by
  have hplaces : (l.remove fuel i).isSome ↔ _ := removeFrom_isSome (k := 0) rfl
  simp only [Nat.zero_add] at hplaces
  rw [hplaces]
  constructor
  · rintro ⟨n, ⟨-, hnone⟩ | ⟨-, hsome⟩⟩
    · exact .inl ⟨n, hnone⟩
    · exact .inr ⟨n, hsome⟩
  · intro hreaches
    have hexists : ∃ n, l.nodeAt n = none ∨ l.nodeAt n = some i := by
      rcases hreaches with ⟨n, hnone⟩ | ⟨n, hsome⟩
      · exact ⟨n, .inl hnone⟩
      · exact ⟨n, .inr hsome⟩
    obtain ⟨n, hn, hfirst⟩ : ∃ n, (l.nodeAt n = none ∨ l.nodeAt n = some i) ∧
        ∀ a < n, ¬(l.nodeAt a = none ∨ l.nodeAt a = some i) := by
      classical exact ⟨Nat.find hexists, Nat.find_spec hexists, fun a => Nat.find_min hexists⟩
    -- the items before the first such place are all different
    have hdistinct : ∀ a b, a < b → b ≤ n → l.nodeAt a ≠ l.nodeAt b := by
      intro a b hab hb heq
      have hback := nodeAt_add heq (n - b)
      rw [Nat.add_sub_cancel' hb] at hback
      exact hfirst (a + (n - b)) (by omega) (hback ▸ hn)
    have hcount : ∀ places, (∀ a < places, a ≤ n ∧ ∃ j, l.nodeAt a = some j) → places ≤ fuel := by
      intro places hplaces
      have hinj : Set.InjOn (fun a => (l.nodeAt a).getD i) (Finset.range places) := by
        intro a ha b hb heq
        obtain ⟨han, j, hj⟩ := hplaces a (Finset.mem_range.1 ha)
        obtain ⟨hbn, k, hk⟩ := hplaces b (Finset.mem_range.1 hb)
        simp only [hj, hk, Option.getD_some] at heq
        have hsame : l.nodeAt a = l.nodeAt b := by rw [hj, hk, heq]
        rcases lt_trichotomy a b with hab | hab | hab
        · exact absurd hsame (hdistinct a b hab hbn)
        · exact hab
        · exact absurd hsame.symm (hdistinct b a hab han)
      have hcard := Finset.card_le_card_of_injOn (s := Finset.range places) (t := items)
        (fun a => (l.nodeAt a).getD i) (fun a ha => by
          obtain ⟨-, j, hj⟩ := hplaces a (Finset.mem_range.1 ha)
          simp only [hj, Option.getD_some]
          exact hitems j (links_of_nodeAt hj)) hinj
      rw [Finset.card_range] at hcard
      exact hcard.trans hfuel
    have hbefore : ∀ a < n, a ≤ n ∧ ∃ j, l.nodeAt a = some j := fun a ha =>
      ⟨ha.le, Option.ne_none_iff_exists'.1 (not_or.1 (hfirst a ha)).1⟩
    rcases hn with hnone | hsome
    · exact ⟨n, .inl ⟨hcount n hbefore, hnone⟩⟩
    · refine ⟨n, .inr ⟨hcount (n + 1) ?_, hsome⟩⟩
      intro a ha
      rcases Nat.lt_succ_iff_lt_or_eq.1 ha with hlt | rfl
      · exact hbefore a hlt
      · exact ⟨le_rfl, i, hsome⟩

end Operations

end LinkedList
