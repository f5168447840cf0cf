import WifiAudio.Lib.Simulation

/-!
# Broadcasting

What a hub does: a station that joins is silent, it is tuned in and out any number of times, and what
is published goes to the stations that are tuned in at that moment. So a station has heard, in the
order of publication, what was published while it was tuned in, and nothing else.
-/

namespace Broadcast

open Transition

structure Station (α : Type) where
  tuned : Bool
  heard : List α

abbrev Hub (α : Type) := List (Station α)

inductive Event (α : Type)
  | join
  | tune (i : ℕ) (on : Bool)
  | publish (a : α)

variable {α : Type}

def Station.hear (a : α) (s : Station α) : Station α :=
  if s.tuned then { s with heard := s.heard ++ [a] } else s

def exec (hub : Hub α) : Event α → Option (Hub α)
  | .join => some (hub ++ [⟨false, []⟩])
  | .tune i on => some (hub.modify i fun s => { s with tuned := on })
  | .publish a => some (hub.map (Station.hear a))

def Step (hub : Hub α) (event : Event α) (hub' : Hub α) : Prop := exec hub event = some hub'

/-- What the events publish. -/
def published (events : List (Event α)) : List α := events.filterMap fun event =>
  match event with
  | .publish a => some a
  | _ => none

/-- What an event publishes while station `i` is tuned in. -/
def reaches (i : ℕ) (hub : Hub α) (event : Event α) : List α :=
  match event with
  | .join => []
  | .tune _ _ => []
  | .publish a => if hub[i]?.any Station.tuned then [a] else []

/-- What is published while station `i` is tuned in. -/
def aired (i : ℕ) (hub : Hub α) (events : List (Event α)) : List α := labels exec (reaches i) hub events

/-- What station `i` has heard. -/
def heardBy (hub : Hub α) (i : ℕ) : List α := hub[i]?.elim [] Station.heard

variable {hub hub' : Hub α} {events : List (Event α)} {i : ℕ}

theorem aired_cons {event : Event α} (hstep : exec hub event = some hub') (events : List (Event α)) :
    aired i hub (event :: events) = reaches i hub event ++ aired i hub' events := labels_cons hstep events

theorem heardBy_step {event : Event α} (hstep : exec hub event = some hub') :
    heardBy hub' i = heardBy hub i ++ reaches i hub event := by
  cases event with
  | join =>
      obtain rfl := Option.some.inj hstep
      rw [reaches, List.append_nil, heardBy, heardBy]
      rcases Nat.lt_or_ge i hub.length with hlt | hle
      · rw [List.getElem?_append_left hlt]
      · rw [List.getElem?_append_right hle, List.getElem?_eq_none hle, List.getElem?_singleton]
        split <;> rfl
  | tune j on =>
      obtain rfl := Option.some.inj hstep
      rw [reaches, List.append_nil, heardBy, heardBy, List.getElem?_modify]
      cases hub[i]? with
      | none => rfl
      | some s => by_cases hj : j = i <;> simp [hj]
  | publish a =>
      obtain rfl := Option.some.inj hstep
      rw [reaches, heardBy, heardBy, List.getElem?_map]
      cases hub[i]? with
      | none => rfl
      | some s => cases htuned : s.tuned <;> simp [Station.hear, htuned]

/-- A station has heard what was published while it was tuned in. -/
theorem heardBy_run (hrun : Run Step hub events hub') :
    heardBy hub' i = heardBy hub i ++ aired i hub events := by
  induction hrun with
  | nil => rw [aired, labels_nil, List.append_nil]
  | @cons s t u event events hstep _ ih =>
      rw [ih, heardBy_step hstep, aired_cons hstep, List.append_assoc]

theorem aired_sublist (hrun : Run Step hub events hub') :
    (aired i hub events).Sublist (published events) := by
  induction hrun with
  | nil => exact .slnil
  | @cons s t u event events hstep _ ih =>
      rw [aired_cons hstep]
      cases event with
      | join => exact ih
      | tune j on => exact ih
      | publish a =>
          change (reaches i s (.publish a) ++ aired i t events).Sublist (a :: published events)
          rw [reaches]
          split
          · exact .cons_cons a ih
          · exact .cons a ih

end Broadcast
