import Mathlib.Data.List.Basic

/-!
# Elements with what came before them

A property of every element of a list together with the elements before it, and the
states that a deterministic machine passes through: an invariant holds in all of them
exactly when no event breaks it where the events before it lead.
-/

namespace Sieshka

variable {α S : Type}

/-- A property of the elements of a list and of what is before them, element by element. -/
theorem forall_split_cons (p : List α → α → Prop) {before rest : List α} {first : α} :
    (∀ mid x after, first :: rest = mid ++ x :: after → p (before ++ mid) x) ↔
      p before first ∧
        ∀ mid x after, rest = mid ++ x :: after → p ((before ++ [first]) ++ mid) x := by
  constructor
  · intro h
    constructor
    · simpa using h [] first rest rfl
    · intro mid x after heq
      rw [List.append_assoc]
      exact h (first :: mid) x after (by rw [heq, List.cons_append])
  · rintro ⟨hfirst, hrest⟩ mid x after heq
    cases mid with
    | nil =>
        obtain ⟨rfl, -⟩ := List.cons.inj heq
        simpa using hfirst
    | cons y mid =>
        obtain ⟨rfl, htail⟩ := List.cons.inj heq
        simpa using hrest mid x after htail

/-- The states a machine passes through, the first one included. -/
def visited (step : S → α → S) (s : S) : List α → List S
  | [] => [s]
  | event :: events => s :: visited step (step s event) events

section Invariants

variable {step : S → α → S} (good inv : S → Prop) (bad : S → α → Prop)
  (hgood : ∀ s, inv s → good s)
  (hkeeps : ∀ s event, inv s → ¬ bad s event → inv (step s event))
  (hbreaks : ∀ s event, inv s → bad s event → ¬ good (step s event))

include hgood hkeeps hbreaks

/-- From a state in which the invariant holds, all states are good exactly when no event is
bad in the state where it happens. -/
theorem forall_visited_iff {s : S} (h : inv s) (events : List α) :
    (∀ s' ∈ visited step s events, good s') ↔
      ∀ before event after, events = before ++ event :: after →
        ¬ bad (before.foldl step s) event := by
  induction events generalizing s with
  | nil => simp [visited, hgood s h]
  | cons event events ih =>
      have hsplit : (∀ before x after, event :: events = before ++ x :: after →
          ¬ bad (before.foldl step s) x) ↔ ¬ bad s event ∧
            ∀ before x after, events = before ++ x :: after →
              ¬ bad (before.foldl step (step s event)) x :=
        @forall_split_cons α (fun before x => ¬ bad (before.foldl step s) x) [] events event
      rw [hsplit, visited, List.forall_mem_cons]
      constructor
      · rintro ⟨-, hall⟩
        have hok : ¬ bad s event := by
          intro hbad
          apply hbreaks s event h hbad
          cases events <;> exact hall _ List.mem_cons_self
        exact ⟨hok, (ih (hkeeps s event h hok)).mp hall⟩
      · rintro ⟨hok, hrest⟩
        exact ⟨hgood s h, (ih (hkeeps s event h hok)).mpr hrest⟩

end Invariants

end Sieshka
