import Mathlib.Algebra.BigOperators.Group.List.Basic
import Mathlib.Data.List.Induction

/-!
# Totals by key

A list of totals, one for each key, to which amounts are added one after another. The
total of a key is the sum of the amounts added to it, and all totals together are the sum
of all amounts.
-/

namespace Sieshka

variable {κ M : Type} [DecidableEq κ] [AddCommMonoid M]

/-- An amount is added to the total of a key. -/
def tally (totals : List (κ × M)) (key : κ) (amount : M) : List (κ × M) :=
  match totals with
  | [] => [(key, amount)]
  | (key', total) :: rest =>
      if key' = key then (key', total + amount) :: rest else (key', total) :: tally rest key amount

/-- The totals of the amounts, in the order of their keys' first appearance. -/
def tallies (amounts : List (κ × M)) : List (κ × M) :=
  amounts.foldl (fun totals entry => tally totals entry.1 entry.2) []

/-- The sum of the amounts with a key. -/
def amountOf (amounts : List (κ × M)) (key : κ) : M :=
  ((amounts.filter fun entry => entry.1 = key).map Prod.snd).sum

theorem sum_tally (totals : List (κ × M)) (key : κ) (amount : M) :
    ((tally totals key amount).map Prod.snd).sum = (totals.map Prod.snd).sum + amount := by
  induction totals with
  | nil => simp [tally]
  | cons entry rest ih =>
      obtain ⟨key', total⟩ := entry
      by_cases h : key' = key
      · simp [tally, h, add_right_comm]
      · simp [tally, h, ih, add_assoc]

theorem mem_keys_tally {totals : List (κ × M)} {key key' : κ} {amount : M} :
    key' ∈ (tally totals key amount).map Prod.fst ↔
      key' ∈ totals.map Prod.fst ∨ key' = key := by
  induction totals with
  | nil => simp [tally]
  | cons entry rest ih =>
      obtain ⟨first, total⟩ := entry
      by_cases h : first = key
      · subst h
        simp only [tally, if_true, List.map_cons, List.mem_cons]
        tauto
      · simp only [tally, if_neg h, List.map_cons, List.mem_cons, ih]
        tauto

theorem nodup_tally {totals : List (κ × M)} (h : (totals.map Prod.fst).Nodup) (key : κ)
    (amount : M) : ((tally totals key amount).map Prod.fst).Nodup := by
  induction totals with
  | nil => simp [tally]
  | cons entry rest ih =>
      obtain ⟨first, total⟩ := entry
      obtain ⟨hfirst, hrest⟩ := List.nodup_cons.mp h
      by_cases hkey : first = key
      · simpa [tally, hkey] using h
      · simp only [tally, if_neg hkey, List.map_cons, List.nodup_cons]
        constructor
        · rw [mem_keys_tally]
          rintro (hmem | heq)
          · exact hfirst hmem
          · exact hkey heq
        · exact ih hrest

theorem amountOf_cons (entry : κ × M) (rest : List (κ × M)) (key : κ) :
    amountOf (entry :: rest) key = (if entry.1 = key then entry.2 else 0) + amountOf rest key := by
  by_cases h : entry.1 = key <;> simp [amountOf, h]

theorem amountOf_tally (totals : List (κ × M)) (key key' : κ) (amount : M) :
    amountOf (tally totals key amount) key' =
      amountOf totals key' + if key = key' then amount else 0 := by
  induction totals with
  | nil =>
      rw [tally, amountOf_cons]
      simp [amountOf]
  | cons entry rest ih =>
      obtain ⟨first, total⟩ := entry
      by_cases h : first = key
      · subst h
        by_cases hkey : first = key'
        · simp [tally, amountOf_cons, hkey, add_right_comm]
        · simp [tally, amountOf_cons, hkey]
      · simp [tally, h, amountOf_cons, ih, add_assoc]

/-- The total with a key is all there is with the key. -/
theorem eq_amountOf_of_mem {totals : List (κ × M)} (h : (totals.map Prod.fst).Nodup)
    {entry : κ × M} (hmem : entry ∈ totals) : entry.2 = amountOf totals entry.1 := by
  induction totals with
  | nil => cases hmem
  | cons first rest ih =>
      obtain ⟨hfirst, hrest⟩ := List.nodup_cons.mp h
      rw [amountOf_cons]
      rcases List.mem_cons.mp hmem with rfl | hmem
      · have hnone : rest.filter (fun other => other.1 = entry.1) = [] := by
          rw [List.filter_eq_nil_iff]
          intro other hother heq
          apply hfirst
          rw [← of_decide_eq_true heq]
          exact List.mem_map_of_mem hother
        simp [amountOf, hnone]
      · have hne : first.1 ≠ entry.1 := by
          intro heq
          apply hfirst
          rw [heq]
          exact List.mem_map_of_mem hmem
        rw [if_neg hne, zero_add]
        exact ih hrest hmem

section Tallies

variable (amounts : List (κ × M))

/-- An amount at the end is added last. -/
theorem tallies_append (entry : κ × M) :
    tallies (amounts ++ [entry]) = tally (tallies amounts) entry.1 entry.2 := by
  rw [tallies, List.foldl_append]
  rfl

theorem nodup_tallies : ((tallies amounts).map Prod.fst).Nodup := by
  induction amounts using List.reverseRecOn with
  | nil => simp [tallies]
  | append_singleton amounts entry ih =>
      rw [tallies_append]
      exact nodup_tally ih _ _

theorem sum_tallies : ((tallies amounts).map Prod.snd).sum = (amounts.map Prod.snd).sum := by
  induction amounts using List.reverseRecOn with
  | nil => simp [tallies]
  | append_singleton amounts entry ih => simp [tallies_append, sum_tally, ih]

theorem mem_keys_tallies {key : κ} :
    key ∈ (tallies amounts).map Prod.fst ↔ key ∈ amounts.map Prod.fst := by
  induction amounts using List.reverseRecOn with
  | nil => simp [tallies]
  | append_singleton amounts entry ih =>
      rw [tallies_append, mem_keys_tally, ih]
      simp [eq_comm]

theorem amountOf_tallies (key : κ) : amountOf (tallies amounts) key = amountOf amounts key := by
  induction amounts using List.reverseRecOn with
  | nil => rfl
  | append_singleton amounts entry ih =>
      rw [tallies_append, amountOf_tally, ih]
      by_cases h : entry.1 = key <;> simp [amountOf, h]

/-- The total of a key is the sum of the amounts with it. -/
theorem eq_amountOf_of_mem_tallies {entry : κ × M} (h : entry ∈ tallies amounts) :
    entry.2 = amountOf amounts entry.1 := by
  rw [eq_amountOf_of_mem (nodup_tallies amounts) h, amountOf_tallies]

end Tallies

end Sieshka
