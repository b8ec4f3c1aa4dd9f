import Mathlib.Data.Fintype.Card
import Mathlib.Data.Set.Finite.List
import Mathlib.Logic.Function.Basic
import Mathlib.Logic.Relation

/-!
# Forests as parent functions

A parent function is a forest when no node lies above itself. Giving one node a
parent keeps a forest exactly when the node is not on the way up from its new
parent, and in a finite forest every way up ends at a root.
-/

namespace Forests

open Relation

variable {α : Type}

/-- `b` is the parent of `a`. -/
def IsParent (parent : α → Option α) (a b : α) : Prop := parent a = some b

/-- Following parents from `a` reaches `b`. -/
def Reaches (parent : α → Option α) (a b : α) : Prop := ReflTransGen (IsParent parent) a b

/-- No node lies above itself. -/
def Acyclic (parent : α → Option α) : Prop := ∀ a, ¬ TransGen (IsParent parent) a a

theorem acyclic_none : Acyclic fun _ : α => none := by
  intro a h
  obtain ⟨b, hb, -⟩ := TransGen.head'_iff.mp h
  simp [IsParent] at hb

/-- Whatever lies above a node of a cycle is a node of a cycle. -/
theorem cycle_of_reaches {parent : α → Option α} {a c : α} (h : TransGen (IsParent parent) a a)
    (hac : Reaches parent a c) : TransGen (IsParent parent) c c := by
  induction hac with
  | refl => exact h
  | @tail x y _ hxy ih =>
      obtain ⟨b, hxb, hbx⟩ := TransGen.head'_iff.mp ih
      obtain rfl : y = b := Option.some.inj (hxy.symm.trans hxb)
      exact .tail' hbx hxy

section Update

variable [DecidableEq α] {parent : α → Option α} {c p : α}

theorem isParent_update_of_ne {o : Option α} {a b : α} (h : a ≠ c) :
    IsParent (Function.update parent c o) a b ↔ IsParent parent a b := by
  simp [IsParent, Function.update_of_ne h]

/-- The way up to `c` does not use the parent of `c`. -/
theorem reaches_update_iff {o : Option α} {a : α} :
    Reaches (Function.update parent c o) a c ↔ Reaches parent a c := by
  have hhalf : ∀ {f g : α → Option α}, (∀ x, x ≠ c → f x = g x) →
      Reaches f a c → Reaches g a c := by
    intro f g hfg h
    induction h using ReflTransGen.head_induction_on with
    | refl => exact .refl
    | head hab _ ih =>
        rename_i x y _
        by_cases hx : x = c
        · rw [hx]
          exact .refl
        · apply ReflTransGen.head _ ih
          exact (hfg x hx).symm.trans hab
  constructor
  · apply hhalf
    intro x hx
    exact Function.update_of_ne hx _ _
  · apply hhalf
    intro x hx
    exact (Function.update_of_ne hx _ _).symm

/-- A way up that avoids `c` is one of the old ways. -/
theorem transGen_of_not_reaches {o : Option α} {a b : α}
    (h : TransGen (IsParent (Function.update parent c o)) a b)
    (hc : ¬ Reaches (Function.update parent c o) a c) : TransGen (IsParent parent) a b := by
  induction h using TransGen.head_induction_on with
  | single hab =>
      rename_i x
      have hx : x ≠ c := by
        rintro rfl
        exact hc .refl
      exact .single ((isParent_update_of_ne hx).mp hab)
  | head hxy _ ih =>
      rename_i x y _
      have hx : x ≠ c := by
        rintro rfl
        exact hc .refl
      apply TransGen.head ((isParent_update_of_ne hx).mp hxy)
      apply ih
      intro h
      exact hc (.head hxy h)

/-- Giving `c` the parent `p` keeps a forest exactly when following parents from
`p` never reaches `c`. -/
theorem acyclic_update_iff (h : Acyclic parent) :
    Acyclic (Function.update parent c (some p)) ↔ ¬ Reaches parent p c := by
  have hedge : IsParent (Function.update parent c (some p)) c p := Function.update_self _ _ _
  constructor
  · intro hacyclic hreach
    exact hacyclic c (.head' hedge (reaches_update_iff.mpr hreach))
  · intro hreach a hcycle
    by_cases hac : Reaches (Function.update parent c (some p)) a c
    · -- the cycle passes `c`, and goes on from `c` to `p`
      obtain ⟨b, hcb, hbc⟩ := TransGen.head'_iff.mp (cycle_of_reaches hcycle hac)
      obtain rfl : p = b := Option.some.inj (hedge.symm.trans hcb)
      exact hreach (reaches_update_iff.mp hbc)
    · exact h a (transGen_of_not_reaches hcycle hac)

end Update

/-- In a finite forest every way up ends at a node without a parent. -/
theorem Acyclic.exists_root {parent : α → Option α} (h : Acyclic parent) (nodes : List α)
    (hnodes : ∀ a ∈ nodes, ∀ b, parent a = some b → b ∈ nodes) {a : α} (ha : a ∈ nodes) :
    ∃ root ∈ nodes, parent root = none ∧ Reaches parent a root := by
  let above (x y : { x // x ∈ nodes }) : Prop := TransGen (IsParent parent) y.1 x.1
  have htrans : IsTrans { x // x ∈ nodes } above := ⟨fun _ _ _ hxy hyz => hyz.trans hxy⟩
  have hirrefl : Std.Irrefl above := ⟨fun x => h x.1⟩
  have hfinite : Finite { x // x ∈ nodes } := List.finite_toSet nodes
  have hwf : WellFounded above := Finite.wellFounded_of_trans_of_irrefl above
  suffices hall : ∀ x : { x // x ∈ nodes },
      ∃ root ∈ nodes, parent root = none ∧ Reaches parent x.1 root from hall ⟨a, ha⟩
  intro x
  induction x using hwf.induction with
  | _ x ih =>
      cases hp : parent x.1 with
      | none => exact ⟨x.1, x.2, hp, .refl⟩
      | some b =>
          have hb : b ∈ nodes := hnodes x.1 x.2 b hp
          obtain ⟨root, hroot, hnone, hreach⟩ := ih ⟨b, hb⟩ (.single hp)
          exact ⟨root, hroot, hnone, .head hp hreach⟩

end Forests
