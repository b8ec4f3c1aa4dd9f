import Sieshka.Transactions.Queries

/-!
# A check and the action it predicts

A check answers 0 or 1, as a sentinel for what the action after it will do: 1 where
the action goes through and 0 where it raises. Both are evaluated one after the other
on a quiet database.
-/

namespace Transactions

variable {D W L M E α β : Type} [RowStore D W L]

namespace Prog

variable (E₀ : Engine D W)

/-- The program returns from `s`, whatever it leaves behind. -/
def Succeeds (p : Prog D W L M E α) (s : Transactions.Quiet D M) : Prop :=
  ∃ a s', p.Returns E₀ s a s'

/-- From `s` the check returns 0 or 1 without raising, and 1 exactly when the action
that runs next returns. -/
def Predicts (check : Prog D W L M E Int) (action : Prog D W L M E α)
    (s : Transactions.Quiet D M) : Prop :=
  ∃ r s', check.Returns E₀ s r s' ∧ (r = 0 ∨ r = 1) ∧ (r = 1 ↔ action.Succeeds E₀ s')

variable {E₀} {s : Transactions.Quiet D M}

/-! ## When a program succeeds -/

@[simp] theorem succeeds_ret (a : α) : (ret a : Prog D W L M E α).Succeeds E₀ s := by
  simp [Succeeds]

@[simp] theorem succeeds_raise (e : E) : ¬ (raise e : Prog D W L M E α).Succeeds E₀ s := by
  simp [Succeeds]

theorem succeeds_andThen_raise (p : Prog D W L M E β) (f : β → Prog D W L M E α) (g : E → E) :
    (p.andThen f fun e => raise (g e)).Succeeds E₀ s ↔
      ∃ b s₁, p.Returns E₀ s b s₁ ∧ (f b).Succeeds E₀ s₁ := by
  simp only [Succeeds, returns_andThen_raise]
  constructor
  · rintro ⟨a, s', b, s₁, hb, ha⟩
    exact ⟨b, s₁, hb, a, s', ha⟩
  · rintro ⟨b, s₁, hb, a, s', ha⟩
    exact ⟨a, s', b, s₁, hb, ha⟩

/-- A sequence succeeds when its second part does from where the first leaves off. -/
@[simp] theorem succeeds_andThen (p : Prog D W L M E β) (f : β → Prog D W L M E α) :
    (p.andThen f raise).Succeeds E₀ s ↔
      ∃ b s₁, p.Returns E₀ s b s₁ ∧ (f b).Succeeds E₀ s₁ :=
  succeeds_andThen_raise p f id

@[simp] theorem succeeds_ite {c : Prop} [Decidable c] (p q : Prog D W L M E α) :
    (if c then p else q).Succeeds E₀ s ↔ if c then p.Succeeds E₀ s else q.Succeeds E₀ s := by
  split_ifs <;> rfl

/-! ## When a check predicts -/

variable {action : Prog D W L M E α}

@[simp] theorem predicts_zero :
    (ret 0).Predicts E₀ action s ↔ ¬ action.Succeeds E₀ s := by
  simp [Predicts]

@[simp] theorem predicts_one : (ret 1).Predicts E₀ action s ↔ action.Succeeds E₀ s := by
  simp [Predicts]

/-- A check that ends with a condition. -/
@[simp] theorem predicts_sentinel {c : Prop} [Decidable c] :
    (ret (if c then 1 else 0)).Predicts E₀ action s ↔ (c ↔ action.Succeeds E₀ s) := by
  split_ifs with h
  · simp [h]
  · simp [h]

@[simp] theorem predicts_raise (e : E) : ¬ (raise e).Predicts E₀ action s := by
  simp [Predicts]

/-- A step of the check comes before the rest of the check. -/
@[simp] theorem predicts_andThen (p : Prog D W L M E β) (f : β → Prog D W L M E Int) :
    (p.andThen f raise).Predicts E₀ action s ↔
      ∃ b s₁, p.Returns E₀ s b s₁ ∧ (f b).Predicts E₀ action s₁ := by
  simp only [Predicts, returns_andThen]
  constructor
  · rintro ⟨r, s', ⟨b, s₁, hb, hr⟩, h⟩
    exact ⟨b, s₁, hb, r, s', hr, h⟩
  · rintro ⟨b, s₁, hb, r, s', hr, h⟩
    exact ⟨r, s', ⟨b, s₁, hb, hr⟩, h⟩

@[simp] theorem predicts_ite {c : Prop} [Decidable c] (p q : Prog D W L M E Int) :
    (if c then p else q).Predicts E₀ action s ↔
      if c then p.Predicts E₀ action s else q.Predicts E₀ action s := by
  split_ifs <;> rfl

end Prog

end Transactions
