import Mathlib.Algebra.BigOperators.Group.List.Basic
import Mathlib.Algebra.Group.Basic

/-!
# Ledgers

A ledger is a list of entries, each of which changes the balance of one
account. Entries explain a change of balances when every balance has changed
by the total of its entries.
-/

namespace Transactions

/-- How an entry is read: the account it belongs to and the amount it adds. -/
structure Book (Entry Account G : Type) where
  account : Entry → Account
  amount : Entry → G

namespace Book

variable {Entry Account G : Type} [DecidableEq Account] [AddCommMonoid G]
variable (B : Book Entry Account G)

/-- The total of the entries of one account. -/
def total (es : List Entry) (a : Account) : G :=
  ((es.filter fun e => B.account e = a).map B.amount).sum

@[simp] theorem total_nil (a : Account) : B.total [] a = 0 := rfl

@[simp] theorem total_append (es es' : List Entry) (a : Account) :
    B.total (es ++ es') a = B.total es a + B.total es' a := by
  simp [total]

theorem total_singleton (e : Entry) (a : Account) :
    B.total [e] a = if B.account e = a then B.amount e else 0 := by
  by_cases h : B.account e = a <;> simp [total, h]

/-- The entries lead from the balances `before` to the balances `after`. -/
def Explains (es : List Entry) (before after : Account → G) : Prop :=
  ∀ a, after a = before a + B.total es a

theorem Explains.nil (before : Account → G) : B.Explains [] before before := by
  intro a
  simp

variable {B}

theorem Explains.append {es es' : List Entry} {b₀ b₁ b₂ : Account → G}
    (h : B.Explains es b₀ b₁) (h' : B.Explains es' b₁ b₂) : B.Explains (es ++ es') b₀ b₂ := by
  intro a
  rw [h' a, h a, total_append, add_assoc]

variable (B)

/-- Every entry has the property `P` with the balance it produced. -/
def Marked (P : Entry → G → Prop) (es : List Entry) (before : Account → G) : Prop :=
  ∀ pre e post, es = pre ++ e :: post →
    P e (before (B.account e) + B.total (pre ++ [e]) (B.account e))

variable {B}

theorem Marked.nil {P : Entry → G → Prop} (before : Account → G) : B.Marked P [] before := by
  intro pre e post h
  simp at h

theorem Marked.singleton {P : Entry → G → Prop} {e : Entry} {before : Account → G}
    (h : P e (before (B.account e) + B.amount e)) : B.Marked P [e] before := by
  intro pre e' post he
  obtain ⟨rfl, h'⟩ | ⟨_, rfl, h'⟩ := List.cons_eq_append_iff.mp he
  · obtain ⟨rfl, -⟩ := List.cons_eq_cons.mp h'
    simpa [total_singleton] using h
  · simp at h'

theorem Marked.append {P : Entry → G → Prop} {es es' : List Entry} {b₀ b₁ : Account → G}
    (h : B.Marked P es b₀) (hx : B.Explains es b₀ b₁) (h' : B.Marked P es' b₁) :
    B.Marked P (es ++ es') b₀ := by
  intro pre e post he
  obtain ⟨t, rfl, ht⟩ | ⟨t, rfl, ht⟩ := List.append_eq_append_iff.mp he
  · have hp := h' t e post ht
    rwa [hx, add_assoc, ← total_append, ← List.append_assoc] at hp
  · obtain ⟨rfl, -⟩ | ⟨u, rfl, -⟩ := List.cons_eq_append_iff.mp ht
    · have hp := h' [] e post (by simpa using ht.symm)
      rw [hx, add_assoc, ← total_append] at hp
      simpa using hp
    · exact h pre e u rfl

end Book

end Transactions
