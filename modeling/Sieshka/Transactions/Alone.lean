import Sieshka.Transactions.Soundness

/-!
# One more call, alone

A call that begins while all others stand still. It waits for nobody as long as
it needs no row that another session has locked.
-/

namespace Transactions

variable {C D W L M E R : Type} [RowStore D W L] [DecidableEq L]

namespace Thread

/-- The call gets from `t` on `d` and `m` to where it is, on its own, while the
others hold the rows `others`. -/
inductive Alone (others : List L) (t : Thread C D W L M E R) (d : D) (m : M) :
    Thread C D W L M E R → D → M → Prop
  | refl : Alone others t d m t d m
  | step {u v d₁ m₁ d₂ m₂} (h : Alone others t d m u d₁ m₁) (n : Nat)
      (hs : u.step others d₁ m₁ n = some (v, d₂, m₂)) : Alone others t d m v d₂ m₂

variable {others : List L} {t t' : Thread C D W L M E R} {d d' : D} {m m' : M}

theorem Alone.dead_eq (h : t.Alone others d m t' d' m') : t'.dead = t.dead := by
  induction h with
  | refl => rfl
  | step _ n hs ih => rw [(step_cases hs).dead_eq, ih]

end Thread

namespace System

variable {S : System C D W L M E R} {ok : Config C D W L M E R → Action C S.Move → Prop}

end System

end Transactions
