import Sieshka.Properties.OrderGraph

/-!
# Milestones of an order

The order graph has one loop, between `CONFIRMED` and `PAYMENT_PENDING`. Every other state of
an order is a milestone: whatever calls overlap, at most one commit brings the order there,
and from then on the order has been there.
-/

namespace Sieshka

open Transactions Contract

/-! ## The only loop -/

/-- The states an order can come back to. -/
def OrderState.loops : OrderState → Bool
  | CONFIRMED => true
  | PAYMENT_PENDING => true
  | _ => false

/-- How far an order has come; the two states of the loop are equally far. -/
def OrderState.rank : OrderState → Nat
  | DRAFT => 0
  | CONFIRMED => 1
  | PAYMENT_PENDING => 1
  | PAID => 2
  | COOKING => 3
  | PACKING => 4
  | COURIER_ASSIGNED => 5
  | DELIVERING => 6
  | DELIVERED => 7
  | CLOSED => 8
  | CANCELLED => 9

theorem rank_of_transition (s : OrderState) (e : OrderEvent) (s' : OrderState)
    (h : orderTransitions s e = some s') :
    s.rank ≤ s'.rank ∧ (s.loops = false → s.rank < s'.rank) := by
  cases s <;> cases e <;> simp only [orderTransitions, reduceCtorEq, Option.some.injEq] at h <;>
    (subst h; simp [OrderState.rank, OrderState.loops])

theorem OrderEdge.rank_le {s s' : OrderState} (h : OrderEdge s s') : s.rank ≤ s'.rank := by
  obtain ⟨e, he⟩ := h
  exact (rank_of_transition s e s' he).1

theorem OrderPath.rank_le {s s' : OrderState} (h : OrderPath s s') : s.rank ≤ s'.rank := by
  induction h with
  | refl => exact Nat.le_refl _
  | tail _ he ih => exact ih.trans he.rank_le

/-- A way out of a milestone leads further. -/
theorem OrderPath.rank_lt {s s' : OrderState} (h : OrderPath s s') (hne : s' ≠ s)
    (hs : s.loops = false) : s.rank < s'.rank := by
  induction h using Relation.ReflTransGen.head_induction_on with
  | refl => exact absurd rfl hne
  | head he hpath =>
      obtain ⟨e, he⟩ := he
      calc
        _ < _ := (rank_of_transition _ e _ he).2 hs
        _ ≤ _ := OrderPath.rank_le hpath

/-- No edge leads back to a milestone. -/
theorem OrderPath.not_edge_back {s s' : OrderState} (h : OrderPath s s') (hne : s' ≠ s)
    (hs : s.loops = false) : ¬ OrderEdge s' s := by
  intro hback
  have hlt := h.rank_lt hne hs
  have hle := hback.rank_le
  omega

/-! ## Entering a state -/

/-- The commit brings the order into the state. -/
def Enters (o : Uuid) (st : OrderState) (d d' : Database) : Prop :=
  (d.orders.find o).map Order.state ≠ some st ∧ (d'.orders.find o).map Order.state = some st

instance (o : Uuid) (st : OrderState) (d d' : Database) : Decidable (Enters o st d d') :=
  inferInstanceAs (Decidable (_ ∧ _))

/-- The order is stored and has come by the state. -/
def CameBy (o : Uuid) (st : OrderState) (d : Database) : Prop :=
  ∃ row, d.orders.find o = some row ∧ OrderPath st row.state

theorem CameBy.grows {o : Uuid} {st : OrderState} {d d' : Database} (h : CameBy o st d)
    (hg : d.orders.Grows Order.Later d'.orders) : CameBy o st d' := by
  obtain ⟨row, hfind, hpath⟩ := h
  obtain ⟨row', hfind', hlater⟩ := hg o row hfind
  exact ⟨row', hfind', hpath.trans hlater.path⟩

theorem Enters.cameBy {o : Uuid} {st : OrderState} {d d' : Database} (h : Enters o st d d') :
    CameBy o st d' := by
  obtain ⟨row, hfind, hst⟩ := Option.map_eq_some_iff.mp h.2
  exact ⟨row, hfind, hst ▸ .refl⟩

/-- Where every stored order moves along one edge at most, a milestone is entered by orders
that have not come by it. -/
theorem Enters.not_cameBy {o : Uuid} {st : OrderState} {d d' : Database} (h : Enters o st d d')
    (hst : st.loops = false) (hmoved : d.orders.Grows Order.Moved d'.orders) :
    ¬ CameBy o st d := by
  rintro ⟨row, hfind, hpath⟩
  have hne : row.state ≠ st := by
    intro he
    apply h.1
    rw [hfind, Option.map_some, he]
  obtain ⟨row', hfind', hm⟩ := hmoved o row hfind
  have hst' : row'.state = st := by
    have h' := h.2
    rw [hfind'] at h'
    exact Option.some.inj h'
  rcases hm with hsame | hedge
  · exact hne (hsame.symm.trans hst')
  · exact hpath.not_edge_back hne hst (hst' ▸ hedge)

section Runs

variable {cfg : Settings} {d : Database} {m : Memory} {c c' : ShopConfig}

theorem Changed.milestone {A : Call → CallAt → Prop} {R : Call → State → State → Prop}
    {o : Uuid} {st : OrderState} (hst : st.loops = false) (hs : Changed cfg A R c c')
    (h : c.Once (Enters o st) (CameBy o st)) : c'.Once (Enters o st) (CameBy o st) := by
  cases hs with
  | kept hd hc =>
      rw [Config.Once, hd, hc]
      exact h
  | committed _ _ _ _ hcommit _ hc =>
      apply h.commit hc
      · intro hcame
        exact hcame.grows hcommit.evolves.orders
      · intro henters
        exact ⟨henters.not_cameBy hst hcommit.orders_moved, henters.cameBy⟩

/-- From any database and under any interleaving of any calls: every order enters each state,
`CONFIRMED` and `PAYMENT_PENDING` apart, by at most one commit, and after that commit the
order stays stored, in that state or in one that the graph leads to from it. -/
theorem milestones_entered_once (h : Reaches cfg (Config.start d m) c) (o : Uuid)
    (st : OrderState) (hconfirmed : st ≠ .CONFIRMED) (hpending : st ≠ .PAYMENT_PENDING) :
    c.commits.countP (fun p => Enters o st p.2.1 p.2.2) ≤ 1 ∧
      (0 < c.commits.countP (fun p => Enters o st p.2.1 p.2.2) →
        ∃ row, c.db.orders.find o = some row ∧ OrderPath st row.state) := by
  have hst : st.loops = false := by
    cases st with
    | CONFIRMED => exact absurd rfl hconfirmed
    | PAYMENT_PENDING => exact absurd rfl hpending
    | _ => rfl
  have honce : c.Once (Enters o st) (CameBy o st) := by
    induction h with
    | refl => simp [Config.Once, Config.start, Config.commits]
    | step hr _ hs ih => exact (Reaches.changed hr hs).milestone hst ih
  exact honce

end Runs

/-- Of two calls that send an order to the kitchen one does, and the order has come by
`COOKING` since. -/
theorem milestones_entered_once_cooking :
    ∃ c, Reaches sampleSettings
        (Config.start (databaseWith [sampleOrder 1 .PAID "cash" []] []) {}) c ∧
      c.commits.countP (fun p => Enters 1 .COOKING p.2.1 p.2.2) = 1 ∧
      ∃ row, c.db.orders.find 1 = some row ∧ OrderPath .COOKING row.state := by
  obtain ⟨c, hr, hc⟩ := System.Runs.exists_of_exec (shop sampleSettings) (fun _ _ => True)
    (Config.start (databaseWith [sampleOrder 1 .PAID "cash" []] []) {})
    (.call (.triggerEvent 1 .START_COOKING) :: .call (.triggerEvent 1 .START_COOKING) ::
      (runs 1 2 ++ runs 0 11 ++ runs 1 3))
    (f := fun c => c.commits.countP (fun p => Enters 1 .COOKING p.2.1 p.2.2)) (b := 1)
    (fun _ _ _ => trivial) (by decide +kernel)
  refine ⟨c, hr, hc, ?_⟩
  apply (milestones_entered_once hr 1 .COOKING (by decide) (by decide)).2
  rw [hc]
  exact Nat.one_pos

end Sieshka
