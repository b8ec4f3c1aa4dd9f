import Sieshka.Samples
import Sieshka.Specs.Shop

/-!
# Orders follow their graph

Whatever calls overlap, a commit moves an order along at most one edge of
`ORDER_TRANSITIONS`, and no order leaves `CLOSED` or `CANCELLED`.
-/

namespace Sieshka

open Transactions Contract

/-- The state of an order has not changed, or along one edge. -/
def Order.Moved (r r' : Order) : Prop := r'.state = r.state ∨ OrderEdge r.state r'.state

theorem Order.Moved.refl (r : Order) : r.Moved r := Or.inl rfl

/-- The states no event leads out of. -/
def OrderState.terminal : OrderState → Bool
  | CLOSED => true
  | CANCELLED => true
  | _ => false

theorem OrderState.terminal_of_edge {s s' : OrderState} (h : OrderEdge s s') :
    s.terminal = false := by
  obtain ⟨e, he⟩ := h
  cases s <;> first | rfl | cases e <;> cases he

theorem Order.Moved.terminal {r r' : Order} (h : r.Moved r') (ht : r.state.terminal = true) :
    r'.state = r.state := by
  rcases h with h | h
  · exact h
  · rw [OrderState.terminal_of_edge h] at ht
    cases ht

theorem Order.Moved.put {t : Table Order.id} {row row' : Order} (hfind : t.find row.id = some row)
    (hid : row'.id = row.id) (h : row.Moved row') : t.Grows Order.Moved (t.put row') := by
  refine .put Order.Moved.refl fun old hold => ?_
  rw [hid, hfind] at hold
  exact Option.some.inj hold ▸ h

theorem Moves.orders_moved {t t' : Table Order.id} {row : Order} {event : OrderEvent} {why : Prop}
    (hfind : t.find row.id = some row) (h : Moves t row event why t') :
    t.Grows Order.Moved t' := by
  cases h with
  | moved h => exact Order.Moved.put hfind rfl (Or.inr ⟨event, h⟩)
  | kept _ => exact .refl Order.Moved.refl _

section Commits

variable {cfg : Settings} {A : Call → CallAt → Prop} {R : Call → State → State → Prop} {c : Call}
variable {past : Past} {s : State} {ws : List Write} {d' : Database}

/-- A commit moves every order along one edge at most. -/
theorem Commits.orders_moved (h : Commits cfg A R c past s ws d') :
    s.1.orders.Grows Order.Moved d'.orders := by
  have hsame : s.1.orders.Grows Order.Moved s.1.orders := .refl Order.Moved.refl _
  cases h with
  | duplicate _ _ _ => exact hsame
  | recorded row _ _ => exact hsame
  | answered body _ id rest _ _ _ => exact hsame
  | customer body _ row _ => exact hsame
  | placed body _ id customerId items totalRub promoCode discountRub _ _ habs =>
      exact .put_absent Order.Moved.refl habs
  | moved row row' event st hfind _ htr _ hrow =>
      have hid : row'.id = row.id := by rw [hrow]
      have hst : row'.state = st := by rw [hrow]
      exact Order.Moved.put hfind hid (Or.inr ⟨event, by rw [hst]; exact htr⟩)
  | cooked row row' orderId items lines d₁ ticket hfind _ _ htr hrow _ _ hsells _ _ _ =>
      have hid : row'.id = row.id := by rw [hrow]
      have hst : row'.state = .COOKING := by rw [hrow]
      have horders : d₁.orders = s.1.orders := by rw [hsells.steps.same]
      rw [horders]
      exact Order.Moved.put hfind hid (Or.inr ⟨.START_COOKING, by rw [hst]; exact htr⟩)
  | paymentCreated row order orders' _ _ hfind _ _ hmoves =>
      have hid : order.id = row.orderId := (Table.find_some hfind).2
      exact hmoves.orders_moved (hid ▸ hfind)
  | settled kind orderId row order orders' _ _ _ _ _ horder hmoves => exact hmoves.orders_moved horder
  | ticketMoved row event st _ _ _ => exact hsame
  | stock _ h _ =>
      have horders : d'.orders = s.1.orders := by rw [h.same]
      rw [horders]
      exact hsame

end Commits

section Runs

variable {cfg : Settings} {d : Database} {m : Memory} {c c' : ShopConfig}

theorem Changed.orders_moved {A : Call → CallAt → Prop} {R : Call → State → State → Prop}
    (h : Changed cfg A R c c') : c.db.orders.Grows Order.Moved c'.db.orders := by
  cases h with
  | kept hd _ => exact hd ▸ .refl Order.Moved.refl _
  | committed _ _ _ _ h _ _ => exact h.orders_moved

theorem orders_moved_of_step {a : Action Call ProviderMove}
    (h : Reaches cfg (Config.start d m) c) (hs : (shop cfg).step c a = some c') :
    c.db.orders.Grows Order.Moved c'.db.orders :=
  (h.changed hs).orders_moved

/-- An order in a state without outgoing edges is there in all that follows. -/
theorem terminal_order_kept (h : Reaches cfg (Config.start d m) c) (h' : Reaches cfg c c') :
    c.db.orders.Grows (fun r r' => r.state.terminal = true → r'.state = r.state)
      c'.db.orders := by
  induction h' with
  | refl => exact .refl (fun _ _ => rfl) _
  | step hr _ hs ih =>
      refine ih.trans (fun r r' r'' h₁ h₂ ht => ?_) fun k row hk => ?_
      · have hs' := h₁ ht
        rw [h₂ (hs' ▸ ht), hs']
      · obtain ⟨row', hk', hm⟩ := orders_moved_of_step (h.trans _ hr) hs k row hk
        exact ⟨row', hk', hm.terminal⟩

/-- Under any interleaving of any calls, from any database: every step changes
the state of a stored order along an edge of `ORDER_TRANSITIONS` from the state
stored just before or not at all, every commit so far has done so, and an order
that is `CLOSED` or `CANCELLED` stays so. -/
theorem order_states_follow_transitions (h : Reaches cfg (Config.start d m) c) :
    (∀ a c', (shop cfg).step c a = some c' → c.db.orders.Grows Order.Moved c'.db.orders) ∧
    (∀ k d₁ d₂, (k, d₁, d₂) ∈ c.commits → d₁.orders.Grows Order.Moved d₂.orders) ∧
    ∀ c', Reaches cfg c c' → ∀ id row, c.db.orders.find id = some row →
      row.state = .CLOSED ∨ row.state = .CANCELLED →
      ∃ row', c'.db.orders.find id = some row' ∧ row'.state = row.state := by
  refine ⟨fun a c' hs => orders_moved_of_step h hs, ?_, fun c' h' id row hid hst => ?_⟩
  · induction h with
    | refl => simp [Config.start, Config.commits]
    | step hr _ hs ih =>
        intro k d₁ d₂ hmem
        cases Reaches.changed hr hs with
        | kept _ hc => exact ih k d₁ d₂ (hc ▸ hmem)
        | committed t txn _ _ hcommit _ hc =>
            rcases List.mem_cons.mp (hc.subset hmem) with he | hmem
            · cases he
              exact hcommit.orders_moved
            · exact ih k d₁ d₂ hmem
  · obtain ⟨row', hid', hkept⟩ := terminal_order_kept h h' id row hid
    refine ⟨row', hid', hkept ?_⟩
    rcases hst with hst | hst <;> rw [hst] <;> rfl

end Runs

/-- Of three calls in flight together two move the order, each along an edge, and the one
that has read `DRAFT` before them does not. -/
theorem order_states_follow_transitions_confirm :
    ∃ c, Reaches sampleSettings
        (Config.start (databaseWith [sampleOrder 1 .DRAFT "cash" []] []) {}) c ∧
      (orderStates c, c.commits.length) = ([(1, .CANCELLED)], 2) ∧
      ∀ k d₁ d₂, (k, d₁, d₂) ∈ c.commits → d₁.orders.Grows Order.Moved d₂.orders := by
  obtain ⟨c, hr, hc⟩ := System.Runs.exists_of_exec (shop sampleSettings) (fun _ _ => True)
    (Config.start (databaseWith [sampleOrder 1 .DRAFT "cash" []] []) {})
    (.call (.triggerEvent 1 .CONFIRM) :: .call (.triggerEvent 1 .CANCEL) ::
      .call (.triggerEvent 1 .CONFIRM) :: (runs 2 1 ++ runs 0 6 ++ runs 1 6 ++ runs 2 2))
    (f := fun c => (orderStates c, c.commits.length)) (b := ([(1, .CANCELLED)], 2))
    (fun _ _ _ => trivial) (by decide +kernel)
  exact ⟨c, hr, hc, (order_states_follow_transitions hr).2.1⟩

end Sieshka
