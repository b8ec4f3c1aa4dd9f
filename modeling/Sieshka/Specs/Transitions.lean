import Sieshka.Specs.OrderTools

/-!
# Transitions of orders

A transition of an order is committed as one effect, or it leaves the database
as it was for a reason the call has seen.
-/

namespace Sieshka

open Transactions Contract
open Relation (ReflTransGen)

/-! ## Programs -/

section Vm

variable {K : ShopContract} {c : Call} {x : CallAt}
variable {Tool Name : Type} [DecidableEq Name]
variable {tools : Tool → List (Name × Value) → Async Value} {program : Program Tool Name}
variable {context outputs : List (Name × Value)} {fuel : Nat} {id : Name}
variable {step : Step Tool Name} {tool : Tool} {args : List (Name × Arg Name)}
variable {Q : Except PyError (VmTrace Name) → CallAt → Prop}

/-- A terminal step. -/
theorem wp_runFrom_last (step : Step Tool Name)
    (hfind : (program.find? fun s => s.id = id) = some step)
    (haction : step.action = .tool tool args none)
    (h : K.wp c (tools tool (resolve context outputs args)) (fun r y => match r with
      | .ok out => Q (.ok { outputs := (step.id, out) :: (step.outputKey, out) :: outputs }) y
      | .error e => Q (.ok { outputs, error := some e.message }) y) x) :
    K.wp c (runFrom tools program context (fuel + 1) id outputs) Q x := by
  simp only [runFrom, hfind, haction, wp_andThen]
  refine wp_mono (fun r y hr => ?_) h
  cases r <;> exact hr

/-- A step that is linked to another. -/
theorem wp_runFrom_next {next : Name} (step : Step Tool Name)
    (hfind : (program.find? fun s => s.id = id) = some step)
    (haction : step.action = .tool tool args (some next))
    (h : K.wp c (tools tool (resolve context outputs args)) (fun r y => match r with
      | .ok out => K.wp c (runFrom tools program context fuel next
          ((step.id, out) :: (step.outputKey, out) :: outputs)) Q y
      | .error e => Q (.ok { outputs, error := some e.message }) y) x) :
    K.wp c (runFrom tools program context (fuel + 1) id outputs) Q x := by
  simp only [runFrom, hfind, haction, wp_andThen]
  refine wp_mono (fun r y hr => ?_) h
  cases r <;> exact hr

/-- A program of one terminal step. -/
theorem wp_vmRun_single (haction : step.action = .tool tool args none)
    (h : K.wp c (tools tool (resolve context [] args)) (fun r y => match r with
      | .ok out => Q (.ok { outputs := [(step.id, out), (step.outputKey, out)] }) y
      | .error e => Q (.ok { outputs := [], error := some e.message }) y) x) :
    K.wp c (vmRun tools [step] context) Q x :=
  wp_runFrom_last step (by simp) haction h

end Vm

/-- `COOKING` is reached by `START_COOKING` only. -/
theorem startCooking_of_cooking {st : OrderState} {event : OrderEvent}
    (h : orderTransitions st event = some .COOKING) : event = .START_COOKING := by
  cases st <;> cases event <;> simp_all [orderTransitions]

theorem orderTransitions_startCooking {st st' : OrderState}
    (h : orderTransitions st .START_COOKING = some st') : st' = .COOKING := by
  cases st <;> simp_all [orderTransitions]

theorem orderTransitions_startPacking {st st' : OrderState}
    (h : orderTransitions st .START_PACKING = some st') : st = .COOKING ∧ st' = .PACKING := by
  cases st <;> simp_all [orderTransitions]

/-- An event of a single source is allowed from no other state. -/
theorem orderTransitions_source {st st' : OrderState} {event : OrderEvent}
    (hcancel : event ≠ .CANCEL) (hclose : event ≠ .CLOSE) (hcook : event ≠ .START_COOKING)
    (h : orderTransitions st event ≠ none) (h' : orderTransitions st' event ≠ none) :
    st' = st := by
  cases event <;> cases st <;> cases st' <;> simp_all [orderTransitions]

/-! ## Refusals -/

section Refusals

variable (K : ShopContract) (c : Call)

/-- The order of a call is not stored, or the database has refused a statement. -/
inductive Broke (orderId : String) (z : CallAt) : Prop
  | missing (h : ∀ id, readUuid orderId = some id → z.db.orders.find id = none)
  | struck (h : K.faulty c z)

/-- Why a call can fail to make a transition, where it stands at `z`. -/
inductive Hindered (orderId : String) (event : OrderEvent) (z : CallAt) : Prop
  | broke (h : Broke K c orderId z)
  | closed (id : Uuid) (hid : readUuid orderId = some id)
      (h : NotIn z.db id fun st => orderTransitions st event ≠ none)
  | overtaken (h : event = .CANCEL ∨ event = .CLOSE)
  | unreservable (id : Uuid) (hid : readUuid orderId = some id) (hev : event = .START_COOKING)
      (h : Unreservable z.db id)

/-- The call has not made the transition, for a reason it has seen. -/
abbrev Refused (orderId : String) (event : OrderEvent) (x y : CallAt) : Prop :=
  K.Through c x (Hindered K c orderId event) y

/-- The call has committed the transition to `st` on its way from `x` to `y`. -/
def Made (orderId : String) (event : OrderEvent) (st : OrderState) (x y : CallAt) : Prop :=
  ∃ d d' row row', K.Committed c d d' x y ∧ readUuid orderId = some row.id ∧
    d.orders.find row.id = some row ∧ orderTransitions row.state event = some st ∧
    d'.orders = d.orders.put row' ∧ row' = { row with state := st, traceId := row'.traceId } ∧
    d'.payments = d.payments ∧ Evolves (x.db, x.mem) (y.db, y.mem)

end Refusals

section Specs

variable {K : ShopContract} {c : Call} {x y z : CallAt} {orderId : String} {event : OrderEvent}

theorem Made.txn {st : OrderState} (h : Made K c orderId event st x y) : y.txn = {} := by
  obtain ⟨d, d', row, row', hcm, -⟩ := h
  exact hcm.txn

theorem Made.evolves {st : OrderState} (h : Made K c orderId event st x y) :
    Evolves (x.db, x.mem) (y.db, y.mem) := by
  obtain ⟨d, d', row, row', -, -, -, -, -, -, -, h⟩ := h
  exact h

theorem Made.past {st : OrderState} (h : Made K c orderId event st x y) :
    ∃ p, y.past = x.past ++ [p] := by
  obtain ⟨d, d', row, row', hcm, -⟩ := h
  exact ⟨_, hcm.past⟩

theorem Refused.of_struck (h : K.Struck c x y) : Refused K c orderId event x y :=
  Through.of_struck h fun _ hf => .broke (.struck hf)

/-! ## The programs of one step -/

/-- The arguments of `transition_order_state` that a step resolves to. -/
def transitionArgs (orderId : String) (fromState toState : OrderState) :
    List (OrderName × Value) :=
  [(.order_id, .text orderId), (.from_state, .state fromState), (.to_state, .state toState)]

theorem wp_singleTransition {name : OrderName} {f t : Arg OrderName}
    {context : List (OrderName × Value)} {id : Uuid} (fromState toState : OrderState)
    {Q : Except PyError (VmTrace OrderName) → CallAt → Prop}
    (hargs : resolve context []
      [(.order_id, .context .order_id), (.from_state, f), (.to_state, t)] =
        transitionArgs orderId fromState toState)
    (hx : x.txn.failed = false) (hid : readUuid orderId = some id) (hw : Untouched x (.order id))
    (hok : ∀ y row outputs, K.Extends c x y → y.txn.failed = false →
      y.txn.writes = x.txn.writes ++ [.order { row with state := toState }] →
      row.state = fromState → y.Pins (fun d => d.orders.find id = some row) →
      Q (.ok { outputs }) y)
    (hno : ∀ y outputs e, K.Extends c x y → y.txn.failed = false →
      y.txn.writes = x.txn.writes → K.Saw c x (fun z => NotIn z.db id (· = fromState)) y →
      Q (.ok { outputs, error := some e }) y)
    (he : ∀ y outputs e, K.Struck c x y → Q (.ok { outputs, error := some e }) y) :
    K.wp c (vmRun orderTools (singleTransition name f t) context) Q x := by
  rw [singleTransition]
  refine wp_vmRun_single rfl ?_
  rw [hargs]
  have htool : orderTools .transition_order_state (transitionArgs orderId fromState toState) =
      transitionOrderState orderId fromState toState >>= fun ok => .ret (.text ok) := rfl
  rw [htool, wp_bind]
  exact wp_transitionOrderState hx hid hw (fun y row hy hyx hyw hst hpin =>
      hok y row _ hy hyx hyw hst hpin)
    (fun y e hy hyx hyw hs => hno y _ _ hy hyx hyw hs) fun y hy => he y _ _ hy

/-! ## A transition that is ready to commit -/

/-- What the pending writes of the session make of the database. -/
inductive PendingEffect (K : ShopContract) (c : Call) (orderId : String) (event : OrderEvent)
    (row row' : Order) (y : CallAt) : Prop
  | moved (hev : event ≠ .START_COOKING)
      (h : y.Pins fun d => y.txn.view d = { d with orders := d.orders.put row' })
  | cooked (hev : event = .START_COOKING) (items : List Json) (lines : List (String × Int))
      (ticket : KitchenTicket) (hitems : row.items.iter = .ok items)
      (hlines : Reserves K.assume K.rely c (y.db, y.mem) items lines)
      (hnew : ticket.state = .NEW) (horder : ticket.orderId = row.id)
      (h : y.Pins fun d => d.kitchenTickets.find ticket.id = none ∧
        ∃ d₁, Sells orderId lines d d₁ ∧ y.txn.view d =
          { d₁ with
            orders := d₁.orders.put row'
            kitchenTickets := d₁.kitchenTickets.put ticket })

/-- The writes of the session make the transition of an order it has locked. -/
structure Pending (K : ShopContract) (c : Call) (orderId : String) (event : OrderEvent)
    (st : OrderState) (row row' : Order) (y : CallAt) : Prop where
  live : y.txn.failed = false
  id : readUuid orderId = some row.id
  step : orderTransitions row.state event = some st
  same : row' = { row with state := st, traceId := row'.traceId }
  order : y.Pins fun d => d.orders.find row.id = some row
  effect : PendingEffect K c orderId event row row' y

variable {st : OrderState} {row row' : Order}

theorem Pending.row_id (h : Pending K c orderId event st row row' y) : row'.id = row.id := by
  rw [h.same]

theorem Sells.orders {lines : List (String × Int)} {d d' : Database}
    (h : Sells orderId lines d d') : d'.orders = d.orders := by
  rw [h.steps.same]

theorem Sells.kitchenTickets {lines : List (String × Int)} {d d' : Database}
    (h : Sells orderId lines d d') : d'.kitchenTickets = d.kitchenTickets := by
  rw [h.steps.same]

/-- The orders in the database the commit gives. -/
theorem Pending.orders (h : Pending K c orderId event st row row' y) :
    y.Pins fun d => (y.txn.view d).orders = d.orders.put row' := by
  intro d hd
  cases h.effect with
  | moved _ hv =>
      have hv : y.txn.view d = { d with orders := d.orders.put row' } := hv d hd
      rw [hv]
  | cooked _ _ _ _ _ _ _ _ hv =>
      obtain ⟨-, d₁, hsells, hv⟩ := hv d hd
      rw [hv]
      change d₁.orders.put row' = d.orders.put row'
      rw [hsells.orders]

theorem Pending.find (h : Pending K c orderId event st row row' y) :
    y.Pins fun d => (y.txn.view d).orders.find row.id = some row' := by
  refine h.orders.mono fun d hd => ?_
  rw [hd, ← h.row_id]
  exact Table.find_put_self _ _

/-- The payments in the database the commit gives. -/
theorem Pending.payments (h : Pending K c orderId event st row row' y) :
    y.Pins fun d => (y.txn.view d).payments = d.payments := by
  intro d hd
  cases h.effect with
  | moved _ hv =>
      have hv : y.txn.view d = { d with orders := d.orders.put row' } := hv d hd
      rw [hv]
  | cooked _ _ _ _ _ _ _ _ hv =>
      obtain ⟨-, d₁, hsells, hv⟩ := hv d hd
      rw [hv]
      change d₁.payments = d.payments
      rw [hsells.steps.same]

/-- Another version of the order goes on top. -/
theorem Pending.write {cfg : Settings} (hK : IsShop cfg K)
    (h : Pending K c orderId event st row row' y) (hz : K.Extends c y z)
    (hlive : z.txn.failed = false) {row'' : Order}
    (hrow : row'' = { row' with traceId := row''.traceId })
    (hview : ∀ d : Database, z.txn.view d = (y.txn.view d).put (.order row'')) :
    Pending K c orderId event st row row'' z := by
  have hid : row'.id = row''.id := by rw [hrow]
  refine ⟨hlive, h.id, h.step, ?_, hz.pins h.order, ?_⟩
  · have h₁ := h.same
    rw [h₁] at hrow
    exact hrow
  · cases h.effect with
    | moved hev hv =>
        refine .moved hev ((hz.pins hv).mono fun d hv => ?_)
        rw [hview, hv]
        exact congrArg (fun t => { d with orders := t }) (Table.put_put hid)
    | cooked hev items lines ticket hitems hlines hnew horder hv =>
        refine .cooked hev items lines ticket hitems
          (hlines.later hz.since (hK.evolves hz.since).products) hnew horder
          ((hz.pins hv).mono fun d hv => ?_)
        obtain ⟨hfresh, d₁, hs, hv⟩ := hv
        refine ⟨hfresh, d₁, hs, ?_⟩
        rw [hview, hv]
        exact congrArg (fun t => { d₁ with
            orders := t
            kitchenTickets := d₁.kitchenTickets.put ticket }) (Table.put_put hid)

theorem Pending.commits {cfg : Settings} (hK : IsShop cfg K)
    (h : Pending K c orderId event st row row' y) {s : State} (hs : K.Later c y s)
    (hmay : May cfg c y.past s.1 row event) :
    Commits cfg K.assume K.rely c y.past s y.txn.writes (y.txn.view s.1) := by
  have hfind : s.1.orders.find row.id = some row := hs.pinned h.order
  cases h.effect with
  | moved hev hv =>
      have hv : y.txn.view s.1 = { s.1 with orders := s.1.orders.put row' } := hs.pinned hv
      rw [hv]
      exact .moved row row' event st hfind hmay h.step hev h.same
  | cooked hev items lines ticket hitems hlines hnew horder hv =>
      obtain ⟨hfresh, d₁, hsells, hv⟩ := hs.pinned hv
      subst hev
      have hst := orderTransitions_startCooking h.step
      subst hst
      rw [hv]
      exact .cooked row row' orderId items lines d₁ ticket hfind hmay h.id h.step h.same hitems
        (hlines.later hs.since (hK.evolves hs.since).products) hsells hfresh horder hnew

/-! ## The program of `START_COOKING` -/

theorem Order.Later.items {r r' : Order} (h : r.Later r') : r'.items = r.items := by
  rw [h.same]

/-- The steps that follow the reservation: the ticket, the order, the message. -/
theorem wp_cook {cfg : Settings} (hK : IsShop cfg K) {items : List Json}
    {lines : List (String × Int)} {fuel : Nat} {outputs : List (OrderName × Value)} {id : Uuid}
    {Q : Except PyError (VmTrace OrderName) → CallAt → Prop} (hid : readUuid orderId = some id)
    (hx : Reserving K c orderId items lines x)
    (hread : ∃ (z : CallAt) (row : Order), K.Since c (z.db, z.mem) (x.db, x.mem) ∧
      z.db.orders.find id = some row ∧ row.items.iter = .ok items)
    (hok : ∀ y row row' outputs, K.Follows c x y →
      Pending K c orderId .START_COOKING .COOKING row row' y → Q (.ok { outputs }) y)
    (hno : ∀ y outputs e, Refused K c orderId .START_COOKING x y →
      Q (.ok { outputs, error := some e }) y) :
    K.wp c (runFrom orderTools programStartCooking [(.order_id, .text orderId)] (fuel + 3)
      .create_kitchen_ticket outputs) Q x := by
  refine wp_runFrom_next programStartCooking[3] rfl rfl ?_
  change K.wp c (createKitchenTicket orderId >>= fun ticket => .ret (Value.text ticket)) _ x
  rw [wp_bind]
  refine wp_createKitchenTicket hx.live hid (fun y ticket hy hyx hyw horder hnew hfresh => ?_)
    fun y hy => hno y _ _ (.of_struck hy)
  refine wp_runFrom_next programStartCooking[4] rfl rfl ?_
  change K.wp c (writeOrderStateCooking orderId ticket.id.text >>= fun ok => .ret (Value.text ok)) _ y
  rw [wp_bind]
  have hview : ∀ d : Database, y.txn.view d = (x.txn.view d).put (.kitchenTicket ticket) :=
    Txn.view_of_writes hyw
  have hticket : y.Pins fun d => (y.txn.view d).kitchenTickets.find ticket.id = some ticket := by
    intro d _
    simp only [hview]
    exact Table.find_put_self _ _
  have hw : Untouched y (.order id) := by
    rw [Untouched, hyw, List.map_append, List.mem_append, not_or]
    exact ⟨hx.untouched id, by simp [Write.lock]⟩
  refine wp_writeOrderStateCooking hyx hid hw horder hticket
    (fun z row hz hzx hzw hst hpin => ?_) (fun z e hz hzx hsaw => ?_) fun z hz => ?_
  · refine wp_runFrom_last programStartCooking[5] rfl rfl ?_
    have hxz := hy.trans hz
    have hrow : row.id = id := (Table.find_some hpin.db).2
    subst hrow
    refine hok z row { row with state := .COOKING } _ hxz.toFollows
      ⟨hzx, hid, hst, rfl, hpin, ?_⟩
    refine .cooked rfl items lines ticket ?_
      (hx.reserves.later hxz.since (hK.evolves hxz.since).products) hnew horder ?_
    · obtain ⟨w, row₀, hw, hfind, hiter⟩ := hread
      obtain ⟨row₁, hfind₁, hlater⟩ := (hK.evolves (hw.trans hxz.since)).orders _ _ hfind
      obtain rfl : row = row₁ := Option.some.inj (hpin.db.symm.trans hfind₁)
      rw [hlater.items]
      exact hiter
    · intro d hd
      have hd' := hz.agree d hd
      have hsells := hx.sells d (hy.agree d hd')
      have hfresh' : (x.txn.view d).kitchenTickets.find ticket.id = none := hfresh d hd'
      rw [hsells.kitchenTickets] at hfresh'
      refine ⟨hfresh', x.txn.view d, hsells, ?_⟩
      rw [Txn.view_of_writes hzw, hview]
      exact congrArg (fun t => { x.txn.view d with
          orders := (x.txn.view d).orders.put { row with state := .COOKING }
          kitchenTickets := t }) (Table.put_put rfl)
  · refine hno z _ _ (.of_follows hy.toFollows (.of_saw hz.toFollows hsaw fun w h => ?_))
    exact .closed id hid h
  · exact hno z _ _ (.of_follows hy.toFollows (Refused.of_struck hz))

theorem wp_startCooking {cfg : Settings} (hK : IsShop cfg K) {id : Uuid}
    {Q : Except PyError (VmTrace OrderName) → CallAt → Prop} (hx : x.txn.failed = false)
    (hempty : x.txn.writes = []) (hid : readUuid orderId = some id)
    (hok : ∀ y row row' outputs, K.Follows c x y →
      Pending K c orderId .START_COOKING .COOKING row row' y → Q (.ok { outputs }) y)
    (hno : ∀ y outputs e, Refused K c orderId .START_COOKING x y →
      Q (.ok { outputs, error := some e }) y) :
    K.wp c (vmRun orderTools programStartCooking [(.order_id, .text orderId)]) Q x := by
  change K.wp c (runFrom orderTools programStartCooking [(.order_id, .text orderId)] 6
    .reserve_inventory []) Q x
  refine wp_runFrom_next programStartCooking[0] rfl rfl ?_
  change K.wp c (reserveInventoryItems orderId >>= fun alert => .ret (Value.number alert)) _ x
  rw [wp_bind]
  refine wp_reserveInventoryItems hK hx hempty hid (fun y n row items lines hy hr hsaw hiter => ?_)
    (fun y e hy hsaw => ?_) fun y hy => hno y _ _ (.of_struck hy)
  · have hread : ∃ (z : CallAt) (row : Order), K.Since c (z.db, z.mem) (y.db, y.mem) ∧
        z.db.orders.find id = some row ∧ row.items.iter = .ok items := by
      obtain ⟨z, -, -, -, hfind, hl⟩ := hsaw
      exact ⟨z, row, hl, hfind, hiter⟩
    have hcook : ∀ fuel outputs, K.wp c (runFrom orderTools programStartCooking
        [(.order_id, .text orderId)] (fuel + 3) .create_kitchen_ticket outputs) Q y :=
      fun fuel outputs => wp_cook hK hid hr hread
        (fun z row row' out hz hp => hok z row row' out (hy.toFollows.trans hz) hp)
        fun z out e hz => hno z out e (.of_follows hy.toFollows hz)
    change K.wp c (runFrom orderTools programStartCooking [(.order_id, .text orderId)] 4
      (if decide (n ≥ 1) = true then .notify_inventory_below_zero else .create_kitchen_ticket)
      [(.reserve_inventory, .number n), (.inventory_result, .number n)]) Q y
    by_cases hn : decide (n ≥ 1) = true
    · rw [if_pos hn]
      exact wp_runFrom_next programStartCooking[2] rfl rfl (hcook 0 _)
    · rw [if_neg hn]
      exact hcook 1 _
  · exact hno y _ _ (.of_saw hy.toFollows hsaw fun z h => .unreservable id hid rfl h)

/-! ## The program of any event -/

/-- The program of another event is one terminal step. -/
theorem selectProgram_single {st st' : OrderState} (orderId : String)
    (hev : event ≠ .START_COOKING) (htr : orderTransitions st event = some st') :
    ∃ name f t, selectProgram event st st' = singleTransition name f t ∧
      resolve (transitionContext orderId event st) []
        [(.order_id, .context .order_id), (.from_state, f), (.to_state, t)] =
          transitionArgs orderId st st' := by
  cases event <;> cases st <;> simp only [orderTransitions, reduceCtorEq, Option.some.injEq] at htr <;>
    first
    | exact absurd rfl hev
    | (subst htr; exact ⟨_, _, _, rfl, rfl⟩)

/-- A state that was read may have been left before it was locked. -/
theorem hindered_of_notIn {st st' : OrderState} {id : Uuid} (hid : readUuid orderId = some id)
    (hev : event ≠ .START_COOKING) (htr : orderTransitions st event = some st')
    (h : NotIn z.db id (· = st)) : Hindered K c orderId event z := by
  by_cases hmany : event = .CANCEL ∨ event = .CLOSE
  · exact .overtaken hmany
  · rw [not_or] at hmany
    refine .closed id hid fun row hrow hst => h row hrow ?_
    exact orderTransitions_source hmany.1 hmany.2 hev (by simp [htr]) hst

theorem wp_selectProgram {cfg : Settings} (hK : IsShop cfg K) {id : Uuid} {st st' : OrderState}
    {Q : Except PyError (VmTrace OrderName) → CallAt → Prop} (hx : x.txn.failed = false)
    (hempty : x.txn.writes = []) (hid : readUuid orderId = some id)
    (htr : orderTransitions st event = some st')
    (hok : ∀ y row row' outputs, K.Follows c x y →
      Pending K c orderId event st' row row' y → Q (.ok { outputs }) y)
    (hno : ∀ y outputs e, Refused K c orderId event x y →
      Q (.ok { outputs, error := some e }) y) :
    K.wp c (vmRun orderTools (selectProgram event st st') (transitionContext orderId event st))
      Q x := by
  by_cases hev : event = .START_COOKING
  · subst hev
    obtain rfl := orderTransitions_startCooking htr
    exact wp_startCooking hK hx hempty hid hok hno
  · obtain ⟨name, f, t, hprog, hargs⟩ := selectProgram_single orderId hev htr
    have hw : Untouched x (.order id) := by simp [Untouched, hempty]
    rw [hprog]
    refine wp_singleTransition _ _ hargs hx hid hw (fun y row out hy hyx hyw hst hpin => ?_)
      (fun y out e hy hyx hyw hsaw => ?_) fun y out e hy => hno y out e (.of_struck hy)
    · have hrow : row.id = id := (Table.find_some hpin.db).2
      subst hrow hst
      refine hok y row { row with state := st' } out hy.toFollows
        ⟨hyx, hid, htr, rfl, hpin, .moved hev fun d _ => ?_⟩
      simp only [Txn.view, hyw, hempty]
      rfl
    · exact hno y out e
        (.of_saw hy.toFollows hsaw fun z h => hindered_of_notIn hid hev htr h)

/-! ## The session of a transition -/

/-- What may run between the transition and its commit: it fails only with the
database, or writes another version of the order. -/
def Finishing (K : ShopContract) (c : Call) (orderId : String) (event : OrderEvent)
    (st : OrderState) (onSuccess : OrderState → Async Unit) : Prop :=
  ∀ (y : CallAt) (row row' : Order), Pending K c orderId event st row row' y →
    K.wp c (onSuccess st) (fun r z => match r with
      | .ok _ => ∃ row'', K.Follows c y z ∧ Pending K c orderId event st row row'' z
      | .error _ => K.Struck c y z) y

theorem finishing_pure : Finishing K c orderId event st fun _ => pure () :=
  fun _ _ row' h => ⟨row', .refl, h⟩

theorem finishing_finishTransition {cfg : Settings} (hK : IsShop cfg K) :
    Finishing K c orderId event st (finishTransition orderId event) := by
  intro y row row' h
  rw [finishTransition, wp_bind]
  refine wp_uuid4 fun s traceId hs ha => ?_
  have hnow : K.Extends c y (y.now s) := .now hs
  simp only [wp_bind]
  refine wp_uuid (fun id hid => ?_) fun hid => by rw [h.id] at hid; cases hid
  obtain rfl : row.id = id := Option.some.inj (h.id.symm.trans hid)
  refine orders.wp_update_pinned h.live (fun _ => rfl) (hnow.pins h.find)
    (fun z hz hzx hzw => ?_) fun z hz => .of_follows hnow.toFollows hz
  have hcook : ¬(st = .COOKING ∧ event ≠ .START_COOKING) := fun hc =>
    hc.2 (startCooking_of_cooking (hc.1 ▸ h.step))
  rw [if_neg hcook]
  exact ⟨_, hnow.toFollows.trans hz.toFollows,
    h.write hK (hnow.trans hz) hzx rfl (Txn.view_of_writes (t := y.txn) hzw)⟩

theorem wp_orderState {Q : Except PyError OrderState → CallAt → Prop}
    (hx : x.txn.failed = false)
    (hok : ∀ s id row, K.Later c x s → K.assume c (x.now s) → readUuid orderId = some id →
      (x.txn.view s.1).orders.find id = some row → Q (.ok row.state) (x.now s))
    (hno : ∀ s id e, K.Later c x s → K.assume c (x.now s) → readUuid orderId = some id →
      (x.txn.view s.1).orders.find id = none → Q (.error e) (x.now s))
    (hbad : ∀ e, readUuid orderId = none → Q (.error e) x)
    (he : ∀ y, K.Struck c x y → Q (.error .dbapiError) y) :
    K.wp c (orderState orderId) Q x := by
  rw [orderState, wp_bind]
  refine wp_uuid (fun id hid => ?_) fun h e => hbad e h
  simp only [wp_bind]
  refine orders.wp_find hx (fun s hs ha => ?_) he
  cases hrow : (orders.table (x.txn.view s.1)).find id with
  | none => exact hno s id _ hs ha hid hrow
  | some row => exact hok s id row hs ha hid hrow

/-- A transition in a session of its own: made, or refused for a reason. -/
theorem wp_runTransition {cfg : Settings} (hK : IsShop cfg K) (hc : K.calls c)
    {onSuccess : OrderState → Async Unit} {Q : Except PyError OrderResult → CallAt → Prop}
    (hx : x.txn = {}) (hfin : ∀ st, Finishing K c orderId event st onSuccess)
    (hmay : ∀ s row, K.Since c (x.db, x.mem) s → s.1.orders.find row.id = some row →
      readUuid orderId = some row.id → May cfg c x.past s.1 row event)
    (hok : ∀ y st, Made K c orderId event st x y → Q (.ok (transitioned st)) y)
    (hno : ∀ y res, y.txn = {} → Refused K c orderId event x y → res.success = false →
      Q (.ok res) y)
    (he : ∀ y e, y.txn = {} → K.Through c x (Broke K c orderId) y → Q (.error e) y) :
    K.wp c (runTransition orderId event onSuccess) Q x := by
  have hlive : x.txn.failed = false := by rw [hx]
  have hempty : x.txn.writes = [] := by rw [hx]
  refine wp_withSession ?_
  -- where the session gives up, it is only left to close it
  have hgive : ∀ y res, Refused K c orderId event x y → res.success = false →
      ∀ s, K.Later c y s → K.assume c (y.now s) → Q (.ok res) (y.now s).closed :=
    fun y res hy hr s hs _ => hno _ res rfl (hy.follows ((Follows.now hs).trans .closed)) hr
  have hraise : ∀ y e, K.Struck c x y →
      ∀ s, K.Later c y s → K.assume c (y.now s) → Q (.error e) (y.now s).closed :=
    fun y e hy s hs _ => he _ e rfl ((hy.closed hs).mono fun _ => .struck)
  rw [wp_bind]
  refine wp_orderState hlive (fun s id row hs ha hid hrow => ?_)
    (fun s id e hs ha hid hrow s' hs' _ => ?_) (fun e hbad s hs ha => ?_) fun y => hraise y _
  · have hnow : K.Follows c x (x.now s) := .now hs
    have hdb : s.1.orders.find id = some row := by
      rw [hx] at hrow
      exact hrow
    dsimp only
    cases htr : orderTransitions row.state event with
    | none =>
        refine hgive _ _ ⟨hnow, _, hnow, ha, .closed id hid fun row' hrow' => ?_, .refl⟩ rfl
        rw [CallState.now_db, hdb] at hrow'
        obtain rfl := Option.some.inj hrow'
        simp [htr]
    | some st =>
        dsimp only
        rw [wp_bind]
        refine wp_selectProgram hK hlive hempty hid htr (fun y row₁ row₂ out hy hp => ?_)
          fun y out e hy => hgive y _ (.of_follows hnow hy) rfl
        dsimp only
        rw [wp_bind]
        refine wp_mono (fun r z hz => ?_) (hfin st y row₁ row₂ hp)
        cases r with
        | error e => exact hraise z e (.of_follows (hnow.trans hy) hz)
        | ok u =>
            obtain ⟨row₃, hyz, hp⟩ := hz
            have hxz := hnow.trans (hy.trans hyz)
            have hcommit : ∀ s', K.Later c z s' →
                Commits cfg K.assume K.rely c z.past s' z.txn.writes (z.txn.view s'.1) := by
              refine fun s' hs' => hp.commits hK hs' ?_
              rw [hxz.past]
              exact hmay s' row₁ (hxz.since.trans hs'.since) (hs'.pinned hp.order) hp.id
            refine wp_commit hK hc hp.live hcommit (fun s' y' hs' _ hy' => ?_) fun w hw =>
              hraise w _ (.of_follows hxz hw)
            have hev := (hK.evolves hxz.since).trans (hK.evolves_committed (hcommit s' hs') hy')
            exact hok y' st ⟨s'.1, z.txn.view s'.1, row₁, row₃, hy'.of_follows hxz, hp.id,
              hs'.pinned hp.order, hp.step, hs'.pinned hp.orders, hp.same,
              hs'.pinned hp.payments, hev⟩
  · have hnow : K.Follows c x (x.now s) := .now hs
    refine he _ e rfl ⟨hnow.trans ((Follows.now hs').trans .closed), _, hnow, ha,
      .missing fun id' hid' => ?_, hs'.since⟩
    obtain rfl : id = id' := Option.some.inj (hid.symm.trans hid')
    rw [hx] at hrow
    exact hrow
  · refine he _ e rfl ⟨(Follows.now hs).trans .closed, _, .now hs, ha, .missing fun id hid => ?_,
      .refl⟩
    rw [hbad] at hid
    cases hid

theorem wp_transitionOrder {cfg : Settings} (hK : IsShop cfg K) (hc : K.calls c)
    {Q : Except PyError OrderResult → CallAt → Prop} (hx : x.txn = {})
    (hmay : ∀ s row, K.Since c (x.db, x.mem) s → s.1.orders.find row.id = some row →
      readUuid orderId = some row.id → May cfg c x.past s.1 row event)
    (hok : ∀ y st, Made K c orderId event st x y → Q (.ok (transitioned st)) y)
    (hno : ∀ y res, y.txn = {} → Refused K c orderId event x y → res.success = false →
      Q (.ok res) y)
    (he : ∀ y e, y.txn = {} → K.Through c x (Broke K c orderId) y → Q (.error e) y) :
    K.wp c (transitionOrder orderId event) Q x :=
  wp_runTransition hK hc hx (fun _ => finishing_finishTransition hK) hmay hok hno he

theorem wp_handleEvent {cfg : Settings} (hK : IsShop cfg K) (hc : K.calls c)
    {Q : Except PyError OrderResult → CallAt → Prop} (hx : x.txn = {})
    (hmay : ∀ s row, K.Since c (x.db, x.mem) s → s.1.orders.find row.id = some row →
      readUuid orderId = some row.id → May cfg c x.past s.1 row event)
    (hok : ∀ y st, Made K c orderId event st x y → Q (.ok (transitioned st)) y)
    (hno : ∀ y res, y.txn = {} → Refused K c orderId event x y → res.success = false →
      Q (.ok res) y)
    (he : ∀ y e, y.txn = {} → K.Through c x (Broke K c orderId) y → Q (.error e) y) :
    K.wp c (handleEvent orderId event) Q x :=
  wp_runTransition hK hc hx (fun _ => finishing_pure) hmay hok hno he

end Specs

end Sieshka
