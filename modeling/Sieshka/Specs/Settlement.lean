import Sieshka.Specs.Transitions

/-!
# The settlement of a payment

A delivery records its key in one session and settles its payment in the next;
a confirmation that moved its order goes on to the kitchen.
-/

namespace Sieshka

open Transactions Contract
open Relation (ReflTransGen)

section Specs

variable {K : ShopContract} {c : Call} {x y z : CallAt} {orderId providerId : String}

/-! ## Idempotency keys -/

theorem wp_checkAndRecord {cfg : Settings} (hK : IsShop cfg K) (hc : K.calls c) {key : String}
    {payload : Json} {Q : Except PyError Bool → CallAt → Prop} (hx : x.txn = {})
    (hmay : MayRecord cfg c ⟨key, payload⟩)
    (hnew : ∀ y d, d.idempotencyKeys.find key = none →
      K.Committed c d { d with idempotencyKeys := d.idempotencyKeys.put ⟨key, payload⟩ } x y →
      Q (.ok true) y)
    (hold : ∀ z y d, K.Follows c x z → K.assume c z →
      (z.db.idempotencyKeys.find key).isSome = true → (d.idempotencyKeys.find key).isSome = true →
      K.Committed c d d x y → Q (.ok false) y)
    (he : ∀ y, y.txn = {} → K.Through c x (K.faulty c) y → Q (.error .dbapiError) y) :
    K.wp c (checkAndRecord key payload) Q x := by
  have hlive : x.txn.failed = false := by rw [hx]
  have hview : ∀ d : Database, x.txn.view d = d := fun d => by rw [hx]; rfl
  refine wp_withSession ?_
  rw [wp_bind]
  refine idempotencyKeys.wp_insertIfAbsent hlive (fun s row hs ha hfind => ?_)
    (fun s hs ha hpin => ?_) fun y hy s hs _ => he _ rfl (hy.closed hs)
  · have hnow : K.Follows c x (x.now s) := .now hs
    rw [hview] at hfind
    have htaken : ∀ s', K.Later c (x.now s) s' →
        (s'.1.idempotencyKeys.find key).isSome = true := fun s' hs' => by
      obtain ⟨row', hfind', -⟩ := (hK.evolves hs'.since).keys _ _ hfind
      simp [hfind']
    refine wp_commit hK hc hlive (fun s' hs' => ?_) (fun s' y hs' _ hy => ?_)
      fun y hy s' hs' _ => he _ rfl ((Struck.of_follows hnow hy).closed hs')
    · rw [CallState.now_txn, hview]
      exact .duplicate ⟨key, payload⟩ hmay (htaken s' hs')
    · rw [CallState.now_txn, hview] at hy
      exact hold _ y s'.1 hnow ha (Option.isSome_of_mem hfind) (htaken s' hs') (hy.of_follows hnow)
  · have hnow : K.Follows c x ((x.now s).wrote [idempotencyKeys.write ⟨key, payload⟩]) :=
      ((Extends.now hs).trans (.wrote _)).toFollows
    have hput : ∀ d : Database, ((x.now s).wrote [idempotencyKeys.write ⟨key, payload⟩]).txn.view d =
        { d with idempotencyKeys := d.idempotencyKeys.put ⟨key, payload⟩ } := fun d => by
      rw [Txn.view_of_writes (t := x.txn) rfl, hview]
      rfl
    have hfind : ∀ s', K.Later c ((x.now s).wrote [idempotencyKeys.write ⟨key, payload⟩]) s' →
        s'.1.idempotencyKeys.find key = none := fun s' hs' => by
      have h := hs'.pinned hpin
      rw [hview] at h
      exact h
    refine wp_commit hK hc hlive (fun s' hs' => ?_) (fun s' y hs' _ hy => ?_)
      fun y hy s' hs' _ => he _ rfl ((Struck.of_follows hnow hy).closed hs')
    · rw [hput]
      exact .recorded ⟨key, payload⟩ hmay (hfind s' hs')
    · rw [hput] at hy
      exact hnew y s'.1 (hfind s' hs') (hy.of_follows hnow)

/-! ## The order of a payment -/

/-- The transition of an order within a session that has more to commit. -/
theorem wp_runSimpleTransition {event : OrderEvent} {currentState : OrderState} {id : Uuid}
    {Q : Except PyError OrderResult → CallAt → Prop} (hx : x.txn.failed = false)
    (hid : readUuid orderId = some id) (hw : Untouched x (.order id))
    (hmoved : ∀ y row st, K.Extends c x y → y.txn.failed = false →
      y.txn.writes = x.txn.writes ++ [.order { row with state := st }] →
      row.state = currentState → orderTransitions currentState event = some st →
      y.Pins (fun d => d.orders.find id = some row) → Q (.ok (transitioned st)) y)
    (hkept : ∀ y r, K.Extends c x y → y.txn.failed = false → y.txn.writes = x.txn.writes →
      orderTransitions currentState event = none ∨
        K.Saw c x (fun z => NotIn z.db id (· = currentState)) y →
      r.success = false → Q (.ok r) y)
    (he : ∀ y r, K.Struck c x y → r.success = false → Q (.ok r) y) :
    K.wp c (runSimpleTransition orderId event currentState) Q x := by
  rw [runSimpleTransition]
  cases htr : orderTransitions currentState event with
  | none => exact hkept x _ .refl hx rfl (Or.inl htr) rfl
  | some st =>
      dsimp only
      rw [wp_bind]
      exact wp_singleTransition currentState st rfl hx hid hw
        (fun y row out hy hyx hyw hst hpin => hmoved y row st hy hyx hyw hst htr hpin)
        (fun y out e hy hyx hyw hsaw => hkept y _ hy hyx hyw (Or.inr hsaw) rfl)
        fun y out e hy => he y _ hy rfl

/-- The order of a payment in the session that has written the payment: it is moved, or kept
for a reason, or a statement has failed. -/
theorem wp_moveOrder {cfg : Settings} (hK : IsShop cfg K) {α : Type} {event : OrderEvent}
    {row : Payment} {f : OrderResult → α} {Q : Except PyError α → CallAt → Prop}
    (hy : y.txn.failed = false) (hw : y.txn.writes = [.payment row])
    (hmoved : ∀ s z order st, K.Later c y s → K.assume c (y.now s) →
      K.Extends c (y.now s) z → z.txn.failed = false →
      z.txn.writes = [.payment row, .order { order with state := st }] →
      readUuid orderId = some order.id → orderTransitions order.state event = some st →
      z.Pins (fun d => d.orders.find order.id = some order) →
      (∀ d : Database, z.txn.view d = { d with
        payments := d.payments.put row, orders := d.orders.put { order with state := st } }) →
      K.wp c (Prog.commitSession >>= fun _ => .ret (f (transitioned st))) Q z)
    (hkept : ∀ s z r order, K.Later c y s → K.assume c (y.now s) → K.Extends c (y.now s) z →
      z.txn.failed = false → z.txn.writes = [.payment row] → readUuid orderId = some order.id →
      s.1.orders.find order.id = some order →
      orderTransitions order.state event = none ∨
        K.Saw c (y.now s) (fun w => NotIn w.db order.id (· = order.state)) z →
      r.success = false →
      (∀ s', K.Later c z s' → ∃ row, row.id = order.id ∧ s'.1.orders.find row.id = some row) →
      (∀ d : Database, z.txn.view d = { d with payments := d.payments.put row }) →
      K.wp c (Prog.commitSession >>= fun _ => .ret (f r)) Q z)
    (hstruck : ∀ z r, K.Struck c y z → r.success = false →
      K.wp c (Prog.commitSession >>= fun _ => .ret (f r)) Q z)
    (hnone : ∀ s id e, K.Later c y s → K.assume c (y.now s) → readUuid orderId = some id →
      s.1.orders.find id = none → Q (.error e) (y.now s))
    (hbad : ∀ e, readUuid orderId = none → Q (.error e) y)
    (he : ∀ z, K.Struck c y z → Q (.error .dbapiError) z) :
    K.wp c (do
      let currentState ← orderState orderId
      let result ← runSimpleTransition orderId event currentState
      Prog.commitSession
      return f result) Q y := by
  -- the payment hides no order
  have hdb : ∀ (d : Database) (id : Uuid), (y.txn.view d).orders.find id = d.orders.find id :=
    fun d id => Untouched.order (by simp [Untouched, hw, Write.lock]) d
  rw [wp_bind]
  refine wp_orderState hy (fun s id order hs ha hid hfind => ?_)
    (fun s id e hs ha hid hnofind => hnone s id e hs ha hid (by rwa [hdb] at hnofind)) hbad he
  rw [hdb] at hfind
  obtain rfl : order.id = id := (Table.find_some hfind).2
  dsimp only
  rw [wp_bind]
  refine wp_runSimpleTransition hy hid (by simp [Untouched, hw, Write.lock])
    (fun z order' st hz hzx hzw hst htr hpin => ?_) (fun z r hz hzx hzw hwhy hr => ?_)
    fun z r hz hr => hstruck z r (.of_follows (.now hs) hz) hr
  · have hid' : order'.id = order.id := (Table.find_some hpin.db).2
    rw [← hid'] at hid hpin
    rw [← hst] at htr
    have hwrites : z.txn.writes = [.payment row, .order { order' with state := st }] := by
      rw [hzw, CallState.now_txn, hw]
      rfl
    refine hmoved s z order' st hs ha hz hzx hwrites hid htr hpin fun d => ?_
    rw [Txn.view, hwrites]
    rfl
  · have hwrites : z.txn.writes = [.payment row] := by
      rw [hzw, CallState.now_txn, hw]
    refine hkept s z r order hs ha hz hzx hwrites hid hfind hwhy hr (fun s' hs' => ?_) fun d => ?_
    · obtain ⟨later, hlater, -⟩ := (hK.evolves (hz.since.trans hs'.since)).orders _ _ hfind
      have hsame : later.id = order.id := (Table.find_some hlater).2
      exact ⟨later, hsame, hsame ▸ hlater⟩
    · rw [Txn.view, hwrites]
      rfl

/-! ## Settlement -/

/-- Why a payment is not settled, where the call stands at `z`. -/
inductive Unsettled (K : ShopContract) (c : Call) (kind : Settlement) (orderId providerId : String)
    (z : CallAt) : Prop
  | skipped (h : ∀ row, oneRow (withProviderId z.db providerId) = .ok row →
      kind.skip row.state ≠ none)
  | noOrder (h : ∀ id, readUuid orderId = some id → z.db.orders.find id = none)
  | struck (h : K.faulty c z)

/-- The payment has the provider id, and the call has seen it stored as `row` on its
way from `x`. -/
def Chosen (K : ShopContract) (c : Call) (providerId : String) (row : Payment) (x : CallAt) :
    Prop :=
  row.providerId = some providerId ∧
    ∃ z, K.Follows c x z ∧ K.assume c z ∧ z.db.payments.find row.id = some row

/-- The call has settled the payment on its way from `x` to `y`; the order was
moved when `success`, else it had been seen where it cannot be. -/
def Settled (K : ShopContract) (c : Call) (kind : Settlement) (orderId providerId : String)
    (success : Bool) (x y : CallAt) : Prop :=
  ∃ d d' row order, K.Committed c d d' x y ∧ Chosen K c providerId row x ∧
    d.payments.find row.id = some row ∧
    d'.payments = d.payments.put { row with state := kind.state } ∧
    readUuid orderId = some order.id ∧ d.orders.find order.id = some order ∧
    (success = true → ∃ st, orderTransitions order.state kind.event = some st ∧
      d'.orders = d.orders.put { order with state := st }) ∧
    (success = false → d'.orders = d.orders ∧ ∃ z, K.Follows c x z ∧ K.assume c z ∧
      ¬ StateAt z.db order.id .PAYMENT_PENDING ∧ ∃ m, K.Since c (z.db, z.mem) (d, m))

theorem Settled.txn {kind : Settlement} {b : Bool}
    (h : Settled K c kind orderId providerId b x y) : y.txn = {} := by
  obtain ⟨d, d', row, order, hcm, -⟩ := h
  exact hcm.txn

/-- Both events of a settlement have the one source. -/
theorem settlement_source (kind : Settlement) {st : OrderState} :
    orderTransitions st kind.event ≠ none ↔ st = .PAYMENT_PENDING := by
  cases kind <;> cases st <;> simp [Settlement.event, orderTransitions]

theorem wp_getByProviderId {Q : Except PyError (Option Payment) → CallAt → Prop}
    (hx : x.txn = {})
    (hok : ∀ s row, K.Later c x s → K.assume c (x.now s) →
      oneRow (withProviderId s.1 providerId) = .ok row → Q (.ok (some row)) (x.now s))
    (hno : ∀ s, K.Later c x s → K.assume c (x.now s) →
      (∀ row, oneRow (withProviderId s.1 providerId) ≠ .ok row) → Q (.ok none) (x.now s))
    (he : ∀ y, K.Struck c x y → Q (.ok none) y) :
    K.wp c ((getByProviderId providerId).andThen (fun row => .ret (some row)) fun _ => .ret none)
      Q x := by
  have hview : ∀ d : Database, x.txn.view d = d := fun d => by rw [hx]; rfl
  rw [wp_andThen, getByProviderId, wp_bind]
  refine wp_select (by rw [hx]) (fun s hs ha => ?_) he
  rw [hview]
  dsimp only
  cases hrow : oneRow (withProviderId s.1 providerId) with
  | error e => exact hno s hs ha fun row h => by rw [hrow] at h; cases h
  | ok row => exact hok s row hs ha hrow

/-- Where the session of a settlement stands after it has written the payment. -/
structure Settling (K : ShopContract) (c : Call) (kind : Settlement) (providerId : String)
    (row : Payment) (x y : CallAt) : Prop extends K.Follows c x y where
  live : y.txn.failed = false
  writes : Write.payment { row with state := kind.state } ∈ y.txn.writes
  stored : y.Pins fun d => d.payments.find row.id = some row
  provider : row.providerId = some providerId
  read : ∃ z row₀, K.Follows c x z ∧ K.assume c z ∧
    oneRow (withProviderId z.db providerId) = .ok row₀ ∧ kind.skip row₀.state = none ∧
    row₀.Later row ∧ K.Since c (z.db, z.mem) (y.db, y.mem)

theorem Settling.extends {kind : Settlement} {row : Payment}
    (h : Settling K c kind providerId row x y) (ws : List Write) (hz : K.Extends c y z)
    (hlive : z.txn.failed = false) (hw : z.txn.writes = y.txn.writes ++ ws) :
    Settling K c kind providerId row x z where
  toFollows := h.toFollows.trans hz.toFollows
  live := hlive
  writes := by
    rw [hw]
    exact List.mem_append_left _ h.writes
  stored := hz.pins h.stored
  provider := h.provider
  read := by
    obtain ⟨w, row₀, h₁, h₂, h₃, h₄, h₅, h₆⟩ := h.read
    exact ⟨w, row₀, h₁, h₂, h₃, h₄, h₅, h₆.trans hz.since⟩

/-- The effect of the settlement on the database its session commits to. -/
theorem Settling.commits {cfg : Settings} {kind : Settlement} {row : Payment} {order : Order}
    {orders' : Table Order.id} {s : State}
    (hmay : ∀ s z row₀ row, K.Since c (x.db, x.mem) z →
      oneRow (withProviderId z.1 providerId) = .ok row₀ → K.Since c z s → row₀.Later row →
      MaySettle cfg c x.past kind orderId row s)
    (h : Settling K c kind providerId row x y) (hs : K.Later c y s)
    (hid : readUuid orderId = some order.id) (horder : s.1.orders.find order.id = some order)
    (hmoves : Moves s.1.orders order kind.event
      (∃ z, Was K.assume K.rely c z s ∧
        .payment { row with state := kind.state } ∈ z.txn.writes ∧
        ¬ StateAt z.db order.id .PAYMENT_PENDING) orders') :
    Commits cfg K.assume K.rely c y.past s y.txn.writes
      { s.1 with payments := s.1.payments.put { row with state := kind.state }, orders := orders' } := by
  obtain ⟨w, row₀, hw, ha, hone, hskip, hlater, hsince⟩ := h.read
  have hfind₀ := (find_of_oneRow hone).1
  have hrow : row.id = row₀.id := by rw [hlater]
  rw [h.past]
  refine .settled kind orderId row order orders' (hs.pinned h.stored) h.writes
    (hmay s (w.db, w.mem) row₀ row hw.since hone (hsince.trans hs.since) hlater)
    ⟨w, row₀, ⟨ha, hsince.trans hs.since⟩, ?_, hskip⟩ hid horder hmoves
  rw [hrow]
  exact hfind₀

/-- An order that was not moved had been seen elsewhere than in `PAYMENT_PENDING`. -/
theorem seen_elsewhere {kind : Settlement} {id : Uuid} {order : Order}
    (hfind : x.db.orders.find id = some order) (ha : K.assume c x) (hxy : K.Extends c x y)
    (h : orderTransitions order.state kind.event = none ∨
      K.Saw c x (fun z => NotIn z.db id (· = order.state)) y) :
    K.Saw c x (fun z => ¬ StateAt z.db id .PAYMENT_PENDING) y := by
  by_cases hst : order.state = .PAYMENT_PENDING
  · rcases h with h | h
    · exact absurd h ((settlement_source _).mpr hst)
    · refine h.mono fun z hz => ?_
      rintro ⟨row, hrow, hrs⟩
      exact hz row hrow (hrs.trans hst.symm)
  · refine ⟨x, .refl, rfl, ha, ?_, hxy.since⟩
    rintro ⟨row, hrow, hrs⟩
    rw [hfind] at hrow
    obtain rfl := Option.some.inj hrow
    exact hst hrs

/-- The rest of the session, once the payment is written. -/
theorem wp_settleOrder {cfg : Settings} (hK : IsShop cfg K) (hc : K.calls c) {kind : Settlement}
    (row : Payment) {Q : Except PyError (Except String OrderResult) → CallAt → Prop}
    (hy : Settling K c kind providerId row x y)
    (hw : y.txn.writes = [.payment { row with state := kind.state }])
    (hmay : ∀ s z row₀ row, K.Since c (x.db, x.mem) z →
      oneRow (withProviderId z.1 providerId) = .ok row₀ → K.Since c z s → row₀.Later row →
      MaySettle cfg c x.past kind orderId row s)
    (hok : ∀ y result, Settled K c kind orderId providerId result.success x y →
      Q (.ok (.ok result)) y)
    (hno : ∀ y r, K.Through c x (Unsettled K c kind orderId providerId) y →
      (∀ result, r = .ok (.ok result) → result.success = false) →
      ∀ s, K.Later c y s → K.assume c (y.now s) → Q r (y.now s).closed) :
    K.wp c (do
      let currentState ← orderState orderId
      let result ← runSimpleTransition orderId kind.event currentState
      Prog.commitSession
      return .ok result)
      (fun r y => ∀ s, K.Later c y s → K.assume c (y.now s) → Q r (y.now s).closed) y := by
  have hstruck : ∀ z, K.Struck c y z →
      K.Through c x (Unsettled K c kind orderId providerId) z :=
    fun z hz => .of_struck (.of_follows hy.toFollows hz) fun _ => .struck
  have hnow : ∀ s, K.Later c y s → Settling K c kind providerId row x (y.now s) :=
    fun s hs => hy.extends [] (.now hs) hy.live (by simp)
  have hchosen : ∀ s, K.Later c y s → K.assume c (y.now s) → Chosen K c providerId row x :=
    fun s hs ha => ⟨hy.provider, _, (hnow s hs).toFollows, ha, hs.pinned hy.stored⟩
  refine wp_moveOrder hK hy.live hw (fun s z order st hs ha hz hzx hzw hid htr hpin hview => ?_)
    (fun s z r order hs ha hz hzx hzw hid hord hwhy hr hstay hview => ?_) (fun z r hz hr => ?_)
    (fun s id e hs ha hid hnone => ?_) (fun e hbad => ?_)
    fun z hz => hno z (.error _) (hstruck z hz) (by simp)
  · have hyz : K.Extends c y z := (Extends.now hs).trans hz
    have hy₂ : Settling K c kind providerId row x z :=
      hy.extends [.order { order with state := st }] hyz hzx (by rw [hzw, hw]; rfl)
    refine wp_commit hK hc hzx (fun s' hs' => ?_) (fun s' w hs' _ hcm => ?_)
      fun w hz' => hno w (.error _) (hstruck w (.of_follows hyz.toFollows hz')) (by simp)
    · rw [hview]
      exact hy₂.commits hmay hs' hid (hs'.pinned hpin) (.moved htr)
    · rw [hview] at hcm
      exact hok w _ ⟨s'.1, _, row, order, hcm.of_follows hy₂.toFollows, hchosen s hs ha,
        hs'.pinned hy₂.stored, rfl, hid, hs'.pinned hpin, fun _ => ⟨st, htr, rfl⟩, by simp [transitioned]⟩
  · have hyz : K.Extends c y z := (Extends.now hs).trans hz
    have hy₂ : Settling K c kind providerId row x z := hy.extends [] hyz hzx (by rw [hzw, hw]; rfl)
    obtain ⟨w, hw₁, hw₂, haw, hout, hlw⟩ := seen_elsewhere (x := y.now s) hord ha hz hwhy
    have hws : Write.payment { row with state := kind.state } ∈ w.txn.writes := by
      rw [hw₂]
      exact (hnow s hs).writes
    refine wp_commit hK hc hzx (fun s' hs' => ?_) (fun s' u hs' _ hcm => ?_)
      fun u hz' => hno u (.error _) (hstruck u (.of_follows hyz.toFollows hz')) (by simp)
    · obtain ⟨order', hsame, hfind⟩ := hstay s' hs'
      rw [← hsame] at hid hout
      rw [hview]
      exact hy₂.commits hmay hs' hid hfind (.kept ⟨w, ⟨haw, hlw.trans hs'.since⟩, hws, hout⟩)
    · obtain ⟨order', hsame, hfind⟩ := hstay s' hs'
      rw [← hsame] at hid hout
      rw [hview] at hcm
      exact hok u r ⟨s'.1, _, row, order', hcm.of_follows hy₂.toFollows, hchosen s hs ha,
        hs'.pinned hy₂.stored, rfl, hid, hfind, by simp [hr], fun _ => ⟨rfl, w,
        (hnow s hs).toFollows.trans hw₁.toFollows, haw, hout, s'.2, hlw.trans hs'.since⟩⟩
  · rw [wp_bind]
    refine wp_commitSession_failed hz.txn (fun s' hs' => ?_) fun s' hs' => ?_
    · exact hno _ (.ok (.ok r)) ((hstruck z hz).follows ((Follows.now hs').trans .closed)) (by simp [hr])
    · exact hno _ (.error _) ((hstruck z hz).follows (.now hs')) (by simp)
  · refine hno _ (.error e) (.of_follows hy.toFollows (.now hs ha (.noOrder fun id' hid' => ?_)))
      (by simp)
    obtain rfl : id = id' := Option.some.inj (hid.symm.trans hid')
    exact hnone
  · obtain ⟨w, -, hw', ha, -, -, -, hsince⟩ := hy.read
    refine hno y (.error e) ⟨hy.toFollows, w, hw', ha, .noOrder fun id hid => ?_, hsince⟩ (by simp)
    rw [hbad] at hid
    cases hid

/-- The session of a settlement: committed, or left for a reason. -/
theorem wp_settlePayment {cfg : Settings} (hK : IsShop cfg K) (hc : K.calls c) {kind : Settlement}
    {Q : Except PyError (Except String OrderResult) → CallAt → Prop} (hx : x.txn = {})
    (hmay : ∀ s z row₀ row, K.Since c (x.db, x.mem) z →
      oneRow (withProviderId z.1 providerId) = .ok row₀ → K.Since c z s → row₀.Later row →
      MaySettle cfg c x.past kind orderId row s)
    (hok : ∀ y result, Settled K c kind orderId providerId result.success x y →
      Q (.ok (.ok result)) y)
    (hno : ∀ y r, y.txn = {} → K.Through c x (Unsettled K c kind orderId providerId) y →
      (∀ result, r = .ok (.ok result) → result.success = false) → Q r y) :
    K.wp c (settlePayment kind orderId providerId) Q x := by
  have hlive : x.txn.failed = false := by rw [hx]
  have hview : ∀ d : Database, x.txn.view d = d := fun d => by rw [hx]; rfl
  have hgive : ∀ y (r : Except PyError (Except String OrderResult)),
      K.Through c x (Unsettled K c kind orderId providerId) y →
      (∀ result, r = .ok (.ok result) → result.success = false) →
      ∀ s, K.Later c y s → K.assume c (y.now s) → Q r (y.now s).closed :=
    fun y r hy hr s hs _ => hno _ r rfl (hy.follows ((Follows.now hs).trans .closed)) hr
  have hstruck : ∀ y, K.Struck c x y →
      K.Through c x (Unsettled K c kind orderId providerId) y :=
    fun y hy => .of_struck hy fun _ => .struck
  refine wp_withSession ?_
  rw [wp_bind]
  refine wp_getByProviderId hx (fun s row₀ hs ha hrow => ?_) (fun s hs ha hnone => ?_)
    fun y hy => hgive y (.ok (.error _)) (hstruck y hy) (by simp)
  · have hnow : K.Follows c x (x.now s) := .now hs
    obtain ⟨hfind₀, hprov⟩ := find_of_oneRow hrow
    dsimp only
    cases hskip : kind.skip row₀.state with
    | some reason =>
        refine hgive _ (.ok (.error reason)) (.now hs ha (.skipped fun row h => ?_)) (by simp)
        rw [CallState.now_db, hrow] at h
        obtain rfl := Except.ok.inj h
        simp [hskip]
    | none =>
        dsimp only
        rw [wp_bind]
        refine payments.wp_update hlive (fun _ => rfl) (fun s' hs' _ hnone => ?_)
          (fun s' row hs' _ hrow' hpin => ?_)
          fun y hy => hgive y (.error _) (hstruck y (.of_follows hnow hy)) (by simp)
        · obtain ⟨row, hfind, -⟩ := (hK.evolves hs'.since).payments _ _ hfind₀
          rw [CallState.now_txn, hview] at hnone
          have h := hfind.symm.trans hnone
          cases h
        · have hwrote := (Extends.now hs').trans
            (.wrote (x := (x.now s).now s') [payments.write { row with state := kind.state }])
          have hlater : row₀.Later row := by
            obtain ⟨row', hfind, hlater⟩ := (hK.evolves hs'.since).payments _ _ hfind₀
            rw [CallState.now_txn, hview] at hrow'
            obtain rfl := Option.some.inj (hrow'.symm.trans hfind)
            exact hlater
          have hid : row.id = row₀.id := by rw [hlater]
          have hempty : x.txn.writes = [] := by rw [hx]
          refine wp_settleOrder hK hc row ⟨hnow.trans hwrote.toFollows, hlive, ?_, ?_, ?_,
            x.now s, row₀, hnow, ha, hrow, hskip, hlater, hwrote.since⟩ ?_ hmay hok hgive
          · simp [hempty, payments]
          · refine hpin.mono fun d hd => ?_
            rw [CallState.now_txn, hview] at hd
            rw [hid]
            exact hd
          · rw [hlater]
            exact hprov
          · simp [hempty, payments]
  · exact hgive _ (.ok (.error _)) (.now hs ha (.skipped fun row h => absurd h (hnone row)))
      (by simp)

/-! ## Deliveries -/

/-- What a delivery that a call has verified has come to between `x` and `y`. -/
inductive Delivered (K : ShopContract) (c : Call) (kind : Settlement)
    (orderId providerId key : String) (x y : CallAt) : Prop
  | refused (h : K.Through c x (K.faulty c) y)
  | duplicate (d : Database) (z : CallAt) (hz : K.Follows c x z) (ha : K.assume c z)
      (hkey : (z.db.idempotencyKeys.find key).isSome = true) (h : K.Committed c d d x y)
  | unsettled (d d' : Database) (w : CallAt) (hkey : d.idempotencyKeys.find key = none)
      (hd : ∃ payload, d' = { d with idempotencyKeys := d.idempotencyKeys.put ⟨key, payload⟩ })
      (h : K.Committed c d d' x w) (hw : K.Through c w (Unsettled K c kind orderId providerId) y)
  | settled (d d' : Database) (w : CallAt) (b : Bool) (hkey : d.idempotencyKeys.find key = none)
      (hd : ∃ payload, d' = { d with idempotencyKeys := d.idempotencyKeys.put ⟨key, payload⟩ })
      (h : K.Committed c d d' x w) (hw : Settled K c kind orderId providerId b w y)
      (hb : b = true → kind = .fail)
  | cooked (d d' : Database) (w v : CallAt) (hkey : d.idempotencyKeys.find key = none)
      (hd : ∃ payload, d' = { d with idempotencyKeys := d.idempotencyKeys.put ⟨key, payload⟩ })
      (h : K.Committed c d d' x w) (hkind : kind = .confirm)
      (hw : Settled K c kind orderId providerId true w v) (st : OrderState)
      (hv : Made K c orderId .START_COOKING st v y)
  | uncooked (d d' : Database) (w v : CallAt) (hkey : d.idempotencyKeys.find key = none)
      (hd : ∃ payload, d' = { d with idempotencyKeys := d.idempotencyKeys.put ⟨key, payload⟩ })
      (h : K.Committed c d d' x w) (hkind : kind = .confirm)
      (hw : Settled K c kind orderId providerId true w v)
      (hv : Refused K c orderId .START_COOKING v y)

/-- A confirmation that moved its order moved it from `PAYMENT_PENDING` to `PAID`. -/
theorem Settled.paidIn (h : Settled K c .confirm orderId providerId true x y) {id : Uuid}
    (hid : readUuid orderId = some id) : PaidIn y.past id := by
  obtain ⟨d, d', row, order, hcm, -, -, -, hid', hfind, hmoved, -⟩ := h
  obtain ⟨st, htr, horders⟩ := hmoved rfl
  obtain rfl : order.id = id := Option.some.inj (hid'.symm.trans hid)
  have hst : order.state = .PAYMENT_PENDING :=
    (settlement_source .confirm).mp (by simp [htr])
  have hpaid : st = .PAID := by
    rw [hst] at htr
    exact (Option.some.inj htr).symm
  refine ⟨(d, d'), by simp [hcm.past], ⟨order, hfind, hst⟩, { order with state := st }, ?_, hpaid⟩
  rw [horders]
  exact Table.find_put_self _ _

/-- The settlements the call may make from `x` on, however it gets to them, once
it has recorded its key. -/
def MaySettleFrom (cfg : Settings) (K : ShopContract) (c : Call) (kind : Settlement)
    (orderId providerId key : String) (x : CallAt) : Prop :=
  ∀ past s z row₀ row, KeyRecorded past key → Evolves (x.db, x.mem) z →
    oneRow (withProviderId z.1 providerId) = .ok row₀ → K.Since c z s → row₀.Later row →
    MaySettle cfg c past kind orderId row s

theorem KeyRecorded.of_committed {d d' : Database} {key : String} (h : K.Committed c d d' x y)
    (hkey : d.idempotencyKeys.find key = none)
    (hd : ∃ payload, d' = { d with idempotencyKeys := d.idempotencyKeys.put ⟨key, payload⟩ }) :
    KeyRecorded y.past key := by
  obtain ⟨payload, rfl⟩ := hd
  refine ⟨_, by rw [h.past]; exact List.mem_append_right _ (List.mem_singleton_self _), hkey, ?_⟩
  exact Option.isSome_iff_exists.mpr
    ⟨_, Table.find_put_self d.idempotencyKeys ⟨key, payload⟩⟩

theorem MaySettleFrom.recorded {cfg : Settings} (hK : IsShop cfg K) {kind : Settlement} {key : String}
    {d d' : Database} (h : MaySettleFrom cfg K c kind orderId providerId key x)
    (hkey : d.idempotencyKeys.find key = none)
    (hd : ∃ payload, d' = { d with idempotencyKeys := d.idempotencyKeys.put ⟨key, payload⟩ })
    (hy : K.Committed c d d' x y) : ∀ s z row₀ row, K.Since c (y.db, y.mem) z →
      oneRow (withProviderId z.1 providerId) = .ok row₀ → K.Since c z s → row₀.Later row →
      MaySettle cfg c y.past kind orderId row s := by
  intro s z row₀ row hz
  have hrec := KeyRecorded.of_committed hy hkey hd
  obtain ⟨-, -, m, h₁, h₂⟩ := hy
  obtain ⟨payload, rfl⟩ := hd
  have hput : Evolves (d, m) ({ d with
      idempotencyKeys := d.idempotencyKeys.put ⟨key, payload⟩ }, m) :=
    { Evolves.refl (d, m) with keys := .put_absent (fun _ => trivial) hkey }
  exact h y.past s z row₀ row hrec
    ((hK.evolves h₁).trans (hput.trans ((hK.evolves h₂).trans (hK.evolves hz))))

theorem wp_confirmPayment {cfg : Settings} (hK : IsShop cfg K) (hc : K.calls c) {traceId : String}
    {Q : Except PyError OrderResult → CallAt → Prop} (hx : x.txn = {})
    (hkey : MayRecord cfg c ⟨Settlement.confirm.key traceId, webhookPayload providerId orderId⟩)
    (hmay : MaySettleFrom cfg K c .confirm orderId providerId (Settlement.confirm.key traceId) x)
    (hcook : ∀ past d row, PaidIn past row.id → May cfg c past d row .START_COOKING)
    (h : ∀ y r, y.txn = {} →
      Delivered K c .confirm orderId providerId (Settlement.confirm.key traceId) x y → Q r y) :
    K.wp c (confirmPayment orderId providerId traceId) Q x := by
  rw [confirmPayment, wp_bind]
  refine wp_checkAndRecord hK hc hx hkey (fun w d hnone hcm => ?_) (fun z y d hz ha hsome _ hcm => ?_)
    fun y hy hf => h y _ hy (.refused hf)
  · have hmay' := hmay.recorded hK hnone ⟨_, rfl⟩ hcm
    simp only [if_true, wp_bind]
    refine wp_settlePayment hK hc hcm.txn hmay'
      (fun v result hset => ?_) fun y r hy hun hr => ?_
    · dsimp only
      cases hres : result.success with
      | false =>
          rw [if_neg (by simp)]
          rw [hres] at hset
          exact h v _ hset.txn (.settled d _ w false hnone ⟨_, rfl⟩ hcm hset (by simp))
      | true =>
          rw [if_pos rfl, wp_bind]
          rw [hres] at hset
          refine wp_transitionOrder hK hc hset.txn
            (fun s row _ _ hid => hcook v.past s.1 row (hset.paidIn hid))
            (fun y st hmade => ?_) (fun y res hy href _ => ?_) fun y e hy hbroke => ?_
          · exact h y _ hmade.txn (.cooked d _ w v hnone ⟨_, rfl⟩ hcm rfl hset st hmade)
          · exact h y _ hy (.uncooked d _ w v hnone ⟨_, rfl⟩ hcm rfl hset href)
          · exact h y _ hy (.uncooked d _ w v hnone ⟨_, rfl⟩ hcm rfl hset
              (hbroke.mono fun _ => .broke))
    · have hdone : ∀ r, Q r y := fun r => h y r hy (.unsettled d _ w hnone ⟨_, rfl⟩ hcm hun)
      cases r with
      | error e => exact hdone _
      | ok out =>
          cases out with
          | error reason => exact hdone _
          | ok result =>
              dsimp only
              rw [if_neg (by simp [hr result rfl])]
              exact hdone _
  · exact h y _ hcm.txn (.duplicate d z hz ha hsome hcm)

theorem wp_failPayment {cfg : Settings} (hK : IsShop cfg K) (hc : K.calls c) {traceId : String}
    {Q : Except PyError OrderResult → CallAt → Prop} (hx : x.txn = {})
    (hkey : MayRecord cfg c ⟨Settlement.fail.key traceId, webhookPayload providerId orderId⟩)
    (hmay : MaySettleFrom cfg K c .fail orderId providerId (Settlement.fail.key traceId) x)
    (h : ∀ y r, y.txn = {} →
      Delivered K c .fail orderId providerId (Settlement.fail.key traceId) x y → Q r y) :
    K.wp c (failPayment orderId providerId traceId) Q x := by
  rw [failPayment, wp_bind]
  refine wp_checkAndRecord hK hc hx hkey (fun w d hnone hcm => ?_) (fun z y d hz ha hsome _ hcm => ?_)
    fun y hy hf => h y _ hy (.refused hf)
  · have hmay' := hmay.recorded hK hnone ⟨_, rfl⟩ hcm
    simp only [if_true, wp_bind]
    refine wp_settlePayment hK hc hcm.txn hmay'
      (fun y result hset => ?_) fun y r hy hun hr => ?_
    · exact h y _ hset.txn (.settled d _ w result.success hnone ⟨_, rfl⟩ hcm hset fun _ => rfl)
    · have hdone : ∀ r, Q r y := fun r => h y r hy (.unsettled d _ w hnone ⟨_, rfl⟩ hcm hun)
      cases r with
      | error e => exact hdone _
      | ok out => cases out <;> exact hdone _
  · exact h y _ hcm.txn (.duplicate d z hz ha hsome hcm)

end Specs

end Sieshka
