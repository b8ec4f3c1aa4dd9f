import Sieshka.Specs.Settlement

/-!
# Payments at the provider

The webhook, which asks the provider before it settles anything, and the
creation of a payment.
-/

namespace Sieshka

open Transactions Contract
open Relation (ReflTransGen)

section Specs

variable {K : ShopContract} {c : Call} {x y z : CallAt} {orderId providerId : String}

/-! ## The webhook -/

/-- A read of the memory. -/
theorem wp_readMemory {α : Type} {next : Memory → Async α} {Q : Except PyError α → CallAt → Prop}
    (h : ∀ s, K.Later c x s → K.assume c (x.now s) → K.wp c (next s.2) Q (x.now s)) :
    K.wp c (.memory id next) Q x := by
  intro s hs ha
  exact ⟨fun hu => absurd rfl hu, hs.inv, h s hs ha⟩

/-- Why a notification is not verified, where the call stands at `z`. -/
inductive Unverified (K : ShopContract) (c : Call) (providerId : String) (expected : RemoteStatus)
    (z : CallAt) : Prop
  | notOne (h : ∀ row, oneRow (withProviderId z.db providerId) ≠ .ok row)
  | disagrees (row : Payment) (remote : RemotePayment) (w : CallAt) (ha : K.assume c w)
      (hpast : w.past = z.past) (hw : K.Since c (w.db, w.mem) (z.db, z.mem))
      (hremote : findRemote w.mem.provider providerId = some remote)
      (hrow : oneRow (withProviderId z.db providerId) = .ok row)
      (h : providerAgrees remote row expected = false)
  | struck (h : K.faulty c z)

theorem wp_verifyProviderPayment
    {expected : RemoteStatus} {Q : Except PyError Bool → CallAt → Prop} (hx : x.txn = {})
    (hyes : ∀ y s s' remote row, y.txn = {} → y.past = x.past → K.Since c (x.db, x.mem) s →
      findRemote s.2.provider providerId = some remote → K.Since c s s' →
      oneRow (withProviderId s'.1 providerId) = .ok row → K.Since c s' (y.db, y.mem) →
      providerAgrees remote row expected = true → Q (.ok true) y)
    (hno : ∀ y, y.txn = {} → K.Through c x (Unverified K c providerId expected) y →
      Q (.ok false) y)
    (hhttp : ∀ y e, y.txn = {} → K.Follows c x y → e.isHttpError = true → Q (.error e) y) :
    K.wp c (verifyProviderPayment providerId expected) Q x := by
  rw [verifyProviderPayment, wp_bind]
  intro s hs ha n
  have hnow : K.Follows c x (x.now s) := .now hs
  cases n with
  | zero => exact hhttp _ _ hx hnow rfl
  | succ n =>
      refine wp_readMemory fun s' hs' ha' => ?_
      have hnow' : K.Follows c x ((x.now s).now s') := hnow.trans (.now hs')
      cases hremote : findRemote s'.2.provider providerId with
      | none => exact hhttp _ _ hx hnow' rfl
      | some remote =>
          dsimp only
          rw [wp_ret]
          dsimp only
          rw [wp_bind]
          refine wp_withSession (wp_getByProviderId hx (fun s₁ row hs₁ ha₁ hrow s₂ hs₂ _ => ?_)
            (fun s₁ hs₁ ha₁ hnone s₂ hs₂ _ => ?_) fun y hy s₂ hs₂ _ => ?_)
          · have hagree := hnow'.trans ((Follows.now hs₁).trans ((Follows.now hs₂).trans .closed))
            simp only [Prog.pure_eq, wp_ret]
            cases h : providerAgrees remote row expected with
            | true =>
                exact hyes _ s' s₁ remote row rfl rfl hnow'.since hremote hs₁.since hrow hs₂.since h
            | false =>
                refine hno _ rfl ⟨hagree, _, hnow'.trans (.now hs₁), ha₁, ?_, hs₂.since⟩
                exact .disagrees row remote _ ha' rfl hs₁.since hremote hrow h
          · exact hno _ rfl (.of_follows hnow' (.follows (.now hs₁ ha₁ (.notOne hnone))
              ((Follows.now hs₂).trans .closed)))
          · exact hno _ rfl (.of_follows hnow' ((hy.closed hs₂).mono fun _ => .struck))

/-- The provider's agreement is final, and about every later version of the row. -/
theorem providerAgrees_later {remote : RemotePayment} {row row' : Payment}
    {expected : RemoteStatus} (h : providerAgrees remote row expected = true)
    (hl : row.Later row') : providerAgrees remote row' expected = true := by
  rw [hl]
  exact h

theorem final_of_providerAgrees {remote : RemotePayment} {row : Payment} {kind : Settlement}
    (h : providerAgrees remote row kind.expected = true) : remote.status.final = true := by
  simp only [providerAgrees] at h
  split_ifs at h with hs
  all_goals
    rw [ne_eq, not_not] at hs
    rw [hs]
    cases kind <;> rfl

/-- What is verified of a notification is still so when its payment is settled. -/
theorem MaySettleFrom.of_verified {cfg : Settings} (hK : IsShop cfg K) {n : Notification}
    {e : TraceEvent} {remote : RemotePayment} {row₁ : Payment} {s₁ : State}
    (hmay : ∀ past s row, KeyRecorded past (n.kind.key n.traceId) →
      row.providerId = some n.paymentId → findTrace s.2.trace n.traceId = some e →
      findRemote s.2.provider n.paymentId = some remote →
      providerAgrees remote row n.kind.expected = true →
      MaySettle cfg c past n.kind e.entityId row s)
    (he : findTrace x.mem.trace n.traceId = some e)
    (hremote : findRemote x.mem.provider n.paymentId = some remote)
    (hrow₁ : oneRow (withProviderId s₁.1 n.paymentId) = .ok row₁)
    (hs₁ : Evolves s₁ (x.db, x.mem)) (hagree : providerAgrees remote row₁ n.kind.expected = true) :
    MaySettleFrom cfg K c n.kind e.entityId n.paymentId (n.kind.key n.traceId) x := by
  intro past s z row₀ row hrec hz hone hs hlater
  have hs' := hK.evolves hs
  obtain ⟨hfind₁, hprov₁⟩ := find_of_oneRow hrow₁
  obtain ⟨row', hfind', hlater'⟩ := (hs₁.trans hz).payments _ _ hfind₁
  have hsame : row₀ = row' := by
    have hid : row'.id = row₁.id := (Table.find_some hfind').2
    have hmem : row' ∈ withProviderId z.1 n.paymentId :=
      mem_withProviderId.mpr ⟨by rw [hid]; exact hfind', by rw [hlater']; exact hprov₁⟩
    rw [oneRow_eq_ok.mp hone] at hmem
    exact (List.mem_singleton.mp hmem).symm
  have hl : row₁.Later row := hlater'.trans (hsame ▸ hlater)
  refine hmay past s row hrec (by rw [hl]; exact hprov₁) ((hz.trans hs').findTrace he)
    ((hz.trans hs').final hremote (final_of_providerAgrees hagree)) (providerAgrees_later hagree hl)

/-- What has become of a notification when it is answered with `r`. -/
inductive Handled (K : ShopContract) (c : Call) (n : Notification) (x y : CallAt) :
    Except PyError Nat → Prop
  | unknown (h : K.Through c x (fun z => findTrace z.mem.trace n.traceId = none) y) :
      Handled K c n x y (.ok 200)
  | unreachable (h : K.Follows c x y) : Handled K c n x y (.ok 502)
  | unverified (h : K.Through c x (Unverified K c n.paymentId n.kind.expected) y) :
      Handled K c n x y (.ok 200)
  | delivered (e : TraceEvent) (w : CallAt) (r : Except PyError Nat)
      (hw : K.Through c x (fun z => findTrace z.mem.trace n.traceId = some e) w)
      (h : Delivered K c n.kind e.entityId n.paymentId (n.kind.key n.traceId) w y)
      (hr : ∀ code, r = .ok code → code = 200) : Handled K c n x y r

theorem wp_resumePayment {cfg : Settings} (hK : IsShop cfg K) (hc : K.calls c) {n : Notification}
    {Q : Except PyError OrderResult → CallAt → Prop} (hx : x.txn = {})
    (hkey : ∀ payload, MayRecord cfg c ⟨n.kind.key n.traceId, payload⟩)
    (hmay : MaySettleFrom cfg K c n.kind orderId n.paymentId (n.kind.key n.traceId) x)
    (hcook : ∀ past d row, PaidIn past row.id → May cfg c past d row .START_COOKING)
    (h : ∀ y r, y.txn = {} →
      Delivered K c n.kind orderId n.paymentId (n.kind.key n.traceId) x y → Q r y) :
    K.wp c (resumePayment n orderId) Q x := by
  obtain ⟨kind, traceId, paymentId⟩ := n
  cases kind with
  | confirm => exact wp_confirmPayment hK hc hx (hkey _) hmay hcook h
  | fail => exact wp_failPayment hK hc hx (hkey _) hmay h

theorem wp_handleNotification {cfg : Settings} (hK : IsShop cfg K) (hc : K.calls c)
    {n : Notification} {Q : Except PyError Nat → CallAt → Prop} (hx : x.txn = {})
    (hkey : ∀ payload, MayRecord cfg c ⟨n.kind.key n.traceId, payload⟩)
    (hmay : ∀ past s row e remote, KeyRecorded past (n.kind.key n.traceId) →
      row.providerId = some n.paymentId → findTrace s.2.trace n.traceId = some e →
      findRemote s.2.provider n.paymentId = some remote →
      providerAgrees remote row n.kind.expected = true →
      MaySettle cfg c past n.kind e.entityId row s)
    (hcook : ∀ past d row, PaidIn past row.id → May cfg c past d row .START_COOKING)
    (h : ∀ y r, y.txn = {} → Handled K c n x y r → Q r y) :
    K.wp c (handleNotification n) Q x := by
  rw [handleNotification, wp_bind]
  refine wp_readMemory fun s hs ha => ?_
  have hnow : K.Follows c x (x.now s) := .now hs
  rw [wp_ret]
  dsimp only
  cases he : findTrace s.2.trace n.traceId with
  | none => exact h _ _ hx (.unknown (.now hs ha he))
  | some e =>
      dsimp only
      rw [wp_bind, wp_andThen]
      have hfound : K.Through c x (fun z => findTrace z.mem.trace n.traceId = some e) (x.now s) :=
        .now hs ha he
      refine wp_verifyProviderPayment (x := x.now s) hx
        (fun w s₁ s₂ remote row hw hpast h₁ hremote h₂ hrow h₃ hagree => ?_)
        (fun y hy hun => ?_) fun y ex hy hf hhttp => ?_
      · have hfollows : K.Follows c (x.now s) w := ⟨hpast, h₁.trans (h₂.trans h₃)⟩
        have hfinal := final_of_providerAgrees hagree
        simp only [wp_ret, wp_bind]
        refine wp_resumePayment hK hc hw hkey
          (MaySettleFrom.of_verified hK (fun past s row => hmay past s row e remote)
            ((hK.evolves hfollows.since).findTrace he)
            ((hK.evolves (h₂.trans h₃)).final hremote hfinal) hrow (hK.evolves h₃) hagree)
          hcook fun y r hy hdel => ?_
        cases r with
        | ok result => exact h y _ hy (.delivered e w _ (hfound.follows hfollows) hdel (by simp))
        | error ex => exact h y _ hy (.delivered e w _ (hfound.follows hfollows) hdel (by simp))
      · exact h y _ hy (.unverified (.of_follows hnow hun))
      · simp only [hhttp, if_true, wp_ret]
        exact h y _ hy (.unreachable (hnow.trans hf))

theorem wp_yookassaWebhook {cfg : Settings} (hK : IsShop cfg K) {body : Option Json}
    (hc : K.calls (.webhook body)) {Q : Except PyError Nat → CallAt → Prop} (hx : x.txn = {})
    (hnot : (∀ n, parseNotification cfg body ≠ .ok (some n)) → ∀ r, Q r x)
    (h : ∀ n y r, parseNotification cfg body = .ok (some n) → y.txn = {} →
      Handled K (.webhook body) n x y r → Q r y) :
    K.wp (.webhook body) (yookassaWebhook cfg body) Q x := by
  rw [yookassaWebhook, wp_bind]
  cases hn : parseNotification cfg body with
  | error e => exact hnot (by simp [hn]) _
  | ok parsed =>
      cases parsed with
      | none => exact hnot (by simp [hn]) _
      | some n =>
          exact wp_handleNotification hK hc hx (fun _ => ⟨n, hn, rfl⟩)
            (fun past s row e remote hrec hprov he hremote hagree =>
              ⟨n, hn, rfl, hprov, hrec, ⟨e, he, rfl⟩, remote, hremote, hagree⟩)
            (fun _ _ _ hpaid => ⟨rfl, hpaid⟩) fun y r hy hh => h n y r hn hy hh

/-! ## The creation of a payment -/

/-- The payments the call may create for an order, from `x` on. -/
def MayPayFrom (c : Call) (orderId : String) (amount : ℚ) (currency : String) (x : CallAt) : Prop :=
  ∀ s row, Evolves (x.db, x.mem) s → readUuid orderId = some row.id →
    s.1.orders.find row.id = some row → MayPay c x.past row amount currency

theorem MayPayFrom.later {amount : ℚ} {currency : String}
    (h : MayPayFrom c orderId amount currency x) (hpast : y.past = x.past)
    (hy : Evolves (x.db, x.mem) (y.db, y.mem)) : MayPayFrom c orderId amount currency y := by
  intro s row hs hid hfind
  rw [hpast]
  exact h s row (hy.trans hs) hid hfind

/-- What the session of `create_payment` has come to between `x` and `y` when it
returns: a payment of the order is inserted, or the database has refused a
statement. -/
inductive Charged (K : ShopContract) (c : Call) (id : Uuid) (x y : CallAt) : Prop
  | created (d d' : Database) (row : Payment) (hpast : y.past = x.past ++ [(d, d')])
      (habs : d.payments.find row.id = none) (hput : d'.payments = d.payments.put row)
      (horder : row.orderId = id) (hst : row.state = .PENDING)
  | struck (z : CallAt) (hz : z.past = x.past) (ha : K.assume c z) (h : K.faulty c z)
      (hpast : y.past = x.past)

theorem Charged.of_past {id : Uuid} (hpast : y.past = x.past) (h : Charged K c id y z) :
    Charged K c id x z := by
  cases h with
  | created d d' row hp habs hput horder hst =>
      exact .created d d' row (by rw [hp, hpast]) habs hput horder hst
  | struck w hw ha h hp => exact .struck w (hw.trans hpast) ha h (hp.trans hpast)

theorem Charged.of_struck {id : Uuid} (h : K.Struck c x y) (hz : z.past = y.past) :
    Charged K c id x z := by
  obtain ⟨w, hw, ha, hf, -⟩ := h.faulty
  exact .struck w hw.past ha hf (hz.trans h.past)

/-- The rest of the session, once the payment is inserted. -/
theorem wp_requestPayment {cfg : Settings} (hK : IsShop cfg K) (hc : K.calls c) (row : Payment)
    {Q : Except PyError OrderResult → CallAt → Prop} (hlive : y.txn.failed = false)
    (hw : y.txn.writes = [.payment row]) (habs : y.Pins fun d => d.payments.find row.id = none)
    (hst : row.state = .PENDING) (hid : readUuid orderId = some row.orderId)
    (hmay : MayPayFrom c orderId row.amount row.currency y)
    (hok : ∀ z r, z.txn = {} → Evolves (y.db, y.mem) (z.db, z.mem) →
      Charged K c row.orderId y z → Q (.ok r) z)
    (he : ∀ z e, z.txn = {} → z.past = y.past → Q (.error e) z) :
    K.wp c (do
      let currentState ← orderState orderId
      let result ← runSimpleTransition orderId .REQUEST_PAYMENT currentState
      Prog.commitSession
      return result)
      (fun r z => ∀ s, K.Later c z s → K.assume c (z.now s) → Q r (z.now s).closed) y := by
  have hraise : ∀ z e, K.Follows c y z → ∀ s, K.Later c z s → K.assume c (z.now s) →
      Q (.error e) (z.now s).closed := fun z e hz s _ _ => he _ e rfl hz.past
  -- the effect of the session, whatever became of the order
  have hcommits : ∀ z s order orders', K.Extends c y z → K.Later c z s →
      .payment row ∈ z.txn.writes → s.1.orders.find row.orderId = some order →
      Moves s.1.orders order .REQUEST_PAYMENT True orders' →
      Commits cfg K.assume K.rely c z.past s z.txn.writes
        { s.1 with payments := s.1.payments.put row, orders := orders' } := by
    intro z s order orders' hz hs hmem hfind hmoves
    have horder : order.id = row.orderId := (Table.find_some hfind).2
    refine .paymentCreated row order orders' (hs.pinned (hz.pins habs)) hmem hfind ?_ hst hmoves
    rw [hz.past]
    exact hmay s order (hK.evolves (hz.since.trans hs.since)) (horder ▸ hid) (horder ▸ hfind)
  -- the end of the session, where the order was moved and where it was not
  have hcommit : ∀ z r, K.Extends c y z → z.txn.failed = false → .payment row ∈ z.txn.writes →
      (∀ s, K.Later c z s → ∃ order orders', s.1.orders.find row.orderId = some order ∧
        Moves s.1.orders order .REQUEST_PAYMENT True orders' ∧
        z.txn.view s.1 = { s.1 with payments := s.1.payments.put row, orders := orders' }) →
      K.wp c (Prog.commitSession >>= fun _ => .ret r)
        (fun r z => ∀ s, K.Later c z s → K.assume c (z.now s) → Q r (z.now s).closed) z := by
    intro z r hz hzx hmem hall
    have heffect : ∀ s, K.Later c z s →
        Commits cfg K.assume K.rely c z.past s z.txn.writes (z.txn.view s.1) := by
      intro s hs
      obtain ⟨order, orders', hfind, hmoves, hview⟩ := hall s hs
      rw [hview]
      exact hcommits z s _ _ hz hs hmem hfind hmoves
    refine wp_commit hK hc hzx heffect (fun s w hs _ hcm => ?_)
      fun w hw => hraise w _ (hz.toFollows.trans hw.toFollows)
    obtain ⟨order, orders', -, -, hview⟩ := hall s hs
    refine hok w _ hcm.txn ((hK.evolves hz.since).trans (hK.evolves_committed (heffect s hs) hcm))
      (.created s.1 (z.txn.view s.1) row ?_ (hs.pinned (hz.pins habs)) ?_ rfl hst)
    · rw [hcm.past, hz.past]
    · rw [hview]
  refine wp_moveOrder hK (f := id) hlive hw
    (fun s z order st hs ha hz hzx hzw hid' htr hpin hview => ?_)
    (fun s z r order hs ha hz hzx hzw hid' hord _ hr hstay hview => ?_) (fun z r hz _ => ?_)
    (fun s id e hs _ _ _ => hraise _ e (.now hs)) (fun e _ => hraise _ e .refl)
    fun z hz => hraise _ _ hz.toFollows
  · have horder : row.orderId = order.id := Option.some.inj (hid.symm.trans hid')
    refine hcommit z _ ((Extends.now hs).trans hz) hzx (by simp [hzw]) fun s' hs' =>
      ⟨order, _, ?_, .moved htr, hview _⟩
    rw [horder]
    exact hs'.pinned hpin
  · have horder : row.orderId = order.id := Option.some.inj (hid.symm.trans hid')
    refine hcommit z r ((Extends.now hs).trans hz) hzx (by simp [hzw]) fun s' hs' => ?_
    obtain ⟨order', hsame, hfind⟩ := hstay s' hs'
    refine ⟨order', s'.1.orders, ?_, .kept trivial, hview _⟩
    rw [horder, ← hsame]
    exact hfind
  · rw [wp_bind]
    refine wp_commitSession_failed hz.txn (fun s' hs' s'' hs'' _ => ?_)
      fun s' hs' => hraise _ _ (hz.toFollows.trans (.now hs'))
    refine hok _ r rfl ?_ (.of_struck hz rfl)
    exact (hK.evolves hz.since).trans ((hK.evolves hs'.since).trans (hK.evolves hs''.since))

/-- The session that inserts the payment and moves the order. -/
theorem wp_recordPayment {cfg : Settings} (hK : IsShop cfg K) (hc : K.calls c) {amount : Int}
    {currency remoteId : String} {Q : Except PyError OrderResult → CallAt → Prop}
    (hx : x.txn = {}) (hmay : MayPayFrom c orderId amount currency x)
    (hok : ∀ y r id, y.txn = {} → Evolves (x.db, x.mem) (y.db, y.mem) →
      readUuid orderId = some id → Charged K c id x y → Q (.ok r) y)
    (he : ∀ y e, y.txn = {} → y.past = x.past → Q (.error e) y) :
    K.wp c (Prog.withSession do
      let _ ← createPaymentRow orderId amount currency remoteId
      let currentState ← orderState orderId
      let result ← runSimpleTransition orderId .REQUEST_PAYMENT currentState
      Prog.commitSession
      return result) Q x := by
  have hlive : x.txn.failed = false := by rw [hx]
  have hempty : x.txn.writes = [] := by rw [hx]
  have hraise : ∀ y e, y.past = x.past → ∀ s, K.Later c y s → K.assume c (y.now s) →
      Q (.error e) (y.now s).closed := fun y e hy s _ _ => he _ e rfl hy
  refine wp_withSession ?_
  rw [wp_bind, createPaymentRow, wp_bind]
  refine wp_uuid (fun id hid => ?_) fun _ e => hraise x _ rfl
  dsimp only
  rw [wp_bind]
  refine wp_uuid4 fun s new hs ha => ?_
  dsimp only
  rw [wp_bind]
  refine payments.wp_insert (x := x.now s) hlive (fun s' hs' _ _ hpin => ?_)
    fun y hy => hraise y _ hy.past
  have hy := (Extends.now hs).trans ((Extends.now hs').trans
    (.wrote [payments.write ⟨new, id, some remoteId, amount, currency, .PENDING⟩]))
  refine wp_requestPayment hK hc ⟨new, id, some remoteId, amount, currency, .PENDING⟩
    (by exact hlive) (by simp [hempty, payments]) (hpin.mono fun d hd => ?_) rfl hid
    (hmay.later hy.past (hK.evolves hy.since))
    (fun z r hz hev hch => hok z r id hz ((hK.evolves hy.since).trans hev) hid (hch.of_past hy.past))
    fun z e hz hpast => he z e hz (hpast.trans hy.past)
  rw [CallState.now_txn, hx] at hd
  exact hd

theorem evolves_traced {cfg : Settings} (hK : IsShop cfg K) {s : State} (e : TraceEvent)
    (hs : K.Later c x s) :
    Evolves (x.db, x.mem) (s.1, { s.2 with trace := s.2.trace ++ [e] }) :=
  (hK.evolves hs.since).trans (evolves_trace s.1 s.2 e)

theorem wp_traceRecord {cfg : Settings} (hK : IsShop cfg K) (hc : K.calls c)
    {entityId domain event fromState toState : String} {metadata : List (String × String)}
    {Q : Except PyError String → CallAt → Prop}
    (hmay : ∀ e : TraceEvent, e.entityId = entityId → MayTrace c x.past e)
    (h : ∀ y traceId, y.txn = x.txn → y.past = x.past → Evolves (x.db, x.mem) (y.db, y.mem) →
      Q (.ok traceId) y) :
    K.wp c (traceRecord entityId domain event fromState toState metadata) Q x := by
  rw [traceRecord, wp_bind]
  refine wp_uuid4 fun s id hs ha => ?_
  dsimp only
  rw [wp_bind]
  intro s' hs' _
  obtain ⟨hg, hi⟩ := hK.guar c x.past s' _ hc hs'.inv (.remembered
    (.traced ⟨id.text, entityId, domain, event, fromState, toState, metadata⟩ (hmay _ rfl)))
  exact ⟨fun _ => hg, hi, h _ _ rfl rfl ((hK.evolves hs.since).trans (evolves_traced hK _ hs'))⟩

/-- The provider has the payment, which was requested for the order under the key. -/
structure Requested (sentFor : Option String) (orderId : String) (s : State)
    (remote : RemotePayment) : Prop where
  there : ∃ p, findRemote s.2.provider remote.id = some p ∧ remote.Later p
  order : ("order_id", orderId) ∈ remote.metadata
  sent : remote.sentFor = sentFor

theorem Requested.later {sentFor : Option String} {s s' : State} {remote : RemotePayment}
    (h : Requested sentFor orderId s remote) (hs : Evolves s s') :
    Requested sentFor orderId s' remote := by
  obtain ⟨p, hp, hlater⟩ := h.there
  obtain ⟨p', hp', hlater'⟩ := hs.provider _ _ hp
  exact { h with there := ⟨p', hp', hlater.trans hlater'⟩ }

/-- A new payment is found under its id. -/
theorem findRemote_newRemote (api : ProviderApi) (sentFor : Option String) (amount : Int)
    (currency : String) (metadata : List (String × String)) (provider : List RemotePayment) :
    findRemote (provider ++ [newRemote api sentFor amount currency metadata provider])
      (api.nextRemoteId provider) =
        some (newRemote api sentFor amount currency metadata provider) := by
  have hnone : findRemote provider (api.nextRemoteId provider) = none :=
    List.find?_eq_none.mpr fun p hp => by simpa using api.fresh provider p hp
  rw [findRemote, List.find?_append]
  rw [findRemote] at hnone
  rw [hnone, Option.none_or, List.find?_singleton, if_pos]
  simp [newRemote]

theorem wp_yookassaCreatePayment {cfg : Settings} (hK : IsShop cfg K) (hc : K.calls c)
    {api : ProviderApi} {sentFor : Option String} {currency : String} {amount : Int}
    {metadata : List (String × String)} {Q : Except PyError RemotePayment → CallAt → Prop}
    (hmay : ∀ provider,
      MayRequest c x.past (newRemote api sentFor amount currency metadata provider))
    (horder : ("order_id", orderId) ∈ metadata)
    (hok : ∀ y r, y.txn = x.txn → y.past = x.past → Evolves (x.db, x.mem) (y.db, y.mem) →
      Requested sentFor orderId (y.db, y.mem) r → Q (.ok r) y)
    (he : ∀ y e, y.txn = x.txn → y.past = x.past → Q (.error e) y) :
    K.wp c (yookassaCreatePayment api sentFor amount currency metadata) Q x := by
  intro s hs _ n
  match n with
  | 0 => exact he _ _ rfl rfl
  | 1 => exact he _ _ rfl rfl
  | n + 2 =>
      intro s' hs' _
      obtain ⟨hg, hi⟩ := hK.guar c x.past s' _ hc hs'.inv (.remembered (.requested _ (hmay _)))
      have hev := (hK.evolves hs.since).trans ((hK.evolves hs'.since).trans (evolves_provider s'.1
        s'.2 (newRemote api sentFor amount currency metadata s'.2.provider)))
      refine ⟨fun _ => hg, hi, ?_⟩
      split_ifs
      · exact he _ _ rfl rfl
      · exact hok _ _ rfl rfl hev
          ⟨⟨_, findRemote_newRemote api sentFor amount currency metadata _, .refl _⟩, horder, rfl⟩

theorem wp_createPayment {cfg : Settings} (hK : IsShop cfg K) (hc : K.calls c)
    {sentFor : Option String} {amount : Int} {currency : String} {paymentMethodType : Option String}
    {Q : Except PyError PaymentInitResult → CallAt → Prop} (hx : x.txn = {})
    (hmay : MayPayFrom c orderId amount currency x)
    (htrace : ∀ e : TraceEvent, e.entityId = orderId → MayTrace c x.past e)
    (hreq : ∀ p : RemotePayment, ("order_id", orderId) ∈ p.metadata → MayRequest c x.past p)
    (hok : ∀ y remote id traceId, y.txn = {} → Evolves (x.db, x.mem) (y.db, y.mem) →
      readUuid orderId = some id → Charged K c id x y →
      Requested sentFor orderId (y.db, y.mem) remote →
      Q (.ok ⟨remote.confirmationUrl, remote.confirmationToken, remote.id, traceId⟩) y)
    (he : ∀ y e, y.txn = {} → y.past = x.past → Q (.error e) y) :
    K.wp c (createPayment cfg sentFor orderId amount currency paymentMethodType) Q x := by
  rw [createPayment, wp_bind]
  refine wp_traceRecord hK hc htrace fun y traceId hy hpast hev => ?_
  dsimp only
  split_ifs
  · rw [wp_bind]
    have horder : ("order_id", orderId) ∈ paymentMetadata traceId orderId := by
      simp [paymentMetadata]
    refine wp_yookassaCreatePayment hK hc (fun provider => ?_) horder
      (fun z remote hz hpast' hev' hremote => ?_)
      fun z e hz hpast' => he _ _ (hz.trans (hy.trans hx)) (hpast'.trans hpast)
    · rw [hpast]
      exact hreq _ (by simp [newRemote, paymentMetadata])
    · dsimp only
      rw [wp_bind]
      have hpast := hpast'.trans hpast
      have hev := hev.trans hev'
      exact wp_recordPayment hK hc (hz.trans (hy.trans hx)) (hmay.later hpast hev)
        (fun w r id hw hew hid hch => hok _ _ id traceId hw (hev.trans hew) hid
          (hch.of_past hpast) (hremote.later hew))
        fun w e hw hpast' => he _ _ hw (hpast'.trans hpast)
  · exact he _ _ (hy.trans hx) hpast

/-! ## POST /orders/{order_id}/pay -/

theorem wp_coerceItem {cfg : Settings} {raw : Json} {Q : Except PyError OrderItem → CallAt → Prop}
    (h : ∀ y r, K.Follows c x y → Q r y) : K.wp c (coerceItem cfg raw) Q x := by
  have hother : K.wp c (do
      let productId ← uuid4
      return ({ productId, name := "unknown", priceRub := 0, qty := 1 } : OrderItem)) Q x := by
    rw [wp_bind]
    exact wp_uuid4 fun s id hs _ => h _ _ (.now hs)
  cases raw with
  | obj fields =>
      rw [coerceItem]
      cases cfg.orderItem fields with
      | some item => exact h _ _ .refl
      | none =>
          dsimp only
          rw [wp_bind]
          refine wp_uuid4 fun s id hs _ => ?_
          dsimp only
          rw [wp_bind]
          cases (Json.get fields "price_rub" (.int 0)).toInt with
          | error e => exact h _ _ (.now hs)
          | ok priceRub =>
              rw [ofExcept_ok, wp_ret]
              dsimp only
              rw [wp_bind]
              cases (Json.get fields "qty" (.int 1)).toInt with
              | error e => exact h _ _ (.now hs)
              | ok qty => exact h _ _ (.now hs)
  | null => exact hother
  | bool b => exact hother
  | int n => exact hother
  | float q => exact hother
  | nan => exact hother
  | inf negative => exact hother
  | str s => exact hother
  | arr elements => exact hother

/-- Reading the items of an order is no statement. -/
theorem wp_coerceItems {cfg : Settings} {items : List Json}
    {Q : Except PyError (List OrderItem) → CallAt → Prop}
    (h : ∀ y r, K.Follows c x y → Q r y) : K.wp c (coerceItems cfg items) Q x := by
  induction items generalizing x Q with
  | nil => exact h _ _ .refl
  | cons raw rest ih =>
      rw [coerceItems, wp_bind]
      refine wp_coerceItem fun y r hy => ?_
      cases r with
      | error e => exact h _ _ hy
      | ok item =>
          dsimp only
          rw [wp_bind]
          refine ih fun z r hz => ?_
          cases r with
          | error e => exact h _ _ (hy.trans hz)
          | ok coerced => exact h _ _ (hy.trans hz)

theorem wp_getOrder {cfg : Settings} {id : Uuid}
    {Q : Except PyError (Option OrderRead) → CallAt → Prop} (hx : x.txn = {})
    (hok : ∀ y s row read, y.txn = {} → K.Follows c x y → K.Since c (x.db, x.mem) s →
      s.1.orders.find id = some row → K.Since c s (y.db, y.mem) → read.totalRub = row.totalRub →
      Q (.ok (some read)) y)
    (hno : ∀ y, y.txn = {} → Q (.ok none) y)
    (he : ∀ y e, y.txn = {} → Q (.error e) y) :
    K.wp c (getOrder cfg id) Q x := by
  refine wp_withSession ?_
  rw [wp_bind]
  refine wp_select (by rw [hx]) (fun s hs _ => ?_) fun y _ s _ _ => he _ _ rfl
  rw [hx, Txn.view_empty]
  dsimp only
  cases hrow : s.1.orders.find id with
  | none => exact fun s' _ _ => hno _ rfl
  | some row =>
      simp only [Option.map_some, wp_bind]
      cases row.items.iter with
      | error e => exact fun s' _ _ => he _ _ rfl
      | ok items =>
          simp only [ofExcept_ok, wp_ret]
          refine wp_coerceItems fun y r hy => ?_
          cases r with
          | error e => exact fun s' _ _ => he _ _ rfl
          | ok read =>
              exact fun s' hs' _ => hok _ s row _ rfl
                ((Follows.now hs).trans (hy.trans ((Follows.now hs').trans .closed)))
                hs.since hrow (hy.since.trans hs'.since) rfl

theorem wp_payOrder {cfg : Settings} (hK : IsShop cfg K) {id : Uuid} {body : PaymentRequest}
    (hc : K.calls (.payOrder id body)) {Q : Except PyError PaymentInitResult → CallAt → Prop}
    (hx : x.txn = {}) (h : ∀ y r, y.txn = {} → Q r y) :
    K.wp (.payOrder id body) (payOrder cfg id body) Q x := by
  rw [payOrder, wp_bind]
  refine wp_getOrder hx (fun y s row read hy hf hs hrow hs' htotal => ?_) (fun y hy => h _ _ hy)
    fun y e hy => h _ _ hy
  dsimp only
  by_cases hst : read.state ≠ .CONFIRMED
  · rw [if_pos hst]
    exact h _ _ hy
  · rw [if_neg hst]
    cases hread : read.totalRub with
    | none => exact h _ _ hy
    | some totalRub =>
        dsimp only
        split_ifs
        · exact h _ _ hy
        · exact h _ _ hy
        · refine wp_createPayment hK hc hy (fun s'' row' hs'' hid hfind => ?_)
            (fun e he => he) (fun _ _ => trivial) (fun z _ _ _ hz _ _ _ _ => h z _ hz)
            fun z e hz _ => h z _ hz
          have hid' : row'.id = id := by simpa using hid.symm
          obtain ⟨row'', hfind'', hlater⟩ :=
            ((hK.evolves hs').trans hs'').orders _ _ hrow
          rw [hid', hfind''] at hfind
          obtain rfl := Option.some.inj hfind
          refine ⟨hid', ?_, rfl⟩
          rw [hlater.same]
          simp [← htotal, hread]

end Specs

end Sieshka
