import Sieshka.Specs.Checkout
import Sieshka.Specs.Stock
import Sieshka.Specs.MaxWebhook

/-!
# Every call of the shop

Each call meets every contract that allows what calls of the shop do, and ends
with an outcome that says what it has committed or why it has not.
-/

namespace Sieshka

open Transactions Contract
open Relation (ReflTransGen)

/-- What a transition of an order, run as a call, comes to. -/
inductive Transitioned (K : ShopContract) (c : Call) (orderId : String) (event : OrderEvent)
    (r : Except PyError Answer) (x y : CallAt) : Prop
  | made (st : OrderState) (hr : r = .ok (.transition (transitioned st)))
      (h : Made K c orderId event st x y)
  | refused (res : OrderResult) (hr : r = .ok (.transition res)) (hres : res.success = false)
      (h : Refused K c orderId event x y)
  | broke (e : PyError) (hr : r = .error e) (h : K.Through c x (Broke K c orderId) y)

/-- What a call has come to between `x` and `y`, where it has ended with `r`. -/
def Outcome (cfg : Settings) (K : ShopContract) (x : CallAt) (r : Except PyError Answer)
    (y : CallAt) : Call → Prop
  | .checkout body => ∃ res, CheckedOut K (.checkout body) body x res y ∧
      r = res.map Answer.checkout
  | .webhook body => (∀ n, parseNotification cfg body ≠ .ok (some n)) ∧ y = x ∨
      ∃ n code, parseNotification cfg body = .ok (some n) ∧ Handled K (.webhook body) n x y code ∧
        r = code.map Answer.status
  | .confirmPayment orderId providerId traceId =>
      Delivered K (.confirmPayment orderId providerId traceId) .confirm orderId providerId
        (Settlement.confirm.key traceId) x y
  | .failPayment orderId providerId traceId =>
      Delivered K (.failPayment orderId providerId traceId) .fail orderId providerId
        (Settlement.fail.key traceId) x y
  | .transitionOrder orderId event => Transitioned K (.transitionOrder orderId event) orderId event r x y
  | .handleEvent orderId event => Transitioned K (.handleEvent orderId event) orderId event r x y
  | .transitionTicket ticketId event => ∃ res,
      Ticketed K (.transitionTicket ticketId event) ticketId event res x y ∧
        r = res.map fun t => .ticket (some t)
  | .dispatchKitchen role ticketId event => ∃ res,
      KitchenDispatched K (.dispatchKitchen role ticketId event) role ticketId event res x y ∧
        r = res.map .ticket
  | .dispatchOrder role orderId event => ∃ res,
      OrderDispatched K (.dispatchOrder role orderId event) role orderId event res x y ∧
        r = res.map .order
  | .maxWebhook secret body => ∃ code,
      MaxHandled cfg K (.maxWebhook secret body) secret body code x y ∧ r = code.map .status
  | _ => True

section Specs

variable {cfg : Settings} {K : ShopContract} {c : Call} {x y : CallAt}

/-- The result of a call wrapped as an answer. -/
theorem wp_answer {α : Type} {p : Async α} {f : α → Answer}
    {Q : Except PyError Answer → CallAt → Prop}
    (h : K.wp c p (fun r y => Q (r.map f) y) x) :
    K.wp c (do let a ← p; return f a) Q x := by
  rw [wp_bind]
  refine wp_mono (fun r y hr => ?_) h
  cases r <;> exact hr

theorem wp_body (hK : IsShop cfg K) (hc : K.calls c)
    {Q : Except PyError Answer → CallAt → Prop} (hx : x.txn = {}) (hpast : x.past = [])
    (h : ∀ y r, y.txn = {} → Outcome cfg K x r y c → Q r y) : K.wp c (body cfg c) Q x := by
  cases c with
  | checkout body =>
      exact wp_answer (wp_checkout hK hc hx hpast fun y r hy ho => h y _ hy ⟨r, ho, rfl⟩)
  | payOrder orderId body => exact wp_answer (wp_payOrder hK hc hx fun y r hy => h y _ hy trivial)
  | webhook body =>
      refine wp_answer (wp_yookassaWebhook hK hc hx (fun hno r => h x _ hx (Or.inl ⟨hno, rfl⟩))
        fun n y r hn hy hh => h y _ hy (Or.inr ⟨n, r, hn, hh, rfl⟩))
  | triggerEvent orderId event =>
      refine wp_answer (wp_anyTransition hK hc hx (fun s row _ hid => ⟨?_, rfl⟩)
        fun y r hy => h y _ hy trivial)
      simpa using hid.symm
  | dispatchOrder role orderId event =>
      exact wp_answer (wp_dispatchOrder hK hc
        (fun s row ev _ hid hev hrole => ⟨hid, hev, hrole⟩) hx
        fun y r hy hd => h y _ hy ⟨r, hd, rfl⟩)
  | dispatchKitchen role ticketId event =>
      exact wp_answer (wp_dispatchKitchen hK hc hpast
        (fun s id ev _ hid hev hrole => ⟨hpast, hid, hev, hrole⟩)
        (fun past s row kev ev _ hev hrole hadv => ⟨kev, hev, hrole, hadv⟩) hx
        fun y r hy hd => h y _ hy ⟨r, hd, rfl⟩)
  | transitionTicket ticketId event =>
      exact wp_answer (wp_transitionTicket hK hc hx hpast (fun s id _ hid => ⟨hpast, hid, rfl⟩)
        (fun past s row ev _ hadv => hadv) fun y r hy ht => h y _ hy ⟨r, ht, rfl⟩)
  | maxWebhook secret body =>
      exact wp_answer (wp_maxWebhook hK hc hx hpast fun y r hy hh => h y _ hy ⟨r, hh, rfl⟩)
  | transitionOrder orderId event =>
      exact wp_answer (wp_transitionOrder hK hc hx (fun s row _ _ hid => ⟨hid, rfl⟩)
        (fun y st hy => h y _ hy.txn (.made st rfl hy))
        (fun y res hy href hres => h y _ hy (.refused res rfl hres href))
        fun y e hy hb => h y _ hy (.broke e rfl hb))
  | handleEvent orderId event =>
      exact wp_answer (wp_handleEvent hK hc hx (fun s row _ _ hid => ⟨hid, rfl⟩)
        (fun y st hy => h y _ hy.txn (.made st rfl hy))
        (fun y res hy href hres => h y _ hy (.refused res rfl hres href))
        fun y e hy hb => h y _ hy (.broke e rfl hb))
  | createPayment orderId amount currency paymentMethodType =>
      exact wp_answer (wp_createPayment hK hc hx (fun s row _ hid _ => ⟨hid, rfl, rfl⟩)
        (fun e he => he) (fun _ _ => trivial) (fun y _ _ _ hy _ _ _ _ => h y _ hy trivial)
        fun y e hy _ => h y _ hy trivial)
  | confirmPayment orderId providerId traceId =>
      refine wp_answer (wp_confirmPayment hK hc hx rfl (fun past s z row₀ row hrec _ hone _ hlater => ?_)
        (fun _ _ _ hpaid => ⟨rfl, hpaid⟩) fun y r hy hd => h y _ hy hd)
      refine ⟨rfl, rfl, ?_, hrec⟩
      rw [hlater]
      exact (find_of_oneRow hone).2
  | failPayment orderId providerId traceId =>
      refine wp_answer (wp_failPayment hK hc hx rfl (fun past s z row₀ row hrec _ hone _ hlater => ?_)
        fun y r hy hd => h y _ hy hd)
      refine ⟨rfl, rfl, ?_, hrec⟩
      rw [hlater]
      exact (find_of_oneRow hone).2
  | syncFromMenu => exact wp_answer (wp_syncFromMenu hK hc hx fun y r hy => h y _ hy trivial)
  | setQuantity sku quantity =>
      exact wp_answer (wp_setQuantity hK hc hx fun y r hy => h y _ hy trivial)
  | applyRestock command =>
      exact wp_answer (wp_applyRestock hK hc hx fun y r hy => h y _ hy trivial)
  | stockSession tools commit =>
      exact wp_answer (f := fun _ => .done)
        (wp_stockSession hK hc hx fun y r hy => h y _ hy trivial)

end Specs

/-! ## Contracts of the shop -/

/-- A contract under which every call promises what a call of the shop does. -/
def shopContract (cfg : Settings) (calls : Call → Prop) (inv : Database → Memory → Prop)
    (rely : Call → State → State → Prop) (assume : Call → CallAt → Prop) : ShopContract where
  calls := calls
  inv := inv
  guar := Does cfg assume rely
  rely := rely
  assume := assume

/-- A contract is valid for the shop when its invariant survives what calls,
the provider and restarts do, and its postconditions follow from the outcomes. -/
theorem valid_shop {cfg : Settings} {K : ShopContract} (hK : IsShop cfg K)
    (compat : ∀ c c' past s s', K.calls c → K.calls c' → K.apart c c' → K.inv s.1 s.2 →
      K.guar c past s s' → K.rely c' s s')
    (move : ∀ v d m m', providerMove cfg.provider v m = some m' → K.inv d m →
      K.inv d m' ∧ ∀ c, K.rely c (d, m) (d, m'))
    (hrestart : ∀ d m, K.inv d m → K.inv d (restart m))
    (post : ∀ c d m r y, K.calls c → K.inv d m → y.txn = {} →
      Outcome cfg K ⟨{}, [], d, m⟩ r y c → K.post c r y)
    (keep : ∀ c r y s, K.Happens (shop cfg) (y.db, y.mem) s → K.post c r y → K.post c r (y.now s)) :
    K.Valid (shop cfg) where
  body c d m hc hi := wp_body hK hc rfl rfl fun y r hy ho => post c d m r y hc hi hy ho
  compat := compat
  move := move
  restart := hrestart
  post := keep

/-- The contract of any run: every step evolves the shared state. -/
def anyCall (cfg : Settings) : ShopContract :=
  shopContract cfg (fun _ => True) (fun _ _ => True) (fun _ => Evolves) fun _ _ => True

theorem isShop_anyCall (cfg : Settings) : IsShop cfg (anyCall cfg) where
  guar _ _ _ _ _ _ h := ⟨h, trivial⟩
  rely _ _ _ h := h

theorem valid_anyCall (cfg : Settings) : (anyCall cfg).Valid (shop cfg) :=
  valid_shop (isShop_anyCall cfg) (fun _ _ _ _ _ _ _ _ _ h => h.evolves)
    (fun _ _ _ _ h _ => ⟨trivial, fun _ => evolves_providerMove h⟩) (fun _ _ _ => trivial)
    (fun _ _ _ _ _ _ _ _ _ => trivial) fun _ _ _ _ _ _ => trivial

/-! ## What a step does to the database -/

/-- What a step did to the database and to the list of commits. -/
inductive Changed (cfg : Settings) (assume : Call → CallAt → Prop)
    (rely : Call → State → State → Prop) (b b' : ShopConfig) : Prop
  | kept (hd : b'.db = b.db) (hc : b'.commits = b.commits)
  | committed (t : ShopThread) (txn : Txn Write Lock) (ht : t ∈ b.threads)
      (ha : assume t.call ⟨txn, t.commits, b.db, b.mem⟩)
      (h : Commits cfg assume rely t.call t.commits (b.db, b.mem) txn.writes b'.db)
      (hm : b'.mem = b.mem) (hc : b'.commits.Perm ((t.call, b.db, b'.db) :: b.commits))

section Runs

variable {cfg : Settings} {rely : Call → State → State → Prop}
variable {assume : Call → CallAt → Prop} {b b' : ShopConfig}

/-- The database changes only by a commit of a call of the shop. -/
theorem Changed.of_caused {K : ShopContract}
    (hguar : ∀ c past s s', K.guar c past s s' → Does cfg assume rely c past s s')
    (h : K.Caused (shop cfg) b b') : Changed cfg assume rely b b' := by
  cases h with
  | nothing hd _ hc => exact .kept hd hc
  | committed t ht hg hm hc =>
      have hg := hguar _ _ _ _ hg
      generalize hs' : (b'.db, b'.mem) = s' at hg
      cases hg with
      | committed txn ha h =>
          obtain ⟨rfl, -⟩ := Prod.mk.inj hs'
          exact .committed t txn ht ha h hm hc
      | remembered h =>
          -- a commit leaves the memory as it is
          have hm' : b'.mem = _ := (Prod.mk.inj hs').2
          rw [hm] at hm'
          exact absurd hm'.symm h.ne
  | wrote t _ _ hd hc => exact .kept hd hc
  | restarted hd _ hc => exact .kept hd hc
  | moved v hd _ hc => exact .kept hd hc

/-- The database changes only where a call commits what it has written. -/
theorem committed_of_step {K : ShopContract}
    (hguar : ∀ c past s s', K.guar c past s s' → Does cfg assume rely c past s s') (hb : K.Ok b)
    (ha : ∀ t ∈ b.threads, K.assume t.call (t.state b.db b.mem)) {a : Action Call ProviderMove}
    (hs : (shop cfg).step b a = some b') :
    b'.db = b.db ∨ ∃ i n t txn, a = .run i n ∧ b.threads[i]? = some t ∧ t.committing = true ∧
      Commits cfg assume rely t.call t.commits (b.db, b.mem) (txn : Txn Write Lock).writes b'.db := by
  rcases hb.db_of_step ha hs with hd | ⟨i, n, t, rfl, ht, hcom, hg⟩
  · exact Or.inl hd
  · have hg := hguar _ _ _ _ hg
    generalize hs' : (b'.db, b.mem) = s' at hg
    cases hg with
    | committed txn _ h =>
        obtain ⟨rfl, -⟩ := Prod.mk.inj hs'
        exact Or.inr ⟨i, n, t, txn, rfl, ht, hcom, h⟩
    | remembered h => exact absurd (Prod.mk.inj hs').2 h.ne.symm

/-- A step that is a commit, the call that made it, and what it did. -/
structure CommitStep (cfg : Settings) (assume : Call → CallAt → Prop)
    (rely : Call → State → State → Prop) (b b' : ShopConfig) (a : Action Call ProviderMove)
    (i : Nat) (t t' : ShopThread) : Prop where
  step : ∃ n, a = .run i n
  before : b.threads[i]? = some t
  after : b'.threads[i]? = some t'
  call : t'.call = t.call
  past : t'.commits = t.commits ++ [(b.db, b'.db)]
  commits : b'.commits.Perm ((t.call, b.db, b'.db) :: b.commits)
  effect : ∃ txn : Txn Write Lock, assume t.call ⟨txn, t.commits, b.db, b.mem⟩ ∧
    Commits cfg assume rely t.call t.commits (b.db, b.mem) txn.writes b'.db

/-- A step commits nothing, or it is the commit of one call. -/
theorem commit_of_step {K : ShopContract}
    (hguar : ∀ c past s s', K.guar c past s s' → Does cfg assume rely c past s s') (hb : K.Ok b)
    (ha : ∀ t ∈ b.threads, K.assume t.call (t.state b.db b.mem)) {a : Action Call ProviderMove}
    (hs : (shop cfg).step b a = some b') :
    b'.db = b.db ∧ b'.commits = b.commits ∨
      ∃ i t t', CommitStep cfg assume rely b b' a i t t' := by
  rcases hb.commit_of_step ha hs with hsame | ⟨i, n, t, t', rfl, ht, ht', hcall, hpast, hperm, hg⟩
  · exact Or.inl hsame
  · refine Or.inr ⟨i, t, t', ⟨n, rfl⟩, ht, ht', hcall, hpast, hperm, ?_⟩
    have hg := hguar _ _ _ _ hg
    generalize hs' : (b'.db, b.mem) = s' at hg
    cases hg with
    | committed txn ha h =>
        obtain ⟨rfl, -⟩ := Prod.mk.inj hs'
        exact ⟨txn, ha, h⟩
    | remembered h => exact absurd (Prod.mk.inj hs').2 h.ne.symm

/-- What every commit of a call adds to its past holds of all of its past. -/
theorem recorded_induction {K : ShopContract} {k : Call} {past : Past}
    (hguar : ∀ past s s', K.guar k past s s' → Does cfg assume rely k past s s')
    (h : K.Recorded k past) {P : Past → Prop} (hnil : P [])
    (hsnoc : ∀ past s (txn : Txn Write Lock) d', assume k ⟨txn, past, s.1, s.2⟩ →
      Commits cfg assume rely k past s txn.writes d' → P past → P (past ++ [(s.1, d')])) :
    P past := by
  induction h with
  | nil => exact hnil
  | @snoc past d d' _ m hg ih =>
      have hg := hguar _ _ _ hg
      generalize hs' : (d', m) = s' at hg
      cases hg with
      | committed txn ha h =>
          obtain ⟨rfl, -⟩ := Prod.mk.inj hs'
          exact hsnoc past (d, m) txn d' ha h ih
      | remembered h => exact absurd (Prod.mk.inj hs').2 h.ne.symm

end Runs

/-- The call that a step begins is one of `calls`. -/
def Begins (calls : Call → Prop) : Action Call ProviderMove → Prop
  | .call k => calls k
  | _ => True

instance {calls : Call → Prop} [DecidablePred calls] : DecidablePred (Begins calls) := fun a =>
  match a with
  | .call k => inferInstanceAs (Decidable (calls k))
  | .run _ _ => isTrue trivial
  | .fault _ => isTrue trivial
  | .kill _ => isTrue trivial
  | .restart => isTrue trivial
  | .world _ => isTrue trivial

/-- What is computed at the end of steps that begin some of `calls` is so after a run. -/
theorem exists_run_of_exec (cfg : Settings) (calls : Call → Prop) (c : ShopConfig)
    (as : List (Action Call ProviderMove)) {α : Type} {f : ShopConfig → α} {b : α}
    (hok : ∀ a ∈ as, Begins calls a) (h : ((shop cfg).exec c as).map f = some b) :
    ∃ c', (shop cfg).Runs (fun _ => Begins calls) c c' ∧ f c' = b :=
  System.Runs.exists_of_exec (shop cfg) _ c as (fun a ha _ => hok a ha) h

/-- What is computed at the end of steps that all meet `ok` is so after a run. -/
theorem exists_run_of_execIf (cfg : Settings) (ok : ShopConfig → Action Call ProviderMove → Prop)
    [inst : ∀ c a, Decidable (ok c a)] (c : ShopConfig) (as : List (Action Call ProviderMove))
    {α : Type} {f : ShopConfig → α} {v : α}
    (h : (@System.execIf _ _ _ _ _ _ _ _ _ (shop cfg) ok inst c as).map f = some v) :
    ∃ c', (shop cfg).Runs ok c c' ∧ f c' = v :=
  @System.Runs.exists_of_execIf _ _ _ _ _ _ _ _ _ (shop cfg) ok inst c as α f v h

/-- A contract that grants and forbids its calls nothing allows every step that
begins one of them. -/
theorem allows_of_begins {K : ShopContract} (hassume : ∀ k x, K.assume k x)
    (hfaulty : ∀ k x, K.faulty k x) (hapart : ∀ k k', K.apart k k') (c : ShopConfig)
    (a : Action Call ProviderMove) (h : Begins K.calls a) : K.Allows (S := shop cfg) c a := by
  cases a with
  | call k => exact ⟨h, fun _ _ _ => ⟨hapart _ _, hapart _ _⟩⟩
  | run i n => exact fun _ _ => ⟨hassume _ _, fun _ => hfaulty _ _⟩
  | fault i => exact fun _ _ => ⟨hassume _ _, hfaulty _ _⟩
  | kill i => exact trivial
  | restart => exact trivial
  | world v => exact trivial

/-! ## Runs of any kind -/

/-- `c'` is reached from `c` by any number of steps of any kind. -/
abbrev Reaches (cfg : Settings) (c c' : ShopConfig) : Prop :=
  (shop cfg).Runs (fun _ _ => True) c c'

section Reaches

variable {cfg : Settings} {d : Database} {m : Memory} {c c' : ShopConfig}

theorem allows_anyCall (c : ShopConfig) (a : Action Call ProviderMove) :
    (anyCall cfg).Allows (S := shop cfg) c a :=
  allows_of_begins (fun _ _ => trivial) (fun _ _ => trivial) (fun _ _ => trivial) c a
    (by cases a <;> exact trivial)

theorem Reaches.ok (h : Reaches cfg (Config.start d m) c) : (anyCall cfg).Ok c :=
  (Ok.start trivial).runs (valid_anyCall cfg) (fun c a _ _ => allows_anyCall c a) h

/-- What any step of any run does to the database. -/
theorem Reaches.changed {a : Action Call ProviderMove} (h : Reaches cfg (Config.start d m) c)
    (hs : (shop cfg).step c a = some c') :
    Changed cfg (fun _ _ => True) (fun _ => Evolves) c c' :=
  .of_caused (fun _ _ _ _ h => h) (h.ok.step (valid_anyCall cfg) (allows_anyCall c a) hs).2

theorem Reaches.commit_of_step {a : Action Call ProviderMove} (h : Reaches cfg (Config.start d m) c)
    (hs : (shop cfg).step c a = some c') :
    c'.db = c.db ∧ c'.commits = c.commits ∨
      ∃ i t t', CommitStep cfg (fun _ _ => True) (fun _ => Evolves) c c' a i t t' :=
  Sieshka.commit_of_step (fun _ _ _ _ h => h) h.ok (fun _ _ => trivial) hs

/-- What a call writes to the memory. -/
theorem Reaches.write_of_step {i n : Nat} {t : ShopThread} (h : Reaches cfg (Config.start d m) c)
    (ht : c.threads[i]? = some t) (hs : (shop cfg).step c (.run i n) = some c')
    (hm : c'.mem ≠ c.mem) : Remembers t.call t.commits (c.db, c.mem) c'.mem := by
  have hg := h.ok.write_of_step trivial ht hs hm
  generalize hs' : (c.db, c'.mem) = s' at hg
  cases hg with
  | committed txn _ _ => exact absurd (Prod.mk.inj hs').2 hm
  | remembered h => exact (Prod.mk.inj hs').2 ▸ h

end Reaches

end Sieshka
