import Sieshka.Specs.Shop
import Sieshka.Transactions.Counting

/-!
# The key of a checkout

The call that has recorded the key of a checkout is the only one that places an
order and writes an answer under it. Every other submission of the key answers
what is written there.
-/

namespace Sieshka

open Transactions Contract
open Relation (ReflTransGen)

/-! ## Keys -/

/-- `f"{_IDEMPOTENCY_PREFIX}{key}"`. -/
def prefixedKey (key : String) : String := "checkout:" ++ key

theorem prefixedKey_inj {key key' : String} (h : prefixedKey key = prefixedKey key') :
    key = key' := by
  have h := congrArg String.toList h
  simp only [prefixedKey, String.toList_append, List.append_cancel_left_eq] at h
  exact String.ext h

/-- The call submits a checkout under the key. -/
def Call.submits (key : String) : Call → Bool
  | .checkout body => body.idempotencyKey = key
  | _ => false

theorem Call.submits_iff {key : String} {c : Call} :
    c.submits key = true ↔ ∃ body, c = .checkout body ∧ body.idempotencyKey = key := by
  cases c <;> simp [submits]

/-- A call that is no checkout records no key that starts with `checkout:`. -/
def OwnKeys (cfg : Settings) (c : Call) : Prop :=
  ∀ row, MayRecord cfg c row →
    (∃ body, c = .checkout body) ∨ ¬ "checkout:".toList <+: row.key.toList

/-- The runs of such calls. -/
abbrev ReachesOwnKeys (cfg : Settings) (c c' : ShopConfig) : Prop :=
  (shop cfg).Runs (fun _ => Begins (OwnKeys cfg)) c c'

/-- The commit inserts the key. -/
def RecordsKey (key : String) (d d' : Database) : Prop :=
  d.idempotencyKeys.find key = none ∧ (d'.idempotencyKeys.find key).isSome = true

instance (key : String) (d d' : Database) : Decidable (RecordsKey key d d') :=
  decidable_of_iff ((d.idempotencyKeys.find key).isNone = true ∧
    (d'.idempotencyKeys.find key).isSome = true) (by simp [RecordsKey])

/-- The order id an answer to the key names. -/
def orderIdOf (d : Database) (key : String) : Option String :=
  match recovered d key with
  | .ok found => found.map CheckoutResponse.orderId
  | .error _ => none

theorem recovered_congr {d d' : Database} {key : String}
    (h : d'.idempotencyKeys.find key = d.idempotencyKeys.find key) :
    recovered d' key = recovered d key := by
  rw [recovered, recovered, h]

theorem orderIdOf_of_recovered {d : Database} {key : String} {response : CheckoutResponse}
    (h : recovered d key = .ok (some response)) : orderIdOf d key = some response.orderId := by
  rw [orderIdOf, h]
  rfl

/-- Nothing is recovered from a key that is not there. -/
theorem recovered_absent {d : Database} {key : String}
    (h : d.idempotencyKeys.find key = none) : recovered d key = .ok none := by
  rw [recovered, h]
  rfl

/-- Nothing is recovered from a key that has just been recorded. -/
theorem recovered_recorded {d : Database} {body : CheckoutRequest}
    (h : d.idempotencyKeys.find (checkoutKey body) =
      some ⟨checkoutKey body, .obj (checkoutPayload body)⟩) :
    recovered d (checkoutKey body) = .ok none := by
  rw [recovered, h]
  rfl

/-- What a checkout has written under its key names its order. -/
theorem recovered_answered {d : Database} {body : CheckoutRequest} {id : Uuid}
    {rest : List (String × Json)} (h : d.idempotencyKeys.find (checkoutKey body) =
      some ⟨checkoutKey body, answeredPayload body id rest⟩) :
    ∃ response, recovered d (checkoutKey body) = .ok (some response) ∧
      recoverIdempotentResult (some (answeredPayload body id rest)) = .ok (some response) ∧
      response.orderId = id.text := by
  rw [recovered, h]
  exact ⟨_, rfl, rfl, rfl⟩

/-! ## What a commit does under a key -/

section Commits

variable {cfg : Settings} {A : Call → CallAt → Prop} {R : Call → State → State → Prop} {c : Call}
variable {past : Past} {s : State} {ws : List Write} {d' : Database}

/-- What a commit did to the row of a key. -/
inductive KeyStep (cfg : Settings) (c : Call) (past : Past) (key : String) (d : Database)
    (m : Memory) (d' : Database) : Prop
  | kept (h : d'.idempotencyKeys.find key = d.idempotencyKeys.find key)
  | recorded (row : IdempotencyKey) (hmay : MayRecord cfg c row) (hkey : row.key = key)
      (hnone : d.idempotencyKeys.find key = none) (h : d'.idempotencyKeys.find key = some row)
  | answered (body : CheckoutRequest) (hc : c = .checkout body) (hkey : checkoutKey body = key)
      (id : Uuid) (rest : List (String × Json)) (hrec : KeyRecorded past key)
      (hplaced : Placed past id)
      (hcomp : ∀ response, recoverIdempotentResult (some (answeredPayload body id rest)) =
        .ok (some response) → Completes key (d, m) response)
      (h : d'.idempotencyKeys.find key = some ⟨key, answeredPayload body id rest⟩)

theorem Commits.keyStep (h : Commits cfg A R c past s ws d') (key : String) :
    KeyStep cfg c past key s.1 s.2 d' := by
  cases h with
  | duplicate _ _ _ => exact .kept rfl
  | recorded row hmay habs =>
      by_cases hkey : row.key = key
      · subst hkey
        exact .recorded row hmay rfl habs (Table.find_put_self _ _)
      · exact .kept (Table.find_put_of_ne _ hkey)
  | answered body hc id rest hrec hplaced hcomp =>
      by_cases hkey : checkoutKey body = key
      · subst hkey
        exact .answered body hc rfl id rest hrec hplaced hcomp
          (Table.find_put_self s.1.idempotencyKeys ⟨checkoutKey body, answeredPayload body id rest⟩)
      · exact .kept (Table.find_put_of_ne _ hkey)
  | customer body _ row _ => exact .kept rfl
  | placed body _ id customerId items totalRub promoCode discountRub _ _ _ => exact .kept rfl
  | moved row row' event st _ _ _ _ _ => exact .kept rfl
  | cooked row row' orderId items lines d₁ ticket _ _ _ _ _ _ _ hsells _ _ _ =>
      exact .kept (by rw [hsells.steps.same])
  | paymentCreated row order orders' _ _ _ _ _ _ => exact .kept rfl
  | settled kind orderId row order orders' _ _ _ _ _ _ _ => exact .kept rfl
  | ticketMoved row event st _ _ _ => exact .kept rfl
  | stock _ h _ => exact .kept (by rw [h.same])

/-- An order that is new was placed by a checkout, which had recorded its key and
touched no order before. -/
theorem Commits.placed_of_new (h : Commits cfg A R c past s ws d') {o : Uuid}
    (hnone : s.1.orders.find o = none) (hsome : (d'.orders.find o).isSome = true) :
    ∃ body row, c = .checkout body ∧ KeyRecorded past (checkoutKey body) ∧
      (∀ p ∈ past, p.2.orders = p.1.orders) ∧ row.id = o ∧
      d' = { s.1 with orders := s.1.orders.put row } := by
  have hsame : ∀ orders' : Table Order.id, orders' = s.1.orders →
      (orders'.find o).isSome = true → False := by
    rintro _ rfl hsome
    rw [hnone] at hsome
    cases hsome
  have hput : ∀ (t : Table Order.id) (row row' : Order), t = s.1.orders →
      s.1.orders.find row.id = some row → row'.id = row.id →
      ((t.put row').find o).isSome = true → False := by
    rintro _ row row' rfl hfind hid hsome
    refine hsame _ rfl ?_
    by_cases ho : row'.id = o
    · rw [← ho, hid, hfind]
      rfl
    · rwa [Table.find_put_of_ne _ ho] at hsome
  have hmoves : ∀ {row : Order} {event : OrderEvent} {why : Prop} {orders' : Table Order.id},
      s.1.orders.find row.id = some row → Moves s.1.orders row event why orders' →
      (orders'.find o).isSome = true → False := by
    intro row event why orders' hfind hm hsome
    cases hm with
    | @moved st _ => exact hput _ row { row with state := st } rfl hfind rfl hsome
    | kept _ => exact hsame _ rfl hsome
  cases h with
  | duplicate _ _ _ => exact (hsame _ rfl hsome).elim
  | recorded _ _ _ => exact (hsame _ rfl hsome).elim
  | answered _ _ _ _ _ _ _ => exact (hsame _ rfl hsome).elim
  | customer _ _ _ _ => exact (hsame _ rfl hsome).elim
  | placed body hc id customerId items totalRub promoCode discountRub hrec hfirst _ =>
      refine ⟨body, _, hc, hrec, hfirst, ?_, rfl⟩
      by_contra hid
      exact hsame _ rfl (by rwa [Table.find_put_of_ne _ hid] at hsome)
  | moved row row' event st hfind _ _ _ hrow =>
      exact (hput _ row row' rfl hfind (by rw [hrow]) hsome).elim
  | cooked row row' orderId items lines d₁ ticket hfind _ _ _ hrow _ _ hsells _ _ _ =>
      exact (hput _ row row' (by rw [hsells.steps.same]) hfind (by rw [hrow]) hsome).elim
  | paymentCreated row order orders' _ _ hfind _ _ hm =>
      exact (hmoves ((Table.find_some hfind).2.symm ▸ hfind) hm hsome).elim
  | settled kind orderId row order orders' _ _ _ _ _ hfind hm => exact (hmoves hfind hm hsome).elim
  | ticketMoved _ _ _ _ _ _ => exact (hsame _ rfl hsome).elim
  | stock _ h _ => exact (hsame _ (by rw [h.same]) hsome).elim

end Commits

/-! ## The call that has recorded a key -/

section Recorder

variable {cfg : Settings} {d : Database} {m : Memory} {c c' : ShopConfig} {key : String}

/-- A key is recorded once, and then it is there. -/
theorem Reaches.records_once (h : Reaches cfg (Config.start d m) c) (key : String) :
    c.Once (RecordsKey key) fun d => (d.idempotencyKeys.find key).isSome = true := by
  induction h with
  | refl => simp [Config.Once, Config.start, Config.commits]
  | step hr _ hs ih =>
      cases Reaches.changed hr hs with
      | kept hd hc =>
          rw [Config.Once, hd, hc]
          exact ih
      | committed t txn _ _ h _ hc =>
          refine ih.commit hc (fun hkey => ?_) fun hnew => ⟨by simp [hnew.1], hnew.2⟩
          obtain ⟨row, hrow⟩ := Option.isSome_iff_exists.mp hkey
          obtain ⟨row', hrow', -⟩ := h.evolves.keys key row hrow
          rw [hrow']
          rfl

/-- Two calls that have recorded one key are one. -/
theorem Reaches.recorder_eq (h : Reaches cfg (Config.start d m) c) {i j : Nat} {t u : ShopThread}
    (ht : c.threads[i]? = some t) (hu : c.threads[j]? = some u) (hrt : KeyRecorded t.commits key)
    (hru : KeyRecorded u.commits key) : i = j := by
  obtain ⟨p, hp, hkey⟩ := hrt
  obtain ⟨p', hp', hkey'⟩ := hru
  exact (h.records_once key).eq ht hu hp hp' hkey hkey'

/-- A key that a call has recorded is there. -/
theorem Reaches.recorded_isSome (h : Reaches cfg (Config.start d m) c) {t : ShopThread}
    (ht : t ∈ c.threads) (hrt : KeyRecorded t.commits key) :
    (c.db.idempotencyKeys.find key).isSome = true := by
  obtain ⟨p, hp, hkey⟩ := hrt
  refine (h.records_once key).2 (List.countP_pos_iff.mpr
    ⟨(t.call, p), ?_, decide_eq_true hkey⟩)
  exact List.mem_flatMap.mpr ⟨t, ht, List.mem_map_of_mem hp⟩

/-- A call places one order. -/
theorem Reaches.placed_eq (h : Reaches cfg (Config.start d m) c) {t : ShopThread}
    (ht : t ∈ c.threads) {id id' : Uuid} (hid : Placed t.commits id)
    (hid' : Placed t.commits id') : id = id' := by
  revert id id'
  refine recorded_induction (P := fun past => ∀ {id id' : Uuid}, Placed past id →
    Placed past id' → id = id') (fun _ _ _ h => h) (h.ok.recorded t ht) ?_ ?_
  · rintro id id' ⟨p, hp, -⟩
    cases hp
  · intro past s txn d' _ hcommit ih id id' ⟨p, hp, hnone, hsome⟩ ⟨q, hq, hnone', hsome'⟩
    have hnot : ∀ r ∈ past, (∀ p ∈ past, p.2.orders = p.1.orders) → ∀ o : Uuid,
        r.1.orders.find o = none → (r.2.orders.find o).isSome = true → False := by
      intro r hr hfirst o hn hs
      rw [hfirst r hr, hn] at hs
      cases hs
    rcases List.mem_append.mp hp with hp | hp <;> rcases List.mem_append.mp hq with hq | hq
    · exact ih ⟨p, hp, hnone, hsome⟩ ⟨q, hq, hnone', hsome'⟩
    · obtain rfl := List.mem_singleton.mp hq
      obtain ⟨_, _, -, -, hfirst, -⟩ := hcommit.placed_of_new hnone' hsome'
      exact (hnot p hp hfirst id hnone hsome).elim
    · obtain rfl := List.mem_singleton.mp hp
      obtain ⟨_, _, -, -, hfirst, -⟩ := hcommit.placed_of_new hnone hsome
      exact (hnot q hq hfirst id' hnone' hsome').elim
    · obtain rfl := List.mem_singleton.mp hp
      obtain rfl := List.mem_singleton.mp hq
      obtain ⟨_, row, -, -, -, rfl, hput⟩ := hcommit.placed_of_new hnone hsome
      by_contra hne
      simp only [hput, Table.find_put_of_ne _ hne, hnone'] at hsome'
      cases hsome'

end Recorder

/-! ## Who writes an answer under a key -/

/-- What is recovered from the key of a checkout: what was there at first, nothing, or
an answer that has what the customer needs to finish the order. -/
def KeysFit (d₀ d : Database) (m : Memory) : Prop :=
  ∀ key, recovered d (prefixedKey key) = recovered d₀ (prefixedKey key) ∨
    recovered d (prefixedKey key) = .ok none ∨
    ∃ response, recovered d (prefixedKey key) = .ok (some response) ∧
      Completes (prefixedKey key) (d, m) response

theorem KeysFit.start (d : Database) (m : Memory) : KeysFit d d m := fun _ => Or.inl rfl

theorem KeysFit.mono {d₀ d d' : Database} {m m' : Memory} (h : KeysFit d₀ d m)
    (hd : ∀ key, recovered d' (prefixedKey key) = recovered d (prefixedKey key))
    (hs : ∀ key response, Completes (prefixedKey key) (d, m) response →
      Completes (prefixedKey key) (d', m') response) : KeysFit d₀ d' m' := by
  intro key
  rw [hd key]
  rcases h key with h | h | ⟨response, hresponse, hcomp⟩
  · exact Or.inl h
  · exact Or.inr (Or.inl h)
  · exact Or.inr (Or.inr ⟨response, hresponse, hs key response hcomp⟩)

/-- What a submission can read under its key. -/
theorem KeysFit.of_recovered {d₀ d : Database} {m : Memory} {body : CheckoutRequest}
    {out : Except PyError (Option CheckoutResponse)} (h : KeysFit d₀ d m)
    (hout : recovered d (checkoutKey body) = out) :
    recovered d₀ (checkoutKey body) = out ∨ out = .ok none ∨
      ∃ response, out = .ok (some response) ∧ Completes (checkoutKey body) (d, m) response := by
  subst hout
  exact (h body.idempotencyKey).imp_left Eq.symm

theorem KeysFit.restart {d₀ d : Database} {m : Memory} (h : KeysFit d₀ d m) :
    KeysFit d₀ d (restart m) :=
  h.mono (fun _ => rfl) fun _ _ => Completes.restart

/-- A checkout key is recorded by a checkout, with a payload that names no order. -/
theorem MayRecord.of_checkoutKey {cfg : Settings} {k : Call} (hk : OwnKeys cfg k)
    {row : IdempotencyKey} (hmay : MayRecord cfg k row) {key : String}
    (hkey : row.key = prefixedKey key) :
    ∃ body, k = .checkout body ∧ body.idempotencyKey = key ∧
      row = ⟨checkoutKey body, .obj (checkoutPayload body)⟩ := by
  rcases hk row hmay with ⟨body, rfl⟩ | hno
  · have hrow : row = ⟨checkoutKey body, .obj (checkoutPayload body)⟩ := hmay
    refine ⟨body, rfl, ?_, hrow⟩
    rw [hrow] at hkey
    exact prefixedKey_inj hkey
  · refine absurd ?_ hno
    rw [hkey, prefixedKey, String.toList_append]
    exact List.prefix_append _ _

theorem KeysFit.does {cfg : Settings} {A : Call → CallAt → Prop} {R : Call → State → State → Prop}
    {c : Call} {past : Past} {d₀ : Database} {s s' : State} (hown : OwnKeys cfg c)
    (h : Does cfg A R c past s s') (hs : KeysFit d₀ s.1 s.2) : KeysFit d₀ s'.1 s'.2 := by
  have hlater : ∀ key response, Completes (prefixedKey key) s response →
      Completes (prefixedKey key) s' response := fun _ _ hcomp => hcomp.later h.evolves
  cases h with
  | remembered h => exact hs.mono (fun _ => rfl) hlater
  | committed txn _ h =>
      intro key
      cases h.keyStep (prefixedKey key) with
      | kept hk =>
          rw [recovered_congr hk]
          rcases hs key with h | h | ⟨response, hresponse, hcomp⟩
          · exact Or.inl h
          · exact Or.inr (Or.inl h)
          · exact Or.inr (Or.inr ⟨response, hresponse, hlater key response hcomp⟩)
      | recorded row hmay hkey _ hk =>
          obtain ⟨body, -, rfl, rfl⟩ := hmay.of_checkoutKey hown hkey
          exact Or.inr (Or.inl (recovered_recorded hk))
      | answered body _ hkey id rest _ _ hcomp hk =>
          obtain rfl : body.idempotencyKey = key := prefixedKey_inj hkey
          obtain ⟨response, hresponse, hrest, -⟩ := recovered_answered hk
          exact Or.inr (Or.inr ⟨response, hresponse, hlater _ _ (hcomp response hrest)⟩)

/-- Any run of calls that leave the keys of checkouts alone. -/
def ownKeyCalls (cfg : Settings) (d₀ : Database) : ShopContract :=
  { anyCall cfg with calls := OwnKeys cfg, inv := KeysFit d₀ }

theorem valid_ownKeyCalls (cfg : Settings) (d₀ : Database) :
    (ownKeyCalls cfg d₀).Valid (shop cfg) := by
  have hK : IsShop cfg (ownKeyCalls cfg d₀) :=
    ⟨fun _ _ _ _ hc hs h => ⟨h, KeysFit.does hc h hs⟩, fun _ _ _ h => h⟩
  refine valid_shop hK (fun _ _ _ _ _ _ _ _ _ h => h.evolves) (fun v d m m' h hs => ?_)
    (fun _ _ hs => hs.restart) (fun _ _ _ _ _ _ _ _ _ => trivial) fun _ _ _ _ _ _ => trivial
  have hev : ∀ d, Evolves (d, m) (d, m') := fun _ => evolves_providerMove h
  exact ⟨hs.mono (fun _ => rfl) fun _ _ hcomp => hcomp.later (hev d), fun _ => hev d⟩

section Owners

variable {cfg : Settings} {d : Database} {m : Memory} {c c' : ShopConfig}

theorem ReachesOwnKeys.reaches (h : ReachesOwnKeys cfg c c') : Reaches cfg c c' :=
  h.mono _ fun _ _ _ => trivial

theorem ReachesOwnKeys.keysOk (h : ReachesOwnKeys cfg (Config.start d m) c) :
    (ownKeyCalls cfg d).Ok c :=
  (Ok.start (KeysFit.start d m)).runs (valid_ownKeyCalls cfg d)
    (fun c a _ ha => allows_of_begins (fun _ _ => trivial) (fun _ _ => trivial)
      (fun _ _ => trivial) c a ha) h

theorem ReachesOwnKeys.ownKeys (h : ReachesOwnKeys cfg (Config.start d m) c) {t : ShopThread}
    (ht : t ∈ c.threads) : OwnKeys cfg t.call :=
  h.keysOk.calls t ht

theorem ReachesOwnKeys.keysFit (h : ReachesOwnKeys cfg (Config.start d m) c) :
    KeysFit d c.db c.mem :=
  h.keysOk.inv

theorem ownKeys_of_submits {cfg : Settings} {key : String} {c : Call} (h : c.submits key = true) :
    OwnKeys cfg c := by
  obtain ⟨body, rfl, -⟩ := Call.submits_iff.mp h
  exact fun _ _ => Or.inl ⟨body, rfl⟩

/-- The runs of submissions of one key. -/
theorem reachesOwnKeys_of_submits {key : String}
    (h : (shop cfg).Runs (fun _ => Begins fun k => k.submits key = true) c c') :
    ReachesOwnKeys cfg c c' :=
  h.mono _ fun _ a ha => by
    cases a with
    | call k => exact ownKeys_of_submits ha
    | run i n => exact ha
    | fault i => exact ha
    | kill i => exact ha
    | restart => exact ha
    | world v => exact ha

/-- What is written under the key of a checkout that has recorded it names an
order the checkout has placed. -/
def PayloadsOwned (c : ShopConfig) : Prop :=
  ∀ t ∈ c.threads, ∀ key, KeyRecorded t.commits (prefixedKey key) →
    ∀ o, orderIdOf c.db (prefixedKey key) = some o → ∃ id, Placed t.commits id ∧ o = id.text

theorem keyRecorded_append {past : Past} {key : String} {p : Database × Database} :
    KeyRecorded (past ++ [p]) key ↔ KeyRecorded past key ∨ RecordsKey key p.1 p.2 := by
  simp [KeyRecorded, RecordsKey, or_and_right, exists_or]

theorem placed_append_left {past : Past} {id : Uuid} (h : Placed past id) (ps : Past) :
    Placed (past ++ ps) id := by
  obtain ⟨p, hp, hid⟩ := h
  exact ⟨p, List.mem_append_left _ hp, hid⟩

theorem PayloadsOwned.step {a : Action Call ProviderMove}
    (hr : ReachesOwnKeys cfg (Config.start d m) c) (hs : (shop cfg).step c a = some c')
    (h : PayloadsOwned c) : PayloadsOwned c' := by
  intro u hu key hrec o ho
  obtain ⟨j, hj⟩ := List.mem_iff_getElem?.mp hu
  rcases System.past_of_step hs hj with hnil | ⟨t, ht, -, hpast⟩
  · obtain ⟨p, hp, -⟩ := hrec
    rw [hnil] at hp
    cases hp
  have hmem := List.mem_of_getElem? ht
  have hplaced : ∀ id, Placed t.commits id → Placed u.commits id := by
    rintro id hid
    rcases hpast with he | he
    · exact he ▸ hid
    · exact he ▸ placed_append_left hid _
  have hcases : KeyRecorded t.commits (prefixedKey key) ∨
      RecordsKey (prefixedKey key) c.db c'.db := by
    rcases hpast with he | he
    · exact Or.inl (he ▸ hrec)
    · exact keyRecorded_append.mp (he ▸ hrec)
  have hsame : orderIdOf c'.db (prefixedKey key) = orderIdOf c.db (prefixedKey key) →
      KeyRecorded t.commits (prefixedKey key) → ∃ id, Placed u.commits id ∧ o = id.text := by
    intro hid hrt
    obtain ⟨id, hid, he⟩ := h t hmem key hrt o (hid ▸ ho)
    exact ⟨id, hplaced id hid, he⟩
  rcases hr.reaches.commit_of_step hs with ⟨hd, -⟩ | ⟨i, v, v', hcommit⟩
  · rcases hcases with hrt | ⟨hnone, hsome⟩
    · exact hsame (by rw [hd]) hrt
    · rw [hd, hnone] at hsome
      cases hsome
  obtain ⟨txn, -, heffect⟩ := hcommit.effect
  cases heffect.keyStep (prefixedKey key) with
  | kept hk =>
      rcases hcases with hrt | ⟨hnone, hsome⟩
      · exact hsame (by rw [orderIdOf, orderIdOf, recovered_congr hk]) hrt
      · rw [hk, hnone] at hsome
        cases hsome
  | recorded row hmay hkey _ hk =>
      -- a key that has just been recorded names no order
      obtain ⟨body, -, hbody, hrow⟩ :=
        hmay.of_checkoutKey (hr.ownKeys (List.mem_of_getElem? hcommit.before)) hkey
      have hprefixed : prefixedKey key = checkoutKey body := by rw [← hbody]; rfl
      rw [hprefixed, hrow] at hk
      rw [hprefixed, orderIdOf, recovered_recorded hk] at ho
      cases ho
  | answered body _ hkey id rest hrv hplacedv _ hk =>
      rcases hcases with hrt | ⟨hnone, -⟩
      · obtain rfl := hr.reaches.recorder_eq ht hcommit.before hrt hrv
        obtain rfl := Option.some.inj (ht.symm.trans hcommit.before)
        refine ⟨id, hplaced id hplacedv, ?_⟩
        rw [← hkey] at hk ho
        obtain ⟨response, hresponse, -, hid⟩ := recovered_answered hk
        rw [orderIdOf_of_recovered hresponse, hid] at ho
        exact (Option.some.inj ho).symm
      · have hsome := hr.reaches.recorded_isSome (List.mem_of_getElem? hcommit.before) hrv
        rw [hnone] at hsome
        cases hsome

theorem ReachesOwnKeys.payloadsOwned (h : ReachesOwnKeys cfg (Config.start d m) c) :
    PayloadsOwned c := by
  induction h with
  | refl => simp [PayloadsOwned, Config.start]
  | step hr _ hs ih => exact ih.step hr hs

end Owners

/-! ## What a submission answers -/

/-- An order that is named under a key stays named there. -/
def KeepsAnswers (s s' : State) : Prop :=
  ∀ key o, orderIdOf s.1 key = some o → orderIdOf s'.1 key = some o

theorem KeepsAnswers.refl (s : State) : KeepsAnswers s s := fun _ _ h => h

/-- What is written under the key a checkout has recorded names an order it has
placed, and it has placed one order. -/
def AnswersOwn (c : Call) (x : CallAt) : Prop :=
  ∀ body, c = .checkout body → KeyRecorded x.past (checkoutKey body) →
    ∀ id, Placed x.past id → ∀ o, orderIdOf x.db (checkoutKey body) = some o → o = id.text

/-- What a run grants a call: that what is written under its key is its own, and
that what is written under the keys of checkouts fits. -/
def AnswersFit (d₀ : Database) (c : Call) (x : CallAt) : Prop :=
  AnswersOwn c x ∧ KeysFit d₀ x.db x.mem

/-- A submission has failed with `e` because it found its key taken. -/
structure FoundTaken (d₀ : Database) (body : CheckoutRequest) (e : PyError) (past : Past) :
    Prop where
  unrecorded : ¬ KeyRecorded past (checkoutKey body)
  seen : ∃ p ∈ past, (p.2.idempotencyKeys.find (checkoutKey body)).isSome = true
  why : ¬ NotBusy e ∨ repeatedAnswer (recovered d₀ (checkoutKey body)) = .error e

/-- What a submission has ended with: an order it has placed or one that is named
under its key, with what was written there at first or what completes the order; an
error only where it was refused, had recorded its key, or had found it taken. -/
structure Answered (d₀ : Database) (body : CheckoutRequest) (r : Except PyError Answer)
    (x : CallAt) : Prop where
  ok : ∀ a, r = .ok a → ∃ response, a = .checkout response ∧
    (orderIdOf x.db (checkoutKey body) = some response.orderId ∨
      ∃ id, Owned body id x.past ∧ response.orderId = id.text) ∧
    (recovered d₀ (checkoutKey body) = .ok (some response) ∨
      Completes (checkoutKey body) (x.db, x.mem) response)
  error : ∀ e, r = .error e → (∃ detail, e = .httpException 400 detail) ∨ e = .dbapiError ∨
    KeyRecorded x.past (checkoutKey body) ∧ NotBusy e ∨ FoundTaken d₀ body e x.past

/-- Runs in which what is written under a key is written by its owner. -/
def answerCalls (cfg : Settings) (d₀ : Database) : ShopContract :=
  { shopContract cfg (OwnKeys cfg) (fun _ _ => True)
      (fun _ s s' => Evolves s s' ∧ KeepsAnswers s s') (AnswersFit d₀) with
    post := fun c r x => ∀ body, c = .checkout body → Answered d₀ body r x }

section Answers

variable {cfg : Settings} {A : Call → CallAt → Prop} {R : Call → State → State → Prop} {c : Call}
variable {past : Past} {s s' : State} {body : CheckoutRequest} {x y : CallAt} {d₀ : Database}

theorem Does.keepsAnswers (h : Does cfg (AnswersFit d₀) R c past s s') : KeepsAnswers s s' := by
  intro key o ho
  cases h with
  | committed txn ha h =>
      cases h.keyStep key with
      | kept hk =>
          rw [orderIdOf, recovered_congr hk]
          exact ho
      | recorded row _ _ hnone _ =>
          rw [orderIdOf, recovered_absent hnone] at ho
          cases ho
      | answered body hc hkey id rest hrec hplaced _ hk =>
          subst hkey
          obtain ⟨response, hresponse, -, hid⟩ := recovered_answered hk
          rw [ha.1 body hc hrec id hplaced o ho, orderIdOf_of_recovered hresponse, hid]
  | remembered h => exact ho

theorem isShop_answerCalls (cfg : Settings) (d₀ : Database) : IsShop cfg (answerCalls cfg d₀) where
  guar _ _ _ _ _ _ h := ⟨h, trivial⟩
  rely _ _ _ h := h.1

theorem KeepsAnswers.of_since (h : (answerCalls cfg d₀).Since c s s') : KeepsAnswers s s' := by
  induction h with
  | refl => exact .refl _
  | tail _ hs ih => exact fun key o ho => hs.2 key o (ih key o ho)

theorem Answered.of_error {e : PyError} (h : (∃ detail, e = .httpException 400 detail) ∨
    e = .dbapiError ∨ KeyRecorded y.past (checkoutKey body) ∧ NotBusy e ∨
      FoundTaken d₀ body e y.past) : Answered d₀ body (.error e) y where
  ok a hr := by cases hr
  error e' hr := by
    cases hr
    exact h

/-- What a checkout whose key is taken answers. -/
theorem Answered.of_repeated {e : Database} {w : CallAt} {r : Except PyError CheckoutResponse}
    (hx : x.past = []) (hkey : (e.idempotencyKeys.find (checkoutKey body)).isSome = true)
    (hcm : (answerCalls cfg d₀).Committed (.checkout body) e e x w)
    (h : Repeated (answerCalls cfg d₀) (.checkout body) (checkoutKey body) w y r) :
    Answered d₀ body (r.map Answer.checkout) y := by
  cases h with
  | refused _ => exact .of_error (Or.inr (Or.inl rfl))
  | answered out h =>
      obtain ⟨hf, z, hz, ha, hout, hzy⟩ := h
      have hout : recovered z.db (checkoutKey body) = out := hout
      have hpast : y.past = [(e, e)] := by rw [hf.past, hcm.past, hx, List.nil_append]
      have htaken : ∀ e', (¬ NotBusy e' ∨ repeatedAnswer (recovered d₀ (checkoutKey body)) =
          .error e') → FoundTaken d₀ body e' y.past := by
        refine fun e' hwhy => ⟨?_, ⟨(e, e), by simp [hpast], hkey⟩, hwhy⟩
        rintro ⟨p, hp, hnone, -⟩
        rw [hpast, List.mem_singleton] at hp
        rw [hp] at hnone
        rw [hnone] at hkey
        cases hkey
      have hfit := ha.2.of_recovered hout
      match out, hout, hfit with
      | .ok (some existing), hout, hfit =>
          refine ⟨fun a hr => ?_, fun e he => by cases he⟩
          obtain rfl : Answer.checkout existing = a := Except.ok.inj hr
          refine ⟨existing, rfl, Or.inl (KeepsAnswers.of_since hzy _ _ ?_), ?_⟩
          · exact orderIdOf_of_recovered hout
          · rcases hfit with hfirst | hnone | ⟨response, hresponse, hcomp⟩
            · exact Or.inl hfirst
            · cases hnone
            · obtain rfl := Option.some.inj (Except.ok.inj hresponse)
              exact Or.inr (hcomp.later ((isShop_answerCalls cfg d₀).evolves hzy))
      | .ok none, _, _ => exact .of_error (Or.inr (Or.inr (Or.inr (htaken _ (Or.inl (· rfl))))))
      | .error e, hout, hfit =>
          refine .of_error (Or.inr (Or.inr (Or.inr (htaken _ (Or.inr ?_)))))
          rcases hfit with hfirst | hnone | ⟨response, hresponse, -⟩
          · rw [hfirst]
            rfl
          · cases hnone
          · cases hresponse

theorem Answered.of_checkedOut {r : Except PyError CheckoutResponse} (hx : x.past = [])
    (h : CheckedOut (answerCalls cfg d₀) (.checkout body) body x r y) :
    Answered d₀ body (r.map Answer.checkout) y := by
  have howned : ∀ id, Owned body id y.past → Completed body id r y →
      (∀ e, r = .error e → NotBusy e) → Answered d₀ body (r.map Answer.checkout) y := by
    intro id ho hr hbusy
    cases r with
    | ok answer =>
        refine ⟨fun a he => ?_, fun e he => by cases he⟩
        obtain ⟨hid, hcomp⟩ := hr answer rfl
        exact ⟨answer, (Except.ok.inj he).symm, Or.inr ⟨id, ho, hid⟩, Or.inr hcomp⟩
    | error e => exact .of_error (Or.inr (Or.inr (Or.inl ⟨ho.1, hbusy e rfl⟩)))
  cases h with
  | rejected e he => exact .of_error (Or.inl he)
  | refused y h => exact .of_error (Or.inr (Or.inl rfl))
  | repeated e w y r hkey hcm h => exact .of_repeated hx hkey hcm h
  | unplaced e y h hrec he => exact .of_error (Or.inr (Or.inr (Or.inl ⟨hrec, he⟩)))
  | cash w v y r id totalRub _ _ _ ho _ hr he => exact howned id ho hr he
  | card w v y r id totalRub _ _ _ ho _ hr he => exact howned id ho hr he

theorem valid_answerCalls (cfg : Settings) (d₀ : Database) :
    (answerCalls cfg d₀).Valid (shop cfg) := by
  refine valid_shop (isShop_answerCalls cfg d₀)
    (fun c c' past s s' _ _ _ _ h => ⟨Does.evolves h, Does.keepsAnswers h⟩)
    (fun _ _ _ _ h _ => ⟨trivial, fun _ => ⟨evolves_providerMove h, fun _ _ ho => ho⟩⟩)
    (fun _ _ _ => trivial) (fun c d m r y _ _ _ h body hc => ?_) fun c r y s hh h body hc => ?_
  · subst hc
    obtain ⟨res, hres, rfl⟩ := h
    exact .of_checkedOut rfl hres
  · have hkeeps : KeepsAnswers (y.db, y.mem) s := by
      rcases hh with ⟨c', past, -, hg⟩ | ⟨v, hd, -⟩ | rfl
      · exact Does.keepsAnswers hg
      · exact fun key o ho => by rw [hd]; exact ho
      · exact fun key o ho => ho
    have hcompletes : ∀ key response, Completes key (y.db, y.mem) response →
        Completes key s response := by
      intro key response hcomp
      rcases hh with ⟨c', past, -, hg⟩ | ⟨v, hd, hmove⟩ | rfl
      · exact hcomp.later (Does.evolves hg)
      · obtain ⟨d', m'⟩ := s
        obtain rfl : d' = y.db := hd
        exact hcomp.later (evolves_providerMove hmove)
      · exact hcomp.restart
    obtain ⟨hok, herror⟩ := h body hc
    refine ⟨fun a hr => ?_, herror⟩
    obtain ⟨response, ha, hresponse, hcomp⟩ := hok a hr
    exact ⟨response, ha, hresponse.imp_left (hkeeps _ _), hcomp.imp_right (hcompletes _ _)⟩

end Answers

section Runs

variable {cfg : Settings} {d : Database} {m : Memory} {c c' : ShopConfig}

theorem ReachesOwnKeys.answersOwn (h : ReachesOwnKeys cfg (Config.start d m) c) {t : ShopThread}
    (ht : t ∈ c.threads) : AnswersOwn t.call (t.state c.db c.mem) := by
  intro body _ hrec id hid o ho
  obtain ⟨id', hid', rfl⟩ := h.payloadsOwned t ht body.idempotencyKey hrec o ho
  rw [h.reaches.placed_eq ht hid hid']

theorem ReachesOwnKeys.ok (h : ReachesOwnKeys cfg (Config.start d m) c) :
    (answerCalls cfg d).Ok c := by
  have hown := System.Runs.also (P := fun b : ShopConfig => ∀ t ∈ b.threads,
    AnswersFit d t.call (t.state b.db b.mem)) (fun b hb t ht => ⟨answersOwn hb ht, keysFit hb⟩) h
  refine (Ok.start trivial).runs (valid_answerCalls cfg d) (fun b a _ ha => ?_) hown
  cases a with
  | call k => exact ⟨ha.1, fun _ _ _ => ⟨trivial, trivial⟩⟩
  | run i n => exact fun t ht => ⟨ha.2 t (List.mem_of_getElem? ht), fun _ => trivial⟩
  | fault i => exact fun t ht => ⟨ha.2 t (List.mem_of_getElem? ht), trivial⟩
  | kill i => exact trivial
  | restart => exact trivial
  | world v => exact trivial

/-- What a submission that has ended has answered. -/
theorem ReachesOwnKeys.answered (h : ReachesOwnKeys cfg (Config.start d m) c) {t : ShopThread}
    (ht : t ∈ c.threads) {body : CheckoutRequest} (hcall : t.call = .checkout body)
    {r : Except PyError Answer} (hr : t.result = some r) :
    Answered d body r (t.state c.db c.mem) :=
  h.ok.post ht hr body hcall

end Runs

end Sieshka
