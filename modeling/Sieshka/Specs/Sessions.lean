import Sieshka.Effects

/-!
# Sessions of the shop

What the specification of every call rests on: contracts that allow what calls
of the shop do, and the commit of such an effect at the end of a session.
-/

namespace Sieshka

open Transactions Contract
open Relation (ReflTransGen)

/-- A contract for calls of the shop: it allows what calls of the shop do, and
expects no more of the others than that. -/
structure IsShop (cfg : Settings) (K : ShopContract) : Prop where
  guar : ∀ c past s s', K.calls c → K.inv s.1 s.2 → Does cfg K.assume K.rely c past s s' →
    K.guar c past s s' ∧ K.inv s'.1 s'.2
  rely : ∀ c s s', K.rely c s s' → Evolves s s'

theorem IsShop.evolves {cfg : Settings} {K : ShopContract} (hK : IsShop cfg K) {c : Call}
    {s s' : State} (h : K.Since c s s') : Evolves s s' :=
  .of_reflTransGen (hK.rely c) h

/-- The shared state evolves across a commit of the call. -/
theorem IsShop.evolves_committed {cfg : Settings} {K : ShopContract} (hK : IsShop cfg K) {c : Call}
    {x y : CallAt} {s : State} {d' : Database} {ws : List Write}
    (hc : Commits cfg K.assume K.rely c x.past s ws d') (h : K.Committed c s.1 d' x y) :
    Evolves (x.db, x.mem) (y.db, y.mem) := by
  obtain ⟨-, -, m, h₁, h₂⟩ := h
  have hd : Evolves (s.1, m) (d', m) := Evolves.of_database (m := s.2) hc.evolves m
  exact (hK.evolves h₁).trans (hd.trans (hK.evolves h₂))

/-- The session has not written the row. -/
def Untouched (x : CallAt) (l : Lock) : Prop := l ∉ x.txn.writes.map Write.lock

theorem Untouched.order {x : CallAt} {id : Uuid} (h : Untouched x (.order id)) (d : Database) :
    (x.txn.view d).orders.find id = d.orders.find id :=
  orders.find_view_untouched h d

section Tools

variable {K : ShopContract} {c : Call} {x : CallAt}

theorem wp_uuid {orderId : String} {Q : Except PyError Uuid → CallAt → Prop}
    (hok : ∀ id, readUuid orderId = some id → Q (.ok id) x)
    (hno : readUuid orderId = none → ∀ e, Q (.error e) x) :
    K.wp c (ofExcept (uuid orderId)) Q x := by
  unfold uuid
  cases h : readUuid orderId with
  | none => exact hno h _
  | some id => exact hok id h

theorem wp_uuid4 {Q : Except PyError Uuid → CallAt → Prop}
    (h : ∀ s id, K.Later c x s → K.assume c (x.now s) → Q (.ok id) (x.now s)) :
    K.wp c uuid4 Q x :=
  fun s hs ha _ => h s _ hs ha

/-- A session that has written the same as another sees the same. -/
theorem view_congr {t t' : Txn Write Lock} (h : t'.writes = t.writes) (d : Database) :
    t'.view d = t.view d := by
  rw [Txn.view, Txn.view, h]

theorem view_products (t : Txn Write Lock) (d : Database) : (t.view d).products = d.products := by
  rw [Txn.view]
  generalize t.writes = ws
  induction ws generalizing d with
  | nil => rfl
  | cons w rest ih =>
      rw [List.foldl_cons, ih]
      cases w <;> rfl

/-- The commit of an effect of the call ends its session. -/
theorem wp_commit {α : Type} {cfg : Settings} (hK : IsShop cfg K) (hc : K.calls c) {a : α}
    {Q : Except PyError α → CallAt → Prop} (hx : x.txn.failed = false)
    (hcommit : ∀ s, K.Later c x s →
      Commits cfg K.assume K.rely c x.past s x.txn.writes (x.txn.view s.1))
    (hok : ∀ s y, K.Later c x s → K.assume c (x.now s) →
      K.Committed c s.1 (x.txn.view s.1) x y → Q (.ok a) y)
    (he : ∀ y, K.Struck c x y → ∀ s, K.Later c y s → K.assume c (y.now s) →
      Q (.error .dbapiError) (y.now s).closed) :
    K.wp c (Prog.commitSession >>= fun _ => .ret a)
      (fun r y => ∀ s, K.Later c y s → K.assume c (y.now s) → Q r (y.now s).closed) x :=
  wp_commit_close hx
    (fun s hs ha => hK.guar c x.past s _ hc hs.inv (.committed x.txn ha (hcommit s hs))) hok he

end Tools

end Sieshka
