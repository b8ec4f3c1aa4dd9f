import Sieshka.Properties.ZaloSignature
import Sieshka.Web.ZaloWebhook

/-!
# Revoked consent

A revocation takes the id off every order, and off the staff row that a lookup finds. The
lookup finds active rows only: a deactivated row keeps the id.
-/

namespace Sieshka

open Transactions MaxWebappAuth MessengerIds

namespace ZaloEvents

/-! ## The specification -/

/-- Of a staff row only the id may change, and only where it is the given one. -/
structure KeepsStaff (id : String) (before after : Account) : Prop where
  columns : after = { before with zaloUserId := after.zaloUserId }
  others : before.zaloUserId ≠ some id → after = before

/-- Of an order only the id may change, and only where it is the given one; what the trigger
on the table records is left aside. -/
structure KeepsOrder (id : String) (before after : PlacedOrder) : Prop where
  columns : after =
    { before with clientZaloUid := after.clientZaloUid, updatedAt := after.updatedAt }
  others : before.clientZaloUid ≠ some id → after = before

/-- The id is in no row, and nothing else has changed. -/
structure Erased (id : String) (t t' : Tables) : Prop where
  staff : ∀ account ∈ t'.staff.table.rows, account.zaloUserId ≠ some id
  orders : ∀ order ∈ t'.orders.rows, order.clientZaloUid ≠ some id
  staffKept : List.Forall₂ (KeepsStaff id) t.staff.table.rows t'.staff.table.rows
  ordersKept : List.Forall₂ (KeepsOrder id) t.orders.rows t'.orders.rows

/-- Nor has the time an order was updated at. -/
def SameTimes (t t' : Tables) : Prop :=
  t'.orders.rows.map PlacedOrder.updatedAt = t.orders.rows.map PlacedOrder.updatedAt

/-- An event that revokes the consent of a user. -/
structure Revokes (payload : Payload) (id : String) : Prop where
  event : payload.get "event" = some (.str revokeConsentEvent)
  userId : payload.get "userId" = some (.str (Text.ofString id))

/-- Only active staff rows have the id, and an empty id is in no row. -/
structure Erasable (id : String) (t : Tables) : Prop where
  staff : ∀ account ∈ t.staff.table.rows, account.zaloUserId = some id →
    account.active = true ∧ id ≠ ""
  orders : ∀ order ∈ t.orders.rows, order.clientZaloUid = some id → id ≠ ""

/-! ## The services -/

section Services

variable {S : Server} {t t' : Tables} {id : String}

/-- A staff row after its lookup by the id. -/
def unlinked (id : String) (account : Account) : Account :=
  if account.zaloUserId = some id ∧ account.active = true then
    { account with zaloUserId := none }
  else account

/-- An order after the id was cleared at a time. -/
def cleared (id : String) (now : DateTime) (order : PlacedOrder) : PlacedOrder :=
  if order.clientZaloUid = some id then
    { order with clientZaloUid := none, updatedAt := now }
  else order

theorem unlinked_of_ne {account : Account} (h : account.zaloUserId ≠ some id) :
    unlinked id account = account :=
  if_neg fun hcond => h hcond.1

theorem keepsStaff_unlinked (account : Account) : KeepsStaff id account (unlinked id account) where
  columns := by
    unfold unlinked
    split_ifs
    · rfl
    · rfl
  others := unlinked_of_ne

theorem keepsOrder_cleared {now : DateTime} (order : PlacedOrder) :
    KeepsOrder id order (cleared id now order) where
  columns := by
    unfold cleared
    split_ifs
    · rfl
    · rfl
  others h := if_neg h

theorem write_table {staff staff' : StaffTable} {row : Account}
    (h : staff.write row = .ok staff') : staff'.table = staff.table.put row := by
  unfold StaffTable.write at h
  split_ifs at h
  obtain rfl := Except.ok.inj h
  rfl

/-- An update of the id alone. -/
theorem rows_of_updateRow {account : Account} {found : Bool}
    (hmem : account ∈ t.staff.table.rows)
    (h : updateRow { zaloUserId := some none } account.id t = .ok (found, t')) :
    t'.orders = t.orders ∧
      t'.staff.table = t.staff.table.put { account with zaloUserId := none } := by
  have hfind : t.staff.table.find account.id = some account := Table.find_of_mem hmem
  have hset : StaffFields.set { zaloUserId := some none } account =
      some { account with zaloUserId := none } := rfl
  unfold updateRow at h
  rw [hfind] at h
  dsimp only at h
  rw [hset] at h
  dsimp only at h
  cases hwrite : t.staff.write { account with zaloUserId := none } with
  | error e =>
      rw [hwrite] at h
      cases h
  | ok staff =>
      rw [hwrite] at h
      obtain ⟨-, rfl⟩ := Prod.mk.inj (Except.ok.inj h)
      exact ⟨rfl, write_table hwrite⟩

theorem tables_of_getById {staffId : Uuid} {o : Option Account}
    (h : Returns (getById S staffId) t o t') : t' = t := by
  rw [getById, returns_execute] at h
  exact (Prod.mk.inj (Except.ok.inj h.2)).2.symm

/-- The update leaves the orders alone. -/
theorem rows_of_update {account : Account} {o : Option Account}
    (hmem : account ∈ t.staff.table.rows)
    (h : Returns (update S account.id { zaloUserId := some none }) t o t') :
    t'.orders = t.orders ∧
      t'.staff.table = t.staff.table.put { account with zaloUserId := none } := by
  rw [update, if_neg (by decide)] at h
  simp only [returns_bind, returns_orConflict, returns_execute] at h
  obtain ⟨found, t₁, ⟨-, hupdate⟩, hread⟩ := h
  have hrows := rows_of_updateRow hmem hupdate
  cases found with
  | false =>
      obtain ⟨-, rfl⟩ := returns_pure.mp hread
      exact hrows
  | true =>
      obtain rfl := tables_of_getById hread
      exact hrows

/-- The row that a lookup finds is the only active row with the id. -/
theorem rows_of_found {account : Account}
    (h : (t.staff.table.rows.find? fun account =>
      decide (account.zaloUserId = some id) && account.active) = some account) :
    account ∈ t.staff.table.rows ∧
      (t.staff.table.put { account with zaloUserId := none }).rows =
        t.staff.table.rows.map (unlinked id) := by
  have hmem := List.mem_of_find?_eq_some h
  have hcond := List.find?_some h
  simp only [Bool.and_eq_true, decide_eq_true_eq] at hcond
  have hunlinked : unlinked id account = { account with zaloUserId := none } := if_pos hcond
  refine ⟨hmem, ?_⟩
  rw [← hunlinked]
  apply Table.rows_put_eq_map hmem
  · rw [hunlinked]
    rfl
  · intro other hother hne
    apply unlinked_of_ne
    intro hid
    exact hne (t.staff.zaloUserIds.eq hother hmem hid hcond.1)

theorem rows_of_notFound
    (h : (t.staff.table.rows.find? fun account =>
      decide (account.zaloUserId = some id) && account.active) = none) :
    t.staff.table.rows = t.staff.table.rows.map (unlinked id) := by
  have hnone := List.find?_eq_none.mp h
  have hsame : ∀ account ∈ t.staff.table.rows, unlinked id account = account := by
    intro account hmem
    refine if_neg fun hcond => hnone account hmem ?_
    simpa using hcond
  rw [List.map_congr_left hsame, List.map_id']

theorem rows_of_clearClientZaloUid {n : ℕ} (h : Returns (clearClientZaloUid S id) t n t') :
    t'.staff = t.staff ∧ t'.orders.rows = t.orders.rows.map (cleared id S.now) := by
  rw [clearClientZaloUid, returns_execute] at h
  obtain ⟨-, rfl⟩ := Prod.mk.inj (Except.ok.inj h.2)
  refine ⟨rfl, ?_⟩
  apply List.map_congr_left
  intro order _
  simp [cleared]

end Services

/-! ## The handler -/

section Handler

variable {printable : CodePoint → Bool} {sha256 : String → BitVec 256} {apiKey : String}
  {S : Server} {t t' : Tables} {id : String} {payload : Payload}

@[simp] theorem returns_ofPython {α : Type} {result : Except PyError α} {a : α} :
    Returns (ofPython result) t a t' ↔ result = .ok a ∧ t' = t := by
  cases result with
  | ok b => simp [ofPython, eq_comm]
  | error e => simp [ofPython]

theorem encode_ofString (id : String) : encode (Text.ofString id) = .ok id := by
  have hchar : ∀ c ∈ id.toList, ((fun c : CodePoint => Char.ofNat c.val) ∘ codePoint) c = c := by
    intro c _
    rw [Function.comp_apply, val_codePoint, Char.ofNat_toNat]
  rw [encode_of_encodable (encodable_ofString id), Text.ofString, List.map_map,
    List.map_congr_left hchar, List.map_id', String.ofList_toList]

theorem rows_of_revokeConsent (h : Returns (revokeConsent S (Text.ofString id)) t () t') :
    t'.staff.table.rows = t.staff.table.rows.map (unlinked id) ∧
      t'.orders.rows = t.orders.rows.map (cleared id S.now) := by
  simp only [revokeConsent, encode_ofString, returns_bind, returns_ofPython, findByZaloUserId,
    findOne, returns_execute] at h
  obtain ⟨_, _, ⟨hid, rfl⟩, found, t₁, ⟨-, hfound⟩, hrest⟩ := h
  obtain ⟨hlookup, rfl⟩ := Prod.mk.inj (Except.ok.inj hfound)
  obtain rfl := Except.ok.inj hid
  cases found with
  | none =>
      simp only [returns_bind, returns_pure] at hrest
      obtain ⟨n, t₂, hclear, -, rfl⟩ := hrest
      obtain ⟨hstaff, horders⟩ := rows_of_clearClientZaloUid hclear
      rw [hstaff]
      exact ⟨rows_of_notFound hlookup, horders⟩
  | some account =>
      simp only [returns_bind, returns_pure] at hrest
      obtain ⟨_, t₂, hupdate, n, t₃, hclear, -, rfl⟩ := hrest
      obtain ⟨hmem, hrows⟩ := rows_of_found hlookup
      obtain ⟨hsame, htable⟩ := rows_of_update hmem hupdate
      obtain ⟨hstaff, horders⟩ := rows_of_clearClientZaloUid hclear
      rw [hstaff, htable, horders, hsame]
      exact ⟨hrows, rfl⟩

theorem Revokes.isRevocation (h : Revokes payload id) : isRevocation payload = true := by
  simp [ZaloEvents.isRevocation, h.event]

theorem Revokes.zaloUserId (h : Revokes payload id) :
    zaloUserId payload = if id = "" then none else some (Text.ofString id) := by
  have hempty : Text.ofString id = [] ↔ id = "" := by
    rw [Text.ofString, List.map_eq_nil_iff, String.toList_eq_nil_iff]
  simp [ZaloEvents.zaloUserId, h.userId, hempty]

theorem authenticated_of_ok {signature : Option Text} {o : Option Payload}
    (h : authenticated printable sha256 apiKey signature (.obj payload) = .ok o) :
    o = none ∨ o = some payload := by
  unfold authenticated at h
  split_ifs at h
  · exact Or.inl (Except.ok.inj h).symm
  · dsimp only at h
    rcases hverify : verifyZaloSignature printable sha256 payload (signature.getD []) apiKey
      with e | ok
    · rw [hverify] at h
      cases h
    · rw [hverify] at h
      cases ok with
      | false => exact Or.inl (Except.ok.inj h).symm
      | true => exact Or.inr (Except.ok.inj h).symm

/-- Once a revocation is answered with 200, its id is taken off, unless it is empty. -/
theorem rows_of_answered {signature : Option Text} {response : JsonResponse}
    (hrevokes : Revokes payload id)
    (h : Returns (zaloEventsWebhook printable sha256 apiKey S signature (some (.obj payload)))
      t response t') (hstatus : response.statusCode = 200) :
    (id = "" ∧ t' = t) ∨ (id ≠ "" ∧
      t'.staff.table.rows = t.staff.table.rows.map (unlinked id) ∧
      t'.orders.rows = t.orders.rows.map (cleared id S.now)) := by
  simp only [zaloEventsWebhook, returns_bind, returns_ofPython] at h
  obtain ⟨o, _, ⟨hauthentic, rfl⟩, hrest⟩ := h
  rcases authenticated_of_ok hauthentic with rfl | rfl
  · obtain ⟨rfl, -⟩ := returns_pure.mp hrest
    cases hstatus
  · dsimp only at hrest
    rw [hrevokes.isRevocation, if_pos rfl, hrevokes.zaloUserId] at hrest
    by_cases hid : id = ""
    · rw [if_pos hid] at hrest
      exact Or.inl ⟨hid, (returns_pure.mp hrest).2⟩
    · rw [if_neg hid] at hrest
      simp only [returns_bind, returns_pure] at hrest
      obtain ⟨_, t₁, hrevoke, -, rfl⟩ := hrest
      exact Or.inr ⟨hid, rows_of_revokeConsent hrevoke⟩

/-! ## What is erased -/

theorem unlinked_ne_iff {account : Account} :
    (unlinked id account).zaloUserId ≠ some id ↔
      (account.zaloUserId = some id → account.active = true) := by
  unfold unlinked
  split_ifs with h
  · simp [h.2]
  · constructor
    · intro hne hid
      exact absurd hid hne
    · intro hactive hid
      exact h ⟨hid, hactive hid⟩

theorem cleared_ne {now : DateTime} (order : PlacedOrder) :
    (cleared id now order).clientZaloUid ≠ some id := by
  unfold cleared
  split_ifs with h
  · exact nofun
  · exact h

theorem updatedAt_cleared_iff {now : DateTime} {order : PlacedOrder} :
    (cleared id now order).updatedAt = order.updatedAt ↔
      (order.clientZaloUid = some id → order.updatedAt = now) := by
  unfold cleared
  split_ifs with h
  · simp [h, eq_comm]
  · simp [h]

theorem erased_of_rows (hstaff : t'.staff.table.rows = t.staff.table.rows.map (unlinked id))
    (horders : t'.orders.rows = t.orders.rows.map (cleared id S.now)) :
    Erased id t t' ↔ ∀ account ∈ t.staff.table.rows, account.zaloUserId = some id →
      account.active = true := by
  constructor
  · intro h account hmem
    have hfree := h.staff (unlinked id account) (by
      rw [hstaff]
      exact List.mem_map_of_mem hmem)
    exact unlinked_ne_iff.mp hfree
  · intro h
    constructor
    · rw [hstaff, List.forall_mem_map]
      intro account hmem
      exact unlinked_ne_iff.mpr (h account hmem)
    · rw [horders, List.forall_mem_map]
      intro order _
      exact cleared_ne order
    · rw [hstaff, List.forall₂_map_right_iff, List.forall₂_same]
      intro account _
      exact keepsStaff_unlinked account
    · rw [horders, List.forall₂_map_right_iff, List.forall₂_same]
      intro order _
      exact keepsOrder_cleared order

/-- Nothing is erased where nothing has changed. -/
theorem erased_self_iff : Erased id t t ↔
    (∀ account ∈ t.staff.table.rows, account.zaloUserId ≠ some id) ∧
      ∀ order ∈ t.orders.rows, order.clientZaloUid ≠ some id := by
  constructor
  · intro h
    exact ⟨h.staff, h.orders⟩
  · intro h
    constructor
    · exact h.1
    · exact h.2
    · rw [List.forall₂_same]
      intro account _
      exact ⟨rfl, fun _ => rfl⟩
    · rw [List.forall₂_same]
      intro order _
      exact ⟨rfl, fun _ => rfl⟩

theorem sameTimes_iff (horders : t'.orders.rows = t.orders.rows.map (cleared id S.now)) :
    SameTimes t t' ↔ ∀ order ∈ t.orders.rows, order.clientZaloUid = some id →
      order.updatedAt = S.now := by
  rw [SameTimes, horders, List.map_map, List.map_inj_left]
  simp only [Function.comp_apply, updatedAt_cleared_iff]

/-- After a revocation was answered with 200, its id is in no row and nothing else has changed
if and only if no deactivated staff row had it, and an empty id was in no row. The time of an
update stays as it is if no order had the id, or was updated at this very time. -/
theorem erased_iff {signature : Option Text} {response : JsonResponse}
    (hrevokes : Revokes payload id)
    (h : Returns (zaloEventsWebhook printable sha256 apiKey S signature (some (.obj payload)))
      t response t') (hstatus : response.statusCode = 200) :
    (Erased id t t' ↔ Erasable id t) ∧
      (Erased id t t' ∧ SameTimes t t' ↔ Erasable id t ∧
        ∀ order ∈ t.orders.rows, order.clientZaloUid = some id → order.updatedAt = S.now) := by
  rcases rows_of_answered hrevokes h hstatus with ⟨rfl, rfl⟩ | ⟨hid, hstaff, horders⟩
  · have herased : Erased "" t' t' ↔ Erasable "" t' := by
      rw [erased_self_iff]
      constructor
      · intro hnone
        constructor
        · intro account hmem hcarries
          exact absurd hcarries (hnone.1 account hmem)
        · intro order hmem hcarries
          exact absurd hcarries (hnone.2 order hmem)
      · intro hnone
        constructor
        · intro account hmem hcarries
          exact (hnone.staff account hmem hcarries).2 rfl
        · intro order hmem hcarries
          exact hnone.orders order hmem hcarries rfl
    refine ⟨herased, ?_⟩
    rw [herased, SameTimes, and_congr_right_iff]
    intro hnone
    refine iff_of_true rfl ?_
    intro order hmem hcarries
    exact absurd rfl (hnone.orders order hmem hcarries)
  · have herased : Erased id t t' ↔ Erasable id t := by
      rw [erased_of_rows hstaff horders]
      constructor
      · intro hactive
        constructor
        · intro account hmem hcarries
          exact ⟨hactive account hmem hcarries, hid⟩
        · intro order _ _
          exact hid
      · intro hactive account hmem hcarries
        exact (hactive.staff account hmem hcarries).1
    rw [herased, sameTimes_iff horders]
    exact ⟨Iff.rfl, Iff.rfl⟩

end Handler

/-! ## What is answered -/

section Answers

variable {S : Server} {id : String}

/-- The id of a row can always be taken off. -/
theorem write_unlinked {staff : StaffTable} {account : Account}
    (hmem : account ∈ staff.table.rows) :
    ∃ staff', staff.write { account with zaloUserId := none } = .ok staff' := by
  unfold StaffTable.write
  rw [dif_pos]
  · exact ⟨_, rfl⟩
  · refine ⟨staff.maxUserIds.canTake hmem rfl rfl, ?_, Table.canTake_none rfl⟩
    exact staff.telegramUserIds.canTake hmem rfl rfl

theorem update_returns (hrefuses : ∀ statement, S.refuses statement = none) {t : Tables}
    {account : Account} (hmem : account ∈ t.staff.table.rows) :
    ∃ o t', Returns (update S account.id { zaloUserId := some none }) t o t' := by
  obtain ⟨staff, hwrite⟩ := write_unlinked hmem
  have hfind : t.staff.table.find account.id = some account := Table.find_of_mem hmem
  have hupdate : updateRow { zaloUserId := some none } account.id t =
      .ok (true, { t with staff }) := by
    unfold updateRow
    rw [hfind]
    dsimp only
    have hset : StaffFields.set { zaloUserId := some none } account =
        some { account with zaloUserId := none } := rfl
    rw [hset]
    dsimp only
    rw [hwrite]
    rfl
  refine ⟨staff.table.find account.id, { t with staff }, ?_⟩
  rw [update, if_neg (by decide)]
  simp only [returns_bind, returns_orConflict, returns_execute]
  refine ⟨true, { t with staff }, ⟨hrefuses _, hupdate⟩, ?_⟩
  rw [if_pos rfl, getById, returns_execute]
  exact ⟨hrefuses _, rfl⟩

theorem revokeConsent_returns (hrefuses : ∀ statement, S.refuses statement = none)
    (t : Tables) : ∃ t', Returns (revokeConsent S (Text.ofString id)) t () t' := by
  have hclear : ∀ t : Tables, ∃ n t', Returns (clearClientZaloUid S id) t n t' := by
    intro t
    simp only [clearClientZaloUid, returns_execute]
    exact ⟨_, _, hrefuses _, rfl⟩
  simp only [revokeConsent, encode_ofString, returns_bind, returns_ofPython, findByZaloUserId,
    findOne, returns_execute]
  cases hfound : t.staff.table.rows.find? fun account =>
      decide (account.zaloUserId = some id) && account.active with
  | none =>
      obtain ⟨n, t', hreturns⟩ := hclear t
      refine ⟨t', id, t, ⟨rfl, rfl⟩, none, t, ⟨hrefuses _, by rw [hfound]⟩, ?_⟩
      simp only [returns_bind, returns_pure]
      exact ⟨n, t', hreturns, trivial, rfl⟩
  | some account =>
      obtain ⟨o, t₁, hupdate⟩ := update_returns hrefuses (rows_of_found hfound).1
      obtain ⟨n, t', hreturns⟩ := hclear t₁
      refine ⟨t', id, t, ⟨rfl, rfl⟩, some account, t, ⟨hrefuses _, by rw [hfound]⟩, ?_⟩
      simp only [returns_bind, returns_pure]
      exact ⟨o, t₁, hupdate, n, t', hreturns, trivial, rfl⟩

/-- A correctly signed revocation is answered with 200 unless a statement is refused. -/
theorem revocation_answered {printable : CodePoint → Bool} {sha256 : String → BitVec 256}
    {apiKey : String} {payload : Payload} {signature : Text}
    (hrefuses : ∀ statement, S.refuses statement = none) (hkey : apiKey ≠ "")
    (hsignature : signature ≠ [])
    (hverify : verifyZaloSignature printable sha256 payload signature apiKey = .ok true)
    (hrevokes : Revokes payload id) (t : Tables) :
    ∃ t', Returns (zaloEventsWebhook printable sha256 apiKey S (some signature)
      (some (.obj payload))) t { ok := true } t' := by
  have hauthentic : authenticated printable sha256 apiKey (some signature) (.obj payload) =
      .ok (some payload) := by
    unfold authenticated
    rw [if_neg (by simp [hkey, hsignature])]
    simp only [Option.getD_some, hverify]
    rfl
  simp only [zaloEventsWebhook, returns_bind, returns_ofPython]
  by_cases hid : id = ""
  · refine ⟨t, some payload, t, ⟨hauthentic, rfl⟩, ?_⟩
    simp only [hrevokes.isRevocation, hrevokes.zaloUserId, if_pos hid]
    exact returns_pure.mpr ⟨rfl, rfl⟩
  · have hanswer : ∃ t', Returns (revokeConsent S (Text.ofString id)) t () t' :=
      revokeConsent_returns hrefuses t
    obtain ⟨t', hrevoked⟩ := hanswer
    refine ⟨t', some payload, t, ⟨hauthentic, rfl⟩, ?_⟩
    simp only [hrevokes.isRevocation, hrevokes.zaloUserId, if_neg hid, if_true, returns_bind,
      returns_pure]
    exact ⟨(), t', hrevoked, trivial, rfl⟩

end Answers

/-! ## A courier who has left -/

/-- A server that refuses nothing. -/
def quietServer : Server where
  refuses _ := none
  now := ⟨2026, 8, 13, 12, 0, 0, 0, by decide⟩

def noTables : Tables where
  staff := {
    table := .empty
    maxUserIds := Table.uniqueColumn_empty
    telegramUserIds := Table.uniqueColumn_empty
    zaloUserIds := Table.uniqueColumn_empty }
  orders := .empty

/-- A courier is created. -/
def hireCourier : Service Unit := do
  let _ ← create quietServer 1 "Courier" .courier none none (some "zalo-uid-1")

/-- The courier is deactivated. -/
def dismissCourier : Service Unit := do
  let _ ← update quietServer 1 { active := some (some false) }

/-- The courier after the edits. -/
def courier (active : Bool) : Account where
  id := 1
  role := .courier
  maxUserId := none
  zaloUserId := some "zalo-uid-1"
  active := active
  name := "Courier"
  telegramUserId := none
  createdAt := quietServer.now

/-- The event of the courier. -/
def courierEvent : Payload :=
  documentedEvent revokeConsentEvent (Text.ofString "app-1") (Text.ofString "zalo-uid-1")
    1670553442564

/-- The digest of the text that is hashed of the event under the key `test-api-key`. -/
def courierDigest : BitVec 256 :=
  0xad0bc17ee29653e2a4f5196f79880ddcfeffa6fc182b2910bb1e073e1860f963#256

/-- The signed event is posted. -/
def postEvent : Service JsonResponse :=
  zaloEventsWebhook (fun _ => false) (fun _ => courierDigest) "test-api-key" quietServer
    (some (hexdigest courierDigest)) (some (.obj courierEvent))

theorem courierEvent_revokes : Revokes courierEvent "zalo-uid-1" where
  event := rfl
  userId := rfl

theorem postEvent_returns (t : Tables) : ∃ t', Returns postEvent t { ok := true } t' := by
  have haccepted : Accepted (fun _ => false) courierEvent :=
    documentedEvent_accepted _ (encodable_ofString "user.revoke.consent")
      (encodable_ofString "app-1") (encodable_ofString "zalo-uid-1") (by decide)
  apply revocation_answered (fun _ => rfl) (by decide) _ _ courierEvent_revokes
  · simp [hexdigest, hexDigits]
  · exact (haccepted "test-api-key").2 fun _ => courierDigest

theorem hired : ∃ t, Returns hireCourier noTables () t ∧
    t.staff.table.rows = [courier true] ∧ t.orders.rows = [] :=
  ⟨(outcome hireCourier noTables).2, rfl, rfl, rfl⟩

theorem hired_courier_erased : ∃ t t', Returns hireCourier noTables () t ∧
    Returns postEvent t { ok := true } t' ∧ Erased "zalo-uid-1" t t' := by
  obtain ⟨t, hhired, hstaff, horders⟩ := hired
  obtain ⟨t', hposted⟩ := postEvent_returns t
  refine ⟨t, t', hhired, hposted, (erased_iff courierEvent_revokes hposted rfl).1.mpr ?_⟩
  constructor
  · rw [hstaff]
    simp [courier]
  · simp [horders]

theorem dismissed : ∃ t t', Returns hireCourier noTables () t ∧ Returns dismissCourier t () t' ∧
    t'.staff.table.rows = [courier false] :=
  ⟨(outcome hireCourier noTables).2,
    (outcome dismissCourier (outcome hireCourier noTables).2).2, rfl, rfl, rfl⟩

theorem dismissed_courier_keeps_id : ∃ t t' t'', Returns hireCourier noTables () t ∧
    Returns dismissCourier t () t' ∧ Returns postEvent t' { ok := true } t'' ∧
    ¬ Erased "zalo-uid-1" t' t'' := by
  obtain ⟨t, t', hhired, hdismissed, hstaff⟩ := dismissed
  obtain ⟨t'', hposted⟩ := postEvent_returns t'
  refine ⟨t, t', t'', hhired, hdismissed, hposted, ?_⟩
  rcases rows_of_answered courierEvent_revokes hposted rfl with ⟨hid, -⟩ | ⟨-, hrows, horders⟩
  · exact absurd hid (by decide)
  · rw [erased_of_rows hrows horders, hstaff]
    simp [courier]

end ZaloEvents

end Sieshka
