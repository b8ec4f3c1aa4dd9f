import Sieshka.Database
import Sieshka.Python.DateTime
import Sieshka.Transactions.Columns

/-!
# Messenger ids

`StaffService`, as far as staff rows are looked up by a Zalo user id, created and updated, and
`OrderService.clear_client_zalo_uid`, over the tables `staff` and `orders` with all their
columns.

## Implementation notes

A statement is committed with its session. What the database and its driver may refuse beside
the constraints (a value no column holds, a lost connection) is a parameter; a refused
statement changes nothing. An update of an order sets `updated_at`, which is what the trigger
on the table does. The log is left out.
-/

namespace Sieshka

open Transactions

namespace MessengerIds

/-- A row of `staff`. -/
structure Account extends StaffMember where
  name : String
  telegramUserId : Option Int
  createdAt : DateTime
deriving DecidableEq

def Account.key (account : Account) : Uuid := account.id

/-- A row of `orders`. -/
structure PlacedOrder extends Order where
  paymentId : Option String
  createdAt : DateTime
  updatedAt : DateTime

def PlacedOrder.key (order : PlacedOrder) : Uuid := order.id

/-- The table `staff` with its unique indexes. -/
structure StaffTable where
  table : Table Account.key
  maxUserIds : table.UniqueColumn fun account => account.maxUserId
  telegramUserIds : table.UniqueColumn Account.telegramUserId
  zaloUserIds : table.UniqueColumn fun account => account.zaloUserId

structure Tables where
  staff : StaffTable
  orders : Table PlacedOrder.key

/-- A row version is written unless another row has one of its ids. -/
def StaffTable.write (staff : StaffTable) (row : Account) : Except PyError StaffTable :=
  if h : staff.table.canTake (fun account => account.maxUserId) row = true ∧
      staff.table.canTake Account.telegramUserId row = true ∧
      staff.table.canTake (fun account => account.zaloUserId) row = true then
    .ok {
      table := staff.table.put row
      maxUserIds := staff.maxUserIds.put h.1
      telegramUserIds := staff.telegramUserIds.put h.2.1
      zaloUserIds := staff.zaloUserIds.put h.2.2 }
  else .error .integrityError

/-! ## Sessions -/

/-- What a service raises. -/
inductive ServiceError
  | staffConflictError (message : String)
  | other (error : PyError)
deriving DecidableEq

/-- The calls of the services: what is committed stays when a later statement is refused. -/
abbrev Service := ExceptT ServiceError (StateM Tables)

inductive Statement
  | staffByZaloUserId
  | staffById
  | insertStaff
  | updateStaff
  | clearOrders
deriving DecidableEq

structure Server where
  /-- what the database or its driver refuses -/
  refuses : Statement → Option PyError
  /-- `NOW()` -/
  now : DateTime

section

variable (S : Server) {α : Type}

/-- A statement, committed. -/
def execute (statement : Statement) (effect : Tables → Except PyError (α × Tables)) :
    Service α := fun t =>
  match S.refuses statement with
  | some e => (.error (.other e), t)
  | none =>
      match effect t with
      | .error e => (.error (.other e), t)
      | .ok (a, t') => (.ok a, t')

/-- `except IntegrityError`. -/
def asConflict (e : ServiceError) : ServiceError :=
  if e = .other .integrityError then
    .staffConflictError ("max_user_id, telegram_user_id or zalo_user_id already " ++
      "assigned to another staff row")
  else e

def orConflict (statement : Service α) : Service α :=
  tryCatch statement fun e => throw (asConflict e)

/-! ## `StaffService` -/

/-- `_find_one`. -/
def findOne (statement : Statement) (condition : Account → Bool) : Service (Option Account) :=
  execute S statement fun t =>
    .ok (t.staff.table.rows.find? fun account => condition account && account.active, t)

/-- `find_by_zalo_user_id`. -/
def findByZaloUserId (zaloUserId : String) : Service (Option Account) :=
  findOne S .staffByZaloUserId fun account => account.zaloUserId = some zaloUserId

/-- `get_by_id`. -/
def getById (staffId : Uuid) : Service (Option Account) :=
  execute S .staffById fun t => .ok (t.staff.table.find staffId, t)

/-- `create`, with the id that `uuid4` draws. -/
def create (staffId : Uuid) (name : String) (role : StaffRole)
    (maxUserId telegramUserId : Option Int) (zaloUserId : Option String) :
    Service Account := do
  orConflict (execute S .insertStaff fun t => do
    let row : Account :=
      { id := staffId, role, maxUserId, zaloUserId, active := true, name, telegramUserId,
        createdAt := S.now }
    if (t.staff.table.find staffId).isSome then throw .integrityError
    let staff ← t.staff.write row
    return ((), { t with staff }))
  match ← getById S staffId with
  | none => throw (.other .assertionError)
  | some created => return created

/-- The updatable fields of a payload: a field that is there may be `None`. -/
structure StaffFields where
  name : Option (Option String) := none
  role : Option (Option StaffRole) := none
  maxUserId : Option (Option Int) := none
  telegramUserId : Option (Option Int) := none
  zaloUserId : Option (Option String) := none
  active : Option (Option Bool) := none
deriving DecidableEq

/-- `SET`: three columns are not null. -/
def StaffFields.set (fields : StaffFields) (row : Account) : Option Account := do
  let name ← fields.name.getD (some row.name)
  let role ← fields.role.getD (some row.role)
  let active ← fields.active.getD (some row.active)
  return { row with
    name, role, active
    maxUserId := fields.maxUserId.getD row.maxUserId
    telegramUserId := fields.telegramUserId.getD row.telegramUserId
    zaloUserId := fields.zaloUserId.getD row.zaloUserId }

/-- `UPDATE staff SET ... WHERE id = :id`: whether there is a row. -/
def updateRow (fields : StaffFields) (staffId : Uuid) (t : Tables) :
    Except PyError (Bool × Tables) :=
  match t.staff.table.find staffId with
  | none => .ok (false, t)
  | some row =>
      match fields.set row with
      | none => .error .integrityError
      | some row => do
          let staff ← t.staff.write row
          return (true, { t with staff })

/-- `update`. -/
def update (staffId : Uuid) (fields : StaffFields) : Service (Option Account) := do
  if fields = {} then getById S staffId
  else do
    let found ← orConflict (execute S .updateStaff (updateRow fields staffId))
    if found then getById S staffId else return none

/-! ## `OrderService` -/

/-- `clear_client_zalo_uid`. -/
def clearClientZaloUid (zaloUserId : String) : Service ℕ :=
  execute S .clearOrders fun t =>
    let carries (order : PlacedOrder) : Bool := order.clientZaloUid = some zaloUserId
    .ok (t.orders.rows.countP carries, { t with
      orders := t.orders.updateWhere carries
        (fun order => { order with clientZaloUid := none, updatedAt := S.now }) fun _ => rfl })

end

/-! ## What a call returns -/

/-- What comes of a call, and the tables it leaves. -/
def outcome {α : Type} (call : Service α) (t : Tables) : Except ServiceError α × Tables := call t

/-- From `t` the call returns `a`, and leaves `t'`. -/
def Returns {α : Type} (call : Service α) (t : Tables) (a : α) (t' : Tables) : Prop :=
  outcome call t = (.ok a, t')

section

variable {S : Server} {α β : Type} {t t' : Tables} {a : α} {b : β}

theorem outcome_bind (call : Service α) (f : α → Service β) (t : Tables) :
    outcome (call >>= f) t = match outcome call t with
      | (.ok a, t₁) => outcome (f a) t₁
      | (.error e, t₁) => (.error e, t₁) := by
  unfold outcome
  rcases h : call t with ⟨e | a, t₁⟩
  · simp only [bind, ExceptT.bind, ExceptT.mk, ExceptT.bindCont, StateT.bind, h]
    rfl
  · simp only [bind, ExceptT.bind, ExceptT.mk, ExceptT.bindCont, StateT.bind, h]

theorem outcome_orConflict (statement : Service α) (t : Tables) :
    outcome (orConflict statement) t = match outcome statement t with
      | (.ok a, t₁) => (.ok a, t₁)
      | (.error e, t₁) => (.error (asConflict e), t₁) := by
  unfold outcome
  rcases h : statement t with ⟨e | a, t₁⟩
  · simp only [orConflict, tryCatch, tryCatchThe, MonadExceptOf.tryCatch, ExceptT.tryCatch,
      ExceptT.mk, StateT.bind, bind, h]
    rfl
  · simp only [orConflict, tryCatch, tryCatchThe, MonadExceptOf.tryCatch, ExceptT.tryCatch,
      ExceptT.mk, StateT.bind, bind, h]
    rfl

@[simp] theorem returns_pure {c : α} : Returns (pure c) t a t' ↔ a = c ∧ t' = t := by
  have hpure : outcome (pure c) t = (.ok c, t) := rfl
  rw [Returns, hpure]
  simp [eq_comm]

@[simp] theorem returns_throw {e : ServiceError} : ¬ Returns (throw e : Service α) t a t' := by
  have hthrow : outcome (throw e : Service α) t = (.error e, t) := rfl
  rw [Returns, hthrow]
  simp

@[simp] theorem returns_bind {call : Service α} {f : α → Service β} :
    Returns (call >>= f) t b t' ↔ ∃ a t₁, Returns call t a t₁ ∧ Returns (f a) t₁ b t' := by
  simp only [Returns, outcome_bind]
  rcases outcome call t with ⟨e | a, t₁⟩
  · simp
  · simp

/-- A statement that returns was not refused. -/
@[simp] theorem returns_execute {statement : Statement}
    {effect : Tables → Except PyError (α × Tables)} :
    Returns (execute S statement effect) t a t' ↔
      S.refuses statement = none ∧ effect t = .ok (a, t') := by
  unfold Returns outcome execute
  cases S.refuses statement with
  | some e => simp
  | none =>
      rcases effect t with e | ⟨c, t₁⟩
      · simp
      · simp

/-- A handler that raises changes no return. -/
@[simp] theorem returns_orConflict {statement : Service α} :
    Returns (orConflict statement) t a t' ↔ Returns statement t a t' := by
  rw [Returns, Returns, outcome_orConflict]
  rcases outcome statement t with ⟨e | c, t₁⟩
  · simp
  · simp

end

end MessengerIds

end Sieshka
