import Sieshka.Services.Checkout
import Sieshka.Transactions.Soundness

/-!
# Customers found or created at once

Any number of calls of `find_or_create_by_phone` on one `customers` table, where
each of them stands between its statements, and what one step of it does.
-/

namespace Sieshka

open Transactions

/-- A call of `CustomerService.find_or_create_by_phone`. -/
structure CustomerCall where
  name : String
  phone : String
deriving DecidableEq

/-- The canonical number of a call whose phone has one. -/
def CustomerCall.number (k : CustomerCall) : Option String := (normalizePhone k.phone).toOption

/-- Any number of calls on one `customers` table. -/
def customerCalls : System CustomerCall Database Write Lock Memory PyError Customer where
  body k := findOrCreateByPhone k.name k.phone
  restart := restart
  Move := Empty
  move v _ := nomatch v

abbrev CustomerConfig := Config CustomerCall Database Write Lock Memory PyError Customer

abbrev CustomerThread := Thread CustomerCall Database Write Lock Memory PyError Customer

/-! ## Where a call stands -/

/-- The places between the statements of a call. -/
inductive Place
  | looking
  | missed
  | inserting (id : Uuid)
  | inserted (id : Uuid)
  | leaving (row : Customer)
  | returned (row : Customer)

/-- The row a call inserts for the number `p`. -/
def CustomerCall.created (k : CustomerCall) (p : String) (id : Uuid) : Customer :=
  { id, name := varchar 255 k.name, phone := p }

namespace Place

/-- What is left of the program of the call. -/
def prog (k : CustomerCall) (p : String) : Place → Async Customer
  | looking => Prog.withSession do
      match ← customers.find p with
      | some existing => return existing
      | none => do
          let id ← uuid4
          customers.insert (fun _ => varcharFits 255 k.name) (k.created p id)
          Prog.commitSession
          return k.created p id
  | missed => Prog.withSession do
      let id ← uuid4
      customers.insert (fun _ => varcharFits 255 k.name) (k.created p id)
      Prog.commitSession
      return k.created p id
  | inserting id => Prog.withSession do
      customers.insert (fun _ => varcharFits 255 k.name) (k.created p id)
      Prog.commitSession
      return k.created p id
  | inserted id => Prog.withSession do
      Prog.commitSession
      return k.created p id
  | leaving row => .close (.ret row)
  | returned row => .ret row

/-- The transaction of the call. -/
def txn (k : CustomerCall) (p : String) : Place → Txn Write Lock
  | inserted id => { writes := [.customer (k.created p id)], held := [.customer p] }
  | _ => {}

/-- What is committed about the number of the call. -/
def Holds (k : CustomerCall) (p : String) (d : Database) : Place → Prop
  | looking => True
  | missed => d.customers.find p = none ∧ varcharFits 255 k.name = true
  | inserting _ => d.customers.find p = none ∧ varcharFits 255 k.name = true
  | inserted _ => d.customers.find p = none
  | leaving row => d.customers.find p = some row
  | returned row => d.customers.find p = some row

/-- How many steps the call has before it. -/
def rank : Place → Nat
  | looking => 5
  | missed => 4
  | inserting _ => 3
  | inserted _ => 2
  | leaving _ => 1
  | returned _ => 0

/-- The call has looked its number up in vain and has not committed. -/
def waiting : Place → Bool
  | missed => true
  | inserting _ => true
  | inserted _ => true
  | _ => false

variable {k : CustomerCall} {p : String} {d d' : Database} {pos : Place}

/-- What is committed about a number stays while its row does. -/
theorem Holds.congr (h : pos.Holds k p d) (hd : d'.customers.find p = d.customers.find p) :
    pos.Holds k p d' := by
  cases pos <;> simp only [Holds, hd] at h ⊢ <;> exact h

/-- A row that is there says nothing against a call that does not wait. -/
theorem Holds.mono (h : pos.Holds k p d) (hw : pos.waiting = false)
    (hd : ∀ row, d.customers.find p = some row → d'.customers.find p = some row) :
    pos.Holds k p d' := by
  cases pos with
  | looking => trivial
  | leaving row => exact hd row h
  | returned row => exact hd row h
  | missed => cases hw
  | inserting id => cases hw
  | inserted id => cases hw

end Place

/-- One step of the call with the number `p`. -/
inductive CustomerStep (k : CustomerCall) (p : String) (d : Database) :
    Place → Place → Database → Prop
  | found (row : Customer) (h : d.customers.find p = some row) :
      CustomerStep k p d .looking (.leaving row) d
  | missed (h : d.customers.find p = none) : CustomerStep k p d .looking .missed d
  | picked (id : Uuid) : CustomerStep k p d .missed (.inserting id) d
  | inserted (id : Uuid) : CustomerStep k p d (.inserting id) (.inserted id) d
  | committed (id : Uuid) : CustomerStep k p d (.inserted id) (.leaving (k.created p id))
      { d with customers := d.customers.put (k.created p id) }
  | left (row : Customer) : CustomerStep k p d (.leaving row) (.returned row) d

/-- The call with the number `p` stands at `pos`. -/
structure Stands (d : Database) (t : CustomerThread) (p : String) (pos : Place) : Prop where
  number : t.call.number = some p
  prog : t.prog = pos.prog t.call p
  txn : t.txn = pos.txn t.call p
  holds : pos.Holds t.call p d

namespace Stands

variable {d d' : Database} {t t' : CustomerThread} {p : String} {pos : Place}

theorem inProgress_eq (h : Stands d t p pos) (ht : t.dead = false) :
    t.inProgress = decide (0 < pos.rank) := by
  rw [Thread.inProgress, Thread.finished, h.prog, ht]
  cases pos <;> rfl

theorem reading_eq (h : Stands d t p pos) : t.reading d = true ↔ pos = .looking := by
  rw [Thread.reading, h.prog]
  cases pos <;> simp [Place.prog, Prog.withSession, Schema.find, Schema.insert, Prog.select,
    Prog.andThen, Prog.commitSession, uuid4]

theorem step {others : List Lock} {m m' : Memory} {n : Nat} (h : Stands d t p pos)
    (hs : t.step others d m n = some (t', d', m'))
    (hfit : pos = .looking → d.customers.find p = none → varcharFits 255 t.call.name = true) :
    t'.call = t.call ∧ ∃ pos', CustomerStep t.call p d pos pos' d' ∧ Stands d' t' p pos' := by
  obtain ⟨hn, hp, ht, hh⟩ := h
  refine ⟨(Thread.step_cases hs).call_eq, ?_⟩
  cases pos with
  | looking =>
      simp only [Thread.step, hp, ht, Place.txn, Place.prog, Prog.withSession, Schema.find,
        Prog.select, Prog.bind_eq, Prog.andThen, Txn.view_empty, List.map_nil, List.append_nil,
        List.any_nil, Bool.false_eq_true, if_false, if_true, Option.some.injEq,
        Prod.mk.injEq] at hs
      obtain ⟨rfl, rfl, rfl⟩ := hs
      cases hfind : d.customers.find p with
      | some row =>
          refine ⟨.leaving row, .found row hfind, hn, ?_, rfl, hfind⟩
          simp [customers, hfind, Place.prog, Prog.andThen]
      | none =>
          refine ⟨.missed, .missed hfind, hn, ?_, rfl, hfind, hfit rfl hfind⟩
          simp only [customers, hfind, Place.prog]
          rfl
  | missed =>
      simp only [Thread.step, hp, Place.prog, Prog.withSession, uuid4, Prog.bind_eq, Prog.andThen,
        Option.some.injEq, Prod.mk.injEq] at hs
      obtain ⟨rfl, rfl, rfl⟩ := hs
      exact ⟨.inserting (BitVec.ofNat 128 n), .picked _, hn, rfl, ht, hh⟩
  | inserting id =>
      have hcheck : (((customers.table d).find (t.call.created p id).phone).isNone &&
          varcharFits 255 t.call.name) = true := by
        have hfind : (customers.table d).find (t.call.created p id).phone = none := hh.1
        simp [hfind, hh.2]
      simp only [Thread.step, hp, ht, Place.txn, Place.prog, Prog.withSession, Schema.insert,
        Prog.bind_eq, Prog.andThen, Txn.view_empty, hcheck, Bool.false_eq_true, if_false,
        if_true] at hs
      split_ifs at hs with hfree
      simp only [Option.some.injEq, Prod.mk.injEq] at hs
      obtain ⟨rfl, rfl, rfl⟩ := hs
      exact ⟨.inserted id, .inserted id, hn, rfl, rfl, hh.1⟩
  | inserted id =>
      simp only [Thread.step, hp, ht, Place.txn, Place.prog, Prog.withSession, Prog.commitSession,
        Prog.bind_eq, Prog.andThen, Bool.false_eq_true, if_false, Option.some.injEq,
        Prod.mk.injEq] at hs
      obtain ⟨rfl, rfl, rfl⟩ := hs
      exact ⟨_, .committed id, hn, rfl, rfl, Table.find_put_self _ _⟩
  | leaving row =>
      simp only [Thread.step, hp, Place.prog, Option.some.injEq, Prod.mk.injEq] at hs
      obtain ⟨rfl, rfl, rfl⟩ := hs
      exact ⟨.returned row, .left row, hn, rfl, rfl, hh⟩
  | returned row => simp [Thread.step, hp, Place.prog] at hs

/-- A call that is not waiting for a row lock takes its next step. -/
theorem exists_step (h : Stands d t p pos) (others : List Lock) (m : Memory) (n : Nat)
    (hpos : 0 < pos.rank) (hfree : ∀ id, pos = .inserting id → .customer p ∉ others) :
    ∃ t' d' m', t.step others d m n = some (t', d', m') := by
  obtain ⟨-, hp, ht, hh⟩ := h
  cases pos with
  | looking =>
      simp [Thread.step, hp, ht, Place.txn, Place.prog, Prog.withSession, Schema.find, Prog.select,
        Prog.andThen]
  | missed => simp [Thread.step, hp, Place.prog, Prog.withSession, uuid4, Prog.andThen]
  | inserting id =>
      have hcheck : (((customers.table d).find (t.call.created p id).phone).isNone &&
          varcharFits 255 t.call.name) = true := by
        have hfind : (customers.table d).find (t.call.created p id).phone = none := hh.1
        simp [hfind, hh.2]
      have hlock : (RowStore.row Database (customers.write (t.call.created p id)) : Lock) ∉
          others := hfree id rfl
      simp [Thread.step, hp, ht, Place.txn, Place.prog, Prog.withSession, Schema.insert,
        Prog.andThen, hcheck, hlock]
  | inserted id =>
      simp [Thread.step, hp, ht, Place.txn, Place.prog, Prog.withSession, Prog.commitSession,
        Prog.andThen]
  | leaving row => simp [Thread.step, hp, Place.prog]
  | returned row => cases hpos

end Stands

end Sieshka
