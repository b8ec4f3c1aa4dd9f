import Sieshka.Transactions.Tables

/-!
# Programs that issue statements to a row-locking store

A program is the sequence of atomic actions one call performs: statements on
the database, commits and session ends, reads and writes of the memory it
shares with other calls, and choices made outside it. What a statement reads,
locks and writes is a function of the database it sees, so a query is written
as the pure function it computes.

## Implementation notes

Exceptions are part of a program. Every statement and every commit carries the
continuation to take when the database raises an error there, which is where
`tryCatch` installs its handler.
-/

namespace Transactions

/-- A database `D` as a collection of rows `L`, each written as a whole: a
write `W` determines the new content of its row and touches no other row. -/
class RowStore (D : Type) (W L : outParam Type) where
  Cell : L → Type
  get : (l : L) → D → Cell l
  put : D → W → D
  row : W → L
  get_put_self : ∀ d d' w, get (row w) (put d w) = get (row w) (put d' w)
  get_put_of_ne : ∀ d w l, l ≠ row w → get l (put d w) = get l d

/-- The exception a failed statement raises. -/
class DatabaseError (E : Type) where
  databaseError : E

/-- Programs over a database `D` with writes `W` and row locks `L`, a shared
memory `M` and exceptions `E`. -/
inductive Prog (D W L M E α : Type) : Type
  | ret (a : α)
  | raise (e : E)
  | stmt (locks : D → List L) (writes : D → List W) (check : D → Bool)
      (next : D → Prog D W L M E α) (error : Prog D W L M E α)
  | commit (next error : Prog D W L M E α)
  | close (next : Prog D W L M E α)
  | memory (update : M → M) (next : M → Prog D W L M E α)
  | choose (next : Nat → Prog D W L M E α)

namespace Prog

variable {D W L M E α β : Type}

/-- Continue a program at its result and at the exception it raises. -/
def andThen : Prog D W L M E α → (α → Prog D W L M E β) → (E → Prog D W L M E β) →
    Prog D W L M E β
  | ret a, ok, _ => ok a
  | raise e, _, err => err e
  | stmt locks writes check next error, ok, err =>
      stmt locks writes check (fun d => (next d).andThen ok err) (error.andThen ok err)
  | commit next error, ok, err => commit (next.andThen ok err) (error.andThen ok err)
  | close next, ok, err => close (next.andThen ok err)
  | memory update next, ok, err => memory update fun m => (next m).andThen ok err
  | choose next, ok, err => choose fun n => (next n).andThen ok err

instance : Monad (Prog D W L M E) where
  pure := ret
  bind p f := p.andThen f raise

instance : MonadExcept E (Prog D W L M E) where
  throw := raise
  tryCatch p handle := p.andThen ret handle

@[simp] theorem pure_eq (a : α) : (pure a : Prog D W L M E α) = ret a := rfl

@[simp] theorem throw_eq (e : E) : (throw e : Prog D W L M E α) = raise e := rfl

@[simp] theorem bind_eq (p : Prog D W L M E α) (f : α → Prog D W L M E β) :
    p >>= f = p.andThen f raise := rfl

@[simp] theorem tryCatch_eq (p : Prog D W L M E α) (handle : E → Prog D W L M E α) :
    tryCatch p handle = p.andThen ret handle := rfl

/-- Run the body of a session; leaving it, normally or by an exception, rolls
back what was not committed. -/
def withSession (body : Prog D W L M E α) : Prog D W L M E α :=
  body.andThen (fun a => close (ret a)) (fun e => close (raise e))

/-- Commit the writes of the session. -/
def commitSession [DatabaseError E] : Prog D W L M E Unit :=
  commit (ret ()) (raise DatabaseError.databaseError)

/-- Change the shared memory. -/
def modifyMemory (update : M → M) : Prog D W L M E Unit := memory update fun _ => ret ()

/-- Read the shared memory. -/
def readMemory (f : M → α) : Prog D W L M E α := memory id fun m => ret (f m)

/-- A number picked outside the program. -/
def pick : Prog D W L M E Nat := choose ret

/-- A query without locks: a function of the database the session sees. -/
def select [DatabaseError E] (f : D → α) : Prog D W L M E α :=
  stmt (fun _ => []) (fun _ => []) (fun _ => true) (fun d => ret (f d))
    (raise DatabaseError.databaseError)

/-! ## The errors of a program -/

/-- Every error the program can end with is as `P` says. -/
inductive Raises (P : E → Prop) : Prog D W L M E α → Prop
  | ret (a : α) : Raises P (ret a)
  | raise {e} (h : P e) : Raises P (raise e)
  | stmt {locks writes check next error} (hn : ∀ d, Raises P (next d)) (he : Raises P error) :
      Raises P (stmt locks writes check next error)
  | commit {next error} (hn : Raises P next) (he : Raises P error) : Raises P (commit next error)
  | close {next} (hn : Raises P next) : Raises P (close next)
  | memory {update next} (hn : ∀ m, Raises P (next m)) : Raises P (memory update next)
  | choose {next} (hn : ∀ n, Raises P (next n)) : Raises P (choose next)

attribute [simp] Raises.ret

variable {P P' : E → Prop}

theorem Raises.andThen {p : Prog D W L M E α} {ok : α → Prog D W L M E β}
    {err : E → Prog D W L M E β} (h : p.Raises P') (hok : ∀ a, (ok a).Raises P)
    (herr : ∀ e, P' e → (err e).Raises P) : (p.andThen ok err).Raises P := by
  induction h with
  | ret a => exact hok a
  | raise he => exact herr _ he
  | stmt _ _ ihn ihe => exact .stmt ihn ihe
  | commit _ _ ihn ihe => exact .commit ihn ihe
  | close _ ih => exact .close ih
  | memory _ ih => exact .memory ih
  | choose _ ih => exact .choose ih

theorem raises_any (p : Prog D W L M E α) : p.Raises fun _ => True := by
  induction p with
  | ret a => exact .ret a
  | raise e => exact .raise trivial
  | stmt _ _ _ _ _ ihn ihe => exact .stmt ihn ihe
  | commit _ _ ihn ihe => exact .commit ihn ihe
  | close _ ih => exact .close ih
  | memory _ _ ih => exact .memory ih
  | choose _ ih => exact .choose ih

theorem Raises.bind {p : Prog D W L M E α} {f : α → Prog D W L M E β} (h : p.Raises P)
    (hf : ∀ a, (f a).Raises P) : (p >>= f).Raises P :=
  h.andThen hf fun _ he => .raise he

theorem Raises.withSession {p : Prog D W L M E α} (h : p.Raises P) : (withSession p).Raises P :=
  h.andThen (fun a => .close (.ret a)) fun _ he => .close (.raise he)

section Refused

variable [DatabaseError E] (h : P DatabaseError.databaseError)
include h

theorem raises_commitSession : (commitSession : Prog D W L M E Unit).Raises P :=
  .commit (.ret ()) (.raise h)

theorem raises_select (f : D → α) : (select f : Prog D W L M E α).Raises P :=
  .stmt (fun _ => .ret _) (.raise h)

end Refused

end Prog

/-- One keyed table of a database: how to read it, lock its rows and write them. -/
structure Schema (D : Type) {W L : Type} [RowStore D W L] {Row Key : Type}
    [DecidableEq Key] (key : Row → Key) where
  table : D → Table key
  lock : Key → L
  write : Row → W
  row_write : ∀ r, RowStore.row D (write r) = lock (key r)
  table_put : ∀ d r, table (RowStore.put d (write r)) = (table d).put r
  find_congr : ∀ d d' k, RowStore.get (lock k) d = RowStore.get (lock k) d' →
    (table d).find k = (table d').find k

namespace Schema

open Prog

variable {D W L M E : Type} [RowStore D W L] [DatabaseError E]
variable {Row Key : Type} [DecidableEq Key] {key : Row → Key}

/-- `SELECT ... WHERE key = k`. -/
def find (R : Schema D key) (k : Key) : Prog D W L M E (Option Row) :=
  select fun d => (R.table d).find k

/-- `SELECT ... WHERE key = k FOR UPDATE`: a row that exists is locked. -/
def findForUpdate (R : Schema D key) (k : Key) : Prog D W L M E (Option Row) :=
  stmt (fun d => if ((R.table d).find k).isSome then [R.lock k] else []) (fun _ => [])
    (fun _ => true) (fun d => ret ((R.table d).find k)) (raise DatabaseError.databaseError)

/-- `UPDATE ... WHERE key = k`: no row is written when there is none. -/
def update (R : Schema D key) (k : Key) (f : Row → Row) : Prog D W L M E Unit :=
  stmt (fun _ => []) (fun d => ((R.table d).find k).toList.map fun r => R.write (f r))
    (fun _ => true) (fun _ => ret ()) (raise DatabaseError.databaseError)

/-- `UPDATE ... WHERE key = k` with a parameter that is taken or refused. -/
def updateIf (R : Schema D key) (taken : Bool) (k : Key) (f : Row → Row) :
    Prog D W L M E Unit :=
  stmt (fun _ => []) (fun d => ((R.table d).find k).toList.map fun r => R.write (f r))
    (fun _ => taken) (fun _ => ret ()) (raise DatabaseError.databaseError)

/-- `INSERT ... ON CONFLICT DO NOTHING RETURNING key`: whether the row is new. -/
def insertIfAbsent (R : Schema D key) (r : Row) : Prog D W L M E Bool :=
  stmt (fun _ => [])
    (fun d => if ((R.table d).find (key r)).isSome then [] else [R.write r])
    (fun _ => true) (fun d => ret !((R.table d).find (key r)).isSome)
    (raise DatabaseError.databaseError)

/-- `INSERT ... ON CONFLICT (key) DO UPDATE`. -/
def upsert (R : Schema D key) (r : Row) : Prog D W L M E Unit :=
  stmt (fun _ => []) (fun _ => [R.write r]) (fun _ => true) (fun _ => ret ())
    (raise DatabaseError.databaseError)

/-- `INSERT`: a row with the same key, or another violated constraint, raises. -/
def insert (R : Schema D key) (check : D → Bool) (r : Row) : Prog D W L M E Unit :=
  stmt (fun _ => []) (fun _ => [R.write r])
    (fun d => ((R.table d).find (key r)).isNone && check d) (fun _ => ret ())
    (raise DatabaseError.databaseError)

section Refused

variable {P : E → Prop} (h : P DatabaseError.databaseError) (R : Schema D key)
include h

theorem raises_update (k : Key) (f : Row → Row) :
    (R.update k f : Prog D W L M E Unit).Raises P :=
  .stmt (fun _ => .ret _) (.raise h)

theorem raises_upsert (r : Row) : (R.upsert r : Prog D W L M E Unit).Raises P :=
  .stmt (fun _ => .ret _) (.raise h)

theorem raises_insert (check : D → Bool) (r : Row) :
    (R.insert check r : Prog D W L M E Unit).Raises P :=
  .stmt (fun _ => .ret _) (.raise h)

end Refused

end Schema

end Transactions
