import Sieshka.Transactions.System
import Mathlib.Logic.Relation

/-!
# Rely-guarantee reasoning about one call

A contract says what every call may do to the shared state when it commits or
writes memory, and what it may expect of the others. `wp` is the weakest
precondition of one call under a contract: between two of its own steps the
others may take any number of steps that meet the call's rely and leave the
rows it has locked as they are.
-/

namespace Transactions

open Relation (ReflTransGen)

variable {C D W L M E R α β : Type}

/-- The rows in `held` have the same content in both databases. -/
def Agree [RowStore D W L] (held : List L) (d d' : D) : Prop :=
  ∀ l ∈ held, RowStore.get l d = RowStore.get l d'

theorem Agree.refl [RowStore D W L] (held : List L) (d : D) : Agree held d d := fun _ _ => rfl

theorem Agree.trans [RowStore D W L] {held : List L} {d₁ d₂ d₃ : D} (h₁ : Agree held d₁ d₂)
    (h₂ : Agree held d₂ d₃) : Agree held d₁ d₃ :=
  fun l hl => (h₁ l hl).trans (h₂ l hl)

theorem Agree.subset [RowStore D W L] {held held' : List L} {d d' : D} (h : Agree held' d d')
    (hs : held ⊆ held') : Agree held d d' :=
  fun l hl => h l (hs hl)

/-- Where one call stands: its open transaction, its commits so far, and the
shared state. -/
structure CallState (D W L M : Type) where
  txn : Txn W L
  past : List (D × D)
  db : D
  mem : M

namespace CallState

variable {x : CallState D W L M}

/-- The same session under a later shared state. -/
def now (x : CallState D W L M) (s : D × M) : CallState D W L M :=
  { x with db := s.1, mem := s.2 }

/-- The database the session sees. -/
def view [RowStore D W L] (x : CallState D W L M) : D := x.txn.view x.db

/-- The state after a statement. -/
def extend [RowStore D W L] (x : CallState D W L M) (locks : D → List L) (writes : D → List W) :
    CallState D W L M :=
  { x with txn := x.txn.extend x.db locks writes }

/-- The state after the database has aborted the transaction. -/
def broken (x : CallState D W L M) : CallState D W L M := { x with txn := .broken }

/-- The state after the session has rolled back or has ended. -/
def closed (x : CallState D W L M) : CallState D W L M := { x with txn := {} }

/-- The state after the session has committed its writes. -/
def committed [RowStore D W L] (x : CallState D W L M) : CallState D W L M :=
  { x with txn := {}, past := x.past ++ [(x.db, x.view)], db := x.view }

@[simp] theorem now_txn (s : D × M) : (x.now s).txn = x.txn := rfl
@[simp] theorem now_past (s : D × M) : (x.now s).past = x.past := rfl
@[simp] theorem now_db (s : D × M) : (x.now s).db = s.1 := rfl
@[simp] theorem now_mem (s : D × M) : (x.now s).mem = s.2 := rfl
@[simp] theorem now_now (s s' : D × M) : (x.now s).now s' = x.now s' := rfl
@[simp] theorem now_self : x.now (x.db, x.mem) = x := rfl
@[simp] theorem broken_txn : x.broken.txn = .broken := rfl
@[simp] theorem broken_db : x.broken.db = x.db := rfl
@[simp] theorem broken_mem : x.broken.mem = x.mem := rfl
@[simp] theorem broken_past : x.broken.past = x.past := rfl
@[simp] theorem closed_txn : x.closed.txn = {} := rfl
@[simp] theorem closed_db : x.closed.db = x.db := rfl
@[simp] theorem closed_mem : x.closed.mem = x.mem := rfl
@[simp] theorem closed_past : x.closed.past = x.past := rfl

variable [RowStore D W L]

@[simp] theorem committed_txn : x.committed.txn = {} := rfl
@[simp] theorem committed_db : x.committed.db = x.view := rfl
@[simp] theorem committed_mem : x.committed.mem = x.mem := rfl
@[simp] theorem committed_past : x.committed.past = x.past ++ [(x.db, x.view)] := rfl
@[simp] theorem extend_db (locks : D → List L) (writes : D → List W) :
    (x.extend locks writes).db = x.db := rfl
@[simp] theorem extend_mem (locks : D → List L) (writes : D → List W) :
    (x.extend locks writes).mem = x.mem := rfl
@[simp] theorem extend_past (locks : D → List L) (writes : D → List W) :
    (x.extend locks writes).past = x.past := rfl

end CallState

@[simp] theorem Txn.broken_failed : (Txn.broken : Txn W L).failed = true := rfl

variable [RowStore D W L]

@[simp] theorem Txn.extend_failed (t : Txn W L) (d : D) (locks : D → List L)
    (writes : D → List W) : (t.extend d locks writes).failed = false := rfl

@[simp] theorem Txn.extend_writes (t : Txn W L) (d : D) (locks : D → List L)
    (writes : D → List W) :
    (t.extend d locks writes).writes = t.writes ++ writes (t.view d) := rfl

theorem Txn.extend_held (t : Txn W L) (d : D) (locks : D → List L)
    (writes : D → List W) : (t.extend d locks writes).held =
      t.held ++ (locks (t.view d) ++ (writes (t.view d)).map (RowStore.row D)) := rfl

@[simp] theorem Txn.view_empty (d : D) : ({} : Txn W L).view d = d := rfl

theorem Txn.view_extend (t : Txn W L) (d d' : D) (locks : D → List L)
    (writes : D → List W) : (t.extend d locks writes).view d' =
      (writes (t.view d)).foldl RowStore.put (t.view d') := by
  simp [Txn.view]

/-- What each call promises, and what it may count on. -/
structure Contract (C D W L M E R : Type) [RowStore D W L] where
  /-- the calls the run makes -/
  calls : C → Prop := fun _ => True
  /-- holds of the shared state at all times -/
  inv : D → M → Prop := fun _ _ => True
  /-- what a commit or a memory write of this call does to the shared state, given
  what it has committed before -/
  guar : C → List (D × D) → D × M → D × M → Prop
  /-- what the steps of all others do while this call is in progress -/
  rely : C → D × M → D × M → Prop
  /-- which two calls the run lets be in progress at once -/
  apart : C → C → Prop := fun _ _ => True
  /-- what the run grants this call at each of its steps -/
  assume : C → CallState D W L M → Prop := fun _ _ => True
  /-- where the run lets the database refuse a statement or commit of this call -/
  faulty : C → CallState D W L M → Prop := fun _ _ => True
  /-- holds when this call has returned or raised -/
  post : C → Except E R → CallState D W L M → Prop := fun _ _ _ => True

namespace Contract

variable (K : Contract C D W L M E R) (c : C)

/-- One step of the others that leaves the rows in `held` as they are. -/
def Meanwhile (held : List L) (s s' : D × M) : Prop :=
  K.rely c s s' ∧ Agree held s.1 s'.1

/-- The others have taken the shared state from `s` to `s'` while this call is in
progress. -/
def Since (s s' : D × M) : Prop := ReflTransGen (K.rely c) s s'

/-- The shared state `s` can follow while the call waits at `x`. -/
def Later (x : CallState D W L M) (s : D × M) : Prop :=
  ReflTransGen (K.Meanwhile c x.txn.held) (x.db, x.mem) s ∧ K.inv s.1 s.2

variable {K c}

theorem Later.inv {x : CallState D W L M} {s : D × M} (h : K.Later c x s) :
    K.inv s.1 s.2 := h.2

theorem Later.since {x : CallState D W L M} {s : D × M} (h : K.Later c x s) :
    K.Since c (x.db, x.mem) s := by
  obtain ⟨h, -⟩ := h
  induction h with
  | refl => exact .refl
  | tail _ hs ih => exact ih.tail hs.1

theorem Later.agree {x : CallState D W L M} {s : D × M} (h : K.Later c x s) :
    Agree x.txn.held x.db s.1 := by
  obtain ⟨h, -⟩ := h
  induction h with
  | refl => exact Agree.refl _ _
  | tail _ hs ih => exact ih.trans hs.2

theorem Later.refl {x : CallState D W L M} (h : K.inv x.db x.mem) :
    K.Later c x (x.db, x.mem) := ⟨.refl, h⟩

theorem Later.trans {x : CallState D W L M} {s s' : D × M} (h : K.Later c x s)
    (h' : K.Later c (x.now s) s') : K.Later c x s' := ⟨h.1.trans h'.1, h'.2⟩

theorem Later.step {x : CallState D W L M} {s : D × M}
    (h : K.Meanwhile c x.txn.held (x.db, x.mem) s) (hi : K.inv s.1 s.2) :
    K.Later c x s := ⟨.single h, hi⟩

/-- A fact the others keep holds of every shared state that can follow. -/
theorem Later.keeps {x : CallState D W L M} {s : D × M} (h : K.Later c x s)
    (P : D × M → Prop) (hP : ∀ s s', K.Meanwhile c x.txn.held s s' → P s → P s')
    (h₀ : P (x.db, x.mem)) : P s := by
  obtain ⟨h, -⟩ := h
  induction h with
  | refl => exact h₀
  | tail _ hs ih => exact hP _ _ hs ih

variable (K c)

/-- The weakest precondition of a program for `Q` at its end. -/
def wp : Prog D W L M E α → (Except E α → CallState D W L M → Prop) →
    CallState D W L M → Prop
  | .ret a, Q, x => Q (.ok a) x
  | .raise e, Q, x => Q (.error e) x
  | .stmt locks writes check next error, Q, x =>
      ∀ s, K.Later c x s → K.assume c (x.now s) →
        (if x.txn.failed then wp error Q (x.now s)
          else check (x.txn.view s.1) = true →
            wp (next (x.txn.view s.1)) Q ((x.now s).extend locks writes)) ∧
        (K.faulty c (x.now s) → wp error Q (x.now s).broken)
  | .commit next error, Q, x =>
      ∀ s, K.Later c x s → K.assume c (x.now s) →
        (if x.txn.failed then wp next Q (x.now s).closed
          else K.guar c x.past s (x.txn.view s.1, s.2) ∧ K.inv (x.txn.view s.1) s.2 ∧
            wp next Q (x.now s).committed) ∧
        (K.faulty c (x.now s) → wp error Q (x.now s).broken)
  | .close next, Q, x =>
      ∀ s, K.Later c x s → K.assume c (x.now s) → wp next Q (x.now s).closed
  | .memory update next, Q, x =>
      ∀ s, K.Later c x s → K.assume c (x.now s) →
        (update s.2 ≠ s.2 → K.guar c x.past s (s.1, update s.2)) ∧ K.inv s.1 (update s.2) ∧
          wp (next s.2) Q (x.now (s.1, update s.2))
  | .choose next, Q, x =>
      ∀ s, K.Later c x s → K.assume c (x.now s) → ∀ n, wp (next n) Q (x.now s)

variable {K c}

@[simp] theorem wp_ret (a : α) (Q : Except E α → CallState D W L M → Prop)
    (x : CallState D W L M) : K.wp c (.ret a) Q x = Q (.ok a) x := rfl

@[simp] theorem wp_raise (e : E) (Q : Except E α → CallState D W L M → Prop)
    (x : CallState D W L M) :
    K.wp c (.raise e : Prog D W L M E α) Q x = Q (.error e) x := rfl

theorem wp_mono {p : Prog D W L M E α} {Q Q' : Except E α → CallState D W L M → Prop}
    (hQ : ∀ r y, Q r y → Q' r y) : ∀ {x}, K.wp c p Q x → K.wp c p Q' x := by
  induction p with
  | ret a => exact fun h => hQ _ _ h
  | raise e => exact fun h => hQ _ _ h
  | stmt locks writes check next error ihn ihe =>
      intro x h s hs ha
      obtain ⟨h₁, h₂⟩ := h s hs ha
      refine ⟨?_, fun hf => ihe (h₂ hf)⟩
      split_ifs at h₁ ⊢
      · exact ihe h₁
      · exact fun hc => ihn _ (h₁ hc)
  | commit next error ihn ihe =>
      intro x h s hs ha
      obtain ⟨h₁, h₂⟩ := h s hs ha
      refine ⟨?_, fun hf => ihe (h₂ hf)⟩
      split_ifs at h₁ ⊢
      · exact ihn h₁
      · exact ⟨h₁.1, h₁.2.1, ihn h₁.2.2⟩
  | close next ih => exact fun h s hs ha => ih (h s hs ha)
  | memory update next ih =>
      intro x h s hs ha
      obtain ⟨hg, hi, hw⟩ := h s hs ha
      exact ⟨hg, hi, ih _ hw⟩
  | choose next ih => exact fun h s hs ha n => ih n (h s hs ha n)

/-- Sequencing: the continuation starts where the first program ends. -/
theorem wp_andThen (p : Prog D W L M E α) (ok : α → Prog D W L M E β)
    (err : E → Prog D W L M E β) (Q : Except E β → CallState D W L M → Prop) :
    ∀ x, K.wp c (p.andThen ok err) Q x ↔
      K.wp c p (fun r y => match r with
        | .ok a => K.wp c (ok a) Q y
        | .error e => K.wp c (err e) Q y) x := by
  induction p with
  | ret a => exact fun x => Iff.rfl
  | raise e => exact fun x => Iff.rfl
  | stmt locks writes check next error ihn ihe =>
      intro x
      simp only [Prog.andThen, wp, ihn, ihe]
  | commit next error ihn ihe =>
      intro x
      simp only [Prog.andThen, wp, ihn, ihe]
  | close next ih =>
      intro x
      simp only [Prog.andThen, wp, ih]
  | memory update next ih =>
      intro x
      simp only [Prog.andThen, wp, ih]
  | choose next ih =>
      intro x
      simp only [Prog.andThen, wp, ih]

theorem wp_bind (p : Prog D W L M E α) (f : α → Prog D W L M E β)
    (Q : Except E β → CallState D W L M → Prop) (x : CallState D W L M) :
    K.wp c (p >>= f) Q x ↔
      K.wp c p (fun r y => match r with
        | .ok a => K.wp c (f a) Q y
        | .error e => Q (.error e) y) x :=
  wp_andThen p f .raise Q x

/-- A precondition of a program that has steps left survives the others' steps. -/
theorem wp_later {p : Prog D W L M E α} {Q : Except E α → CallState D W L M → Prop}
    {x : CallState D W L M} {s : D × M} (hs : K.Later c x s) (h : K.wp c p Q x)
    (hret : ∀ a, p = .ret a → Q (.ok a) (x.now s))
    (hraise : ∀ e, p = .raise e → Q (.error e) (x.now s)) : K.wp c p Q (x.now s) := by
  cases p with
  | ret a => exact hret a rfl
  | raise e => exact hraise e rfl
  | stmt locks writes check next error => exact fun s' hs' ha => h s' (hs.trans hs') ha
  | commit next error => exact fun s' hs' ha => h s' (hs.trans hs') ha
  | close next => exact fun s' hs' ha => h s' (hs.trans hs') ha
  | memory update next => exact fun s' hs' ha => h s' (hs.trans hs') ha
  | choose next => exact fun s' hs' ha n => h s' (hs.trans hs') ha n

/-- What a program ends with need be looked at only where it does not raise what it never
raises. -/
theorem wp_of_raises {P : E → Prop} {p : Prog D W L M E α} (hp : p.Raises P)
    {Q : Except E α → CallState D W L M → Prop} : ∀ {x},
    K.wp c p (fun r y => (∀ e, r = .error e → P e) → Q r y) x → K.wp c p Q x := by
  induction hp with
  | ret a => exact fun h => h (by simp)
  | raise he =>
      refine fun h => h fun e h => ?_
      cases h
      exact he
  | stmt _ _ ihn ihe =>
      intro x h s hs ha
      obtain ⟨h₁, h₂⟩ := h s hs ha
      refine ⟨?_, fun hf => ihe (h₂ hf)⟩
      split_ifs at h₁ ⊢
      · exact ihe h₁
      · exact fun hc => ihn _ (h₁ hc)
  | commit _ _ ihn ihe =>
      intro x h s hs ha
      obtain ⟨h₁, h₂⟩ := h s hs ha
      refine ⟨?_, fun hf => ihe (h₂ hf)⟩
      split_ifs at h₁ ⊢
      · exact ihn h₁
      · exact ⟨h₁.1, h₁.2.1, ihn h₁.2.2⟩
  | close _ ih => exact fun h s hs ha => ih (h s hs ha)
  | memory _ ih =>
      intro x h s hs ha
      obtain ⟨hg, hi, hw⟩ := h s hs ha
      exact ⟨hg, hi, ih _ hw⟩
  | choose _ ih => exact fun h s hs ha n => ih n (h s hs ha n)

end Contract

end Transactions
