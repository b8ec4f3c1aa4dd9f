import Sieshka.Transactions.Soundness

/-!
# Rules for sessions

How each statement moves a session on: the rows it pins, the writes it leaves
pending, and where a refused statement leaves it. Rows a session has locked
keep their content until it ends, so a fact about them that held when they
were locked still holds when it commits.
-/

namespace Transactions

open Relation (ReflTransGen)

variable {C D W L M E R α β : Type}

namespace CallState

variable {x y : CallState D W L M}

/-- The state after row locks were taken. -/
def locked (x : CallState D W L M) (ls : List L) : CallState D W L M :=
  { x with txn := { x.txn with held := x.txn.held ++ ls } }

@[simp] theorem locked_writes (ls : List L) : (x.locked ls).txn.writes = x.txn.writes := rfl
@[simp] theorem locked_failed (ls : List L) : (x.locked ls).txn.failed = x.txn.failed := rfl
@[simp] theorem locked_db (ls : List L) : (x.locked ls).db = x.db := rfl
@[simp] theorem locked_mem (ls : List L) : (x.locked ls).mem = x.mem := rfl
@[simp] theorem locked_past (ls : List L) : (x.locked ls).past = x.past := rfl
@[simp] theorem locked_held (ls : List L) : (x.locked ls).txn.held = x.txn.held ++ ls := rfl

@[simp] theorem locked_nil : x.locked [] = x := by
  simp [locked]

variable [RowStore D W L]

/-- The state after rows were written. -/
def wrote (x : CallState D W L M) (ws : List W) : CallState D W L M :=
  { x with txn := { x.txn with
      writes := x.txn.writes ++ ws
      held := x.txn.held ++ ws.map (RowStore.row D) } }

@[simp] theorem wrote_writes (ws : List W) : (x.wrote ws).txn.writes = x.txn.writes ++ ws := rfl
@[simp] theorem wrote_failed (ws : List W) : (x.wrote ws).txn.failed = x.txn.failed := rfl
@[simp] theorem wrote_db (ws : List W) : (x.wrote ws).db = x.db := rfl
@[simp] theorem wrote_mem (ws : List W) : (x.wrote ws).mem = x.mem := rfl
@[simp] theorem wrote_past (ws : List W) : (x.wrote ws).past = x.past := rfl
@[simp] theorem wrote_held (ws : List W) :
    (x.wrote ws).txn.held = x.txn.held ++ ws.map (RowStore.row D) := rfl

theorem extend_eq (hx : x.txn.failed = false) {locks : D → List L} {writes : D → List W}
    {ls : List L} {ws : List W} (hl : locks x.view = ls) (hw : writes x.view = ws) :
    x.extend locks writes = (x.locked ls).wrote ws := by
  obtain ⟨⟨ws₀, held, failed⟩, past, d, m⟩ := x
  subst hx
  simp only [view] at hl hw
  simp [extend, Txn.extend, locked, wrote, hl, hw]

@[simp] theorem wrote_nil : x.wrote [] = x := by
  simp [wrote]

/-- A fact about every database with the content of the rows the session holds. -/
def Pins (x : CallState D W L M) (P : D → Prop) : Prop :=
  ∀ d, Agree x.txn.held x.db d → P d

theorem Pins.db {P : D → Prop} (h : x.Pins P) : P x.db := h x.db (Agree.refl _ _)

theorem Pins.mono {P P' : D → Prop} (h : x.Pins P) (hP : ∀ d, P d → P' d) : x.Pins P' :=
  fun d hd => hP d (h d hd)

end CallState

variable [RowStore D W L]

/-- What a session sees of a row depends only on what is committed there. -/
theorem Schema.find_view {Row Key : Type} [DecidableEq Key] {key : Row → Key}
    (R : Schema D key) {k : Key} {d d' : D} (t : Txn W L)
    (h : RowStore.get (R.lock k) d = RowStore.get (R.lock k) d') :
    (R.table (t.view d)).find k = (R.table (t.view d')).find k :=
  R.find_congr _ _ _ (get_foldl_put_congr h)

/-- A session sees a row it has not written as it is committed. -/
theorem Schema.find_view_untouched {Row Key : Type} [DecidableEq Key] {key : Row → Key}
    (R : Schema D key) {k : Key} {t : Txn W L} (h : R.lock k ∉ t.writes.map (RowStore.row D))
    (d : D) : (R.table (t.view d)).find k = (R.table d).find k :=
  R.find_congr _ _ _ (get_foldl_put h d)

theorem Txn.view_of_writes {t t' : Txn W L} {ws : List W} (h : t'.writes = t.writes ++ ws)
    (d : D) : t'.view d = ws.foldl RowStore.put (t.view d) := by
  rw [view, h, List.foldl_append]
  rfl

namespace Contract

variable (K : Contract C D W L M E R) (c : C)

/-- The call has got from `x` to `y` without a commit. -/
structure Follows (x y : CallState D W L M) : Prop where
  past : y.past = x.past
  since : K.Since c (x.db, x.mem) (y.db, y.mem)

/-- The call has got from `x` to `y` and still holds the rows it held at `x`. -/
structure Extends (x y : CallState D W L M) : Prop extends K.Follows c x y where
  agree : ∀ d, Agree y.txn.held y.db d → Agree x.txn.held x.db d

/-- The database has refused a statement of the call on its way from `x` to `y`. -/
structure Struck (x y : CallState D W L M) : Prop extends K.Follows c x y where
  txn : y.txn = .broken
  faulty : ∃ z, K.Follows c x z ∧ K.assume c z ∧ K.faulty c z ∧
    K.Since c (z.db, z.mem) (y.db, y.mem)

/-- On its way from `x` to `y` the call was at a point with the property `P`, with
the writes of `x` pending. -/
def Saw (x : CallState D W L M) (P : CallState D W L M → Prop) (y : CallState D W L M) : Prop :=
  ∃ z, K.Extends c x z ∧ z.txn.writes = x.txn.writes ∧ K.assume c z ∧ P z ∧
    K.Since c (z.db, z.mem) (y.db, y.mem)

/-- The call has got from `x` to `y` without a commit, by way of a point with the
property `P`. -/
structure Through (x : CallState D W L M) (P : CallState D W L M → Prop) (y : CallState D W L M) :
    Prop extends K.Follows c x y where
  via : ∃ z, K.Follows c x z ∧ K.assume c z ∧ P z ∧ K.Since c (z.db, z.mem) (y.db, y.mem)

/-- The call has got from `x` to `y` by the commit of `d'` on `d`, and its session
has ended. -/
structure Committed (d d' : D) (x y : CallState D W L M) : Prop where
  txn : y.txn = {}
  past : y.past = x.past ++ [(d, d')]
  window : ∃ m, K.Since c (x.db, x.mem) (d, m) ∧ K.Since c (d', m) (y.db, y.mem)

variable {K c} {x y z : CallState D W L M}

theorem Follows.refl : K.Follows c x x := ⟨rfl, .refl⟩

theorem Follows.trans (h : K.Follows c x y) (h' : K.Follows c y z) : K.Follows c x z :=
  ⟨h'.past.trans h.past, h.since.trans h'.since⟩

theorem Follows.now {s : D × M} (h : K.Later c x s) : K.Follows c x (x.now s) :=
  ⟨rfl, h.since⟩

theorem Follows.closed : K.Follows c x x.closed := ⟨rfl, .refl⟩

theorem Extends.refl : K.Extends c x x := ⟨.refl, fun _ h => h⟩

theorem Extends.trans (h : K.Extends c x y) (h' : K.Extends c y z) : K.Extends c x z :=
  ⟨h.toFollows.trans h'.toFollows, fun d hd => h.agree d (h'.agree d hd)⟩

theorem Extends.now {s : D × M} (h : K.Later c x s) : K.Extends c x (x.now s) :=
  ⟨.now h, fun _ hd => h.agree.trans hd⟩

theorem Extends.locked (ls : List L) : K.Extends c x (x.locked ls) :=
  ⟨⟨rfl, .refl⟩, fun _ hd => hd.subset (List.subset_append_left _ _)⟩

theorem Extends.wrote (ws : List W) : K.Extends c x (x.wrote ws) :=
  ⟨⟨rfl, .refl⟩, fun _ hd => hd.subset (List.subset_append_left _ _)⟩

theorem Extends.pins {P : D → Prop} (h : K.Extends c x y) (hP : x.Pins P) : y.Pins P :=
  fun d hd => hP d (h.agree d hd)

/-- A pinned fact holds at the next step. -/
theorem Later.pinned {s : D × M} (h : K.Later c x s) {P : D → Prop} (hP : x.Pins P) : P s.1 :=
  hP _ h.agree

theorem Struck.of_follows (h : K.Follows c x y) (h' : K.Struck c y z) : K.Struck c x z := by
  obtain ⟨hf, ht, w, hw, ha⟩ := h'
  exact ⟨h.trans hf, ht, w, h.trans hw, ha⟩

theorem Saw.now {s : D × M} {P : CallState D W L M → Prop} (hs : K.Later c x s)
    (ha : K.assume c (x.now s)) (hP : P (x.now s)) : K.Saw c x P (x.now s) :=
  ⟨x.now s, .now hs, rfl, ha, hP, .refl⟩

theorem Saw.mono {P P' : CallState D W L M → Prop} (h : K.Saw c x P y) (hP : ∀ z, P z → P' z) :
    K.Saw c x P' y := by
  obtain ⟨z, h₁, h₂, h₃, h₄, h₅⟩ := h
  exact ⟨z, h₁, h₂, h₃, hP z h₄, h₅⟩

theorem Saw.follows {P : CallState D W L M → Prop} (h : K.Saw c x P y) (h' : K.Follows c y z) :
    K.Saw c x P z := by
  obtain ⟨w, h₁, h₂, h₃, h₄, h₅⟩ := h
  exact ⟨w, h₁, h₂, h₃, h₄, h₅.trans h'.since⟩

theorem Committed.of_follows {d d' : D} (h : K.Follows c x y) (h' : K.Committed c d d' y z) :
    K.Committed c d d' x z := by
  obtain ⟨ht, hp, m, h₁, h₂⟩ := h'
  exact ⟨ht, by rw [hp, h.past], m, h.since.trans h₁, h₂⟩

theorem Through.of_saw {P P' : CallState D W L M → Prop} (h : K.Follows c x y)
    (hs : K.Saw c x P y) (hP : ∀ z, P z → P' z) : K.Through c x P' y := by
  obtain ⟨z, hz, _, ha, hp, hl⟩ := hs
  exact ⟨h, z, hz.toFollows, ha, hP z hp, hl⟩

theorem Through.of_struck {P : CallState D W L M → Prop} (h : K.Struck c x y)
    (hP : ∀ z, K.faulty c z → P z) : K.Through c x P y := by
  obtain ⟨z, hz, ha, hf, hl⟩ := h.faulty
  exact ⟨h.toFollows, z, hz, ha, hP z hf, hl⟩

/-- A session that ends after the database has refused a statement. -/
theorem Struck.closed {s : D × M} (h : K.Struck c x y) (hs : K.Later c y s) :
    K.Through c x (K.faulty c) (y.now s).closed := by
  obtain ⟨z, hz, ha, hf, hl⟩ := h.faulty
  exact ⟨h.toFollows.trans ((Follows.now hs).trans .closed), z, hz, ha, hf, hl.trans hs.since⟩

theorem Through.now {s : D × M} {P : CallState D W L M → Prop} (hs : K.Later c x s)
    (ha : K.assume c (x.now s)) (hP : P (x.now s)) : K.Through c x P (x.now s) :=
  ⟨.now hs, x.now s, .now hs, ha, hP, .refl⟩

theorem Through.of_follows {P : CallState D W L M → Prop} (h : K.Follows c x y)
    (h' : K.Through c y P z) : K.Through c x P z := by
  obtain ⟨hf, w, hw, ha, hp, hl⟩ := h'
  exact ⟨h.trans hf, w, h.trans hw, ha, hp, hl⟩

theorem Through.follows {P : CallState D W L M → Prop} (h : K.Through c x P y)
    (h' : K.Follows c y z) : K.Through c x P z := by
  obtain ⟨hf, w, hw, ha, hp, hl⟩ := h
  exact ⟨hf.trans h', w, hw, ha, hp, hl.trans h'.since⟩

theorem Through.mono {P P' : CallState D W L M → Prop} (h : K.Through c x P y)
    (hP : ∀ z, P z → P' z) : K.Through c x P' y := by
  obtain ⟨hf, w, hw, ha, hp, hl⟩ := h
  exact ⟨hf, w, hw, ha, hP w hp, hl⟩

/-! ## Statements -/

section Statements

variable [DatabaseError E] {Q : Except E α → CallState D W L M → Prop}

/-- A statement that takes the locks `ls` and writes `ws`. -/
theorem wp_stmt {locks : D → List L} {writes : D → List W} {check : D → Bool}
    {next : D → Prog D W L M E α} (hx : x.txn.failed = false)
    (h : ∀ s, K.Later c x s → K.assume c (x.now s) → check (x.txn.view s.1) = true →
      K.wp c (next (x.txn.view s.1)) Q
        (((x.now s).locked (locks (x.txn.view s.1))).wrote (writes (x.txn.view s.1))))
    (he : ∀ y, K.Struck c x y → Q (.error DatabaseError.databaseError) y) :
    K.wp c (.stmt locks writes check next (.raise DatabaseError.databaseError)) Q x := by
  intro s hs ha
  refine ⟨?_, fun hf => he _ ⟨⟨rfl, hs.since⟩, rfl, x.now s, .now hs, ha, hf, .refl⟩⟩
  rw [if_neg (by simp [hx])]
  intro hc
  rw [CallState.extend_eq (x := x.now s) hx rfl rfl]
  exact h s hs ha hc

theorem wp_select {β : Type} {f : D → β} {Q : Except E β → CallState D W L M → Prop}
    (hx : x.txn.failed = false)
    (h : ∀ s, K.Later c x s → K.assume c (x.now s) → Q (.ok (f (x.txn.view s.1))) (x.now s))
    (he : ∀ y, K.Struck c x y → Q (.error DatabaseError.databaseError) y) :
    K.wp c (Prog.select f) Q x := by
  refine wp_stmt hx (fun s hs ha _ => ?_) he
  simpa using h s hs ha

omit [DatabaseError E] in
/-- Leaving a session. -/
theorem wp_withSession {body : Prog D W L M E α}
    (h : K.wp c body (fun r y => ∀ s, K.Later c y s → K.assume c (y.now s) →
      Q r (y.now s).closed) x) : K.wp c (Prog.withSession body) Q x := by
  rw [Prog.withSession, wp_andThen]
  refine wp_mono (fun r y hy => ?_) h
  cases r with
  | ok a => exact hy
  | error e => exact hy

/-- Committing the pending writes. -/
theorem wp_commitSession {Q : Except E Unit → CallState D W L M → Prop}
    (hx : x.txn.failed = false)
    (h : ∀ s, K.Later c x s → K.assume c (x.now s) →
      K.guar c x.past s (x.txn.view s.1, s.2) ∧ K.inv (x.txn.view s.1) s.2 ∧
        Q (.ok ()) (x.now s).committed)
    (he : ∀ y, K.Struck c x y → Q (.error DatabaseError.databaseError) y) :
    K.wp c Prog.commitSession Q x := by
  intro s hs ha
  refine ⟨?_, fun hf => he _ ⟨⟨rfl, hs.since⟩, rfl, x.now s, .now hs, ha, hf, .refl⟩⟩
  rw [if_neg (by simp [hx])]
  exact h s hs ha

/-- The commit of an aborted transaction rolls back. -/
theorem wp_commitSession_failed {Q : Except E Unit → CallState D W L M → Prop}
    (hx : x.txn = .broken)
    (h : ∀ s, K.Later c x s → Q (.ok ()) (x.now s).closed)
    (he : ∀ s, K.Later c x s → Q (.error DatabaseError.databaseError) (x.now s)) :
    K.wp c Prog.commitSession Q x := by
  intro s hs ha
  rw [if_pos (by simp [hx])]
  refine ⟨h s hs, fun _ => ?_⟩
  have hb : (x.now s).broken = x.now s := by
    simp [CallState.broken, CallState.now, hx]
  rw [wp_raise, hb]
  exact he s hs

/-- Committing the pending writes at the end of a session. -/
theorem wp_commit_close {a : α} (hx : x.txn.failed = false)
    (hg : ∀ s, K.Later c x s → K.assume c (x.now s) →
      K.guar c x.past s (x.txn.view s.1, s.2) ∧ K.inv (x.txn.view s.1) s.2)
    (hok : ∀ s y, K.Later c x s → K.assume c (x.now s) →
      K.Committed c s.1 (x.txn.view s.1) x y → Q (.ok a) y)
    (he : ∀ y, K.Struck c x y → ∀ s, K.Later c y s → K.assume c (y.now s) →
      Q (.error DatabaseError.databaseError) (y.now s).closed) :
    K.wp c (Prog.commitSession >>= fun _ => .ret a)
      (fun r y => ∀ s, K.Later c y s → K.assume c (y.now s) → Q r (y.now s).closed) x := by
  rw [wp_bind]
  refine wp_commitSession hx (fun s hs ha => ?_) he
  obtain ⟨hguar, hinv⟩ := hg s hs ha
  exact ⟨hguar, hinv, fun s' hs' _ =>
    hok s _ hs ha ⟨rfl, rfl, s.2, hs.since, hs'.since⟩⟩

end Statements

end Contract

/-! ## Statements on one table -/

namespace Schema

open Contract

variable [DatabaseError E] {Row Key : Type} [DecidableEq Key] {key : Row → Key}
variable (T : Schema D key)
variable {K : Contract C D W L M E R} {c : C} {x : CallState D W L M} {k : Key}

theorem wp_find {Q : Except E (Option Row) → CallState D W L M → Prop}
    (hx : x.txn.failed = false)
    (h : ∀ s, K.Later c x s → K.assume c (x.now s) →
      Q (.ok ((T.table (x.txn.view s.1)).find k)) (x.now s))
    (he : ∀ y, K.Struck c x y → Q (.error DatabaseError.databaseError) y) :
    K.wp c (T.find k) Q x :=
  wp_select hx h he

/-- A row that exists is locked: what the session sees of it is pinned. -/
theorem wp_findForUpdate {Q : Except E (Option Row) → CallState D W L M → Prop}
    (hx : x.txn.failed = false)
    (hnone : ∀ s, K.Later c x s → K.assume c (x.now s) →
      (T.table (x.txn.view s.1)).find k = none → Q (.ok none) (x.now s))
    (hsome : ∀ s r, K.Later c x s → K.assume c (x.now s) →
      (T.table (x.txn.view s.1)).find k = some r →
      ((x.now s).locked [T.lock k]).Pins
        (fun d => (T.table (x.txn.view d)).find k = some r) →
      Q (.ok (some r)) ((x.now s).locked [T.lock k]))
    (he : ∀ y, K.Struck c x y → Q (.error DatabaseError.databaseError) y) :
    K.wp c (T.findForUpdate k) Q x := by
  refine wp_stmt hx (fun s hs ha _ => ?_) he
  cases hr : (T.table (x.txn.view s.1)).find k with
  | none =>
      simp only [Option.isSome_none, Bool.false_eq_true, if_false, CallState.locked_nil,
        CallState.wrote_nil]
      exact hnone s hs ha hr
  | some r =>
      simp only [Option.isSome_some, if_true, CallState.wrote_nil]
      refine hsome s r hs ha hr fun d hd => ?_
      rw [← hr]
      exact (T.find_view x.txn (hd _ (by simp))).symm

/-- A row that exists is written and pinned as it was committed. -/
theorem wp_updateIf {taken : Bool} {Q : Except E Unit → CallState D W L M → Prop} {f : Row → Row}
    (hx : x.txn.failed = false) (hkey : ∀ r, key (f r) = key r)
    (hnone : ∀ s, K.Later c x s → K.assume c (x.now s) →
      (T.table (x.txn.view s.1)).find k = none → Q (.ok ()) (x.now s))
    (hsome : ∀ s r, K.Later c x s → K.assume c (x.now s) →
      (T.table (x.txn.view s.1)).find k = some r →
      ((x.now s).wrote [T.write (f r)]).Pins
        (fun d => (T.table (x.txn.view d)).find k = some r) →
      Q (.ok ()) ((x.now s).wrote [T.write (f r)]))
    (he : ∀ y, K.Struck c x y → Q (.error DatabaseError.databaseError) y) :
    K.wp c (T.updateIf taken k f) Q x := by
  refine wp_stmt hx (fun s hs ha _ => ?_) he
  cases hr : (T.table (x.txn.view s.1)).find k with
  | none =>
      simp only [Option.toList_none, List.map_nil, CallState.locked_nil,
        CallState.wrote_nil]
      exact hnone s hs ha hr
  | some r =>
      simp only [Option.toList_some, List.map_cons, List.map_nil, CallState.locked_nil]
      refine hsome s r hs ha hr fun d hd => ?_
      have hlock : RowStore.row D (T.write (f r)) = T.lock k := by
        rw [T.row_write, hkey, (Table.find_some hr).2]
      rw [← hr]
      exact (T.find_view x.txn (hd _ (by simp [hlock]))).symm

theorem wp_update {Q : Except E Unit → CallState D W L M → Prop} {f : Row → Row}
    (hx : x.txn.failed = false) (hkey : ∀ r, key (f r) = key r)
    (hnone : ∀ s, K.Later c x s → K.assume c (x.now s) →
      (T.table (x.txn.view s.1)).find k = none → Q (.ok ()) (x.now s))
    (hsome : ∀ s r, K.Later c x s → K.assume c (x.now s) →
      (T.table (x.txn.view s.1)).find k = some r →
      ((x.now s).wrote [T.write (f r)]).Pins
        (fun d => (T.table (x.txn.view d)).find k = some r) →
      Q (.ok ()) ((x.now s).wrote [T.write (f r)]))
    (he : ∀ y, K.Struck c x y → Q (.error DatabaseError.databaseError) y) :
    K.wp c (T.update k f) Q x :=
  T.wp_updateIf hx hkey hnone hsome he

/-- A row the session has pinned is there to be written. -/
theorem wp_updateIf_pinned {taken : Bool} {Q : Except E Unit → CallState D W L M → Prop} {f : Row → Row} {r : Row}
    (hx : x.txn.failed = false) (hkey : ∀ r, key (f r) = key r)
    (hpin : x.Pins (fun d => (T.table (x.txn.view d)).find k = some r))
    (hok : ∀ y, K.Extends c x y → y.txn.failed = false →
      y.txn.writes = x.txn.writes ++ [T.write (f r)] → Q (.ok ()) y)
    (he : ∀ y, K.Struck c x y → Q (.error DatabaseError.databaseError) y) :
    K.wp c (T.updateIf taken k f) Q x := by
  refine T.wp_updateIf hx hkey (fun s hs ha hnone => ?_) (fun s r' hs ha hr _ => ?_) he
  · have h := (hs.pinned hpin).symm.trans hnone
    cases h
  · obtain rfl : r = r' := Option.some.inj ((hs.pinned hpin).symm.trans hr)
    exact hok _ ((Extends.now hs).trans (.wrote _)) hx rfl

theorem wp_update_pinned {Q : Except E Unit → CallState D W L M → Prop} {f : Row → Row} {r : Row}
    (hx : x.txn.failed = false) (hkey : ∀ r, key (f r) = key r)
    (hpin : x.Pins (fun d => (T.table (x.txn.view d)).find k = some r))
    (hok : ∀ y, K.Extends c x y → y.txn.failed = false →
      y.txn.writes = x.txn.writes ++ [T.write (f r)] → Q (.ok ()) y)
    (he : ∀ y, K.Struck c x y → Q (.error DatabaseError.databaseError) y) :
    K.wp c (T.update k f) Q x :=
  T.wp_updateIf_pinned hx hkey hpin hok he

/-- A new row is written and pinned as absent. -/
theorem wp_insert {Q : Except E Unit → CallState D W L M → Prop} {check : D → Bool} {r : Row}
    (hx : x.txn.failed = false)
    (h : ∀ s, K.Later c x s → K.assume c (x.now s) → check (x.txn.view s.1) = true →
      ((x.now s).wrote [T.write r]).Pins
        (fun d => (T.table (x.txn.view d)).find (key r) = none) →
      Q (.ok ()) ((x.now s).wrote [T.write r]))
    (he : ∀ y, K.Struck c x y → Q (.error DatabaseError.databaseError) y) :
    K.wp c (T.insert check r) Q x := by
  refine wp_stmt hx (fun s hs ha hc => ?_) he
  simp only [Bool.and_eq_true, Option.isNone_iff_eq_none] at hc
  simp only [CallState.locked_nil]
  refine h s hs ha hc.2 fun d hd => ?_
  rw [← hc.1]
  exact (T.find_view x.txn (hd _ (by simp [T.row_write]))).symm

/-- A row whose key is taken is left alone. -/
theorem wp_insertIfAbsent {Q : Except E Bool → CallState D W L M → Prop} {r : Row}
    (hx : x.txn.failed = false)
    (hold : ∀ s r', K.Later c x s → K.assume c (x.now s) →
      (T.table (x.txn.view s.1)).find (key r) = some r' → Q (.ok false) (x.now s))
    (hnew : ∀ s, K.Later c x s → K.assume c (x.now s) →
      ((x.now s).wrote [T.write r]).Pins
        (fun d => (T.table (x.txn.view d)).find (key r) = none) →
      Q (.ok true) ((x.now s).wrote [T.write r]))
    (he : ∀ y, K.Struck c x y → Q (.error DatabaseError.databaseError) y) :
    K.wp c (T.insertIfAbsent r) Q x := by
  refine wp_stmt hx (fun s hs ha _ => ?_) he
  cases hr : (T.table (x.txn.view s.1)).find (key r) with
  | none =>
      simp only [Option.isSome_none, Bool.false_eq_true, if_false, CallState.locked_nil,
        Bool.not_false]
      refine hnew s hs ha fun d hd => ?_
      rw [← hr]
      exact (T.find_view x.txn (hd _ (by simp [T.row_write]))).symm
  | some r' =>
      simp only [Option.isSome_some, if_true, CallState.locked_nil, CallState.wrote_nil,
        Bool.not_true]
      exact hold s r' hs ha hr

theorem wp_upsert {Q : Except E Unit → CallState D W L M → Prop} {r : Row}
    (hx : x.txn.failed = false)
    (h : ∀ s, K.Later c x s → K.assume c (x.now s) →
      Q (.ok ()) ((x.now s).wrote [T.write r]))
    (he : ∀ y, K.Struck c x y → Q (.error DatabaseError.databaseError) y) :
    K.wp c (T.upsert r) Q x := by
  refine wp_stmt hx (fun s hs ha _ => ?_) he
  simp only [CallState.locked_nil]
  exact h s hs ha

end Schema

end Transactions
