import Sieshka.Services.DeliveryService
import Sieshka.Transactions.Runs
import Sieshka.Transactions.Rules

/-!
# Delivery tasks that are overtaken

A transition of a delivery task writes the state its event leads to, whatever
has been committed since it read the task. It follows the graph where its
event is still allowed when it commits.
-/

namespace Sieshka

open Transactions Contract

abbrev DeliveryConfig :=
  Config DeliveryCall DeliveryDatabase DeliveryTask Uuid Unit PyError DeliveryAnswer

abbrev DeliveryContract :=
  Contract DeliveryCall DeliveryDatabase DeliveryTask Uuid Unit PyError DeliveryAnswer

/-- Where a call on delivery tasks stands. -/
abbrev DeliveryAt := CallState DeliveryDatabase DeliveryTask Uuid Unit

/-! ## The graph -/

/-- The state an event leads to, from wherever it is allowed. -/
def deliveryTarget : DeliveryEvent → DeliveryState
  | .ASSIGN => .ASSIGNED
  | .PICKUP => .PICKED_UP
  | .START_ROUTE => .ON_ROUTE
  | .COMPLETE => .DELIVERED
  | .FAIL => .FAILED

theorem deliveryTransitions_target {st st' : DeliveryState} {event : DeliveryEvent}
    (h : deliveryTransitions st event = some st') : st' = deliveryTarget event := by
  cases st <;> cases event <;>
    simp only [deliveryTransitions, reduceCtorEq, Option.some.injEq] at h <;> exact h.symm

/-- The task is where it was, or one edge further. -/
def DeliveryTask.Moved (r r' : DeliveryTask) : Prop :=
  r'.state = r.state ∨ ∃ event, deliveryTransitions r.state event = some r'.state

theorem DeliveryTask.Moved.refl (r : DeliveryTask) : r.Moved r := Or.inl rfl

theorem DeliveryTask.Moved.terminal {r r' : DeliveryTask} (h : r.Moved r')
    (hst : r.state = .DELIVERED ∨ r.state = .FAILED) : r'.state = r.state := by
  rcases h with h | ⟨event, h⟩
  · exact h
  · rcases hst with hst | hst <;> rw [hst] at h <;> cases h

/-! ## What a commit does -/

/-- A commit changes nothing, adds a task or takes a task to the target of the
call's event. -/
inductive DeliveryDoes (c : DeliveryCall) (d : DeliveryDatabase) : DeliveryDatabase → Prop
  | nothing : DeliveryDoes c d d
  | created (row : DeliveryTask) (habs : d.tasks.find row.id = none) :
      DeliveryDoes c d { d with tasks := d.tasks.put row }
  | moved (taskId : String) (event : DeliveryEvent) (row : DeliveryTask)
      (hc : c = .transitionTask taskId event) (hid : readUuid taskId = some row.id)
      (hfind : d.tasks.find row.id = some row) :
      DeliveryDoes c d { d with tasks := d.tasks.put { row with state := deliveryTarget event } }

/-- Every call promises what its commits do, and expects nothing. -/
def deliveryContract : DeliveryContract where
  guar c _ s s' := DeliveryDoes c s.1 s'.1
  rely _ _ _ := True

section Specs

variable {c : DeliveryCall} {x : DeliveryAt} {taskId : String}

theorem wp_deliveryUuid {Q : Except PyError Uuid → DeliveryAt → Prop}
    (hok : ∀ id, readUuid taskId = some id → Q (.ok id) x) (hno : ∀ e, Q (.error e) x) :
    deliveryContract.wp c (deliveryUuid taskId) Q x := by
  unfold deliveryUuid uuid
  cases h : readUuid taskId with
  | none => exact hno _
  | some id => exact hok id h

theorem wp_deliveryState {Q : Except PyError DeliveryState → DeliveryAt → Prop} (hx : x.txn = {})
    (hok : ∀ y st, y.txn = {} → Q (.ok st) y) (hno : ∀ y e, Q (.error e) y) :
    deliveryContract.wp c (deliveryState taskId) Q x := by
  rw [deliveryState, wp_bind]
  refine wp_deliveryUuid (fun id _ => ?_) fun e => hno x e
  dsimp only
  rw [wp_bind]
  refine deliveryTasks.wp_find (by rw [hx]) (fun s _ _ => ?_) fun y _ => hno y _
  dsimp only
  cases (deliveryTasks.table (x.txn.view s.1)).find id with
  | none => exact hno _ _
  | some row => exact hok _ _ hx

theorem wp_writeDeliveryState {st : DeliveryState} {Q : Except PyError Unit → DeliveryAt → Prop}
    (hx : x.txn = {})
    (hok : ∀ y row, y.txn.failed = false → y.txn.writes = [{ row with state := st }] →
      readUuid taskId = some row.id → y.Pins (fun d => d.tasks.find row.id = some row) → Q (.ok ()) y)
    (hkept : ∀ y, y.txn = {} → Q (.ok ()) y) (hno : ∀ y e, Q (.error e) y) :
    deliveryContract.wp c (writeDeliveryState taskId st) Q x := by
  have hview : ∀ d : DeliveryDatabase, x.txn.view d = d := fun d => by rw [hx]; rfl
  rw [writeDeliveryState, wp_bind]
  refine wp_deliveryUuid (fun id hid => ?_) fun e => hno x e
  refine deliveryTasks.wp_update (by rw [hx]) (fun _ => rfl) (fun s _ _ _ => hkept _ hx)
    (fun s row _ _ hrow hpin => ?_) fun y _ => hno y _
  obtain rfl : row.id = id := (Table.find_some hrow).2
  refine hok _ row (by simp [hx]) (by simp [hx, deliveryTasks]) hid (hpin.mono fun d hd => ?_)
  rw [hview] at hd
  exact hd

/-- The end of a session of which every commit is allowed. -/
theorem wp_deliveryCommit {α : Type} {a : α} {Q : Except PyError α → DeliveryAt → Prop}
    (hx : x.txn.failed = false)
    (hd : ∀ s, deliveryContract.Later c x s → DeliveryDoes c s.1 (x.txn.view s.1))
    (hQ : ∀ y r, Q r y) :
    deliveryContract.wp c (Prog.commitSession >>= fun _ => .ret a)
      (fun r y => ∀ s, deliveryContract.Later c y s → deliveryContract.assume c (y.now s) →
        Q r (y.now s).closed) x :=
  wp_commit_close hx (fun s hs _ => ⟨hd s hs, trivial⟩) (fun _ y _ _ _ => hQ y _)
    fun _ _ _ _ _ => hQ _ _

theorem wp_transitionTask {event : DeliveryEvent} {Q : Except PyError DeliveryResult → DeliveryAt → Prop}
    (hx : x.txn = {}) (hQ : ∀ y r, Q r y) :
    deliveryContract.wp (.transitionTask taskId event) (transitionTask taskId event) Q x := by
  refine wp_withSession ?_
  have hkept : ∀ (y : DeliveryAt) (r : DeliveryResult), y.txn = {} →
      deliveryContract.wp (.transitionTask taskId event) (Prog.commitSession >>= fun _ => .ret r)
        (fun r y => ∀ s, deliveryContract.Later (.transitionTask taskId event) y s →
          deliveryContract.assume (.transitionTask taskId event) (y.now s) → Q r (y.now s).closed)
        y :=
    fun y r hy => wp_deliveryCommit (by rw [hy]) (fun s _ => by rw [hy]; exact .nothing) hQ
  rw [wp_bind, deliveryTransition, wp_bind]
  refine wp_deliveryState hx (fun y st hy => ?_) fun y e s _ _ => hQ _ _
  dsimp only
  cases htr : deliveryTransitions st event with
  | none => exact hkept _ _ hy
  | some st' =>
      obtain rfl := deliveryTransitions_target htr
      dsimp only
      rw [wp_bind]
      refine wp_writeDeliveryState hy (fun z row hz hzw hid hpin => ?_) (fun z hz => hkept _ _ hz)
        fun z e s _ _ => hQ _ _
      refine wp_deliveryCommit hz (fun s hs => ?_) hQ
      have hview : z.txn.view s.1 = { s.1 with
          tasks := s.1.tasks.put { row with state := deliveryTarget event } } := by
        rw [Txn.view, hzw]
        rfl
      rw [hview]
      exact .moved taskId event row rfl hid (hs.pinned hpin)

theorem wp_createTask {orderId : String} {Q : Except PyError DeliveryTask → DeliveryAt → Prop}
    (hx : x.txn = {}) (hQ : ∀ y r, Q r y) :
    deliveryContract.wp c (createTask orderId) Q x := by
  refine wp_withSession ?_
  rw [wp_bind, createDeliveryTask, wp_bind]
  refine wp_deliveryUuid (fun order _ => ?_) fun e s _ _ => hQ _ _
  dsimp only
  rw [wp_bind]
  intro s₀ _ _ n
  rw [wp_ret]
  dsimp only
  rw [wp_bind]
  generalize ({ id := BitVec.ofNat 128 n, orderId := order, state := .UNASSIGNED } : DeliveryTask) =
    row
  refine deliveryTasks.wp_insert (by simp [hx]) (fun s hs _ _ hpin => ?_) fun _ _ _ _ _ => hQ _ _
  refine wp_deliveryCommit (by simp [hx]) (fun s' hs' => ?_) hQ
  have habs := hs'.pinned hpin
  simp only [CallState.now_txn, hx, Txn.view_empty] at habs
  have hview : (((x.now s₀).now s).wrote [deliveryTasks.write row]).txn.view s'.1 =
      { s'.1 with tasks := s'.1.tasks.put row } := by
    rw [Txn.view, CallState.wrote_writes, CallState.now_txn, CallState.now_txn, hx]
    rfl
  rw [hview]
  exact .created _ habs

theorem valid_delivery : deliveryContract.Valid delivery where
  body c d m _ _ := by
    cases c with
    | createTask orderId =>
        change deliveryContract.wp _ (createTask orderId >>= fun task => .ret (DeliveryAnswer.task task)) _ _
        rw [wp_bind]
        exact wp_createTask rfl fun y r => by cases r <;> exact trivial
    | transitionTask taskId event =>
        change deliveryContract.wp _
          (transitionTask taskId event >>= fun result =>
            .ret (DeliveryAnswer.transition result)) _ _
        rw [wp_bind]
        exact wp_transitionTask rfl fun y r => by cases r <;> exact trivial
  compat _ _ _ _ _ _ _ _ _ _ := trivial
  move v := nomatch v
  restart _ _ _ := trivial
  post _ _ _ _ _ _ := trivial

end Specs

/-! ## Runs -/

/-- The stored task a transition is about, and its event. -/
def DeliveryCall.about (d : DeliveryDatabase) : DeliveryCall → Option (DeliveryTask × DeliveryEvent)
  | .createTask _ => none
  | .transitionTask taskId event => ((readUuid taskId).bind d.tasks.find).map fun row => (row, event)

/-- Where the step commits a transition, its event is still allowed in the state
the task is stored in, or has led there already. -/
def NotOvertaken (c : DeliveryConfig) : Action DeliveryCall delivery.Move → Prop
  | .run i _ => ∀ t ∈ c.threads[i]?, t.committing = true → ∀ p ∈ t.call.about c.db,
      (deliveryTransitions p.1.state p.2).isSome = true ∨ p.1.state = deliveryTarget p.2
  | _ => True

instance (c : DeliveryConfig) (a : Action DeliveryCall delivery.Move) :
    Decidable (NotOvertaken c a) := by
  cases a <;> unfold NotOvertaken <;> infer_instance

section Runs

variable {d : DeliveryDatabase} {c c' : DeliveryConfig}

/-- `c'` is reached from `c` by any number of steps of any kind. -/
abbrev DeliveryReaches (c c' : DeliveryConfig) : Prop := delivery.Runs (fun _ _ => True) c c'

theorem allows_delivery (c : DeliveryConfig) (a : Action DeliveryCall delivery.Move) :
    deliveryContract.Allows (S := delivery) c a := by
  cases a with
  | call k => exact ⟨trivial, fun _ _ _ => ⟨trivial, trivial⟩⟩
  | run i n => exact fun _ _ => ⟨trivial, fun _ => trivial⟩
  | fault i => exact fun _ _ => ⟨trivial, trivial⟩
  | kill i => exact trivial
  | restart => exact trivial
  | world v => exact trivial

theorem DeliveryReaches.ok (h : DeliveryReaches (Config.start d ()) c) : deliveryContract.Ok c :=
  (Ok.start trivial).runs valid_delivery (fun c a _ _ => allows_delivery c a) h

/-- A step that does not commit a transition that was overtaken follows the graph. -/
theorem tasks_moved_of_step {a : Action DeliveryCall delivery.Move} (hc : deliveryContract.Ok c)
    (ha : NotOvertaken c a) (hs : delivery.step c a = some c') :
    c.db.tasks.Grows DeliveryTask.Moved c'.db.tasks := by
  rcases hc.db_of_step (fun _ _ => trivial) hs with hd | ⟨i, n, t, rfl, ht, hcom, hg⟩
  · exact hd ▸ .refl DeliveryTask.Moved.refl _
  · have hg : DeliveryDoes t.call c.db c'.db := hg
    generalize hd' : c'.db = d' at hg
    cases hg with
    | nothing => exact .refl DeliveryTask.Moved.refl _
    | created row habs => exact .put_absent DeliveryTask.Moved.refl habs
    | moved taskId event row hcall hid hfind =>
        refine .put DeliveryTask.Moved.refl fun old hold => ?_
        rw [show ({ row with state := deliveryTarget event } : DeliveryTask).id = row.id from rfl,
          hfind] at hold
        obtain rfl := Option.some.inj hold
        have habout : (row, event) ∈ t.call.about c.db := by
          simp [hcall, DeliveryCall.about, hid, hfind]
        rcases ha t ht hcom _ habout with hsome | hsame
        · obtain ⟨st, htr⟩ := Option.isSome_iff_exists.mp hsome
          exact Or.inr ⟨event, by rw [htr, deliveryTransitions_target htr]⟩
        · exact Or.inl hsame.symm

/-- In every run none of whose commits is of a transition that was overtaken,
every step moves every stored task along an edge of `DELIVERY_TRANSITIONS` from
the state stored just before or not at all, and a task that is `DELIVERED` or
`FAILED` stays so. -/
theorem delivery_transitions_follow_graph (h : delivery.Runs NotOvertaken (Config.start d ()) c) :
    (∀ a c', NotOvertaken c a → delivery.step c a = some c' →
      c.db.tasks.Grows DeliveryTask.Moved c'.db.tasks) ∧
    ∀ c', delivery.Runs NotOvertaken c c' → ∀ id row, c.db.tasks.find id = some row →
      row.state = .DELIVERED ∨ row.state = .FAILED →
      ∃ row', c'.db.tasks.find id = some row' ∧ row'.state = row.state := by
  have hreach := h.mono _ fun _ _ _ => trivial
  refine ⟨fun a c' ha hs => tasks_moved_of_step (DeliveryReaches.ok hreach) ha hs,
    fun c' h' id row hid hst => ?_⟩
  induction h' with
  | refl => exact ⟨row, hid, rfl⟩
  | step hr ha hs ih =>
      obtain ⟨row₁, hid₁, hst₁⟩ := ih
      have hr := hr.mono _ fun _ _ _ => trivial
      obtain ⟨row', hid', hm⟩ :=
        tasks_moved_of_step (DeliveryReaches.ok (hreach.trans _ hr)) ha hs id row₁ hid₁
      exact ⟨row', hid', (hm.terminal (hst₁ ▸ hst)).trans hst₁⟩

end Runs

/-- One task on its way. -/
def sampleTasks : DeliveryDatabase where
  tasks := Table.empty.put { id := 1, orderId := 5, state := .ON_ROUTE }
  orders := [5]

/-- The state of the task. -/
def taskState (c : DeliveryConfig) : Option DeliveryState :=
  (c.db.tasks.find 1).map DeliveryTask.state

/-- Of two calls that both read `ON_ROUTE` the first delivers the task, and the
second takes it from `DELIVERED` to `FAILED`. -/
theorem delivery_delivered_then_failed :
    ¬ ∀ c a c', DeliveryReaches (Config.start sampleTasks ()) c → delivery.step c a = some c' →
      c.db.tasks.Grows DeliveryTask.Moved c'.db.tasks := by
  intro hall
  obtain ⟨c, c', hr, hs, hf⟩ := System.Runs.exists_step_of_exec delivery (fun _ _ => True)
    (Config.start sampleTasks ())
    [.call (.transitionTask (Uuid.text 1) .COMPLETE),
      .call (.transitionTask (Uuid.text 1) .FAIL), .run 1 0, .run 0 0, .run 0 0, .run 0 0, .run 0 0,
      .run 1 0]
    (a := .run 1 0) (f := fun c c' => (taskState c, taskState c'))
    (v := (some .DELIVERED, some .FAILED)) (fun _ _ _ => trivial) (by decide +kernel)
  obtain ⟨hd, hd'⟩ := Prod.mk.inj hf
  obtain ⟨row, hrow, hst⟩ := Option.map_eq_some_iff.mp hd
  obtain ⟨row', hrow', hm⟩ := hall c _ c' hr hs 1 row hrow
  rw [taskState, hrow', Option.map_some, hm.terminal (Or.inl hst), hst] at hd'
  cases hd'

/-- A task is delivered by a call that no other overtakes. -/
theorem delivery_transitions_follow_graph_complete :
    ∃ c, delivery.Runs NotOvertaken (Config.start sampleTasks ()) c ∧
      taskState c = some .DELIVERED ∧
      ∀ a c', NotOvertaken c a → delivery.step c a = some c' →
        c.db.tasks.Grows DeliveryTask.Moved c'.db.tasks := by
  obtain ⟨c, hr, hc⟩ := System.Runs.exists_of_execIf delivery NotOvertaken
    (Config.start sampleTasks ())
    [.call (.transitionTask (Uuid.text 1) .COMPLETE),
      .run 0 0, .run 0 0, .run 0 0, .run 0 0] (f := taskState)
    (v := some .DELIVERED) (by decide +kernel)
  exact ⟨c, hr, hc, (delivery_transitions_follow_graph hr).1⟩

end Sieshka
