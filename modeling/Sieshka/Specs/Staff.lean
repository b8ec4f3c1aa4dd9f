import Sieshka.Specs.Transitions

/-!
# Kitchen tickets and staff buttons

A ticket moves along its graph, and a hand-off goes on to its order.
-/

namespace Sieshka

open Transactions Contract
open Relation (ReflTransGen)

section Specs

variable {K : ShopContract} {c : Call} {x y z : CallAt} {ticketId : String}

/-- The states a kitchen tool takes a ticket from and to. -/
def kitchenStep : KitchenEvent → KitchenState × KitchenState
  | .QUEUE => (.NEW, .QUEUED)
  | .START_PREP => (.QUEUED, .PREPARING)
  | .MARK_READY => (.PREPARING, .READY)
  | .HAND_OFF => (.READY, .HANDED_OFF)

theorem kitchenTransitions_step (event : KitchenEvent) :
    kitchenTransitions (kitchenStep event).1 event = some (kitchenStep event).2 := by
  cases event <;> rfl

theorem wp_writeKitchenState {fromState toState : KitchenState}
    {Q : Except PyError String → CallAt → Prop} (hx : x.txn = {})
    (hok : ∀ y row, K.Extends c x y → y.txn.failed = false →
      y.txn.writes = [.kitchenTicket { row with state := toState }] →
      readUuid ticketId = some row.id → row.state = fromState →
      y.Pins (fun d => d.kitchenTickets.find row.id = some row) → Q (.ok "OK") y)
    (hno : ∀ y e, K.Follows c x y → Q (.error e) y) :
    K.wp c (writeKitchenState ticketId fromState toState) Q x := by
  have hlive : x.txn.failed = false := by rw [hx]
  have hview : ∀ d : Database, x.txn.view d = d := fun d => by rw [hx]; rfl
  have hempty : x.txn.writes = [] := by rw [hx]
  rw [writeKitchenState, wp_bind]
  refine wp_uuid (fun id hid => ?_) fun _ e => hno _ e .refl
  dsimp only
  rw [wp_bind]
  refine kitchenTickets.wp_findForUpdate hlive (fun s hs _ _ => hno _ _ (.now hs))
    (fun s row hs _ hrow hpin => ?_) fun y hy => hno y _ hy.toFollows
  have hlocked := (Extends.now hs).trans (.locked [kitchenTickets.lock id])
  obtain rfl : row.id = id := (Table.find_some hrow).2
  dsimp only
  split_ifs with hst
  · exact hno _ _ hlocked.toFollows
  · rw [wp_bind]
    refine kitchenTickets.wp_update_pinned hlive (fun _ => rfl) (r := row) hpin
      (fun y hy hyx hyw => ?_) fun y hy => hno y _ (hlocked.toFollows.trans hy.toFollows)
    refine hok y row (hlocked.trans hy) hyx ?_ hid (not_not.mp hst) (hy.pins (hpin.mono fun d hd => ?_))
    · rw [hyw, CallState.locked_writes, CallState.now_txn, hempty]
      rfl
    · rw [hview] at hd
      exact hd

/-- The tool of a kitchen program. -/
theorem kitchenTools_eq (ticketId : String) (event : KitchenEvent) : ∃ tool,
    kitchenProgram event =
      [⟨.write_state, .write_result, .tool tool [(.ticket_id, .context .ticket_id)] none⟩] ∧
    kitchenTools tool [(.ticket_id, .text ticketId)] =
      writeKitchenState ticketId (kitchenStep event).1 (kitchenStep event).2 >>= fun ok =>
        .ret (.text ok) := by
  cases event <;> exact ⟨_, rfl, rfl⟩

theorem wp_kitchenProgram {event : KitchenEvent}
    {Q : Except PyError (VmTrace KitchenName) → CallAt → Prop} (hx : x.txn = {})
    (hok : ∀ y row outputs, K.Extends c x y → y.txn.failed = false →
      y.txn.writes = [.kitchenTicket { row with state := (kitchenStep event).2 }] →
      readUuid ticketId = some row.id → row.state = (kitchenStep event).1 →
      y.Pins (fun d => d.kitchenTickets.find row.id = some row) → Q (.ok { outputs }) y)
    (hno : ∀ y outputs e, K.Follows c x y → Q (.ok { outputs, error := some e }) y) :
    K.wp c (vmRun kitchenTools (kitchenProgram event) [(.ticket_id, .text ticketId)]) Q x := by
  obtain ⟨tool, hprog, htool⟩ := kitchenTools_eq ticketId event
  rw [hprog]
  refine wp_vmRun_single rfl ?_
  change K.wp c (kitchenTools tool [(.ticket_id, .text ticketId)]) _ x
  rw [htool, wp_bind]
  exact wp_writeKitchenState hx
    (fun y row hy hyx hyw hid hst hpin => hok y row _ hy hyx hyw hid hst hpin)
    fun y e hy => hno y _ _ hy

/-- The call has committed the transition of the ticket on its way from `x` to `y`. -/
def TicketMade (K : ShopContract) (c : Call) (ticketId : String) (event : KitchenEvent)
    (x y : CallAt) : Prop :=
  ∃ d row, K.Committed c d { d with
      kitchenTickets := d.kitchenTickets.put { row with state := (kitchenStep event).2 } } x y ∧
    readUuid ticketId = some row.id ∧ d.kitchenTickets.find row.id = some row ∧
    row.state = (kitchenStep event).1 ∧ Evolves (x.db, x.mem) (y.db, y.mem)

theorem TicketMade.txn {event : KitchenEvent} (h : TicketMade K c ticketId event x y) :
    y.txn = {} := by
  obtain ⟨d, row, hcm, -⟩ := h
  exact hcm.txn

theorem TicketMade.evolves {event : KitchenEvent} (h : TicketMade K c ticketId event x y) :
    Evolves (x.db, x.mem) (y.db, y.mem) := by
  obtain ⟨d, row, -, -, -, -, h⟩ := h
  exact h

theorem wp_runTicketTransition {cfg : Settings} (hK : IsShop cfg K) (hc : K.calls c)
    {event : KitchenEvent} {Q : Except PyError KitchenResult → CallAt → Prop} (hx : x.txn = {})
    (hmay : ∀ s id, K.Since c (x.db, x.mem) s → readUuid ticketId = some id →
      MayMove cfg c x.past s.1 id event)
    (hok : ∀ y, TicketMade K c ticketId event x y →
      Q (.ok (transitioned (kitchenStep event).2)) y)
    (hno : ∀ y r, y.txn = {} → K.Follows c x y → (∀ res, r = .ok res → res.success = false) →
      Q r y) : K.wp c (runTicketTransition ticketId event) Q x := by
  have hlive : x.txn.failed = false := by rw [hx]
  -- where the session gives up, it is only left to close it
  have hgive : ∀ y (r : Except PyError KitchenResult), K.Follows c x y →
      (∀ res, r = .ok res → res.success = false) →
      ∀ s, K.Later c y s → K.assume c (y.now s) → Q r (y.now s).closed :=
    fun y r hy hr s hs _ => hno _ r rfl (hy.trans ((Follows.now hs).trans .closed)) hr
  have herr : ∀ y (e : PyError), K.Follows c x y →
      ∀ s, K.Later c y s → K.assume c (y.now s) → Q (.error e) (y.now s).closed :=
    fun y e hy => hgive y _ hy fun _ h => by cases h
  have hrej : ∀ y (r : KitchenResult), r.success = false → K.Follows c x y →
      ∀ s, K.Later c y s → K.assume c (y.now s) → Q (.ok r) (y.now s).closed :=
    fun y r hr hy => hgive y _ hy fun res h => by cases h; exact hr
  refine wp_withSession ?_
  rw [wp_bind, ticketState, wp_bind]
  refine wp_uuid (fun id hid => ?_) fun _ e => herr x e .refl
  dsimp only
  rw [wp_bind]
  refine kitchenTickets.wp_find hlive (fun s hs _ => ?_) fun y hy => herr y _ hy.toFollows
  have hnow : K.Follows c x (x.now s) := .now hs
  dsimp only
  cases hrow : (kitchenTickets.table (x.txn.view s.1)).find id with
  | none => exact herr _ _ hnow
  | some row =>
      simp only [Prog.pure_eq, wp_ret]
      cases htr : kitchenTransitions row.state event with
      | none => exact hrej _ _ rfl hnow
      | some st =>
          obtain rfl : st = (kitchenStep event).2 := by
            cases event <;> cases hst : row.state <;> simp_all [kitchenTransitions, kitchenStep]
          dsimp only
          rw [wp_bind]
          refine wp_kitchenProgram (x := x.now s) hx
            (fun y row' out hy hyx hyw hid' hst hpin => ?_)
            fun y out e hy => hrej y _ rfl (hnow.trans hy)
          obtain rfl : id = row'.id := Option.some.inj (hid.symm.trans hid')
          have hview : ∀ d : Database, y.txn.view d = { d with
              kitchenTickets :=
                d.kitchenTickets.put { row' with state := (kitchenStep event).2 } } := by
            intro d
            rw [Txn.view, hyw]
            rfl
          have hxy : K.Follows c x y := hnow.trans hy.toFollows
          have hcommit : ∀ s', K.Later c y s' →
              Commits cfg K.assume K.rely c y.past s' y.txn.writes (y.txn.view s'.1) := by
            intro s' hs'
            rw [hview]
            refine .ticketMoved row' event _ (hs'.pinned hpin) ?_ ?_
            · rw [hxy.past]
              exact hmay s' _ (hxy.since.trans hs'.since) hid'
            rw [hst]
            exact kitchenTransitions_step event
          refine wp_commit hK hc hyx hcommit (fun s' w hs' _ hcm => ?_)
            fun w hw => herr w _ (hxy.trans hw.toFollows)
          have hev := (hK.evolves hxy.since).trans (hK.evolves_committed (hcommit s' hs') hcm)
          rw [hview] at hcm
          exact hok w ⟨s'.1, row', hcm.of_follows hxy, hid', hs'.pinned hpin, hst, hev⟩

/-! ## After a hand-off -/

/-- The order of a ticket, with its delivery mode. -/
def OrderOf (d : Database) (ticketId : String) (order : Uuid) (deliveryMode : Option String) :
    Prop :=
  ∃ ticket row, readUuid ticketId = some ticket.id ∧
    d.kitchenTickets.find ticket.id = some ticket ∧ ticket.orderId = order ∧
    d.orders.find order = some row ∧ row.deliveryMode = deliveryMode

theorem wp_ticketOrder {Q : Except PyError (Option (Uuid × Option String)) → CallAt → Prop}
    (hx : x.txn = {})
    (hok : ∀ y s order mode, y.txn = {} → y.past = x.past → K.Since c (x.db, x.mem) s →
      OrderOf s.1 ticketId order mode → K.Since c s (y.db, y.mem) → Q (.ok (some (order, mode))) y)
    (hno : ∀ y r, y.txn = {} → K.Through c x
      (fun z => K.faulty c z ∨ ∀ order mode, ¬ OrderOf z.db ticketId order mode) y →
      (∀ a, r ≠ .ok (some a)) → Q r y) :
    K.wp c (ticketOrder ticketId) Q x := by
  have hview : ∀ d : Database, x.txn.view d = d := fun d => by rw [hx]; rfl
  refine wp_withSession ?_
  rw [wp_bind]
  refine wp_uuid (fun id hid => ?_) fun hbad e s hs ha => ?_
  · refine wp_select (by rw [hx]) (fun s hs ha s' hs' _ => ?_) fun y hy s hs _ =>
      hno _ _ rfl ((hy.closed hs).mono fun _ => Or.inl) (by simp)
    rw [hview]
    have hnone : (∀ order mode, ¬ OrderOf s.1 ticketId order mode) →
        Q (.ok none) ((x.now s).now s').closed := fun h =>
      hno _ _ rfl ((Through.now hs ha (Or.inr h)).follows ((Follows.now hs').trans .closed))
        (by simp)
    cases hticket : s.1.kitchenTickets.find id with
    | none =>
        refine hnone fun order mode horder => ?_
        obtain ⟨ticket, row, hid', hfind, -⟩ := horder
        obtain rfl := Option.some.inj (hid.symm.trans hid')
        rw [hticket] at hfind
        cases hfind
    | some ticket =>
        have htid : ticket.id = id := (Table.find_some hticket).2
        cases horder : s.1.orders.find ticket.orderId with
        | none =>
            simp only [Option.bind_some, horder, Option.map_none]
            refine hnone fun order mode hmode => ?_
            obtain ⟨ticket', row, hid', hfind, ho, hrow, -⟩ := hmode
            obtain rfl := Option.some.inj (hid.symm.trans hid')
            obtain rfl := Option.some.inj (hticket.symm.trans hfind)
            rw [← ho, horder] at hrow
            cases hrow
        | some row =>
            simp only [Option.bind_some, horder, Option.map_some]
            have hoid : row.id = ticket.orderId := (Table.find_some horder).2
            refine hok _ s _ _ rfl rfl hs.since ⟨ticket, row, htid ▸ hid, htid ▸ hticket, ?_, ?_, rfl⟩
              hs'.since
            · exact hoid.symm
            · rw [hoid]
              exact horder
  · refine hno _ _ rfl ((Through.now hs ha (Or.inr fun order mode horder => ?_)).follows
      .closed) (by simp)
    obtain ⟨ticket, -, hid, -⟩ := horder
    rw [hbad] at hid
    cases hid

/-- The order of a ticket the call has handed off. -/
theorem TicketMade.handsOff {cfg : Settings} (hK : IsShop cfg K)
    (h : TicketMade K c ticketId .HAND_OFF x y) {s : State} {order : Uuid} {mode : Option String}
    (hs : K.Since c (y.db, y.mem) s) (ho : OrderOf s.1 ticketId order mode) :
    ∃ p, y.past = x.past ++ [p] ∧ HandsOff p ticketId order := by
  obtain ⟨d, row, ⟨-, hpast, m, -, h₂⟩, hid, hfind, hst, -⟩ := h
  obtain ⟨ticket, _, hid', hticket, horder, -⟩ := ho
  have htid : row.id = ticket.id := Option.some.inj (hid.symm.trans hid')
  have hput := Table.find_put_self d.kitchenTickets { row with state := (kitchenStep .HAND_OFF).2 }
  obtain ⟨ticket', hticket', hlater⟩ := (hK.evolves (h₂.trans hs)).tickets _ _ hput
  have hsame : ticket' = ticket := by
    rw [show ({ row with state := (kitchenStep .HAND_OFF).2 } : KitchenTicket).id = ticket.id
      from htid, hticket] at hticket'
    exact (Option.some.inj hticket').symm
  subst hsame
  exact ⟨_, hpast, row, hid, hfind, hlater.symm.trans horder, hst, rfl⟩

/-- A packed order was cooking. -/
theorem Made.packs {orderId : String} {st : OrderState} {order : Uuid}
    (h : Made K c orderId .START_PACKING st x y) (hid : readUuid orderId = some order) :
    ∃ q, y.past = x.past ++ [q] ∧ StateAt q.1 order .COOKING ∧ StateAt q.2 order .PACKING := by
  obtain ⟨d, d', row, row', hcm, hid', hfind, htr, horders, hrow, -⟩ := h
  obtain rfl : order = row.id := Option.some.inj (hid.symm.trans hid')
  have hput : d'.orders.find row.id = some row' := by
    rw [horders, show row.id = row'.id by rw [hrow]]
    exact Table.find_put_self _ _
  have hst := orderTransitions_startPacking htr
  refine ⟨(d, d'), hcm.past, ⟨row, hfind, hst.1⟩, row', hput, ?_⟩
  rw [hrow]
  exact hst.2

/-- A transition whose outcome nothing depends on. -/
theorem wp_anyTransition {cfg : Settings} (hK : IsShop cfg K) (hc : K.calls c) {orderId : String}
    {event : OrderEvent} {Q : Except PyError OrderResult → CallAt → Prop} (hx : x.txn = {})
    (hmay : ∀ s row, K.Since c (x.db, x.mem) s → readUuid orderId = some row.id →
      May cfg c x.past s.1 row event)
    (h : ∀ y r, y.txn = {} → Q r y) : K.wp c (transitionOrder orderId event) Q x :=
  wp_transitionOrder hK hc hx (fun s row hs _ hid => hmay s row hs hid)
    (fun y _ hy => h y _ hy.txn) (fun y _ hy _ _ => h y _ hy) fun y _ hy _ => h y _ hy

/-- What has become of the order after a hand-off, on the way from `x` to `y`. -/
inductive Advanced (K : ShopContract) (c : Call) (ticketId : String) (x y : CallAt) : Prop
  | lost (h : K.Through c x
      (fun z => K.faulty c z ∨ ∀ order mode, ¬ OrderOf z.db ticketId order mode) y)
  | unpacked (s : State) (order : Uuid) (mode : Option String) (w : CallAt)
      (hs : K.Since c (x.db, x.mem) s) (ho : OrderOf s.1 ticketId order mode)
      (hw : K.Follows c x w) (hsw : K.Since c s (w.db, w.mem))
      (h : Refused K c order.text .START_PACKING w y)
  | packed (s : State) (order : Uuid) (mode : Option String) (w : CallAt) (st : OrderState)
      (hs : K.Since c (x.db, x.mem) s) (ho : OrderOf s.1 ticketId order mode)
      (hw : K.Follows c x w) (hsw : K.Since c s (w.db, w.mem)) (hmode : mode ≠ some "pickup")
      (h : Made K c order.text .START_PACKING st w y)
  | unclosed (s : State) (order : Uuid) (mode : Option String) (w v : CallAt) (st : OrderState)
      (hs : K.Since c (x.db, x.mem) s) (ho : OrderOf s.1 ticketId order mode)
      (hw : K.Follows c x w) (hsw : K.Since c s (w.db, w.mem)) (hmode : mode = some "pickup")
      (h : Made K c order.text .START_PACKING st w v) (h' : Refused K c order.text .CLOSE v y)
  | closed (s : State) (order : Uuid) (mode : Option String) (w v : CallAt) (st st' : OrderState)
      (hs : K.Since c (x.db, x.mem) s) (ho : OrderOf s.1 ticketId order mode)
      (hw : K.Follows c x w) (hsw : K.Since c s (w.db, w.mem)) (hmode : mode = some "pickup")
      (h : Made K c order.text .START_PACKING st w v)
      (h' : Made K c order.text .CLOSE st' v y)

theorem OrderOf.later {s s' : State} {order : Uuid} {mode : Option String}
    (h : OrderOf s.1 ticketId order mode) (he : Evolves s s') : OrderOf s'.1 ticketId order mode := by
  obtain ⟨ticket, row, hid, hticket, ho, hrow, hmode⟩ := h
  obtain ⟨ticket', hticket', hlater⟩ := he.tickets _ _ hticket
  obtain ⟨row', hrow', hl⟩ := he.orders _ _ hrow
  have htid : ticket'.id = ticket.id := (Table.find_some hticket').2
  exact ⟨ticket', row', htid ▸ hid, htid ▸ hticket', hlater.trans ho, hrow',
    by rw [hl.same]; exact hmode⟩

theorem wp_advanceOrder {cfg : Settings} (hK : IsShop cfg K) (hc : K.calls c)
    (hmay : ∀ past s row event, Evolves (x.db, x.mem) s →
      MayAdvance past ticketId .HAND_OFF row event → May cfg c past s.1 row event)
    {Q : Except PyError Unit → CallAt → Prop} (hx : x.txn = {})
    (hoff : ∀ s order mode, K.Since c (x.db, x.mem) s → OrderOf s.1 ticketId order mode →
      ∃ p, x.past = [p] ∧ HandsOff p ticketId order)
    (h : ∀ y r, y.txn = {} → Advanced K c ticketId x y → Q r y) :
    K.wp c (advanceOrder ticketId) Q x := by
  rw [advanceOrder, wp_bind]
  refine wp_ticketOrder hx (fun w s order mode hw hpast hs ho hsw => ?_) fun y r hy hl hr => ?_
  · have hxw : K.Follows c x w := ⟨hpast, hs.trans hsw⟩
    obtain ⟨p, hp, hhand⟩ := hoff s order mode hs ho
    dsimp only
    rw [wp_bind]
    refine wp_transitionOrder hK hc hw (fun s' row hs' _ hid => ?_) (fun v st hmade => ?_)
      (fun y res hy href hres => ?_) fun y e hy hb => ?_
    · obtain rfl : order = row.id := by simpa using hid
      exact hmay _ s' row _ (hK.evolves (hxw.since.trans hs'))
        ⟨rfl, p, hhand, Or.inl ⟨rfl, hpast.trans hp⟩⟩
    · dsimp only
      by_cases hmode : mode = some "pickup"
      · rw [if_pos ⟨rfl, hmode⟩, wp_bind]
        refine wp_transitionOrder hK hc hmade.txn (fun s' row hs' hrow hid => ?_)
          (fun y st' hclosed => ?_) (fun y res hy href _ => ?_) fun y e hy hb => ?_
        · obtain rfl : order = row.id := by simpa using hid
          have hws : Evolves (w.db, w.mem) s' := hmade.evolves.trans (hK.evolves hs')
          obtain ⟨q, hq, hpacks⟩ := hmade.packs (readUuid_text _)
          refine hmay _ s' row _ ((hK.evolves hxw.since).trans hws)
            ⟨rfl, p, hhand, Or.inr ⟨rfl, ?_, q, ?_, hpacks⟩⟩
          · obtain ⟨ticket, row', _, _, _, hrow', hm⟩ := ho.later ((hK.evolves hsw).trans hws)
            obtain rfl := Option.some.inj (hrow.symm.trans hrow')
            exact hm.trans hmode
          · rw [hq, hpast, hp]
            rfl
        · exact h y _ hclosed.txn (.closed s _ _ w v _ _ hs ho hxw hsw hmode hmade hclosed)
        · exact h y _ hy (.unclosed s _ _ w v _ hs ho hxw hsw hmode hmade href)
        · exact h y _ hy (.unclosed s _ _ w v _ hs ho hxw hsw hmode hmade
            (hb.mono fun _ => .broke))
      · rw [if_neg fun hp => hmode hp.2]
        exact h v _ hmade.txn (.packed s _ _ w _ hs ho hxw hsw hmode hmade)
    · dsimp only
      rw [if_neg (by simp [hres])]
      exact h y _ hy (.unpacked s _ _ w hs ho hxw hsw href)
    · exact h y _ hy (.unpacked s _ _ w hs ho hxw hsw (hb.mono fun _ => .broke))
  · have hlost := Advanced.lost hl
    match r with
    | .error e => exact h _ _ hy hlost
    | .ok none => exact h _ _ hy hlost
    | .ok (some a) => exact absurd rfl (hr a)

/-- What a press on a kitchen card comes to. -/
inductive Ticketed (K : ShopContract) (c : Call) (ticketId : String) (event : KitchenEvent)
    (r : Except PyError KitchenResult) (x y : CallAt) : Prop
  | unmoved (h : K.Follows c x y) (hr : ∀ res, r = .ok res → res.success = false)
  | moved (h : TicketMade K c ticketId event x y) (he : event ≠ .HAND_OFF)
      (hr : r = .ok (transitioned (kitchenStep event).2))
  | handedOff (w : CallAt) (h : TicketMade K c ticketId event x w) (he : event = .HAND_OFF)
      (ha : Advanced K c ticketId w y) (hr : r = .ok (transitioned (kitchenStep event).2))

theorem wp_transitionTicket {cfg : Settings} (hK : IsShop cfg K) (hc : K.calls c)
    {event : KitchenEvent} {Q : Except PyError KitchenResult → CallAt → Prop} (hx : x.txn = {})
    (hpast : x.past = [])
    (hmove : ∀ s id, K.Since c (x.db, x.mem) s → readUuid ticketId = some id →
      MayMove cfg c x.past s.1 id event)
    (hmay : ∀ past s row ev, Evolves (x.db, x.mem) s →
      MayAdvance past ticketId event row ev → May cfg c past s.1 row ev)
    (h : ∀ y r, y.txn = {} → Ticketed K c ticketId event r x y → Q r y) :
    K.wp c (transitionTicket ticketId event) Q x := by
  rw [transitionTicket, wp_bind]
  refine wp_runTicketTransition hK hc hx hmove (fun w hmade => ?_) fun y r hy hf hr => ?_
  · dsimp only
    by_cases he : event = .HAND_OFF
    · subst he
      rw [if_pos ⟨rfl, rfl⟩, wp_bind, wp_andThen]
      refine wp_advanceOrder hK hc
        (fun past s row ev hs => hmay past s row ev (hmade.evolves.trans hs)) hmade.txn
        (fun s order mode hs ho => ?_) fun y r hy ha => ?_
      · obtain ⟨p, hp, hhand⟩ := hmade.handsOff hK hs ho
        exact ⟨p, by rw [hp, hpast, List.nil_append], hhand⟩
      · cases r with
        | error e => exact h _ _ hy (.handedOff w hmade rfl ha rfl)
        | ok u => exact h _ _ hy (.handedOff w hmade rfl ha rfl)
    · rw [if_neg fun hp => he hp.1]
      exact h _ _ hmade.txn (.moved hmade he rfl)
  · cases r with
    | error e => exact h _ _ hy (.unmoved hf hr)
    | ok result =>
        dsimp only
        rw [if_neg (by simp [hr result rfl])]
        exact h _ _ hy (.unmoved hf hr)

/-! ## The role tables -/

/-- What a press on a kitchen card through the role table comes to. -/
def KitchenDispatched (K : ShopContract) (c : Call) (role : StaffRole) (ticketId event : String)
    (r : Except PyError (Option KitchenResult)) (x y : CallAt) : Prop :=
  (r = .ok none ∧ y = x) ∨ ∃ ev res, KitchenEvent.ofValue event = some ev ∧
    kitchenRoleEvents role ev = true ∧ r = res.map some ∧ Ticketed K c ticketId ev res x y

theorem wp_dispatchKitchen {cfg : Settings} (hK : IsShop cfg K) (hc : K.calls c)
    {role : StaffRole} {event : String} (hpast : x.past = [])
    (hmove : ∀ s id ev, K.Since c (x.db, x.mem) s → readUuid ticketId = some id →
      KitchenEvent.ofValue event = some ev → kitchenRoleEvents role ev = true →
      MayMove cfg c x.past s.1 id ev)
    (hmay : ∀ past s row kev ev, Evolves (x.db, x.mem) s →
      KitchenEvent.ofValue event = some kev → kitchenRoleEvents role kev = true →
      MayAdvance past ticketId kev row ev → May cfg c past s.1 row ev)
    {Q : Except PyError (Option KitchenResult) → CallAt → Prop} (hx : x.txn = {})
    (h : ∀ y r, y.txn = {} → KitchenDispatched K c role ticketId event r x y → Q r y) :
    K.wp c (dispatchKitchen role ticketId event) Q x := by
  rw [dispatchKitchen]
  cases hev : KitchenEvent.ofValue event with
  | none => exact h _ _ hx (Or.inl ⟨rfl, rfl⟩)
  | some ev =>
      dsimp only
      split_ifs with hrole
      · rw [wp_bind]
        refine wp_transitionTicket hK hc hx hpast (fun s id hs hid => hmove s id ev hs hid hev hrole)
          (fun past s row e hs hadv => hmay past s row ev e hs hev hrole hadv) fun y r hy ht => ?_
        have hdone : KitchenDispatched K c role ticketId event (r.map some) x y :=
          Or.inr ⟨ev, r, hev, hrole, rfl, ht⟩
        cases r with
        | error e => exact h _ _ hy hdone
        | ok result => exact h _ _ hy hdone
      · exact h _ _ hx (Or.inl ⟨rfl, rfl⟩)

/-- What a press on an order card through the role table comes to. -/
inductive OrderDispatched (K : ShopContract) (c : Call) (role : StaffRole) (orderId event : String)
    (r : Except PyError (Option OrderResult)) (x y : CallAt) : Prop
  | denied (hr : r = .ok none) (hy : y = x)
  | made (ev : OrderEvent) (st : OrderState) (hev : OrderEvent.ofValue event = some ev)
      (hrole : orderRoleEvents role ev = true) (hr : r = .ok (some (transitioned st)))
      (h : Made K c orderId ev st x y)
  | refused (ev : OrderEvent) (res : OrderResult) (hev : OrderEvent.ofValue event = some ev)
      (hrole : orderRoleEvents role ev = true) (hr : r = .ok (some res)) (hres : res.success = false)
      (h : Refused K c orderId ev x y)
  | broke (ev : OrderEvent) (e : PyError) (hev : OrderEvent.ofValue event = some ev)
      (hrole : orderRoleEvents role ev = true) (hr : r = .error e)
      (h : K.Through c x (Broke K c orderId) y)

theorem wp_dispatchOrder {cfg : Settings} (hK : IsShop cfg K) (hc : K.calls c)
    {role : StaffRole} {orderId event : String}
    (hmay : ∀ s row ev, K.Since c (x.db, x.mem) s → readUuid orderId = some row.id →
      OrderEvent.ofValue event = some ev → orderRoleEvents role ev = true →
      May cfg c x.past s.1 row ev)
    {Q : Except PyError (Option OrderResult) → CallAt → Prop} (hx : x.txn = {})
    (h : ∀ y r, y.txn = {} → OrderDispatched K c role orderId event r x y → Q r y) :
    K.wp c (dispatchOrder role orderId event) Q x := by
  rw [dispatchOrder]
  cases hev : OrderEvent.ofValue event with
  | none => exact h _ _ hx (.denied rfl rfl)
  | some ev =>
      dsimp only
      split_ifs with hrole
      · rw [wp_bind]
        refine wp_transitionOrder hK hc hx (fun s row hs _ hid => hmay s row ev hs hid hev hrole)
          (fun y st hmade => ?_) (fun y res hy href hres => ?_) fun y e hy hb => ?_
        · exact h _ _ hmade.txn (.made ev st hev hrole rfl hmade)
        · exact h _ _ hy (.refused ev res hev hrole rfl hres href)
        · exact h _ _ hy (.broke ev e hev hrole rfl hb)
      · exact h _ _ hx (.denied rfl rfl)

end Specs

end Sieshka
