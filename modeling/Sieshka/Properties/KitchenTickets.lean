import Sieshka.Properties.OrderGraph

/-!
# Kitchen tickets move once per press

Every commit moves a ticket along an edge of its graph, no two commits move one
ticket by the same event, and the order of a ticket is advanced only by the
call that has handed the ticket off.
-/

namespace Sieshka

open Transactions Contract

/-! ## One edge -/

/-- The ticket is where it was, or one edge further. -/
def KitchenTicket.Moved (r r' : KitchenTicket) : Prop :=
  r'.orderId = r.orderId ∧
    (r'.state = r.state ∨ ∃ e, kitchenTransitions r.state e = some r'.state)

theorem KitchenTicket.Moved.refl (r : KitchenTicket) : r.Moved r := ⟨rfl, Or.inl rfl⟩

/-- How far a ticket has come. -/
def KitchenState.rank : KitchenState → Nat
  | NEW => 0
  | QUEUED => 1
  | PREPARING => 2
  | READY => 3
  | HANDED_OFF => 4

/-- An event has one source and one target, and the target comes next. -/
theorem kitchenTransitions_eq {st st' : KitchenState} {e : KitchenEvent}
    (h : kitchenTransitions st e = some st') :
    st = (kitchenStep e).1 ∧ st' = (kitchenStep e).2 ∧ st'.rank = st.rank + 1 := by
  cases st <;> cases e <;> simp only [kitchenTransitions, reduceCtorEq, Option.some.injEq] at h <;>
    (subst h; exact ⟨rfl, rfl, rfl⟩)

theorem KitchenTicket.Moved.rank_le {r r' : KitchenTicket} (h : r.Moved r') :
    r.state.rank ≤ r'.state.rank := by
  obtain ⟨-, h | ⟨e, h⟩⟩ := h
  · rw [h]
  · rw [(kitchenTransitions_eq h).2.2]
    exact Nat.le_succ _

/-- The commit moves the ticket by the event. -/
def MovesTicket (id : Uuid) (event : KitchenEvent) (d d' : Database) : Prop :=
  (d.kitchenTickets.find id).map KitchenTicket.state = some (kitchenStep event).1 ∧
    (d'.kitchenTickets.find id).map KitchenTicket.state = some (kitchenStep event).2

instance (id : Uuid) (event : KitchenEvent) (d d' : Database) :
    Decidable (MovesTicket id event d d') :=
  inferInstanceAs (Decidable (_ ∧ _))

/-- The ticket is stored and has come at least as far as the event leads. -/
def CameTo (id : Uuid) (event : KitchenEvent) (d : Database) : Prop :=
  ∃ ticket, d.kitchenTickets.find id = some ticket ∧
    (kitchenStep event).2.rank ≤ ticket.state.rank

section Commits

variable {cfg : Settings} {A : Call → CallAt → Prop} {R : Call → State → State → Prop} {c : Call}
variable {past : Past} {s : State} {ws : List Write} {d' : Database}

/-- Every commit moves every stored ticket along one edge or not at all. -/
theorem Commits.tickets_moved (h : Commits cfg A R c past s ws d') :
    s.1.kitchenTickets.Grows KitchenTicket.Moved d'.kitchenTickets := by
  have hsame := Table.Grows.refl KitchenTicket.Moved.refl s.1.kitchenTickets
  cases h with
  | duplicate _ _ _ => exact hsame
  | recorded row _ _ => exact hsame
  | answered body _ id rest _ _ _ => exact hsame
  | customer body _ row _ => exact hsame
  | placed body _ id customerId items totalRub promoCode discountRub _ _ _ => exact hsame
  | moved row row' event st _ _ _ _ _ => exact hsame
  | cooked row row' orderId items lines d₁ ticket _ _ _ _ _ _ _ hsells habs _ _ =>
      have htickets : d₁.kitchenTickets = s.1.kitchenTickets := by rw [hsells.steps.same]
      rw [htickets]
      exact .put_absent KitchenTicket.Moved.refl habs
  | paymentCreated row order orders' _ _ _ _ _ _ => exact hsame
  | settled kind orderId row order orders' _ _ _ _ _ _ _ => exact hsame
  | ticketMoved row event st hfind _ htr =>
      refine .put KitchenTicket.Moved.refl fun old hold => ?_
      rw [show ({ row with state := st } : KitchenTicket).id = row.id from rfl, hfind] at hold
      obtain rfl := Option.some.inj hold
      exact ⟨rfl, Or.inr ⟨event, htr⟩⟩
  | stock _ h _ =>
      have htickets : d'.kitchenTickets = s.1.kitchenTickets := by rw [h.same]
      rw [htickets]
      exact hsame

end Commits

/-! ## What a press does -/

/-- The commit moves the ticket along the edge of the event and changes nothing else. -/
def TicketEdge (p : Database × Database) (ticket : KitchenTicket) (event : KitchenEvent) : Prop :=
  p.1.kitchenTickets.find ticket.id = some ticket ∧
    ∃ st, kitchenTransitions ticket.state event = some st ∧
      p.2 = { p.1 with kitchenTickets := p.1.kitchenTickets.put { ticket with state := st } }

/-- The commit moves the order along the edge of the event and changes nothing else. -/
def OrderMove (p : Database × Database) (row : Order) (event : OrderEvent) : Prop :=
  p.1.orders.find row.id = some row ∧
    ∃ st traceId, orderTransitions row.state event = some st ∧
      p.2 = { p.1 with orders := p.1.orders.put { row with state := st, traceId := traceId } }

/-- The commits of a press on the card of a ticket: none, one edge of the ticket,
or a hand-off followed by the packing of its order, and by its closing when it
is picked up. -/
inductive TicketActed (ticketId : String) (event : KitchenEvent) : Past → Prop
  | nothing : TicketActed ticketId event []
  | moved {p ticket} (hid : readUuid ticketId = some ticket.id) (h : TicketEdge p ticket event) :
      TicketActed ticketId event [p]
  | packed {p q ticket row} (hid : readUuid ticketId = some ticket.id)
      (h : TicketEdge p ticket event) (hoff : event = .HAND_OFF) (horder : row.id = ticket.orderId)
      (hpack : OrderMove q row .START_PACKING) : TicketActed ticketId event [p, q]
  | closed {p q r ticket row row'} (hid : readUuid ticketId = some ticket.id)
      (h : TicketEdge p ticket event) (hoff : event = .HAND_OFF) (horder : row.id = ticket.orderId)
      (hpack : OrderMove q row .START_PACKING) (horder' : row'.id = ticket.orderId)
      (hmode : row'.deliveryMode = some "pickup") (hclose : OrderMove r row' .CLOSE) :
      TicketActed ticketId event [p, q, r]

/-- The ticket and the event that a call presses, whoever the sender is. -/
def Call.ticketPress (cfg : Settings) : Call → Option (String × KitchenEvent)
  | .transitionTicket ticketId event => some (ticketId, event)
  | .dispatchKitchen _ ticketId event => (KitchenEvent.ofValue event).map fun ev => (ticketId, ev)
  | .maxWebhook _ (some update) =>
      match callbackOf update with
      | .ok (some (callback, _)) =>
          match pressOf cfg callback with
          | .ok (some press) =>
              match press.kind with
              | .kitchen => (KitchenEvent.ofValue press.event).map fun ev => (press.entityId, ev)
              | .order => none
          | _ => none
      | _ => none
  | _ => none

/-- The press of a MAX request is the one its body says. -/
theorem Pressed.ticketPress {cfg : Settings} {secret : Option String} {body : Option Json}
    {d : Database} {role : StaffRole} {press : Press} (h : Pressed cfg secret body d role press) :
    (Call.maxWebhook secret body).ticketPress cfg = match press.kind with
      | .kitchen => (KitchenEvent.ofValue press.event).map fun ev => (press.entityId, ev)
      | .order => none := by
  obtain ⟨-, -, update, callback, sender, member, rfl, hcb, -, -, hpress⟩ := h
  simp only [Call.ticketPress, hcb, hpress]

section Press

variable {cfg : Settings} {c : Call} {past : Past} {d : Database} {tid : String}
variable {event : KitchenEvent}

/-- The tickets that a press may move. -/
theorem MayMove.ticketPress {id : Uuid} {ev : KitchenEvent} (h : MayMove cfg c past d id ev) :
    past = [] ∧ ∃ ticketId, c.ticketPress cfg = some (ticketId, ev) ∧
      readUuid ticketId = some id := by
  obtain ⟨hpast, h⟩ := h
  refine ⟨hpast, ?_⟩
  cases c with
  | dispatchKitchen role ticketId e =>
      obtain ⟨hid, hev, -⟩ := h
      exact ⟨ticketId, by rw [Call.ticketPress, hev]; rfl, hid⟩
  | transitionTicket ticketId e =>
      obtain ⟨hid, rfl⟩ := h
      exact ⟨ticketId, rfl, hid⟩
  | maxWebhook secret body =>
      obtain ⟨role, press, hp, hkind, hid, hev, -⟩ := h
      exact ⟨press.entityId, by rw [hp.ticketPress, hkind, hev]; rfl, hid⟩
  | _ => exact h.elim

/-- The orders that a press on a ticket may move. -/
theorem May.ticketPress {row : Order} {ev : OrderEvent} (hc : c.ticketPress cfg = some (tid, event))
    (h : May cfg c past d row ev) : MayAdvance past tid event row ev := by
  cases c with
  | dispatchKitchen role ticketId e =>
      obtain ⟨kev, hev, -, hadv⟩ := h
      rw [Call.ticketPress, hev] at hc
      obtain ⟨rfl, rfl⟩ := Prod.mk.inj (Option.some.inj hc)
      exact hadv
  | transitionTicket ticketId e =>
      obtain ⟨rfl, rfl⟩ := Prod.mk.inj (Option.some.inj hc)
      exact h
  | maxWebhook secret body =>
      obtain ⟨role, press, hp, h⟩ := h
      rw [hp.ticketPress] at hc
      cases hkind : press.kind with
      | kitchen =>
          rw [hkind] at h hc
          obtain ⟨kev, hev, -, hadv⟩ := h
          rw [hev] at hc
          obtain ⟨rfl, rfl⟩ := Prod.mk.inj (Option.some.inj hc)
          exact hadv
      | order =>
          rw [hkind] at hc
          cases hc
  | _ => simp [Call.ticketPress] at hc

/-- A press on a ticket makes no other commit. -/
theorem Call.ticketPress_only (hc : c.ticketPress cfg = some (tid, event)) :
    (∀ row, ¬ MayRecord cfg c row) ∧ (∀ body, c ≠ .checkout body) ∧
      (∀ past row amount currency, ¬ MayPay c past row amount currency) ∧
      (∀ past kind orderId row s, ¬ MaySettle cfg c past kind orderId row s) ∧ c.isStock = false := by
  cases c with
  | dispatchKitchen role ticketId e =>
      exact ⟨fun _ h => h, fun _ => by simp, fun _ _ _ _ h => h, fun _ _ _ _ _ h => h, rfl⟩
  | transitionTicket ticketId e =>
      exact ⟨fun _ h => h, fun _ => by simp, fun _ _ _ _ h => h, fun _ _ _ _ _ h => h, rfl⟩
  | maxWebhook secret body =>
      exact ⟨fun _ h => h, fun _ => by simp, fun _ _ _ _ h => h, fun _ _ _ _ _ h => h, rfl⟩
  | _ => simp [Call.ticketPress] at hc

/-- One more commit of a press on a ticket. -/
theorem Commits.ticketActed {A : Call → CallAt → Prop} {R : Call → State → State → Prop}
    {s : State} {ws : List Write} {d' : Database} (hc : c.ticketPress cfg = some (tid, event))
    (h : Commits cfg A R c past s ws d') (ih : TicketActed tid event past) :
    TicketActed tid event (past ++ [(s.1, d')]) := by
  obtain ⟨hrecord, hcheckout, hpay, hsettle, hstock⟩ := Call.ticketPress_only hc
  cases h with
  | duplicate row hk _ => exact absurd hk (hrecord row)
  | recorded row hk _ => exact absurd hk (hrecord row)
  | answered body he id rest _ _ _ => exact absurd he (hcheckout body)
  | customer body he row _ => exact absurd he (hcheckout body)
  | placed body he id customerId items totalRub promoCode discountRub _ _ _ =>
      exact absurd he (hcheckout body)
  | cooked row row' orderId items lines d₁ ticket _ hmay _ _ _ _ _ _ _ _ _ =>
      obtain ⟨-, p, -, ⟨he, -⟩ | ⟨he, -⟩⟩ := hmay.ticketPress hc <;> cases he
  | paymentCreated row order orders' _ _ _ hmay _ _ => exact absurd hmay (hpay _ _ _ _)
  | settled kind orderId row order orders' _ _ hmay _ _ _ _ =>
      exact absurd hmay (hsettle _ _ _ _ _)
  | ticketMoved row ev st hfind hmay htr =>
      obtain ⟨rfl, ticketId, hpress, hid⟩ := hmay.ticketPress
      obtain ⟨rfl, rfl⟩ := Prod.mk.inj (Option.some.inj (hc.symm.trans hpress))
      exact .moved hid ⟨hfind, st, htr, rfl⟩
  | moved row row' ev st hfind hmay htr _ hrow =>
      have hmove : OrderMove (s.1, { s.1 with orders := s.1.orders.put row' }) row ev :=
        ⟨hfind, st, row'.traceId, htr, by rw [← hrow]⟩
      obtain ⟨hoff, p, ⟨ticket, hid, hticket, horder, -⟩, hnext⟩ := hmay.ticketPress hc
      -- the ticket handed off is the one the earlier commits are about
      have hsame : ∀ {t : KitchenTicket}, readUuid tid = some t.id → TicketEdge p t event →
          row.id = t.orderId := by
        intro t hid' h
        have he : t.id = ticket.id := Option.some.inj (hid'.symm.trans hid)
        obtain rfl : t = ticket := Option.some.inj (h.1.symm.trans (he ▸ hticket))
        exact horder.symm
      rcases hnext with ⟨rfl, rfl⟩ | ⟨rfl, hmode, q, rfl, -⟩
      · cases ih with
        | moved hid' h => exact .packed hid' h hoff (hsame hid' h) hmove
      · cases ih with
        | packed hid' h _ horder' hpack =>
            exact .closed hid' h hoff horder' hpack (hsame hid' h) hmode hmove
  | stock hs _ _ =>
      rw [hstock] at hs
      cases hs

end Press

/-! ## Moves are unique -/

theorem MovesTicket.cameTo {id : Uuid} {event : KitchenEvent} {d d' : Database}
    (h : MovesTicket id event d d') : CameTo id event d' := by
  obtain ⟨ticket, hfind, hst⟩ := Option.map_eq_some_iff.mp h.2
  exact ⟨ticket, hfind, by rw [hst]⟩

theorem MovesTicket.not_cameTo {id : Uuid} {event : KitchenEvent} {d d' : Database}
    (h : MovesTicket id event d d') : ¬ CameTo id event d := by
  rintro ⟨ticket, hfind, hle⟩
  have hst := h.1
  rw [hfind, Option.map_some, Option.some.injEq] at hst
  rw [hst] at hle
  cases event <;> simp [kitchenStep, KitchenState.rank] at hle

theorem CameTo.moved {id : Uuid} {event : KitchenEvent} {d d' : Database} (h : CameTo id event d)
    (hg : d.kitchenTickets.Grows KitchenTicket.Moved d'.kitchenTickets) : CameTo id event d' := by
  obtain ⟨ticket, hfind, hle⟩ := h
  obtain ⟨ticket', hfind', hm⟩ := hg _ _ hfind
  exact ⟨ticket', hfind', hle.trans hm.rank_le⟩

theorem TicketEdge.moves {p : Database × Database} {ticket : KitchenTicket} {event : KitchenEvent}
    (h : TicketEdge p ticket event) : MovesTicket ticket.id event p.1 p.2 := by
  obtain ⟨hfind, st, htr, hp⟩ := h
  obtain ⟨hst, rfl, -⟩ := kitchenTransitions_eq htr
  refine ⟨by rw [hfind, ← hst]; rfl, ?_⟩
  have hput := Table.find_put_self p.1.kitchenTickets { ticket with state := (kitchenStep event).2 }
  rw [hp]
  exact congrArg (Option.map KitchenTicket.state) hput

/-- The first commit of a press on a ticket moves it. -/
theorem TicketActed.moves {tid : String} {event : KitchenEvent} {past : Past} {id : Uuid}
    (hid : readUuid tid = some id) (h : TicketActed tid event past) (hne : past ≠ []) :
    ∃ p ∈ past, MovesTicket id event p.1 p.2 := by
  have hsame : ∀ {t : KitchenTicket} {p}, readUuid tid = some t.id → TicketEdge p t event →
      MovesTicket id event p.1 p.2 := by
    intro t p hid' h
    obtain rfl : id = t.id := Option.some.inj (hid.symm.trans hid')
    exact h.moves
  cases h with
  | nothing => exact absurd rfl hne
  | moved hid' h => exact ⟨_, List.mem_cons_self, hsame hid' h⟩
  | packed hid' h _ _ _ => exact ⟨_, List.mem_cons_self, hsame hid' h⟩
  | closed hid' h _ _ _ _ _ _ => exact ⟨_, List.mem_cons_self, hsame hid' h⟩

/-! ## Every run -/

/-- A call that answers about a ticket says truly whether it has moved it. -/
def TicketAnswered (c : Call) (r : Except PyError Answer) (y : CallAt) : Prop :=
  match c with
  | .transitionTicket _ _ | .dispatchKitchen _ _ _ =>
      (∃ res, r = .ok (.ticket (some res)) ∧ res.success = true) ↔ y.past ≠ []
  | _ => True

section Answers

variable {K : ShopContract} {c : Call} {x y : CallAt} {tid : String}

theorem Advanced.past (h : Advanced K c tid x y) : ∃ ps, y.past = x.past ++ ps := by
  cases h with
  | lost h => exact ⟨[], by rw [h.past, List.append_nil]⟩
  | unpacked _ _ _ w _ _ hw _ h => exact ⟨[], by rw [h.past, hw.past, List.append_nil]⟩
  | packed _ _ _ w _ _ _ hw _ _ h =>
      obtain ⟨p, hp⟩ := h.past
      exact ⟨[p], by rw [hp, hw.past]⟩
  | unclosed _ _ _ w v _ _ _ hw _ _ h h' =>
      obtain ⟨p, hp⟩ := h.past
      exact ⟨[p], by rw [h'.past, hp, hw.past]⟩
  | closed _ _ _ w v _ _ _ _ hw _ _ h h' =>
      obtain ⟨p, hp⟩ := h.past
      obtain ⟨q, hq⟩ := h'.past
      exact ⟨[p, q], by rw [hq, hp, hw.past, List.append_assoc]; rfl⟩

/-- A press on a ticket succeeds exactly when it has committed. -/
theorem Ticketed.answered {event : KitchenEvent} {res : Except PyError KitchenResult}
    (hx : x.past = []) (h : Ticketed K c tid event res x y) :
    (∃ t, res = .ok t ∧ t.success = true) ↔ y.past ≠ [] := by
  have hcommitted : ∀ {w}, TicketMade K c tid event x w → w.past ≠ [] := by
    rintro w ⟨d, row, hcm, -⟩
    rw [hcm.past]
    simp
  cases h with
  | unmoved h hr =>
      refine ⟨fun ⟨t, ht, hs⟩ => ?_, fun hne => absurd (h.past.trans hx) hne⟩
      rw [hr t ht] at hs
      cases hs
  | moved h _ hr => exact ⟨fun _ => hcommitted h, fun _ => ⟨_, hr, rfl⟩⟩
  | handedOff w h _ ha hr =>
      refine ⟨fun _ hnil => ?_, fun _ => ⟨_, hr, rfl⟩⟩
      obtain ⟨ps, hps⟩ := ha.past
      rw [hps, List.append_eq_nil_iff] at hnil
      exact hcommitted h hnil.1

theorem TicketAnswered.of_outcome {cfg : Settings} {r : Except PyError Answer}
    (hx : x.past = []) (h : Outcome cfg K x r y c) : TicketAnswered c r y := by
  cases c with
  | transitionTicket ticketId event =>
      obtain ⟨res, ht, rfl⟩ := h
      refine Iff.trans ⟨fun ⟨t, he, hs⟩ => ?_, fun ⟨t, he, hs⟩ => ⟨t, by rw [he]; rfl, hs⟩⟩
        (ht.answered hx)
      cases res with
      | error e => cases he
      | ok t' =>
          cases he
          exact ⟨t, rfl, hs⟩
  | dispatchKitchen role ticketId event =>
      obtain ⟨res, ⟨rfl, rfl⟩ | ⟨ev, res, -, -, rfl, ht⟩, rfl⟩ := h
      · refine ⟨fun ⟨t, he, _⟩ => ?_, fun hne => absurd hx hne⟩
        cases he
      · refine Iff.trans ⟨fun ⟨t, he, hs⟩ => ?_, fun ⟨t, he, hs⟩ => ⟨t, by rw [he]; rfl, hs⟩⟩
          (ht.answered hx)
        cases res with
        | error e => cases he
        | ok t' =>
            cases he
            exact ⟨t, rfl, hs⟩
  | _ => exact trivial

end Answers

/-- Any run, with what presses on tickets answer. -/
def ticketCalls (cfg : Settings) : ShopContract := { anyCall cfg with post := TicketAnswered }

theorem valid_ticketCalls (cfg : Settings) : (ticketCalls cfg).Valid (shop cfg) := by
  have hK : IsShop cfg (ticketCalls cfg) :=
    ⟨fun _ _ _ _ _ _ h => ⟨h, trivial⟩, fun _ _ _ h => h⟩
  exact valid_shop hK (fun _ _ _ _ _ _ _ _ _ h => h.evolves)
    (fun _ _ _ _ h _ => ⟨trivial, fun _ => evolves_providerMove h⟩) (fun _ _ _ => trivial)
    (fun _ _ _ _ _ _ _ _ h => .of_outcome rfl h) fun _ _ _ _ _ h => h

section Runs

variable {cfg : Settings} {d : Database} {m : Memory} {c : ShopConfig}

theorem Reaches.ticketCalls (h : Reaches cfg (Config.start d m) c) : (ticketCalls cfg).Ok c :=
  (Ok.start trivial).runs (valid_ticketCalls cfg)
    (fun c a _ _ => allows_of_begins (fun _ _ => trivial) (fun _ _ => trivial) (fun _ _ => trivial) c a
      (by cases a <;> exact trivial)) h

/-- The ticket has been moved by the event at most once, and then it has come there. -/
theorem Reaches.moves_once (h : Reaches cfg (Config.start d m) c) (id : Uuid)
    (event : KitchenEvent) : c.Once (MovesTicket id event) (CameTo id event) := by
  induction h with
  | refl => simp [Config.Once, Config.start, Config.commits]
  | step hr _ hs ih =>
      cases Reaches.changed hr hs with
      | kept hd hc =>
          rw [Config.Once, hd, hc]
          exact ih
      | committed t txn _ _ h _ hc =>
          exact ih.commit hc (fun hd => hd.moved h.tickets_moved) fun hm =>
            ⟨hm.not_cameTo, hm.cameTo⟩

/-- What the commits of a press on a ticket are. -/
theorem Reaches.ticketActed (h : Reaches cfg (Config.start d m) c) {t : ShopThread}
    (ht : t ∈ c.threads) {tid : String} {event : KitchenEvent}
    (hp : t.call.ticketPress cfg = some (tid, event)) : TicketActed tid event t.commits :=
  recorded_induction (fun _ _ _ h => h) (h.ok.recorded t ht) .nothing
    fun _ _ _ _ _ hcommit ih => hcommit.ticketActed hp ih

/-- The call presses the event on the card of the ticket. -/
def Presses (cfg : Settings) (id : Uuid) (event : KitchenEvent) (t : ShopThread) : Prop :=
  ∃ tid, t.call.ticketPress cfg = some (tid, event) ∧ readUuid tid = some id

/-- Under any interleaving of any calls, from any database: every step moves
every stored ticket along an edge of `KITCHEN_TRANSITIONS` from the state stored
just before or not at all, and every commit so far has done so; of the calls
that press one event on one ticket at most one has committed anything, which
holds of exactly the calls that return success; and a call commits a
transition of the ticket's order only after its own hand-off of the ticket. -/
theorem kitchen_tickets_move_once (h : Reaches cfg (Config.start d m) c) :
    (∀ a c', (shop cfg).step c a = some c' →
      c.db.kitchenTickets.Grows KitchenTicket.Moved c'.db.kitchenTickets) ∧
    (∀ k d₁ d₂, (k, d₁, d₂) ∈ c.commits →
      d₁.kitchenTickets.Grows KitchenTicket.Moved d₂.kitchenTickets) ∧
    (∀ id event (i j : Nat) t u, c.threads[i]? = some t → c.threads[j]? = some u →
      Presses cfg id event t → Presses cfg id event u → t.commits ≠ [] → u.commits ≠ [] → i = j) ∧
    (∀ t ∈ c.threads, t.dead = false →
      (∃ ticketId event, t.call = .transitionTicket ticketId event) ∨
        (∃ role ticketId event, t.call = .dispatchKitchen role ticketId event) →
      ∀ a, t.prog = .ret a →
        ((∃ res, a = .ticket (some res) ∧ res.success = true) ↔ t.commits ≠ [])) ∧
    ∀ t ∈ c.threads, ∀ tid event, t.call.ticketPress cfg = some (tid, event) →
      TicketActed tid event t.commits := by
  refine ⟨fun a c' hs => ?_, ?_, ?_, ?_, fun t ht tid event hp => h.ticketActed ht hp⟩
  · cases h.changed hs with
    | kept hd _ => exact hd ▸ .refl KitchenTicket.Moved.refl _
    | committed _ _ _ _ h _ _ => exact h.tickets_moved
  · induction h with
    | refl => simp [Config.start, Config.commits]
    | step hr _ hs ih =>
        intro k d₁ d₂ hmem
        cases Reaches.changed hr hs with
        | kept _ hc => exact ih k d₁ d₂ (hc ▸ hmem)
        | committed t txn _ _ hcommit _ hc =>
            rcases List.mem_cons.mp (hc.subset hmem) with he | hmem
            · cases he
              exact hcommit.tickets_moved
            · exact ih k d₁ d₂ hmem
  · intro id event i j t u ht hu hpt hpu hnt hnu
    obtain ⟨tid, hpt, hidt⟩ := hpt
    obtain ⟨tid', hpu, hidu⟩ := hpu
    obtain ⟨p, hp, hm⟩ := (h.ticketActed (List.mem_of_getElem? ht) hpt).moves hidt hnt
    obtain ⟨p', hp', hm'⟩ := (h.ticketActed (List.mem_of_getElem? hu) hpu).moves hidu hnu
    exact (h.moves_once id event).eq ht hu hp hp' hm hm'
  · intro t ht hdead hk a hprog
    have hsafe := h.ticketCalls.safe t ht hdead
    rw [hprog] at hsafe
    have hans : TicketAnswered t.call (.ok a) (t.state c.db c.mem) := hsafe
    have hiff : (∃ res, (Except.ok a : Except PyError Answer) = .ok (.ticket (some res)) ∧
        res.success = true) ↔ t.commits ≠ [] := by
      rcases hk with ⟨tid, ev, hk⟩ | ⟨role, tid, ev, hk⟩ <;>
      · rw [hk] at hans
        exact hans
    simpa using hiff

end Runs

/-- Of two presses that hand off one ticket, one does, and its order is closed. -/
theorem kitchen_tickets_move_once_hand_off :
    ∃ c, Reaches sampleSettings (Config.start
        (withTickets (databaseWith [sampleOrder 1 .COOKING "cash" []] []) [⟨2, 1, .READY⟩]) {}) c ∧
      (orderStates c, ticketStates c) = ([(1, .CLOSED)], [(2, .HANDED_OFF)]) ∧
      ∀ t ∈ c.threads, ∀ tid event, t.call.ticketPress sampleSettings = some (tid, event) →
        TicketActed tid event t.commits := by
  obtain ⟨c, hr, hc⟩ := System.Runs.exists_of_exec (shop sampleSettings) (fun _ _ => True)
    (Config.start
      (withTickets (databaseWith [sampleOrder 1 .COOKING "cash" []] []) [⟨2, 1, .READY⟩]) {})
    (.call (.transitionTicket (Uuid.text 2) .HAND_OFF) ::
      .call (.dispatchKitchen .kitchen (Uuid.text 2) "HAND_OFF") ::
        (runs 1 1 ++ runs 0 21 ++ runs 1 2))
    (f := fun c => (orderStates c, ticketStates c)) (b := ([(1, .CLOSED)], [(2, .HANDED_OFF)]))
    (fun _ _ _ => trivial) (by decide +kernel)
  exact ⟨c, hr, hc, (kitchen_tickets_move_once hr).2.2.2.2⟩

end Sieshka
