import Sieshka.Specs.StaffCards
import Sieshka.Samples
import Sieshka.Transactions.Runs

/-!
# Staff cards

However the notifications overlap, fail or die, and whatever the shop does meanwhile, a message
in MAX stays a card of the entity it was sent as, for a member of the staff who was listed for
it, and its buttons are those of such a card, though not always of the one whose text it shows.
-/

namespace Sieshka

open Transactions Contract

section Specs

variable {cfg : CardSettings} {P : Database → Prop} {c : CardCall} {x : CardAt}

theorem wp_fetchOrderDetails {orderId : String} {Q : Except PyError String → CardAt → Prop}
    (hx : x.txn = {})
    (hok : ∀ y details, y.txn = {} → CardDetails cfg P orderId details → Q (.ok details) y)
    (hno : ∀ y e, y.txn = {} → Q (.error e) y) :
    (cardContract cfg P).wp c (fetchOrderDetails cfg orderId) Q x := by
  unfold fetchOrderDetails
  cases hid : cfg.uuidParam orderId with
  | none => exact hok x "" hx .none
  | some id =>
      dsimp only
      rw [wp_bind, wp_andThen]
      refine wp_readShop (fun s hs => ?_) fun s hs => hok _ "" hx .none
      cases hrow : s.2.shop.orders.find id with
      | none => exact hok _ "" hx .none
      | some row =>
          cases hd : orderDetails cfg.toSettings row (customerOf s.2.shop row) with
          | error e =>
              simp only [Option.map_some, wp_ret, hd]
              exact hno _ e hx
          | ok details =>
              simp only [Option.map_some, wp_ret, hd]
              exact hok _ details hx (.found s.2.shop id row details hs.inv.shop hid hrow hd)

theorem wp_fetchOrderState {orderId : String}
    {Q : Except PyError (Option OrderState) → CardAt → Prop}
    (hx : x.txn = {}) (hQ : ∀ y r, y.txn = {} → Q r y) :
    (cardContract cfg P).wp c (fetchOrderState cfg orderId) Q x := by
  unfold fetchOrderState
  cases cfg.uuidParam orderId with
  | none => exact hQ x _ hx
  | some id =>
      dsimp only
      rw [wp_andThen]
      exact wp_readShop (fun s hs => hQ _ _ hx) fun s hs => hQ _ _ hx

theorem wp_fetchKitchenTicketForOrder {orderId : String}
    {Q : Except PyError (Option (String × KitchenState)) → CardAt → Prop}
    (hx : x.txn = {}) (hQ : ∀ y r, y.txn = {} → Q r y) :
    (cardContract cfg P).wp c (fetchKitchenTicketForOrder cfg orderId) Q x := by
  unfold fetchKitchenTicketForOrder
  cases cfg.uuidParam orderId with
  | none => exact hQ x _ hx
  | some id =>
      dsimp only
      rw [wp_andThen]
      exact wp_readShop (fun s hs => hQ _ _ hx) fun s hs => hQ _ _ hx

/-! ## The notifications -/

theorem wp_notifyKitchenTicketState {ticketId orderId : String} {state : KitchenState}
    {Q : Except PyError Unit → CardAt → Prop} (hx : x.txn = {}) (hQ : ∀ y r, y.txn = {} → Q r y) :
    (cardContract cfg P).wp c (notifyKitchenTicketState cfg ticketId orderId state) Q x := by
  rw [notifyKitchenTicketState, wp_bind]
  refine wp_fetchOrderDetails hx (fun y details hy hd => ?_) fun y e hy => hQ _ _ hy
  exact wp_notifyRole (.kitchen ticketId orderId state details hd) hy hQ

theorem wp_notifyCourierOrderState {orderId : String} {state : OrderState}
    {Q : Except PyError Unit → CardAt → Prop} (hx : x.txn = {}) (hQ : ∀ y r, y.txn = {} → Q r y) :
    (cardContract cfg P).wp c (notifyCourierOrderState cfg orderId state) Q x := by
  rw [notifyCourierOrderState, wp_bind]
  refine wp_fetchOrderDetails hx (fun y details hy hd => ?_) fun y e hy => hQ _ _ hy
  exact wp_notifyRole (.courier orderId state details hd) hy hQ

theorem wp_resolveKitchenState {orderId : String} {kitchenState : Option KitchenState}
    {Q : Except PyError (Option KitchenState) → CardAt → Prop} (hx : x.txn = {})
    (hQ : ∀ y r, y.txn = {} → Q r y) :
    (cardContract cfg P).wp c (resolveKitchenState cfg orderId kitchenState) Q x := by
  cases kitchenState with
  | some state => exact hQ x _ hx
  | none =>
      rw [resolveKitchenState, wp_bind]
      refine wp_fetchKitchenTicketForOrder hx fun y r hy => ?_
      cases r with
      | error e => exact hQ _ _ hy
      | ok ticket => exact hQ _ _ hy

theorem wp_notifyAdminCard {orderId : String} {state : OrderState}
    {kitchenState : Option KitchenState} {Q : Except PyError Unit → CardAt → Prop}
    (hx : x.txn = {}) (hQ : ∀ y r, y.txn = {} → Q r y) :
    (cardContract cfg P).wp c (notifyAdminCard cfg orderId state kitchenState) Q x := by
  rw [notifyAdminCard, wp_bind, buildAdminCard, wp_bind]
  refine wp_fetchOrderDetails hx (fun y details hy hd => ?_) fun y e hy => hQ _ _ hy
  dsimp only
  rw [wp_bind]
  refine wp_resolveKitchenState hy fun z r hz => ?_
  cases r with
  | error e => exact hQ _ _ hz
  | ok resolved => exact wp_notifyRole (.admin orderId state resolved details hd) hz hQ

theorem wp_notifyAdminKitchenTicketState {orderId : String} {state : KitchenState}
    {Q : Except PyError Unit → CardAt → Prop} (hx : x.txn = {}) (hQ : ∀ y r, y.txn = {} → Q r y) :
    (cardContract cfg P).wp c (notifyAdminKitchenTicketState cfg orderId state) Q x := by
  rw [notifyAdminKitchenTicketState, wp_bind]
  refine wp_fetchOrderState hx fun y r hy => ?_
  cases r with
  | error e => exact hQ _ _ hy
  | ok found =>
      cases found with
      | none => exact hQ _ _ hy
      | some orderState => exact wp_notifyAdminCard hy hQ

theorem wp_resolveOrderState {orderId : String} {orderState : Option OrderState}
    {Q : Except PyError (Option OrderState) → CardAt → Prop} (hx : x.txn = {})
    (hQ : ∀ y r, y.txn = {} → Q r y) :
    (cardContract cfg P).wp c (resolveOrderState cfg orderId orderState) Q x := by
  cases orderState with
  | some state => exact hQ x _ hx
  | none => exact wp_fetchOrderState hx hQ

theorem wp_resolveTicket {orderId : String} {ticket : Option (String × KitchenState)}
    {Q : Except PyError (Option (String × KitchenState)) → CardAt → Prop} (hx : x.txn = {})
    (hQ : ∀ y r, y.txn = {} → Q r y) :
    (cardContract cfg P).wp c (resolveTicket cfg orderId ticket) Q x := by
  cases ticket with
  | some ticket => exact hQ x _ hx
  | none => exact wp_fetchKitchenTicketForOrder hx hQ

theorem wp_notifyStaffCard {orderId : String} {orderState : Option OrderState}
    {ticket : Option (String × KitchenState)} {Q : Except PyError Unit → CardAt → Prop}
    (hx : x.txn = {}) (hQ : ∀ y r, y.txn = {} → Q r y) :
    (cardContract cfg P).wp c (notifyStaffCard cfg orderId orderState ticket) Q x := by
  rw [notifyStaffCard, wp_bind]
  refine wp_resolveOrderState hx fun y r hy => ?_
  cases r with
  | error e => exact hQ _ _ hy
  | ok found =>
      cases found with
      | none => exact hQ _ _ hy
      | some state =>
          dsimp only
          rw [wp_bind]
          refine wp_resolveTicket hy fun z r hz => ?_
          cases r with
          | error e => exact hQ _ _ hz
          | ok resolved =>
              dsimp only
              rw [wp_bind]
              refine wp_fetchOrderDetails hz (fun w details hw hd => ?_) fun w e hw => hQ _ _ hw
              exact wp_notifyRole (.staff orderId state resolved details hd) hw hQ

/-- A notification of which nothing is heard when it raises. -/
theorem wp_logged {body : CardAsync Unit} {Q : Except PyError Unit → CardAt → Prop}
    (h : (cardContract cfg P).wp c body (fun _ y => y.txn = {}) x)
    (hQ : ∀ y, y.txn = {} → Q (.ok ()) y) :
    (cardContract cfg P).wp c (body.andThen .ret fun _ => .ret ()) Q x := by
  rw [wp_andThen]
  refine wp_mono (fun r y hy => ?_) h
  cases r with
  | error e => exact hQ y hy
  | ok u => exact hQ y hy

theorem wp_notifyStaffNewKitchenTicket {orderId ticketId : String}
    {Q : Except PyError Unit → CardAt → Prop} (hx : x.txn = {}) (hQ : ∀ y r, y.txn = {} → Q r y) :
    (cardContract cfg P).wp c (notifyStaffNewKitchenTicket cfg orderId ticketId) Q x := by
  rw [notifyStaffNewKitchenTicket, wp_bind]
  refine wp_logged (wp_notifyKitchenTicketState hx fun _ _ hy => hy) fun y hy => ?_
  dsimp only
  rw [wp_bind]
  refine wp_logged (wp_notifyAdminKitchenTicketState hy fun _ _ hz => hz) fun z hz => ?_
  exact wp_logged (wp_notifyStaffCard hz fun _ _ hw => hw) fun w hw => hQ _ _ hw

theorem wp_cardBody (hx : x.txn = {}) (c' : CardCall) :
    (cardContract cfg P).wp c (cardBody cfg c') (fun _ _ => True) x := by
  cases c' with
  | kitchenTicketState ticketId orderId state =>
      exact wp_notifyKitchenTicketState hx fun _ _ _ => trivial
  | courierOrderState orderId state => exact wp_notifyCourierOrderState hx fun _ _ _ => trivial
  | adminOrderState orderId state => exact wp_notifyAdminCard hx fun _ _ _ => trivial
  | adminKitchenTicketState orderId state =>
      exact wp_notifyAdminKitchenTicketState hx fun _ _ _ => trivial
  | staffCard orderId orderState ticket => exact wp_notifyStaffCard hx fun _ _ _ => trivial
  | staffNewKitchenTicket orderId ticketId =>
      exact wp_notifyStaffNewKitchenTicket hx fun _ _ _ => trivial

end Specs

/-! ## Runs -/

section Runs

variable {cfg : CardSettings} {P : Database → Prop} {c c' : CardConfig}

/-- A move of the world keeps the law and every message. -/
theorem CardLaw.move {d : RefDatabase} {m m' : MaxWorld} (h : CardLaw cfg P d m) (v : MaxMove P)
    (hv : maxMove v m = some m') : CardLaw cfg P d m' ∧ Kept m m' := by
  cases v with
  | shop shop hshop =>
      obtain rfl := Option.some.inj hv
      exact ⟨⟨hshop, h.ids, h.recipient, h.card, h.tracked⟩, Kept.refl m⟩
  | gone messageId =>
      obtain rfl := Option.some.inj hv
      constructor
      · refine h.map (fun n => ?_) (fun n => ?_) (fun n => ?_) fun n _ => Or.inl ?_ <;> split
          <;> rfl
      · intro id key hsent
        refine hsent.map (fun n => ?_) fun n => ?_ <;> split <;> rfl

theorem valid_cards : (cardContract cfg P).Valid (cards cfg P) where
  body c _ _ _ _ := wp_cardBody rfl c
  compat _ _ _ _ _ _ _ _ _ hg := hg
  move v _ _ _ hv hinv := ⟨(hinv.move v hv).1, fun _ => (hinv.move v hv).2⟩
  restart _ _ h := h
  post _ _ _ _ _ _ := trivial

/-- `c'` is reached from `c` by any number of steps of any kind. -/
abbrev CardsReach (cfg : CardSettings) (P : Database → Prop) (c c' : CardConfig) : Prop :=
  (cards cfg P).Runs (fun _ _ => True) c c'

theorem allows_cards (c : CardConfig) (a : Action CardCall (cards cfg P).Move) :
    (cardContract cfg P).Allows (S := cards cfg P) c a := by
  cases a with
  | call k => exact ⟨trivial, fun _ _ _ => ⟨trivial, trivial⟩⟩
  | run i n => exact fun _ _ => ⟨trivial, fun _ => trivial⟩
  | fault i => exact fun _ _ => ⟨trivial, trivial⟩
  | kill i => exact trivial
  | restart => exact trivial
  | world v => exact trivial

/-- Nothing has been sent yet. -/
def cardsStart (shop : Database) : CardConfig := Config.start ⟨Table.empty⟩ { shop }

theorem cardLaw_start {shop : Database} (h : P shop) :
    CardLaw cfg P ⟨Table.empty⟩ { shop } where
  shop := h
  ids := List.nodup_nil
  recipient := by simp
  card := by simp
  tracked _ _ hfind := nomatch hfind

theorem CardsReach.ok {shop : Database} (hP : P shop) (h : CardsReach cfg P (cardsStart shop) c) :
    (cardContract cfg P).Ok c :=
  (Ok.start (cardLaw_start hP)).runs valid_cards (fun c a _ _ => allows_cards c a) h

theorem CardsReach.kept (hc : (cardContract cfg P).Ok c) (h : CardsReach cfg P c c') :
    Kept c.mem c'.mem := by
  refine hc.runs_induction valid_cards (fun c a _ _ => allows_cards c a)
    (P := fun b => Kept c.mem b.mem) (Kept.refl c.mem) (fun b a b' hb _ _ _ hcaused ih => ?_) h
  intro messageId key hsent
  have hstep : Kept b.mem b'.mem := by
    cases hcaused with
    | nothing hd hm hc => exact hm ▸ Kept.refl _
    | committed t ht hg hm hc => exact hm ▸ Kept.refl _
    | wrote t ht hg hd hc => exact hg
    | restarted hd hm hc => exact hm ▸ Kept.refl _
    | moved v hd hm hc => exact (hb.inv.move v hm).2
  exact hstep messageId key (ih messageId key hsent)

/-- Once anything has happened: every message is in the chat of the member it was sent as a
card to, and shows a card for a role that member was listed for; each of its buttons is one of
a card for such a role, and asks for nothing that role may not cause; a tracked card is one
message of MAX, sent as that card; and from there on no message becomes another card. -/
theorem staff_cards_keep_their_place {shop : Database} (hP : P shop)
    (h : CardsReach cfg P (cardsStart shop) c) :
    (∀ message ∈ c.mem.messages, message.userId = message.sentAs.maxUserId ∧
      Shown cfg P message.sentAs message.body ∧
      ∀ button ∈ message.body.buttons, ∃ role body, CardFor cfg P role message.sentAs body ∧
        button ∈ body.buttons ∧ Permitted role message.sentAs button) ∧
    (∀ key ref, c.db.refs.find key = some ref →
      ∃ message ∈ c.mem.messages, message.sentAs = key ∧
        ∀ other ∈ c.mem.messages, other.id = ref.messageId ↔ other = message) ∧
    ∀ c', CardsReach cfg P c c' → Kept c.mem c'.mem := by
  have hc := h.ok hP
  refine ⟨fun message hm => ?_, fun key ref hfind => ?_, fun c' h' => h'.kept hc⟩
  · have hshown := hc.inv.card message hm
    refine ⟨hc.inv.recipient message hm, hshown, ?_⟩
    intro button hb
    obtain ⟨role, body, hcard, hbody⟩ := hshown.attachments
    have hbutton : button ∈ body.buttons := by
      unfold MessageBody.buttons at hb ⊢
      rwa [← hbody]
    exact ⟨role, body, hcard, hbutton, hcard.1.permitted hbutton⟩
  · obtain ⟨message, hm, hid, hkey⟩ := hc.inv.tracked key ref hfind
    refine ⟨message, hm, hkey, fun other ho => ⟨fun he => ?_, fun he => he ▸ hid⟩⟩
    exact eq_of_ids hc.inv.ids ho hm (he.trans hid.symm)

end Runs

/-- A MAX that numbers the messages. -/
def numberingMax : MaxApi where
  nextMessageId messages := unusedNumber (messages.map MaxMessage.id)
  fresh messages message hm heq := by
    apply unusedNumber_not_mem (messages.map MaxMessage.id)
    rw [← heq]
    exact List.mem_map_of_mem hm
  edit shown body := { text := body.text, attachments := body.attachments.or shown.attachments }
  edit_text _ _ := rfl
  edit_some _ _ _ h := by rw [h]; rfl
  edit_none _ _ h := by rw [h]; rfl

/-- The settings with a bot. -/
def cardSettings : CardSettings :=
  { sampleSettings with maxBotToken := "token", max := numberingMax, uuidParam := readUuid }

/-- A courier, and an order that is packed. -/
def packedShop : Database :=
  withStaff (databaseWith [sampleOrder 1 .PACKING "cash" []] []) [sampleMember 3 .courier 42]

/-- The messages, whose they are and what their buttons say, and what is tracked. -/
def cardStates (c : CardConfig) : List (Int × List String) × List (CardKey × String) :=
  (c.mem.messages.map fun m => (m.userId, m.body.buttons.map Button.payload),
    c.db.refs.rows.map fun r => (r.key, r.messageId))

/-- Two notifications at once send the courier two cards of the order, and the second card keeps
the button it showed last when the order is delivered. -/
theorem staff_cards_keep_their_place_twice :
    ∃ c, CardsReach cardSettings (fun _ => True) (cardsStart packedShop) c ∧
      cardStates c = ([(42, [buttonPayload "order" (Uuid.text 1) "ASSIGN_COURIER"]),
          (42, [buttonPayload "order" (Uuid.text 1) "PICKUP"])],
        [(⟨"order", Uuid.text 1, 42⟩, "1")]) ∧
      ∀ message ∈ c.mem.messages, message.userId = message.sentAs.maxUserId := by
  obtain ⟨c, hr, hc⟩ := System.Runs.exists_of_exec (cards cardSettings fun _ => True)
    (fun _ _ => True) (cardsStart packedShop)
    ([.call (.courierOrderState (Uuid.text 1) .PACKING),
      .call (.courierOrderState (Uuid.text 1) .COURIER_ASSIGNED)] ++
      List.replicate 6 (.run 0 1) ++ List.replicate 6 (.run 1 1) ++
      List.replicate 5 (.run 0 4) ++ List.replicate 5 (.run 1 4) ++
      [.call (.courierOrderState (Uuid.text 1) .DELIVERED)] ++ List.replicate 8 (.run 2 4))
    (f := cardStates)
    (b := ([(42, [buttonPayload "order" (Uuid.text 1) "ASSIGN_COURIER"]),
          (42, [buttonPayload "order" (Uuid.text 1) "PICKUP"])],
        [(⟨"order", Uuid.text 1, 42⟩, "1")])) (fun _ _ _ => trivial) (by decide +kernel)
  exact ⟨c, hr, hc, fun message hm => ((staff_cards_keep_their_place trivial hr).1 message hm).1⟩

end Sieshka
