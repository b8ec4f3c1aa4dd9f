import Sieshka.Services.MaxStaffNotify
import Sieshka.Transactions.Rules

/-!
# What the notifications write

Every message shows a card of the entity it was sent as, in the chat it was sent to, for a role
that its recipient had; an edit to a card without buttons leaves those of the card before. A
tracked message is a message of the card it is tracked for.
-/

namespace Sieshka

open Transactions Contract

abbrev CardConfig := Config CardCall RefDatabase MessageRef CardKey MaxWorld PyError Unit

abbrev CardContract := Contract CardCall RefDatabase MessageRef CardKey MaxWorld PyError Unit

/-- Where a notification stands. -/
abbrev CardAt := CallState RefDatabase MessageRef CardKey MaxWorld

/-! ## Cards -/

section Cards

variable (cfg : CardSettings) (P : Database → Prop)

/-- The details below a card: none, or those of its order in a shop that meets `P`. -/
inductive CardDetails (orderId : String) : String → Prop
  | none : CardDetails orderId ""
  | found (d : Database) (id : Uuid) (row : Order) (details : String) (hd : P d)
      (hid : cfg.uuidParam orderId = some id) (hrow : d.orders.find id = some row)
      (hdetails : orderDetails cfg.toSettings row (customerOf d row) = .ok details) :
      CardDetails orderId details

/-- The body is a card of an entity for a role. -/
inductive IsCard : StaffRole → String → String → MessageBody → Prop
  | kitchen (ticketId orderId : String) (state : KitchenState) (details : String)
      (h : CardDetails cfg P orderId details) :
      IsCard .kitchen "kitchen" ticketId
        (messageBody (kitchenCardText orderId state details) (kitchenKeyboard ticketId state))
  | courier (orderId : String) (state : OrderState) (details : String)
      (h : CardDetails cfg P orderId details) :
      IsCard .courier "order" orderId
        (messageBody (orderCardText "🚗" orderId state none details)
          (orderKeyboard orderId state .courier))
  | admin (orderId : String) (state : OrderState) (kitchenState : Option KitchenState)
      (details : String) (h : CardDetails cfg P orderId details) :
      IsCard .admin "order" orderId
        (messageBody (orderCardText "🧾" orderId state kitchenState details)
          (orderKeyboard orderId state .admin))
  | staff (orderId : String) (state : OrderState) (ticket : Option (String × KitchenState))
      (details : String) (h : CardDetails cfg P orderId details) :
      IsCard .staff "order" orderId
        (messageBody (orderCardText "👤" orderId state (ticket.map Prod.snd) details)
          (staffKeyboard orderId state ticket))

/-- The body is a card for a role that its recipient had in a shop that meets `P`. -/
def CardFor (role : StaffRole) (key : CardKey) (body : MessageBody) : Prop :=
  IsCard cfg P role key.entityKind key.entityId body ∧
    ∃ d, P d ∧ ∃ member ∈ activeByRole role d, member.maxUserId = some key.maxUserId

/-- What MAX shows of a card: its text, and its buttons or, where it has none, those of a card
that was shown before. -/
def Shown (key : CardKey) (shown : MessageBody) : Prop :=
  ∃ role body, CardFor cfg P role key body ∧ shown.text = body.text ∧
    (shown.attachments = body.attachments ∨
      body.attachments = none ∧ ∃ role' body', CardFor cfg P role' key body' ∧
        shown.attachments = body'.attachments)

/-- A message was sent as a card. -/
def SentAs (messages : List MaxMessage) (messageId : String) (key : CardKey) : Prop :=
  ∃ message ∈ messages, message.id = messageId ∧ message.sentAs = key

/-- What holds of the tracked messages and of MAX at all times. -/
structure CardLaw (d : RefDatabase) (m : MaxWorld) : Prop where
  shop : P m.shop
  ids : (m.messages.map MaxMessage.id).Nodup
  recipient : ∀ message ∈ m.messages, message.userId = message.sentAs.maxUserId
  card : ∀ message ∈ m.messages, Shown cfg P message.sentAs message.body
  tracked : ∀ key ref, d.refs.find key = some ref → SentAs m.messages ref.messageId key

/-- A message stays the card it was sent as. -/
def Kept (m m' : MaxWorld) : Prop :=
  ∀ messageId key, SentAs m.messages messageId key → SentAs m'.messages messageId key

/-- A notification keeps the law and every message. -/
def cardContract : CardContract where
  inv := CardLaw cfg P
  guar _ _ s s' := Kept s.2 s'.2
  rely _ s s' := Kept s.2 s'.2

end Cards

theorem Kept.refl (m : MaxWorld) : Kept m m := fun _ _ h => h

/-! ## Messages -/

section Messages

variable {cfg : CardSettings} {P : Database → Prop} {d : RefDatabase} {m : MaxWorld}

theorem MaxMessage.edited_id (api : MaxApi) (message : MaxMessage) (body : MessageBody) :
    (message.edited api body).id = message.id := by
  unfold MaxMessage.edited
  split <;> rfl

theorem MaxMessage.edited_sentAs (api : MaxApi) (message : MaxMessage) (body : MessageBody) :
    (message.edited api body).sentAs = message.sentAs := by
  unfold MaxMessage.edited
  split <;> rfl

theorem MaxMessage.edited_userId (api : MaxApi) (message : MaxMessage) (body : MessageBody) :
    (message.edited api body).userId = message.userId := by
  unfold MaxMessage.edited
  split <;> rfl

theorem MaxMessage.edited_body (api : MaxApi) (message : MaxMessage) (body : MessageBody) :
    (message.edited api body).body = message.body ∨
      (message.edited api body).body = api.edit message.body body := by
  unfold MaxMessage.edited
  split
  · exact Or.inl rfl
  · exact Or.inr rfl

theorem CardFor.shown {role : StaffRole} {key : CardKey} {body : MessageBody}
    (h : CardFor cfg P role key body) : Shown cfg P key body :=
  ⟨role, body, h, rfl, Or.inl rfl⟩

/-- The buttons that are shown are those of one card. -/
theorem Shown.attachments {key : CardKey} {shown : MessageBody} (h : Shown cfg P key shown) :
    ∃ role body, CardFor cfg P role key body ∧ shown.attachments = body.attachments := by
  obtain ⟨role, body, hcard, -, hown | ⟨-, hother⟩⟩ := h
  · exact ⟨role, body, hcard, hown⟩
  · exact hother

/-- What is shown after an edit to another card. -/
theorem Shown.edit {role : StaffRole} {key : CardKey} {shown body : MessageBody}
    (h : Shown cfg P key shown) (hcard : CardFor cfg P role key body) :
    Shown cfg P key (cfg.max.edit shown body) := by
  refine ⟨role, body, hcard, cfg.max.edit_text shown body, ?_⟩
  cases hbody : body.attachments with
  | some attachments => exact Or.inl (cfg.max.edit_some shown body attachments hbody)
  | none =>
      rw [cfg.max.edit_none shown body hbody]
      exact Or.inr ⟨rfl, h.attachments⟩

/-- A change of messages one by one that keeps what they were sent as. -/
theorem SentAs.map {messages : List MaxMessage} {messageId : String} {key : CardKey}
    {f : MaxMessage → MaxMessage} (h : SentAs messages messageId key)
    (hid : ∀ message, (f message).id = message.id)
    (hsent : ∀ message, (f message).sentAs = message.sentAs) :
    SentAs (messages.map f) messageId key := by
  obtain ⟨message, hm, rfl, rfl⟩ := h
  exact ⟨f message, List.mem_map_of_mem hm, hid message, hsent message⟩

/-- Two messages with one id are one message. -/
theorem eq_of_ids {messages : List MaxMessage} (h : (messages.map MaxMessage.id).Nodup)
    {a b : MaxMessage} (ha : a ∈ messages) (hb : b ∈ messages) (hid : a.id = b.id) : a = b :=
  List.inj_on_of_nodup_map h ha hb hid

/-- A change of messages one by one keeps their ids apart. -/
theorem nodup_ids_map {messages : List MaxMessage} (h : (messages.map MaxMessage.id).Nodup)
    {f : MaxMessage → MaxMessage} (hid : ∀ message, (f message).id = message.id) :
    ((messages.map f).map MaxMessage.id).Nodup := by
  rw [List.map_map]
  convert h using 2
  funext message
  exact hid message

/-- A new message has an id of its own. -/
theorem nodup_ids_sent {messages : List MaxMessage} (h : (messages.map MaxMessage.id).Nodup)
    (api : MaxApi) (key : CardKey) (userId : Int) (body : MessageBody) :
    ((messages ++ [newMessage api key userId body messages]).map MaxMessage.id).Nodup := by
  rw [List.map_append, List.nodup_append']
  refine ⟨h, List.nodup_singleton _, ?_⟩
  intro id hid hnew
  obtain ⟨message, hm, rfl⟩ := List.mem_map.mp hid
  exact api.fresh messages message hm (List.mem_singleton.mp hnew)

/-- The law after a change of messages one by one that writes only cards. -/
theorem CardLaw.map (h : CardLaw cfg P d m) {f : MaxMessage → MaxMessage}
    (hid : ∀ message, (f message).id = message.id)
    (hsent : ∀ message, (f message).sentAs = message.sentAs)
    (huser : ∀ message, (f message).userId = message.userId)
    (hbody : ∀ message ∈ m.messages, (f message).body = message.body ∨
      Shown cfg P message.sentAs (f message).body) :
    CardLaw cfg P d { m with messages := m.messages.map f } where
  shop := h.shop
  ids := nodup_ids_map h.ids hid
  recipient message hm := by
    obtain ⟨old, hold, rfl⟩ := List.mem_map.mp hm
    rw [huser, hsent]
    exact h.recipient old hold
  card message hm := by
    obtain ⟨old, hold, rfl⟩ := List.mem_map.mp hm
    rw [hsent]
    rcases hbody old hold with hb | hb
    · rw [hb]
      exact h.card old hold
    · exact hb
  tracked key ref hfind := (h.tracked key ref hfind).map hid hsent

/-- The law after an edit of a message with a card of the entity it was sent as. -/
theorem CardLaw.edited (h : CardLaw cfg P d m) {role : StaffRole} {key : CardKey}
    {messageId : String} {body : MessageBody} (hsent : SentAs m.messages messageId key)
    (hcard : CardFor cfg P role key body) :
    CardLaw cfg P d { m with messages := editedMessages cfg.max messageId body m.messages } := by
  refine h.map (fun message => ?_) (fun message => ?_) (fun message => ?_) fun message hm => ?_
  · split
    · exact message.edited_id cfg.max body
    · rfl
  · split
    · exact message.edited_sentAs cfg.max body
    · rfl
  · split
    · exact message.edited_userId cfg.max body
    · rfl
  · by_cases hid : message.id = messageId
    · obtain ⟨tracked, ht, htid, rfl⟩ := hsent
      obtain rfl := eq_of_ids h.ids hm ht (hid.trans htid.symm)
      rw [if_pos hid]
      rcases message.edited_body cfg.max body with hb | hb
      · exact Or.inl hb
      · apply Or.inr
        rw [hb]
        exact (h.card message hm).edit hcard
    · rw [if_neg hid]
      exact Or.inl rfl

theorem kept_edited (api : MaxApi) (messageId : String) (body : MessageBody) :
    Kept m { m with messages := editedMessages api messageId body m.messages } := by
  intro id key h
  refine h.map (fun message => ?_) fun message => ?_
  · split
    · exact message.edited_id api body
    · rfl
  · split
    · exact message.edited_sentAs api body
    · rfl

/-- The law after a message is sent. -/
theorem CardLaw.sent (h : CardLaw cfg P d m) {role : StaffRole} {key : CardKey}
    {body : MessageBody} (hcard : CardFor cfg P role key body) :
    CardLaw cfg P d { m with
      messages := m.messages ++ [newMessage cfg.max key key.maxUserId body m.messages] } where
  shop := h.shop
  ids := nodup_ids_sent h.ids cfg.max key key.maxUserId body
  recipient message hm := by
    rcases List.mem_append.mp hm with hm | hm
    · exact h.recipient message hm
    · obtain rfl := List.mem_singleton.mp hm
      rfl
  card message hm := by
    rcases List.mem_append.mp hm with hm | hm
    · exact h.card message hm
    · obtain rfl := List.mem_singleton.mp hm
      exact hcard.shown
  tracked key ref hfind := by
    obtain ⟨message, hm, hrest⟩ := h.tracked key ref hfind
    exact ⟨message, List.mem_append_left _ hm, hrest⟩

theorem kept_sent (message : MaxMessage) :
    Kept m { m with messages := m.messages ++ [message] } := by
  intro id key h
  obtain ⟨old, hold, hrest⟩ := h
  exact ⟨old, List.mem_append_left _ hold, hrest⟩

/-- The law after a message is tracked for the card it was sent as. -/
theorem CardLaw.track (h : CardLaw cfg P d m) {key : CardKey} {messageId : String}
    (hsent : SentAs m.messages messageId key) :
    CardLaw cfg P { d with refs := d.refs.put ⟨key, messageId⟩ } m where
  shop := h.shop
  ids := h.ids
  recipient := h.recipient
  card := h.card
  tracked k ref hfind := by
    by_cases hk : k = key
    · subst hk
      have hput : (d.refs.put ⟨k, messageId⟩).find k = some ⟨k, messageId⟩ :=
        Table.find_put_self d.refs ⟨k, messageId⟩
      obtain rfl := Option.some.inj (hput.symm.trans hfind)
      exact hsent
    · rw [Table.find_put_of_ne d.refs fun he => hk he.symm] at hfind
      exact h.tracked k ref hfind

end Messages

/-! ## Buttons -/

/-- The buttons of a message, row by row. -/
def MessageBody.buttons (body : MessageBody) : List Button :=
  (body.attachments.getD []).flatMap fun keyboard => keyboard.buttons.flatten

/-- A button asks for an event the role may cause, on the card's own order or ticket; the card of
an order may carry the buttons of a ticket, too. -/
inductive Permitted (role : StaffRole) (key : CardKey) (button : Button) : Prop
  | kitchen (ticketId : String) (event : KitchenEvent)
      (hkey : key.entityKind = "kitchen" → ticketId = key.entityId)
      (hrole : kitchenRoleEvents role event = true)
      (hbutton : button.payload = buttonPayload "kitchen" ticketId event.value)
  | order (event : OrderEvent) (hkey : key.entityKind = "order")
      (hrole : orderRoleEvents role event = true)
      (hbutton : button.payload = buttonPayload "order" key.entityId event.value)

theorem mem_buttons_messageBody {text : String} {keyboard : List InlineKeyboard}
    {button : Button} : button ∈ (messageBody text keyboard).buttons ↔
      ∃ attachment ∈ keyboard, ∃ row ∈ attachment.buttons, button ∈ row := by
  unfold messageBody MessageBody.buttons
  cases keyboard with
  | nil => simp
  | cons attachment rest => simp

theorem mem_keyboardOf {row : List Button} {button : Button} :
    (∃ attachment ∈ keyboardOf row, ∃ r ∈ attachment.buttons, button ∈ r) ↔ button ∈ row := by
  unfold keyboardOf
  cases row with
  | nil => simp
  | cons first rest => simp

theorem mem_combineKeyboards {keyboards : List (List InlineKeyboard)} {button : Button} :
    (∃ attachment ∈ combineKeyboards keyboards, ∃ r ∈ attachment.buttons, button ∈ r) ↔
      ∃ keyboard ∈ keyboards, ∃ attachment ∈ keyboard, ∃ r ∈ attachment.buttons, button ∈ r := by
  unfold combineKeyboards
  generalize hrows : (keyboards.flatMap fun keyboard => keyboard.flatMap InlineKeyboard.buttons) =
    rows
  have hmem : ∀ r, r ∈ rows ↔
      ∃ keyboard ∈ keyboards, ∃ attachment ∈ keyboard, r ∈ attachment.buttons := by
    intro r
    simp [← hrows, List.mem_flatMap]
  dsimp only
  split_ifs with hempty
  · rw [List.isEmpty_iff] at hempty
    subst hempty
    simp only [List.not_mem_nil, false_iff] at hmem
    constructor
    · simp
    · rintro ⟨keyboard, hk, attachment, ha, r, hr, -⟩
      exact absurd ⟨keyboard, hk, attachment, ha, hr⟩ (hmem r)
  · constructor
    · rintro ⟨attachment, ha, r, hr, hb⟩
      obtain rfl := List.mem_singleton.mp ha
      obtain ⟨keyboard, hk, attachment, ha, hr⟩ := (hmem r).mp hr
      exact ⟨keyboard, hk, attachment, ha, r, hr, hb⟩
    · rintro ⟨keyboard, hk, attachment, ha, r, hr, hb⟩
      exact ⟨_, List.mem_singleton_self _, r, (hmem r).mpr ⟨keyboard, hk, attachment, ha, hr⟩, hb⟩

theorem mem_kitchenKeyboard {ticketId : String} {state : KitchenState} {button : Button} :
    (∃ attachment ∈ kitchenKeyboard ticketId state, ∃ r ∈ attachment.buttons, button ∈ r) ↔
      ∃ event ∈ allowedKitchenEvents state, kitchenButton ticketId event = button := by
  unfold kitchenKeyboard
  rw [mem_keyboardOf, List.mem_map]

theorem mem_orderKeyboard {orderId : String} {state : OrderState} {role : StaffRole}
    {button : Button} :
    (∃ attachment ∈ orderKeyboard orderId state role, ∃ r ∈ attachment.buttons, button ∈ r) ↔
      ∃ event ∈ allowedOrderEvents state, event ∈ offeredOrderEvents role ∧
        orderButton orderId event = button := by
  unfold orderKeyboard
  rw [mem_keyboardOf]
  simp [List.mem_filter, and_assoc]

/-- What a card offers a role, the webhook grants it, and the other way round. -/
theorem mem_offeredOrderEvents {role : StaffRole} {event : OrderEvent} :
    event ∈ offeredOrderEvents role ↔ orderRoleEvents role event = true := by
  cases role <;> cases event <;> decide

/-- Every button of a card is permitted. -/
theorem IsCard.permitted {cfg : CardSettings} {P : Database → Prop} {role : StaffRole}
    {key : CardKey} {body : MessageBody} (h : IsCard cfg P role key.entityKind key.entityId body)
    {button : Button} (hb : button ∈ body.buttons) : Permitted role key button := by
  obtain ⟨entityKind, entityId, maxUserId⟩ := key
  cases h with
  | kitchen ticketId orderId state details hd =>
      obtain ⟨event, hallowed, rfl⟩ := mem_kitchenKeyboard.mp (mem_buttons_messageBody.mp hb)
      exact .kitchen _ event (fun _ => rfl) rfl rfl
  | courier orderId state details hd =>
      obtain ⟨event, hallowed, hoff, rfl⟩ := mem_orderKeyboard.mp (mem_buttons_messageBody.mp hb)
      exact .order event rfl (mem_offeredOrderEvents.mp hoff) rfl
  | admin orderId state kitchenState details hd =>
      obtain ⟨event, hallowed, hoff, rfl⟩ := mem_orderKeyboard.mp (mem_buttons_messageBody.mp hb)
      exact .order event rfl (mem_offeredOrderEvents.mp hoff) rfl
  | staff orderId state ticket details hd =>
      obtain ⟨keyboard, hk, hb⟩ := mem_combineKeyboards.mp (mem_buttons_messageBody.mp hb)
      simp only [List.mem_cons, List.not_mem_nil, or_false] at hk
      rcases hk with rfl | rfl
      · cases ticket with
        | none => simp at hb
        | some ticket =>
            obtain ⟨event, hallowed, rfl⟩ := mem_kitchenKeyboard.mp hb
            refine .kitchen ticket.1 event (fun h => ?_) rfl rfl
            exact absurd (show "order" = "kitchen" from h) (by decide)
      · obtain ⟨event, hallowed, hoff, rfl⟩ := mem_orderKeyboard.mp hb
        exact .order event rfl (mem_offeredOrderEvents.mp hoff) rfl

/-! ## One notification -/

section Specs

variable {cfg : CardSettings} {P : Database → Prop} {c : CardCall} {x : CardAt}

/-- What was sent as a card stays so while a notification waits. -/
theorem sentAs_later {s : RefDatabase × MaxWorld} {messageId : String} {key : CardKey}
    (hs : (cardContract cfg P).Later c x s) (h : SentAs x.mem.messages messageId key) :
    SentAs s.2.messages messageId key :=
  hs.keeps (fun s => SentAs s.2.messages messageId key)
    (fun _ _ hm hsent => hm.1 messageId key hsent) h

theorem wp_readShop {α : Type} {f : Database → α} {Q : Except PyError α → CardAt → Prop}
    (hok : ∀ s, (cardContract cfg P).Later c x s → Q (.ok (f s.2.shop)) (x.now s))
    (hno : ∀ s, (cardContract cfg P).Later c x s → Q (.error .dbapiError) (x.now s)) :
    (cardContract cfg P).wp c (readShop f) Q x := by
  intro s hs _ n
  cases n with
  | zero => exact hno s hs
  | succ n =>
      intro s' hs' _
      exact ⟨fun h => absurd rfl h, hs'.inv, hok s' (hs.trans hs')⟩

theorem wp_getMessageRef {key : CardKey} {Q : Except PyError (Option String) → CardAt → Prop}
    (hx : x.txn = {})
    (hsome : ∀ y messageId, y.txn = {} → SentAs y.mem.messages messageId key →
      Q (.ok (some messageId)) y)
    (hnone : ∀ y, y.txn = {} → Q (.ok none) y) :
    (cardContract cfg P).wp c (getMessageRef key) Q x := by
  unfold getMessageRef
  rw [wp_andThen]
  refine wp_withSession ?_
  refine maxMessageRefs.wp_find (by rw [hx]) (fun s hs _ => ?_) fun y hy s hs _ => hnone _ rfl
  intro s' hs' _
  cases hfind : (maxMessageRefs.table (x.txn.view s.1)).find key with
  | none => exact hnone _ rfl
  | some row =>
      rw [hx] at hfind
      have htracked := hs.inv.tracked key row hfind
      exact hsome _ row.messageId rfl (sentAs_later hs' htracked)

theorem wp_editMessage {key : CardKey} {role : StaffRole} {messageId text : String}
    {keyboard : List InlineKeyboard} {Q : Except PyError Bool → CardAt → Prop} (hx : x.txn = {})
    (hcard : CardFor cfg P role key (messageBody text keyboard))
    (hsent : SentAs x.mem.messages messageId key) (hQ : ∀ y r, y.txn = {} → Q r y) :
    (cardContract cfg P).wp c (editMessage cfg messageId text keyboard) Q x := by
  unfold editMessage
  split_ifs
  · exact hQ x _ hx
  · intro s hs _ n
    match n with
    | 0 => exact hQ _ _ hx
    | 1 => exact hQ _ _ hx
    | n + 2 =>
        intro s' hs' _
        have hsent' := sentAs_later (hs.trans hs') hsent
        refine ⟨fun _ => kept_edited _ _ _, hs'.inv.edited hsent' hcard, ?_⟩
        match n with
        | 0 => exact hQ _ _ hx
        | 1 => exact hQ _ _ hx
        | _ + 2 => exact hQ _ _ hx

theorem wp_sendMessage {key : CardKey} {role : StaffRole} {text : String}
    {keyboard : List InlineKeyboard} {Q : Except PyError (Option String) → CardAt → Prop}
    (hx : x.txn = {}) (hcard : CardFor cfg P role key (messageBody text keyboard))
    (hsome : ∀ y messageId, y.txn = {} → SentAs y.mem.messages messageId key →
      Q (.ok (some messageId)) y)
    (hnone : ∀ y, y.txn = {} → Q (.ok none) y) (hraise : ∀ y e, y.txn = {} → Q (.error e) y) :
    (cardContract cfg P).wp c (sendMessage cfg key key.maxUserId text keyboard) Q x := by
  unfold sendMessage
  split_ifs
  · exact hnone x hx
  · intro s hs _ n
    match n with
    | 0 => exact hnone _ hx
    | 1 => exact hraise _ _ hx
    | n + 2 =>
        intro s' hs' _
        refine ⟨fun _ => kept_sent _, hs'.inv.sent hcard, ?_⟩
        match n with
        | 0 => exact hnone _ hx
        | 1 => exact hraise _ _ hx
        | _ + 2 =>
            refine hsome _ _ hx ⟨_, List.mem_append_right _ (List.mem_singleton_self _), ?_, ?_⟩
            · rfl
            · rfl

theorem wp_saveMessageRef {key : CardKey} {messageId : String}
    {Q : Except PyError Unit → CardAt → Prop} (hx : x.txn = {})
    (hsent : SentAs x.mem.messages messageId key) (hQ : ∀ y r, y.txn = {} → Q r y) :
    (cardContract cfg P).wp c (saveMessageRef key messageId) Q x := by
  unfold saveMessageRef
  rw [wp_andThen]
  refine wp_withSession ?_
  rw [wp_bind]
  refine maxMessageRefs.wp_upsert (by rw [hx]) (fun s hs _ => ?_)
    fun y hy s hs _ => hQ _ _ rfl
  refine wp_commitSession (by simp [hx]) (fun s' hs' _ => ?_) fun y hy s _ _ => hQ _ _ rfl
  have hsent' := sentAs_later hs' (sentAs_later hs hsent)
  have hview : ((x.now s).wrote [maxMessageRefs.write ⟨key, messageId⟩]).txn.view s'.1 =
      { s'.1 with refs := s'.1.refs.put ⟨key, messageId⟩ } := by
    simp [Txn.view, hx]
    rfl
  rw [hview]
  exact ⟨Kept.refl _, hs'.inv.track hsent', fun s _ _ => hQ _ _ rfl⟩

theorem wp_editTracked {key : CardKey} {role : StaffRole} {text : String}
    {keyboard : List InlineKeyboard} {existing : Option String}
    {Q : Except PyError Bool → CardAt → Prop} (hx : x.txn = {})
    (hcard : CardFor cfg P role key (messageBody text keyboard))
    (hsent : ∀ messageId ∈ existing, SentAs x.mem.messages messageId key)
    (hQ : ∀ y r, y.txn = {} → Q r y) :
    (cardContract cfg P).wp c (editTracked cfg text keyboard existing) Q x := by
  cases existing with
  | none => exact hQ x _ hx
  | some messageId => exact wp_editMessage hx hcard (hsent messageId rfl) hQ

theorem wp_sendAndTrack {key : CardKey} {role : StaffRole} {text : String}
    {keyboard : List InlineKeyboard} {Q : Except PyError Unit → CardAt → Prop} (hx : x.txn = {})
    (hcard : CardFor cfg P role key (messageBody text keyboard))
    (hQ : ∀ y r, y.txn = {} → Q r y) :
    (cardContract cfg P).wp c (sendAndTrack cfg key text keyboard) Q x := by
  rw [sendAndTrack, wp_bind]
  refine wp_sendMessage hx hcard (fun y messageId hy hsent => ?_) (fun y hy => hQ _ _ hy)
    fun y e hy => hQ _ _ hy
  exact wp_saveMessageRef hy hsent hQ

theorem wp_sendOrEdit {key : CardKey} {role : StaffRole} {text : String}
    {keyboard : List InlineKeyboard} {Q : Except PyError Unit → CardAt → Prop} (hx : x.txn = {})
    (hcard : CardFor cfg P role key (messageBody text keyboard))
    (hQ : ∀ y r, y.txn = {} → Q r y) :
    (cardContract cfg P).wp c (sendOrEdit cfg key text keyboard) Q x := by
  have hedit : ∀ (existing : Option String) (y : CardAt), y.txn = {} →
      (∀ messageId ∈ existing, SentAs y.mem.messages messageId key) →
      (cardContract cfg P).wp c (editTracked cfg text keyboard existing >>= fun edited =>
        if edited then .ret () else sendAndTrack cfg key text keyboard) Q y := by
    intro existing y hy hsent
    rw [wp_bind]
    refine wp_editTracked hy hcard hsent fun z r hz => ?_
    cases r with
    | error e => exact hQ _ _ hz
    | ok edited =>
        cases edited with
        | true => exact hQ _ _ hz
        | false => exact wp_sendAndTrack hz hcard hQ
  rw [sendOrEdit, wp_bind]
  refine wp_getMessageRef hx (fun y messageId hy hsent => ?_) fun y hy => ?_
  · refine hedit (some messageId) y hy fun id hid => ?_
    obtain rfl := Option.some.inj hid
    exact hsent
  · exact hedit none y hy fun id hid => absurd hid (by simp)

theorem wp_sendToAll {role : StaffRole} {entityKind entityId text : String}
    {keyboard : List InlineKeyboard} {members : List StaffMember}
    (hcard : ∀ member ∈ members, ∀ maxUserId, member.maxUserId = some maxUserId →
      CardFor cfg P role ⟨entityKind, entityId, maxUserId⟩ (messageBody text keyboard))
    {Q : Except PyError Unit → CardAt → Prop} (hx : x.txn = {}) (hQ : ∀ y r, y.txn = {} → Q r y) :
    (cardContract cfg P).wp c (sendToAll cfg entityKind entityId text keyboard members) Q x := by
  induction members generalizing x with
  | nil => exact hQ x _ hx
  | cons member rest ih =>
      have hrest := fun member hm => hcard member (List.mem_cons_of_mem _ hm)
      rw [sendToAll]
      cases hid : member.maxUserId with
      | none => exact ih hrest hx
      | some maxUserId =>
          dsimp only
          rw [wp_bind, wp_andThen]
          refine wp_sendOrEdit hx (hcard member List.mem_cons_self maxUserId hid) fun y r hy => ?_
          cases r with
          | error e => exact ih hrest hy
          | ok u => exact ih hrest hy

theorem wp_notifyRole {role : StaffRole} {entityKind entityId text : String}
    {keyboard : List InlineKeyboard}
    (hcard : IsCard cfg P role entityKind entityId (messageBody text keyboard))
    {Q : Except PyError Unit → CardAt → Prop} (hx : x.txn = {}) (hQ : ∀ y r, y.txn = {} → Q r y) :
    (cardContract cfg P).wp c (notifyRole cfg role entityKind entityId text keyboard) Q x := by
  unfold notifyRole
  rw [wp_bind, wp_andThen]
  refine wp_readShop (fun s hs => ?_) fun s hs => hQ _ _ hx
  have hall : ∀ member ∈ activeByRole role s.2.shop, ∀ maxUserId,
      member.maxUserId = some maxUserId →
      CardFor cfg P role ⟨entityKind, entityId, maxUserId⟩ (messageBody text keyboard) :=
    fun member hm maxUserId hid => ⟨hcard, s.2.shop, hs.inv.shop, member, hm, hid⟩
  exact wp_sendToAll hall hx hQ

end Specs

end Sieshka
