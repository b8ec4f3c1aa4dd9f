import Sieshka.Properties.StaffCards
import Sieshka.Transactions.InTurn
import Mathlib.Data.List.Forall2

/-!
# One card for each recipient

Notifications that take turns, and whose requests are carried out and answered, leave a member
of the staff with one live message for each card at most, and it is the tracked one. Two that
overlap leave two.
-/

namespace Sieshka

open Transactions

/-- Every live message is the tracked one of its card. -/
structure OneCard (d : RefDatabase) (m : MaxWorld) : Prop where
  ids : (m.messages.map MaxMessage.id).Nodup
  tracked : ∀ message ∈ m.messages, message.gone = false →
    ∃ ref, d.refs.find message.sentAs = some ref ∧ ref.messageId = message.id

/-- A card has no live message. -/
def NoLive (m : MaxWorld) (key : CardKey) : Prop :=
  ∀ message ∈ m.messages, message.sentAs = key → message.gone = true

/-- Every live message is the tracked one of its card, but for a card whose only live message
has yet to be tracked. -/
structure Untracked (d : RefDatabase) (m : MaxWorld) (key : CardKey) (messageId : String) :
    Prop where
  ids : (m.messages.map MaxMessage.id).Nodup
  tracked : ∀ message ∈ m.messages, message.gone = false → message.sentAs ≠ key →
    ∃ ref, d.refs.find message.sentAs = some ref ∧ ref.messageId = message.id
  sent : ∀ message ∈ m.messages, message.gone = false → message.sentAs = key →
    message.id = messageId

/-! ## What fades -/

/-- The message is the same, or no longer live. -/
def MaxMessage.Fades (a b : MaxMessage) : Prop :=
  b.id = a.id ∧ b.sentAs = a.sentAs ∧ (b.gone = false → a.gone = false)

/-- Messages are edited or go, and none comes. -/
def Fades (m m' : MaxWorld) : Prop := List.Forall₂ MaxMessage.Fades m.messages m'.messages

section Fades

variable {d : RefDatabase} {m m' m'' : MaxWorld} {key : CardKey} {messageId : String}

theorem Fades.refl (m : MaxWorld) : Fades m m :=
  List.forall₂_same.mpr fun _ _ => ⟨rfl, rfl, fun h => h⟩

theorem Fades.trans (h : Fades m m') (h' : Fades m' m'') : Fades m m'' := by
  unfold Fades at h h' ⊢
  generalize m.messages = ms at h ⊢
  generalize m'.messages = ms' at h h'
  generalize m''.messages = ms'' at h' ⊢
  induction h generalizing ms'' with
  | nil =>
      cases h'
      exact .nil
  | cons hab _ ih =>
      cases h' with
      | cons hbc hrest =>
          refine .cons ?_ (ih _ hrest)
          obtain ⟨hid, hsent, hgone⟩ := hbc
          exact ⟨hid.trans hab.1, hsent.trans hab.2.1, fun h => hab.2.2 (hgone h)⟩

theorem Fades.mem (h : Fades m m') {b : MaxMessage} (hb : b ∈ m'.messages) :
    ∃ a ∈ m.messages, a.Fades b := by
  unfold Fades at h
  generalize m.messages = ms at h ⊢
  generalize m'.messages = ms' at h hb
  induction h with
  | nil => cases hb
  | @cons a _ _ _ hab _ ih =>
      rcases List.mem_cons.mp hb with rfl | hb
      · exact ⟨a, List.mem_cons_self, hab⟩
      · obtain ⟨a', ha', hfades⟩ := ih hb
        exact ⟨a', List.mem_cons_of_mem _ ha', hfades⟩

theorem Fades.ids (h : Fades m m') :
    m'.messages.map MaxMessage.id = m.messages.map MaxMessage.id := by
  unfold Fades at h
  generalize m.messages = ms at h ⊢
  generalize m'.messages = ms' at h ⊢
  induction h with
  | nil => rfl
  | cons hab _ ih => rw [List.map_cons, List.map_cons, ih, hab.1]

/-- A change of messages one by one. -/
theorem fades_map {f : MaxMessage → MaxMessage}
    (h : ∀ message : MaxMessage, message.Fades (f message)) :
    Fades m { m with messages := m.messages.map f } := by
  unfold Fades
  rw [List.forall₂_map_right_iff]
  exact List.forall₂_same.mpr fun message _ => h message

theorem fades_edited (api : MaxApi) (messageId : String) (body : MessageBody) :
    Fades m { m with messages := editedMessages api messageId body m.messages } := by
  refine fades_map fun message => ?_
  split
  · refine ⟨message.edited_id api body, message.edited_sentAs api body, fun h => ?_⟩
    unfold MaxMessage.edited at h
    split at h
    · exact h
    · exact h
  · exact ⟨rfl, rfl, fun h => h⟩

theorem fades_move {P : Database → Prop} {v : MaxMove P} (h : maxMove v m = some m') :
    Fades m m' := by
  cases v with
  | shop shop hshop =>
      obtain rfl := Option.some.inj h
      exact .refl m
  | gone messageId =>
      obtain rfl := Option.some.inj h
      apply fades_map
      intro message
      by_cases hid : message.id = messageId
      · rw [if_pos hid]
        exact ⟨rfl, rfl, nofun⟩
      · rw [if_neg hid]
        exact ⟨rfl, rfl, fun h => h⟩

theorem OneCard.fades (h : OneCard d m) (hf : Fades m m') : OneCard d m' where
  ids := by
    rw [hf.ids]
    exact h.ids
  tracked b hb hlive := by
    obtain ⟨a, ha, hid, hsent, hgone⟩ := hf.mem hb
    rw [hid, hsent]
    exact h.tracked a ha (hgone hlive)

theorem NoLive.fades (h : NoLive m key) (hf : Fades m m') : NoLive m' key := by
  intro b hb hsent
  obtain ⟨a, ha, hid, hsame, hgone⟩ := hf.mem hb
  by_contra hlive
  have hold := hgone (by simpa using hlive)
  rw [h a ha (hsame.symm.trans hsent)] at hold
  cases hold

theorem Untracked.fades (h : Untracked d m key messageId) (hf : Fades m m') :
    Untracked d m' key messageId where
  ids := by
    rw [hf.ids]
    exact h.ids
  tracked b hb hlive hne := by
    obtain ⟨a, ha, hid, hsent, hgone⟩ := hf.mem hb
    rw [hid, hsent]
    exact h.tracked a ha (hgone hlive) (hsent ▸ hne)
  sent b hb hlive heq := by
    obtain ⟨a, ha, hid, hsent, hgone⟩ := hf.mem hb
    rw [hid]
    exact h.sent a ha (hgone hlive) (hsent.symm.trans heq)

/-! ## What is sent and tracked -/

/-- Where nothing is tracked nothing is live. -/
theorem OneCard.noLive_of_none (h : OneCard d m) (hnone : d.refs.find key = none) :
    NoLive m key := by
  intro message hm hsent
  by_contra hlive
  obtain ⟨ref, hfind, -⟩ := h.tracked message hm (by simpa using hlive)
  rw [hsent, hnone] at hfind
  cases hfind

/-- Where MAX does not edit the tracked message nothing is live. -/
theorem OneCard.noLive_of_not_editable (h : OneCard d m) {ref : MessageRef}
    (hfind : d.refs.find key = some ref) (hno : isEditable m.messages ref.messageId = false) :
    NoLive m key := by
  intro message hm hsent
  by_contra hlive
  have hlive : message.gone = false := by simpa using hlive
  obtain ⟨ref', hfind', hid⟩ := h.tracked message hm hlive
  rw [hsent, hfind] at hfind'
  obtain rfl := Option.some.inj hfind'
  unfold isEditable findMessage at hno
  cases hfound : m.messages.find? fun n => n.id = ref.messageId with
  | none =>
      have habs := List.find?_eq_none.mp hfound message hm
      simp [hid] at habs
  | some found =>
      have hmem := List.mem_of_find?_eq_some hfound
      have hfid : found.id = ref.messageId := by simpa using List.find?_some hfound
      obtain rfl := eq_of_ids h.ids hmem hm (hfid.trans hid)
      simp [hfound, hlive] at hno

/-- A new message is the only live one of its card. -/
theorem OneCard.sent (h : OneCard d m) (hno : NoLive m key) (api : MaxApi) (body : MessageBody) :
    Untracked d { m with
      messages := m.messages ++ [newMessage api key key.maxUserId body m.messages] } key
      (api.nextMessageId m.messages) where
  ids := nodup_ids_sent h.ids api key key.maxUserId body
  tracked message hm hlive hne := by
    rcases List.mem_append.mp hm with hm | hm
    · exact h.tracked message hm hlive
    · obtain rfl := List.mem_singleton.mp hm
      exact absurd rfl hne
  sent message hm hlive heq := by
    rcases List.mem_append.mp hm with hm | hm
    · rw [hno message hm heq] at hlive
      cases hlive
    · obtain rfl := List.mem_singleton.mp hm
      rfl

theorem Untracked.track (h : Untracked d m key messageId) :
    OneCard { d with refs := d.refs.put ⟨key, messageId⟩ } m where
  ids := h.ids
  tracked message hm hlive := by
    by_cases hkey : message.sentAs = key
    · subst hkey
      exact ⟨⟨message.sentAs, messageId⟩, Table.find_put_self d.refs ⟨message.sentAs, messageId⟩,
        (h.sent message hm hlive rfl).symm⟩
    · obtain ⟨ref, hfind, hid⟩ := h.tracked message hm hlive hkey
      exact ⟨ref, (Table.find_put_of_ne d.refs fun he => hkey he.symm).trans hfind, hid⟩

end Fades

/-! ## One notification in its turn -/

section Turns

variable (cfg : CardSettings) (P : Database → Prop)

/-- MAX or the database carries out a request and answers with what came of it: a request that
was applied is answered as such, and a new message with its id. -/
def EachAnswered (n : Nat) : Prop := 4 ≤ n

instance : DecidablePred EachAnswered := fun n => inferInstanceAs (Decidable (4 ≤ n))

/-- A program that leaves every card with one live message, if it had one. -/
def KeepsOneCard {α : Type} (p : CardAsync α) : Prop :=
  ∀ d m, OneCard d m → p.inTurn (cards cfg P).Drift EachAnswered
    (fun _ s => ∃ d m, s = Quiet.start d m ∧ OneCard d m) (Quiet.start d m)

variable {cfg P}

theorem fades_drift {m m' : MaxWorld} (h : (cards cfg P).Drift m m') : Fades m m' := by
  induction h with
  | refl => exact .refl m
  | tail _ hv ih =>
      obtain ⟨v, hv⟩ := hv
      exact ih.trans (fades_move hv)

theorem keepsOneCard_ret {α : Type} (a : α) : KeepsOneCard cfg P (.ret a) :=
  fun d m h => ⟨d, m, rfl, h⟩

theorem keepsOneCard_raise {α : Type} (e : PyError) :
    KeepsOneCard cfg P (.raise e : CardAsync α) := fun d m h => ⟨d, m, rfl, h⟩

theorem KeepsOneCard.andThen {α β : Type} {p : CardAsync α} {ok : α → CardAsync β}
    {err : PyError → CardAsync β} (hp : KeepsOneCard cfg P p) (hok : ∀ a, KeepsOneCard cfg P (ok a))
    (herr : ∀ e, KeepsOneCard cfg P (err e)) : KeepsOneCard cfg P (p.andThen ok err) := by
  intro d m h
  rw [Prog.inTurn_andThen]
  refine Prog.inTurn_mono (fun r s hs => ?_) (hp d m h)
  obtain ⟨d', m', rfl, h'⟩ := hs
  cases r with
  | ok a => exact hok a d' m' h'
  | error e => exact herr e d' m' h'

theorem KeepsOneCard.bind {α β : Type} {p : CardAsync α} {f : α → CardAsync β}
    (hp : KeepsOneCard cfg P p) (hf : ∀ a, KeepsOneCard cfg P (f a)) :
    KeepsOneCard cfg P (p >>= f) :=
  hp.andThen hf keepsOneCard_raise

theorem keepsOneCard_readShop {α : Type} (f : Database → α) :
    KeepsOneCard cfg P (readShop f) := by
  intro d m h m₁ hm₁ n hn
  have h₁ := h.fades (fades_drift hm₁)
  cases n with
  | zero => exact ⟨d, m₁, rfl, h₁⟩
  | succ n => exact fun m₂ hm₂ => ⟨d, m₂, rfl, h₁.fades (fades_drift hm₂)⟩

section Rules

variable {d : RefDatabase} {m : MaxWorld} {key : CardKey}

theorem inTurn_getMessageRef
    {Q : Except PyError (Option String) → Quiet RefDatabase MaxWorld → Prop}
    (h : ∀ m', Fades m m' →
      Q (.ok ((d.refs.find key).map MessageRef.messageId)) (Quiet.start d m')) :
    (getMessageRef key).inTurn (cards cfg P).Drift EachAnswered Q (Quiet.start d m) := by
  rw [getMessageRef, Prog.inTurn_andThen]
  refine Prog.inTurn_withSession fun m₁ hm₁ m₂ hm₂ => ?_
  exact h m₂ ((fades_drift hm₁).trans (fades_drift hm₂))

theorem inTurn_saveMessageRef {messageId : String}
    {Q : Except PyError Unit → Quiet RefDatabase MaxWorld → Prop}
    (h : ∀ m', Fades m m' →
      Q (.ok ()) (Quiet.start { d with refs := d.refs.put ⟨key, messageId⟩ } m')) :
    (saveMessageRef key messageId).inTurn (cards cfg P).Drift EachAnswered Q (Quiet.start d m) := by
  rw [saveMessageRef, Prog.inTurn_andThen]
  refine Prog.inTurn_withSession fun m₁ hm₁ m₂ hm₂ m₃ hm₃ => ?_
  exact h m₃ (((fades_drift hm₁).trans (fades_drift hm₂)).trans (fades_drift hm₃))

/-- An edit that MAX answers tells whether the message was live. -/
theorem inTurn_editMessage (htoken : cfg.maxBotToken ≠ "") {messageId text : String}
    {keyboard : List InlineKeyboard} {Q : Except PyError Bool → Quiet RefDatabase MaxWorld → Prop}
    (h : ∀ m', Fades m m' → Q (.ok (isEditable m'.messages messageId)) (Quiet.start d { m' with
      messages := editedMessages cfg.max messageId (messageBody text keyboard) m'.messages })) :
    (editMessage cfg messageId text keyboard).inTurn (cards cfg P).Drift EachAnswered Q
      (Quiet.start d m) := by
  rw [editMessage, if_neg htoken]
  intro m₁ hm₁ n hn
  obtain ⟨n, rfl⟩ := Nat.exists_eq_add_of_le' hn
  intro m₂ hm₂
  exact h m₂ ((fades_drift hm₁).trans (fades_drift hm₂))

theorem inTurn_sendMessage (htoken : cfg.maxBotToken ≠ "") {text : String}
    {keyboard : List InlineKeyboard}
    {Q : Except PyError (Option String) → Quiet RefDatabase MaxWorld → Prop}
    (h : ∀ m', Fades m m' →
      Q (.ok (some (cfg.max.nextMessageId m'.messages))) (Quiet.start d { m' with
        messages := m'.messages ++
          [newMessage cfg.max key key.maxUserId (messageBody text keyboard) m'.messages] })) :
    (sendMessage cfg key key.maxUserId text keyboard).inTurn (cards cfg P).Drift EachAnswered Q
      (Quiet.start d m) := by
  rw [sendMessage, if_neg htoken]
  intro m₁ hm₁ n hn
  obtain ⟨n, rfl⟩ := Nat.exists_eq_add_of_le' hn
  intro m₂ hm₂
  exact h m₂ ((fades_drift hm₁).trans (fades_drift hm₂))

/-- A card without a live message gets one, and it is tracked. -/
theorem inTurn_sendAndTrack (htoken : cfg.maxBotToken ≠ "") {text : String}
    {keyboard : List InlineKeyboard} (h : OneCard d m) (hno : NoLive m key) :
    (sendAndTrack cfg key text keyboard).inTurn (cards cfg P).Drift EachAnswered
      (fun _ s => ∃ d m, s = Quiet.start d m ∧ OneCard d m) (Quiet.start d m) := by
  rw [sendAndTrack, Prog.inTurn_bind]
  refine inTurn_sendMessage htoken fun m₁ hm₁ => ?_
  have hsent := (h.fades hm₁).sent (hno.fades hm₁) cfg.max (messageBody text keyboard)
  exact inTurn_saveMessageRef fun m₂ hm₂ => ⟨_, m₂, rfl, (hsent.fades hm₂).track⟩

theorem keepsOneCard_sendOrEdit (key : CardKey) (text : String) (keyboard : List InlineKeyboard) :
    KeepsOneCard cfg P (sendOrEdit cfg key text keyboard) := by
  intro d m h
  rw [sendOrEdit, Prog.inTurn_bind]
  refine inTurn_getMessageRef fun m₁ hm₁ => ?_
  have h₁ := h.fades hm₁
  dsimp only
  rw [Prog.inTurn_bind]
  by_cases htoken : cfg.maxBotToken = ""
  · -- without a bot nothing is edited and nothing sent
    have hedit : ∀ existing, editTracked cfg text keyboard existing = .ret false := by
      intro existing
      cases existing with
      | none => rfl
      | some messageId => exact if_pos htoken
    have hsend : sendAndTrack cfg key text keyboard = .ret () := by
      rw [sendAndTrack, sendMessage, if_pos htoken]
      rfl
    rw [hedit]
    simp only [Prog.inTurn, Bool.false_eq_true, if_false, hsend]
    exact ⟨d, m₁, rfl, h₁⟩
  · cases hfind : d.refs.find key with
    | none =>
        have hno := h₁.noLive_of_none hfind
        exact inTurn_sendAndTrack htoken h₁ hno
    | some ref =>
        refine inTurn_editMessage htoken fun m₂ hm₂ => ?_
        have h₂ := h₁.fades hm₂
        have hedited := @fades_edited m₂ cfg.max ref.messageId (messageBody text keyboard)
        cases heditable : isEditable m₂.messages ref.messageId with
        | true => exact ⟨d, _, rfl, h₂.fades hedited⟩
        | false =>
            have hno := h₂.noLive_of_not_editable hfind heditable
            exact inTurn_sendAndTrack htoken (h₂.fades hedited) (hno.fades hedited)

end Rules

theorem keepsOneCard_sendToAll (entityKind entityId text : String) (keyboard : List InlineKeyboard)
    (members : List StaffMember) :
    KeepsOneCard cfg P (sendToAll cfg entityKind entityId text keyboard members) := by
  induction members with
  | nil => exact keepsOneCard_ret ()
  | cons member rest ih =>
      rw [sendToAll]
      cases member.maxUserId with
      | none => exact ih
      | some maxUserId =>
          refine KeepsOneCard.bind ?_ fun _ => ih
          exact (keepsOneCard_sendOrEdit _ text keyboard).andThen keepsOneCard_ret
            fun _ => keepsOneCard_ret ()

theorem keepsOneCard_notifyRole (role : StaffRole) (entityKind entityId text : String)
    (keyboard : List InlineKeyboard) :
    KeepsOneCard cfg P (notifyRole cfg role entityKind entityId text keyboard) := by
  refine KeepsOneCard.bind ?_ fun recipients => ?_
  · exact (keepsOneCard_readShop _).andThen (fun _ => keepsOneCard_ret _)
      fun _ => keepsOneCard_ret _
  · cases recipients with
    | none => exact keepsOneCard_ret ()
    | some members => exact keepsOneCard_sendToAll entityKind entityId text keyboard members

theorem keepsOneCard_fetchOrderDetails (orderId : String) :
    KeepsOneCard cfg P (fetchOrderDetails cfg orderId) := by
  rw [fetchOrderDetails]
  cases cfg.uuidParam orderId with
  | none => exact keepsOneCard_ret ""
  | some id =>
      refine KeepsOneCard.bind ?_ fun found => ?_
      · exact (keepsOneCard_readShop _).andThen keepsOneCard_ret fun _ => keepsOneCard_ret _
      · cases found with
        | none => exact keepsOneCard_ret ""
        | some found =>
            dsimp only
            cases orderDetails cfg.toSettings found.1 found.2 with
            | ok details => exact keepsOneCard_ret details
            | error e => exact keepsOneCard_raise e

theorem keepsOneCard_fetchOrderState (orderId : String) :
    KeepsOneCard cfg P (fetchOrderState cfg orderId) := by
  rw [fetchOrderState]
  cases cfg.uuidParam orderId with
  | none => exact keepsOneCard_ret none
  | some id => exact (keepsOneCard_readShop _).andThen keepsOneCard_ret fun _ => keepsOneCard_ret _

theorem keepsOneCard_fetchKitchenTicketForOrder (orderId : String) :
    KeepsOneCard cfg P (fetchKitchenTicketForOrder cfg orderId) := by
  rw [fetchKitchenTicketForOrder]
  cases cfg.uuidParam orderId with
  | none => exact keepsOneCard_ret none
  | some id => exact (keepsOneCard_readShop _).andThen keepsOneCard_ret fun _ => keepsOneCard_ret _

theorem keepsOneCard_notifyAdminCard (orderId : String) (state : OrderState)
    (kitchenState : Option KitchenState) :
    KeepsOneCard cfg P (notifyAdminCard cfg orderId state kitchenState) := by
  refine KeepsOneCard.bind ?_ fun text => keepsOneCard_notifyRole _ _ _ _ _
  refine KeepsOneCard.bind (keepsOneCard_fetchOrderDetails orderId) fun details => ?_
  refine KeepsOneCard.bind ?_ fun _ => keepsOneCard_ret _
  cases kitchenState with
  | some state => exact keepsOneCard_ret _
  | none =>
      exact KeepsOneCard.bind (keepsOneCard_fetchKitchenTicketForOrder orderId)
        fun _ => keepsOneCard_ret _

theorem keepsOneCard_notifyAdminKitchenTicketState (orderId : String) (state : KitchenState) :
    KeepsOneCard cfg P (notifyAdminKitchenTicketState cfg orderId state) := by
  refine KeepsOneCard.bind (keepsOneCard_fetchOrderState orderId) fun found => ?_
  cases found with
  | none => exact keepsOneCard_ret ()
  | some orderState => exact keepsOneCard_notifyAdminCard orderId orderState (some state)

theorem keepsOneCard_notifyKitchenTicketState (ticketId orderId : String) (state : KitchenState) :
    KeepsOneCard cfg P (notifyKitchenTicketState cfg ticketId orderId state) :=
  KeepsOneCard.bind (keepsOneCard_fetchOrderDetails orderId)
    fun _ => keepsOneCard_notifyRole _ _ _ _ _

theorem keepsOneCard_notifyCourierOrderState (orderId : String) (state : OrderState) :
    KeepsOneCard cfg P (notifyCourierOrderState cfg orderId state) :=
  KeepsOneCard.bind (keepsOneCard_fetchOrderDetails orderId)
    fun _ => keepsOneCard_notifyRole _ _ _ _ _

theorem keepsOneCard_notifyStaffCard (orderId : String) (orderState : Option OrderState)
    (ticket : Option (String × KitchenState)) :
    KeepsOneCard cfg P (notifyStaffCard cfg orderId orderState ticket) := by
  refine KeepsOneCard.bind ?_ fun found => ?_
  · cases orderState with
    | some state => exact keepsOneCard_ret _
    | none => exact keepsOneCard_fetchOrderState orderId
  · cases found with
    | none => exact keepsOneCard_ret ()
    | some state =>
        refine KeepsOneCard.bind ?_ fun resolved => ?_
        · cases ticket with
          | some ticket => exact keepsOneCard_ret _
          | none => exact keepsOneCard_fetchKitchenTicketForOrder orderId
        · exact KeepsOneCard.bind (keepsOneCard_fetchOrderDetails orderId)
            fun _ => keepsOneCard_notifyRole _ _ _ _ _

/-- A notification of which nothing is heard when it raises. -/
theorem KeepsOneCard.logged {p : CardAsync Unit} (h : KeepsOneCard cfg P p) :
    KeepsOneCard cfg P (p.andThen .ret fun _ => .ret ()) :=
  h.andThen keepsOneCard_ret fun _ => keepsOneCard_ret ()

theorem keepsOneCard_cardBody (c : CardCall) : KeepsOneCard cfg P (cardBody cfg c) := by
  cases c with
  | kitchenTicketState ticketId orderId state =>
      exact keepsOneCard_notifyKitchenTicketState ticketId orderId state
  | courierOrderState orderId state => exact keepsOneCard_notifyCourierOrderState orderId state
  | adminOrderState orderId state => exact keepsOneCard_notifyAdminCard orderId state none
  | adminKitchenTicketState orderId state =>
      exact keepsOneCard_notifyAdminKitchenTicketState orderId state
  | staffCard orderId orderState ticket =>
      exact keepsOneCard_notifyStaffCard orderId orderState ticket
  | staffNewKitchenTicket orderId ticketId =>
      refine KeepsOneCard.bind (keepsOneCard_notifyKitchenTicketState _ _ _).logged fun _ => ?_
      refine KeepsOneCard.bind (keepsOneCard_notifyAdminKitchenTicketState _ _).logged fun _ => ?_
      exact (keepsOneCard_notifyStaffCard _ _ _).logged

/-- In a run whose notifications take turns, in which MAX and the database carry out and answer
each request, whenever no notification is in progress every live message is the tracked one of
its card, so that no two live messages show one card to one member, whatever the shop did and
whichever messages went meanwhile. -/
theorem one_card_in_turn {shop : Database} {c : CardConfig}
    (h : (cards cfg P).Runs ((cards cfg P).InTurn EachAnswered) (cardsStart shop) c)
    (hq : c.Quiescent) :
    (∀ message ∈ c.mem.messages, message.gone = false →
      ∃ ref, c.db.refs.find message.sentAs = some ref ∧ ref.messageId = message.id) ∧
    ∀ a ∈ c.mem.messages, ∀ b ∈ c.mem.messages, a.gone = false → b.gone = false →
      a.sentAs = b.sentAs → a = b := by
  have hone : OneCard c.db c.mem := by
    refine System.Runs.inTurn_induction (fun k d m hI => ?_) (fun v d m m' hI hv => ?_) ?_ h hq
    · refine Prog.inTurn_mono (fun r s hs => ?_) (keepsOneCard_cardBody k d m hI)
      obtain ⟨d', m', rfl, h'⟩ := hs
      exact h'
    · exact hI.fades (fades_move hv)
    · exact ⟨List.nodup_nil, by simp⟩
  refine ⟨hone.tracked, fun a ha b hb halive hblive hkey => ?_⟩
  obtain ⟨ref, hfind, hid⟩ := hone.tracked a ha halive
  obtain ⟨ref', hfind', hid'⟩ := hone.tracked b hb hblive
  rw [hkey, hfind'] at hfind
  obtain rfl := Option.some.inj hfind
  exact eq_of_ids hone.ids ha hb (hid.symm.trans hid')

end Turns

/-- The steps of runs whose notifications may overlap while every request is carried out and
answered. -/
def Overlapping (_ : CardConfig) : Action CardCall (cards cardSettings fun _ => True).Move → Prop
  | .call _ => True
  | .run _ n => EachAnswered n
  | .world _ => True
  | _ => False

instance (c : CardConfig) (a : Action CardCall (cards cardSettings fun _ => True).Move) :
    Decidable (Overlapping c a) := by
  cases a <;> unfold Overlapping <;> infer_instance

/-- Two live messages show one card. -/
def TwoCards (m : MaxWorld) : Prop :=
  ∃ a ∈ m.messages, ∃ b ∈ m.messages, a.gone = false ∧ b.gone = false ∧ a.sentAs = b.sentAs ∧ a ≠ b

instance (m : MaxWorld) : Decidable (TwoCards m) :=
  inferInstanceAs (Decidable (∃ a ∈ m.messages, ∃ b ∈ m.messages, _))

/-- Of two notifications in turn the second edits the message of the first, and a third sends a
new one when the first has gone. Two that overlap both send a card. -/
theorem one_card_in_turn_courier :
    (∃ c, (cards cardSettings fun _ => True).Runs
        ((cards cardSettings fun _ => True).InTurn EachAnswered) (cardsStart packedShop) c ∧
      (c.mem.messages.map MaxMessage.gone = [true, false] ∧ c.Quiescent) ∧
      ∀ a ∈ c.mem.messages, ∀ b ∈ c.mem.messages, a.gone = false → b.gone = false →
        a.sentAs = b.sentAs → a = b) ∧
    ∃ c, (cards cardSettings fun _ => True).Runs Overlapping (cardsStart packedShop) c ∧
      c.Quiescent ∧ TwoCards c.mem := by
  constructor
  · obtain ⟨c, hr, hc⟩ := System.Runs.exists_of_execIf (cards cardSettings fun _ => True)
      ((cards cardSettings fun _ => True).InTurn EachAnswered) (cardsStart packedShop)
      ([.call (.courierOrderState (Uuid.text 1) .PACKING)] ++ List.replicate 11 (.run 0 4) ++
        [.call (.courierOrderState (Uuid.text 1) .COURIER_ASSIGNED)] ++
        List.replicate 8 (.run 1 4) ++ [.world (.gone "0"),
          .call (.courierOrderState (Uuid.text 1) .DELIVERING)] ++ List.replicate 13 (.run 2 4))
      (f := fun c => (c.mem.messages.map MaxMessage.gone, decide c.Quiescent))
      (v := ([true, false], true)) (by decide +kernel)
    obtain ⟨hgone, hq⟩ := Prod.mk.inj hc
    have hq := of_decide_eq_true hq
    exact ⟨c, hr, ⟨hgone, hq⟩, (one_card_in_turn hr hq).2⟩
  · obtain ⟨c, hr, hc⟩ := System.Runs.exists_of_execIf (cards cardSettings fun _ => True)
      Overlapping (cardsStart packedShop)
      ([.call (.courierOrderState (Uuid.text 1) .PACKING),
        .call (.courierOrderState (Uuid.text 1) .COURIER_ASSIGNED)] ++
        List.replicate 6 (.run 0 4) ++ List.replicate 6 (.run 1 4) ++
        List.replicate 5 (.run 0 4) ++ List.replicate 5 (.run 1 4))
      (f := fun c => decide (c.Quiescent ∧ TwoCards c.mem)) (v := true) (by decide +kernel)
    exact ⟨c, hr, of_decide_eq_true hc⟩

end Sieshka
