import Sieshka.Shop

/-!
# Messages in MAX

The client of the MAX bot API, and the table `max_message_refs` that remembers which message
shows which card.

## Implementation notes

MAX is outside the repository and a parameter here (`MaxApi`): it gives every new message an
id of its own, and an edit sets the text and, where the request has attachments, these; it
leaves the attachments alone where the request has none. It refuses to edit a message that is
gone, and any request may fail before or after it took effect. A message carries the body
that MAX shows. The tables of the shop belong to other services, which may change them at any
time; none of them changes the staff.
-/

namespace Sieshka

open Transactions

/-! ## Messages -/

/-- A button of an inline keyboard. -/
structure Button where
  text : String
  intent : String
  payload : String
deriving DecidableEq

/-- An attachment of type `inline_keyboard`. -/
structure InlineKeyboard where
  buttons : List (List Button)
deriving DecidableEq

/-- The body of a request to `/messages`. -/
structure MessageBody where
  text : String
  attachments : Option (List InlineKeyboard)
deriving DecidableEq

/-- `body["attachments"]` is set when there are any. -/
def messageBody (text : String) (attachments : List InlineKeyboard) : MessageBody where
  text := text
  attachments := if attachments.isEmpty then none else some attachments

/-- The primary key of `max_message_refs`: a card, and who it is for. -/
structure CardKey where
  entityKind : String
  entityId : String
  maxUserId : Int
deriving DecidableEq

/-- A row of `max_message_refs`. -/
structure MessageRef where
  key : CardKey
  messageId : String
deriving DecidableEq

/-- A message in MAX. Which card it was sent as is a history variable: no request carries it. -/
structure MaxMessage where
  id : String
  userId : Int
  body : MessageBody
  gone : Bool
  sentAs : CardKey
deriving DecidableEq

/-- The message MAX has under an id. -/
def findMessage (messages : List MaxMessage) (messageId : String) : Option MaxMessage :=
  messages.find? fun m => m.id = messageId

/-- What MAX does with the requests to `/messages`. -/
structure MaxApi where
  /-- The id of a new message beside the ones there are. -/
  nextMessageId : List MaxMessage → String
  fresh : ∀ messages, ∀ m ∈ messages, m.id ≠ nextMessageId messages
  /-- What a message shows after an edit, given what it showed and the body of the request. -/
  edit : MessageBody → MessageBody → MessageBody
  edit_text : ∀ shown body, (edit shown body).text = body.text
  edit_some : ∀ shown body attachments, body.attachments = some attachments →
    (edit shown body).attachments = some attachments
  edit_none : ∀ shown body, body.attachments = none →
    (edit shown body).attachments = shown.attachments

section Requests

variable (api : MaxApi)

/-- A message that has just been sent. -/
def newMessage (sentAs : CardKey) (userId : Int) (body : MessageBody)
    (messages : List MaxMessage) : MaxMessage where
  id := api.nextMessageId messages
  userId := userId
  body := body
  gone := false
  sentAs := sentAs

/-- The message after an edit that MAX took. -/
def MaxMessage.edited (m : MaxMessage) (body : MessageBody) : MaxMessage :=
  if m.gone then m else { m with body := api.edit m.body body }

/-- The messages after an edit. -/
def editedMessages (messageId : String) (body : MessageBody) (messages : List MaxMessage) :
    List MaxMessage :=
  messages.map fun m => if m.id = messageId then m.edited api body else m

end Requests

/-- The message can be edited. -/
def isEditable (messages : List MaxMessage) (messageId : String) : Bool :=
  match findMessage messages messageId with
  | some m => !m.gone
  | none => false

/-! ## The database and the world around it -/

structure RefDatabase where
  refs : Table MessageRef.key

instance : RowStore RefDatabase MessageRef CardKey where
  Cell _ := Option MessageRef
  get key d := d.refs.find key
  put d row := { d with refs := d.refs.put row }
  row := MessageRef.key
  get_put_self _ _ _ := (Table.find_put_self _ _).trans (Table.find_put_self _ _).symm
  get_put_of_ne _ _ _ h := Table.find_put_of_ne _ fun he => h he.symm

def maxMessageRefs : Schema RefDatabase MessageRef.key where
  table := RefDatabase.refs
  lock := id
  write := id
  row_write _ := rfl
  table_put _ _ := rfl
  find_congr _ _ _ h := h

/-- The committed rows of the shop, and the messages in MAX. -/
structure MaxWorld where
  shop : Database
  messages : List MaxMessage := []

/-- What a notification does. -/
abbrev CardAsync := Prog RefDatabase MessageRef CardKey MaxWorld PyError

/-- A query on the tables of the shop, in a session of its own. -/
def readShop {α : Type} (f : Database → α) : CardAsync α :=
  .choose fun n =>
    match n with
    | 0 => .raise .dbapiError
    | _ + 1 => Prog.readMemory fun m => f m.shop

/-- What happens around the notifications: a service commits a database that meets `P`, or a
message is deleted or grows too old to be edited. -/
inductive MaxMove (P : Database → Prop)
  | shop (d : Database) (hd : P d)
  | gone (messageId : String)

/-- The world after a move. -/
def maxMove {P : Database → Prop} (v : MaxMove P) (m : MaxWorld) : Option MaxWorld :=
  match v with
  | .shop d _ => some { m with shop := d }
  | .gone messageId => some { m with
      messages := m.messages.map fun n => if n.id = messageId then { n with gone := true } else n }

/-! ## `MaxClient` -/

/-- The settings of the notifications, what MAX does, and what the driver makes of a text that
is compared with a `UUID` column. -/
structure CardSettings extends Settings where
  /-- `MAX_BOT_TOKEN` -/
  maxBotToken : String
  max : MaxApi
  uuidParam : String → Option Uuid

/-- `data` is not a dictionary. -/
def answerNotObject : PyError := .attributeError "object has no attribute 'get'"

/-- `send_message`: the id of the message, when MAX answers with one. -/
def sendMessage (cfg : CardSettings) (sentAs : CardKey) (userId : Int) (text : String)
    (attachments : List InlineKeyboard) : CardAsync (Option String) :=
  if cfg.maxBotToken = "" then return none
  else .choose fun n =>
    match n with
    | 0 => .ret none
    | 1 => .raise answerNotObject
    | n + 2 =>
        .memory
          (fun m => { m with
            messages := m.messages ++
              [newMessage cfg.max sentAs userId (messageBody text attachments) m.messages] })
          fun m =>
            match n with
            | 0 => .ret none
            | 1 => .raise answerNotObject
            | _ + 2 => .ret (some (cfg.max.nextMessageId m.messages))

/-- `edit_message`: whether MAX says that it has edited the message. -/
def editMessage (cfg : CardSettings) (messageId text : String)
    (attachments : List InlineKeyboard) : CardAsync Bool :=
  if cfg.maxBotToken = "" then return false
  else .choose fun n =>
    match n with
    | 0 => .ret false
    | 1 => .raise answerNotObject
    | n + 2 =>
        .memory
          (fun m => { m with
            messages :=
              editedMessages cfg.max messageId (messageBody text attachments) m.messages })
          fun m =>
            match n with
            | 0 => .ret false
            | 1 => .raise answerNotObject
            | _ + 2 => .ret (isEditable m.messages messageId)

/-! ## `max_message_refs` -/

/-- `get_message_ref`: a query that fails finds nothing. -/
def getMessageRef (key : CardKey) : CardAsync (Option String) :=
  (Prog.withSession (maxMessageRefs.find key)).andThen
    (fun row => .ret (row.map MessageRef.messageId)) fun _ => .ret none

/-- `save_message_ref`: what goes wrong is only logged. -/
def saveMessageRef (key : CardKey) (messageId : String) : CardAsync Unit :=
  (Prog.withSession do
    maxMessageRefs.upsert ⟨key, messageId⟩
    Prog.commitSession).andThen .ret fun _ => .ret ()

end Sieshka
