import CoopMessenger.Server.Visitors

/-!
# Messages

The message type of `server/types.go` with its attachment and its actions, and
the markers by which a client says from where on it wants cached messages.
-/

namespace CoopMessenger
namespace Server

/-- The events that messages are about. -/
inductive Event where
  | «open»
  | keepalive
  | message
  | messageDelete
  | messageClear
  | pollRequest
  | coopNudge
deriving DecidableEq, Repr

/-- The events that the message cache stores. -/
def Event.storable : Event → Bool
  | .message | .messageDelete | .messageClear | .coopNudge => true
  | .open | .keepalive | .pollRequest => false

structure Attachment where
  name : String
  type : String
  size : Nat
  expires : Nat
  url : String
deriving DecidableEq, Repr

structure Action where
  id : String
  action : String
  label : String
  clear : Bool
  url : String
  method : String
  headers : List (String × String)
  body : String
  intent : String
  extras : List (String × String)
  value : String
deriving DecidableEq, Repr

/--
A message published to a topic.  The preview of the message it replies to is cut
at a byte and need not be valid text.
-/
structure Message where
  id : String
  sequenceID : String
  time : Nat
  expires : Nat
  event : Event
  topic : String
  title : String
  message : String
  priority : Nat
  tags : List String
  click : String
  icon : String
  actions : List Action
  attachment : Option Attachment
  pollID : String
  contentType : String
  encoding : String
  senderName : String
  replyTo : String
  replyToText : List UInt8
  sender : Visitors.Addr
  user : String
deriving DecidableEq, Repr

/-- Sets the preview of the message replied to. -/
def Message.withPreview
    (preview : List UInt8)
    (m : Message) : Message :=
  { m with replyToText := preview }

@[simp] theorem Message.withPreview_event
    (preview : List UInt8) (m : Message) :
    (m.withPreview preview).event = m.event := by
  rfl

@[simp] theorem Message.withPreview_attachment
    (preview : List UInt8) (m : Message) :
    (m.withPreview preview).attachment = m.attachment := by
  rfl

/-- A new message with the current timestamp; the ID is random. -/
def newMessage
    (id : String)
    (now : Nat)
    (event : Event)
    (topic msg : String) : Message where
  id
  sequenceID := ""
  time := now
  expires := 0
  event
  topic
  title := ""
  message := msg
  priority := 0
  tags := []
  click := ""
  icon := ""
  actions := []
  attachment := none
  pollID := ""
  contentType := ""
  encoding := ""
  senderName := ""
  replyTo := ""
  replyToText := []
  sender := .invalid
  user := ""

def newDefaultMessage
    (id : String)
    (now : Nat)
    (topic msg : String) : Message :=
  newMessage id now .message topic msg

def newMessageBody : String := "New message"

def newPollRequestMessage
    (id : String)
    (now : Nat)
    (topic pollID : String) : Message :=
  { newMessage id now .pollRequest topic newMessageBody with pollID }

/-- Twelve letters or digits. -/
def validMessageID (s : String) : Bool :=
  decide (s.toList.length = 12) && s.toList.all Char.isAlphanum

/-- From where on cached messages are wanted. -/
structure SinceMarker where
  time : Int
  id : String
deriving DecidableEq, Repr

def newSinceTime (timestamp : Int) : SinceMarker :=
  ⟨timestamp, ""⟩

def newSinceID (id : String) : SinceMarker :=
  ⟨0, id⟩

def sinceAllMessages : SinceMarker :=
  ⟨0, ""⟩

def sinceNoMessages : SinceMarker :=
  ⟨1, ""⟩

def sinceLatestMessage : SinceMarker :=
  ⟨0, "latest"⟩

namespace SinceMarker

def isNone (t : SinceMarker) : Bool :=
  decide (t = sinceNoMessages)

def isLatest (t : SinceMarker) : Bool :=
  decide (t = sinceLatestMessage)

def isID (t : SinceMarker) : Bool :=
  decide (t.id ≠ "") && decide (t.id ≠ "latest")

/-- The ID of a message is a marker of its own kind. -/
theorem newSinceID_of_valid
    {id : String}
    (h : validMessageID id = true) :
    (newSinceID id).isNone = false ∧ (newSinceID id).isLatest = false ∧
      (newSinceID id).isID = true := by
  have hempty : id ≠ "" := by
    rintro rfl
    revert h
    decide
  have hlatest : id ≠ "latest" := by
    rintro rfl
    revert h
    decide
  simp [isNone, isLatest, isID, newSinceID, sinceNoMessages,
    sinceLatestMessage, hempty, hlatest]

end SinceMarker

end Server
end CoopMessenger
