import CoopMessenger.Server.MessageJSON

/-!
# Rows of messages

How `addMessages` of `server/message_cache.go` flattens a message into the columns
of `messages`, and how `readMessage` rebuilds it.  Tags are joined by commas, actions
are JSON, and an attachment is there if it has a name and a URL.

**Results.**
* `readMessage_addMessage`: what is read back, for messages without poll ID.
* `sameJSON_iff`: the copy has the same JSON unless tags or attachment get lost.
-/

namespace CoopMessenger
namespace Server

open Library Util

namespace MessageRows

section Rows

/-- How addresses are written and parsed. -/
structure Addresses where
  toText : Visitors.Addr → String
  parseAddr : String → Option Visitors.Addr

/-- The columns of `messages`, but for the row ID. -/
structure Row where
  mid : String
  sequenceID : String
  time : Nat
  event : String
  expires : Nat
  topic : String
  message : String
  title : String
  priority : Nat
  tags : String
  click : String
  icon : String
  actions : String
  attachmentName : String
  attachmentType : String
  attachmentSize : Nat
  attachmentExpires : Nat
  attachmentURL : String
  attachmentDeleted : Nat
  sender : String
  senderName : String
  user : String
  contentType : String
  encoding : String
  published : Bool
  replyTo : String
  replyToText : List UInt8
deriving DecidableEq, Repr

/-- `strings.Join` with commas. -/
def joinCommas (parts : List String) : String :=
  String.ofList ([','].intercalate (parts.map String.toList))

/-- `strings.Split` at commas. -/
def splitCommas (s : String) : List String :=
  (s.toList.splitOn ',').map String.ofList

/-- The row that is inserted for a message. -/
def addMessage
    (A : Addresses)
    (now : Nat)
    (m : Message) : Except CacheError Row :=
  if m.event.storable then
    .ok
      { mid := m.id
        sequenceID := m.sequenceID
        time := m.time
        event := MessageJSON.eventText m.event
        expires := m.expires
        topic := m.topic
        message := m.message
        title := m.title
        priority := m.priority
        tags := joinCommas m.tags
        click := m.click
        icon := m.icon
        actions :=
          if m.actions = [] then ""
          else String.ofList (Actions.marshalActions m.actions)
        attachmentName := m.attachment.elim "" Attachment.name
        attachmentType := m.attachment.elim "" Attachment.type
        attachmentSize := m.attachment.elim 0 Attachment.size
        attachmentExpires := m.attachment.elim 0 Attachment.expires
        attachmentURL := m.attachment.elim "" Attachment.url
        attachmentDeleted := 0
        sender := if m.sender = .invalid then "" else A.toText m.sender
        senderName := m.senderName
        user := m.user
        contentType := m.contentType
        encoding := m.encoding
        published := decide (m.time ≤ now)
        replyTo := m.replyTo
        replyToText := m.replyToText }
  else
    .error .unexpectedMessageType

/-- The event with the name, if there is one. -/
def eventOf (name : String) : Option Event :=
  [Event.open, .keepalive, .message, .messageDelete, .messageClear, .pollRequest,
    .coopNudge].find? (fun e => decide (MessageJSON.eventText e = name))

/-- The actions of the column; none of those that are written is `null`. -/
def readActions (text : String) : Option (List Action) :=
  if text = "" then
    some []
  else
    (Actions.parseActionsFromJSON text.toList).bind (·.mapM id)

/-- The message that a row stands for. -/
def readMessage
    (A : Addresses)
    (r : Row) : Option Message :=
  (eventOf r.event).bind fun event =>
    (readActions r.actions).map fun actions =>
      { id := r.mid
        sequenceID := r.sequenceID
        time := r.time
        expires := r.expires
        event
        topic := r.topic
        title := r.title
        message := r.message
        priority := r.priority
        tags := if r.tags = "" then [] else splitCommas r.tags
        click := r.click
        icon := r.icon
        actions
        attachment :=
          if r.attachmentName ≠ "" ∧ r.attachmentURL ≠ "" then
            some ⟨r.attachmentName, r.attachmentType, r.attachmentSize,
              r.attachmentExpires, r.attachmentURL⟩
          else
            none
        pollID := ""
        contentType := r.contentType
        encoding := r.encoding
        senderName := r.senderName
        replyTo := r.replyTo
        replyToText := r.replyToText
        sender := (A.parseAddr r.sender).getD .invalid
        user := r.user }

end Rows

section ReadBack

variable {A : Addresses}
variable {now : Nat}
variable {m : Message}

/-- An attachment with a name and a URL. -/
def Complete (a : Attachment) : Prop :=
  a.name ≠ "" ∧ a.url ≠ ""

/-- The tags that are read back. -/
def storedTags (tags : List String) : List String :=
  if tags = [""] then [] else tags

/-- The attachment that is read back. -/
def storedAttachment (a : Option Attachment) : Option Attachment :=
  a.filter (fun a => decide (a.name ≠ "") && decide (a.url ≠ ""))

theorem eventOf_eventText
    (e : Event) :
    eventOf (MessageJSON.eventText e) = some e := by
  cases e <;> decide

/-- Tags without commas are read back, unless there is only an empty one. -/
theorem split_joinCommas
    {tags : List String}
    (htags : ∀ t ∈ tags, ',' ∉ t.toList) :
    (if joinCommas tags = "" then [] else splitCommas (joinCommas tags)) =
      storedTags tags := by
  by_cases hnil : tags = []
  · subst hnil
    rfl
  · have hsplit : (joinCommas tags).toList.splitOn ',' = tags.map String.toList := by
      rw [joinCommas, String.toList_ofList]
      refine List.splitOn_intercalate ',' (fun l hl => ?_) (by simpa using hnil)
      obtain ⟨t, ht, rfl⟩ := List.mem_map.mp hl
      exact htags t ht
    have hback : splitCommas (joinCommas tags) = tags := by
      rw [splitCommas, hsplit, List.map_map]
      simp [Function.comp_def]
    have hempty : joinCommas tags = "" ↔ tags = [""] := by
      constructor
      · intro h
        rw [← hback, h]
        rfl
      · rintro rfl
        rfl
    unfold storedTags
    by_cases h : tags = [""]
    · rw [if_pos h, if_pos (hempty.mpr h)]
    · rw [if_neg h, if_neg (mt hempty.mp h), hback]

theorem readActions_marshalActions
    {actions : List Action}
    (h : ∀ a ∈ actions, Actions.HasMaps a) :
    readActions (if actions = [] then ""
      else String.ofList (Actions.marshalActions actions)) = some actions := by
  by_cases hnil : actions = []
  · rw [if_pos hnil, hnil]
    rfl
  · have htext : String.ofList (Actions.marshalActions actions) ≠ "" := by
      intro hempty
      have hhead := (Actions.marshalActions_trimmed actions).1
      rw [String.ofList_eq_empty_iff.mp hempty] at hhead
      cases hhead
    rw [if_neg hnil, readActions, if_neg htext, String.toList_ofList,
      Actions.parseActionsFromJSON_marshalActions h, Option.bind_some]
    clear hnil htext h
    induction actions with
    | nil =>
        rfl
    | cons a actions ih =>
        simp [List.mapM_cons, ih]

/-- What is read back, for messages without poll ID. -/
theorem readMessage_addMessage
    {r : Row}
    (hpoll : m.pollID = "")
    (htags : ∀ t ∈ m.tags, ',' ∉ t.toList)
    (hmaps : ∀ a ∈ m.actions, Actions.HasMaps a)
    (h : addMessage A now m = .ok r) :
    ∃ sender, readMessage A r = some { m with
      tags := storedTags m.tags
      attachment := storedAttachment m.attachment
      sender } := by
  unfold addMessage at h
  split at h
  · cases h
    refine ⟨(A.parseAddr (if m.sender = .invalid then ""
      else A.toText m.sender)).getD .invalid, ?_⟩
    rw [readMessage]
    simp only [eventOf_eventText, Option.bind_some,
      readActions_marshalActions hmaps, Option.map_some, split_joinCommas htags]
    have hattachment : (if m.attachment.elim "" Attachment.name ≠ "" ∧
        m.attachment.elim "" Attachment.url ≠ "" then
          some (Attachment.mk (m.attachment.elim "" Attachment.name)
            (m.attachment.elim "" Attachment.type)
            (m.attachment.elim 0 Attachment.size)
            (m.attachment.elim 0 Attachment.expires)
            (m.attachment.elim "" Attachment.url))
        else none) = storedAttachment m.attachment := by
      cases m.attachment with
      | none =>
          rfl
      | some a =>
          change (if a.name ≠ "" ∧ a.url ≠ "" then some a else none) = _
          simp only [storedAttachment, Option.filter_some, Bool.and_eq_true,
            decide_eq_true_eq]
    rw [hattachment, ← hpoll]
  · cases h

/-- The copy in the cache has the same JSON as the message. -/
def SameJSON
    (A : Addresses)
    (now : Nat)
    (m : Message) : Prop :=
  ∃ r copy, addMessage A now m = .ok r ∧ readMessage A r = some copy ∧
    MessageJSON.marshalMessage (Publish.forJSON copy) =
      MessageJSON.marshalMessage (Publish.forJSON m)

/-- The copy has the same JSON unless tags or attachment get lost. -/
theorem sameJSON_iff
    (hevent : m.event.storable = true)
    (hpoll : m.pollID = "")
    (htags : ∀ t ∈ m.tags, ',' ∉ t.toList)
    (hmaps : ∀ a ∈ m.actions, Actions.HasMaps a) :
    SameJSON A now m ↔ m.tags ≠ [""] ∧ ∀ a ∈ m.attachment, Complete a := by
  obtain ⟨r, hr⟩ : ∃ r, addMessage A now m = .ok r := by
    rw [addMessage, if_pos hevent]
    exact ⟨_, rfl⟩
  obtain ⟨sender, hcopy⟩ := readMessage_addMessage hpoll htags hmaps hr
  have htagsIff : storedTags m.tags = m.tags ↔ m.tags ≠ [""] := by
    unfold storedTags
    split
    · next h =>
        simp [h]
    · next h =>
        simp [h]
  have hattachmentIff : storedAttachment m.attachment = m.attachment ↔
      ∀ a ∈ m.attachment, Complete a := by
    cases m.attachment with
    | none =>
        simp [storedAttachment]
    | some a =>
        simp [storedAttachment, Option.filter, Complete]
  have hforJSON : (Publish.forJSON m).tags = m.tags ∧
      (Publish.forJSON m).attachment = m.attachment := by
    unfold Publish.forJSON
    split <;> exact ⟨rfl, rfl⟩
  have htext : MessageJSON.marshalMessage (Publish.forJSON { m with
        tags := storedTags m.tags
        attachment := storedAttachment m.attachment
        sender }) =
      MessageJSON.marshalMessage { Publish.forJSON m with
        tags := storedTags m.tags
        attachment := storedAttachment m.attachment } := by
    unfold Publish.forJSON
    split <;> rfl
  have hlost : storedTags m.tags = (Publish.forJSON m).tags ∨
      storedTags m.tags = [] := by
    rw [hforJSON.1, storedTags]
    split
    · exact Or.inr rfl
    · exact Or.inl rfl
  have hdropped : storedAttachment m.attachment = (Publish.forJSON m).attachment ∨
      storedAttachment m.attachment = none := by
    rw [hforJSON.2, storedAttachment]
    cases m.attachment with
    | none =>
        exact Or.inl rfl
    | some a =>
        rw [Option.filter_some]
        split
        · exact Or.inl rfl
        · exact Or.inr rfl
  have hiff := MessageJSON.marshalMessage_eq_iff hlost hdropped
  rw [hforJSON.1, hforJSON.2, htagsIff, hattachmentIff] at hiff
  rw [← hiff, ← htext]
  constructor
  · rintro ⟨r', copy, hr', hcopy', hsame⟩
    cases hr.symm.trans hr'
    cases hcopy.symm.trans hcopy'
    exact hsame
  · intro hsame
    exact ⟨r, _, hr, hcopy, hsame⟩

end ReadBack

end MessageRows

end Server
end CoopMessenger
