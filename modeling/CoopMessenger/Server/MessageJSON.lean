import CoopMessenger.Server.Actions
import CoopMessenger.Server.Publish
import CoopMessenger.Util.Trimming

/-!
# Messages as JSON

How `encoding/json` writes messages, attachments and actions: the fields in the
order of the struct, without those that may be left out and are empty.

**Results.**
* `parseActionsFromJSON_marshalActions`: actions are read back as they are.
* `parseActions_marshalActions`: encoded actions are normalised and checked.
* `marshalMessage_eq_iff`: a message that loses tags or attachment has another text.
-/

namespace CoopMessenger
namespace Server

open Library Util

namespace Actions

section Marshalling

/-- A text that is left out if it is empty. -/
def omitEmpty
    (name value : String) : List (String × Json) :=
  if value = "" then [] else [(name, .str value)]

/-- A map that is left out if it is empty. -/
def omitEmptyMap
    (name : String)
    (d : List (String × String)) : List (String × Json) :=
  if d = [] then [] else [(name, .obj (d.map (fun p => (p.1, .str p.2))))]

def actionJSON (a : Action) : Json :=
  .obj ([("id", .str a.id), ("action", .str a.action), ("label", .str a.label),
      ("clear", .bool a.clear)] ++
    (omitEmpty "url" a.url ++ (omitEmpty "method" a.method ++
    (omitEmptyMap "headers" a.headers ++ (omitEmpty "body" a.body ++
    (omitEmpty "intent" a.intent ++ (omitEmptyMap "extras" a.extras ++
      omitEmpty "value" a.value)))))))

/-- `json.Marshal` of a list of actions. -/
def marshalActions (actions : List Action) : List Char :=
  Json.print (.arr (actions.map actionJSON))

end Marshalling

section RoundTrip

theorem decodeFields_append
    {σ : Type}
    (names : List String)
    (setField : σ → String → Json → Option σ)
    (s : σ)
    (members more : List (String × Json)) :
    decodeFields names setField s (members ++ more) =
      (decodeFields names setField s members).bind
        (decodeFields names setField · more) := by
  simp only [decodeFields, List.foldlM_append]
  rfl

theorem decodeFields_omitEmpty
    (set : Action → String → Action)
    {name : String}
    (hname : name ∈ actionFields)
    (hset : ∀ s v, setActionField s name (.str v) = some (set s v))
    {s : Action}
    (hempty : set s "" = s)
    (v : String) :
    decodeFields actionFields setActionField s (omitEmpty name v) =
      some (set s v) := by
  unfold omitEmpty
  split
  · next hv =>
      rw [hv, hempty]
      rfl
  · simp [decodeFields, fieldNamed, hname, hset]

theorem decodeDict_of_isDict
    {d : List (String × String)}
    (hd : Dictionary.IsDict d) :
    decodeDict [] (.obj (d.map (fun p => (p.1, .str p.2)))) = some d := by
  have hfold : ∀ (entries old : List (String × String)),
      (entries.map (fun p => (p.1, Json.str p.2))).foldlM
        (fun d m => (decodeString "" m.2).map (fun s => Dictionary.set m.1 s d))
          old =
        some (entries.foldl (fun e p => Dictionary.set p.1 p.2 e) old) := by
    intro entries
    induction entries with
    | nil =>
        exact fun _ => rfl
    | cons p entries ih =>
        exact fun old => ih (Dictionary.set p.1 p.2 old)
  rw [decodeDict, hfold, Dictionary.foldl_set_eq hd List.Pairwise.nil
    (by simp) (fun p hp => hp) (fun p hp => Or.inr hp)]

theorem decodeFields_omitEmptyMap
    (set : Action → List (String × String) → Action)
    {name : String}
    (hname : name ∈ actionFields)
    {s : Action}
    (hset : ∀ j, setActionField s name j = (decodeDict [] j).map (set s))
    (hempty : set s [] = s)
    {d : List (String × String)}
    (hd : Dictionary.IsDict d) :
    decodeFields actionFields setActionField s (omitEmptyMap name d) =
      some (set s d) := by
  unfold omitEmptyMap
  split
  · next hnil =>
      rw [hnil, hempty]
      rfl
  · simp [decodeFields, fieldNamed, hname, hset, decodeDict_of_isDict hd]

/-- An action is decoded as it was encoded. -/
theorem decodeAction_actionJSON
    {a : Action}
    (ha : HasMaps a) :
    decodeAction newAction (actionJSON a) = some a := by
  have hfirst : decodeFields actionFields setActionField newAction
      [("id", .str a.id), ("action", .str a.action), ("label", .str a.label),
        ("clear", .bool a.clear)] =
      some { newAction with
        id := a.id
        action := a.action
        label := a.label
        clear := a.clear } := by
    simp [decodeFields, fieldNamed, actionFields, setActionField, decodeString,
      decodeBool]
  rw [actionJSON, decodeAction, decodeFields_append, hfirst, Option.bind_some,
    decodeFields_append, decodeFields_omitEmpty
      (fun s url => { s with url }) (by decide) (fun _ _ => rfl) rfl,
    Option.bind_some, decodeFields_append, decodeFields_omitEmpty
      (fun s method => { s with method }) (by decide) (fun _ _ => rfl) rfl,
    Option.bind_some, decodeFields_append, decodeFields_omitEmptyMap
      (fun s headers => { s with headers }) (by decide) (fun _ => rfl) rfl ha.1,
    Option.bind_some, decodeFields_append, decodeFields_omitEmpty
      (fun s body => { s with body }) (by decide) (fun _ _ => rfl) rfl,
    Option.bind_some, decodeFields_append, decodeFields_omitEmpty
      (fun s intent => { s with intent }) (by decide) (fun _ _ => rfl) rfl,
    Option.bind_some, decodeFields_append, decodeFields_omitEmptyMap
      (fun s extras => { s with extras }) (by decide) (fun _ => rfl) rfl ha.2,
    Option.bind_some, decodeFields_omitEmpty
      (fun s value => { s with value }) (by decide) (fun _ _ => rfl) rfl]

theorem printable_actionJSON
    (n : Nat)
    (a : Action) :
    Json.Printable (n + 2) (actionJSON a) := by
  have hmap : ∀ d : List (String × String),
      Json.Printable (n + 1) (.obj (d.map (fun p => (p.1, .str p.2)))) := by
    intro d
    refine .obj _ fun m hm => ?_
    obtain ⟨p, -, rfl⟩ := List.mem_map.mp hm
    exact .str p.2
  have homit : ∀ name value, ∀ m ∈ omitEmpty name value,
      Json.Printable (n + 1) m.2 := by
    intro name value m hm
    unfold omitEmpty at hm
    split at hm
    · cases hm
    · rw [List.mem_singleton.mp hm]
      exact .str value
  have homitMap : ∀ name d, ∀ m ∈ omitEmptyMap name d,
      Json.Printable (n + 1) m.2 := by
    intro name d m hm
    unfold omitEmptyMap at hm
    split at hm
    · cases hm
    · rw [List.mem_singleton.mp hm]
      exact hmap d
  refine .obj _ ?_
  simp only [List.forall_mem_append, List.forall_mem_cons]
  exact ⟨⟨.str a.id, .str a.action, .str a.label, .bool a.clear, by simp⟩,
    homit _ _, homit _ _, homitMap _ _, homit _ _, homit _ _, homitMap _ _,
    homit _ _⟩

/-- Actions are read back as they are. -/
theorem parseActionsFromJSON_marshalActions
    {actions : List Action}
    (h : ∀ a ∈ actions, HasMaps a) :
    parseActionsFromJSON (marshalActions actions) = some (actions.map some) := by
  have hprintable : Json.Printable Json.maxNestingDepth
      (.arr (actions.map actionJSON)) := by
    refine .arr _ fun j hj => ?_
    obtain ⟨a, -, rfl⟩ := List.mem_map.mp hj
    exact printable_actionJSON 9997 a
  rw [parseActionsFromJSON, marshalActions, Json.parse_print hprintable]
  simp only
  clear hprintable
  induction actions with
  | nil =>
      rfl
  | cons a actions ih =>
      obtain ⟨ha, hactions⟩ := List.forall_mem_cons.mp h
      have hpointer : decodePointer (actionJSON a) = some (some a) := by
        rw [actionJSON, decodePointer, ← actionJSON,
          decodeAction_actionJSON ha]
        · rfl
        · rintro ⟨⟩
      simp [hpointer, ih hactions]

theorem getLast?_printItems
    (items : List Json) :
    (Json.printItems items).getLast? = some ']' := by
  induction items with
  | nil =>
      rfl
  | cons j items ih =>
      cases items with
      | nil =>
          simp [Json.printItems]
      | cons k items =>
          rw [Json.printItems]
          · rw [List.getLast?_append, List.getLast?_cons, ih]
            rfl
          · simp

/-- The text of a JSON array is trimmed. -/
theorem print_arr_trimmed
    (items : List Json) :
    trimSpace (Json.print (.arr items)) = Json.print (.arr items) := by
  have hlast : (Json.print (.arr items)).getLast? = some ']' := by
    rw [Json.print, List.getLast?_cons, getLast?_printItems]
    rfl
  refine trimSpace_eq_self (fun c hc => ?_) (fun c hc => ?_)
  · rw [Json.print] at hc
    cases hc
    decide
  · rw [hlast] at hc
    cases hc
    decide

/-- The text of actions is a trimmed JSON array. -/
theorem marshalActions_trimmed
    (actions : List Action) :
    (marshalActions actions).head? = some '[' ∧
      trimSpace (marshalActions actions) = marshalActions actions :=
  ⟨rfl, print_arr_trimmed (actions.map actionJSON)⟩

theorem normalizeFrom_map_some
    (E : Environment)
    (i : Nat)
    (actions : List Action) :
    normalizeFrom E i (actions.map some) =
      .ok (actions.mapIdx (fun k => normalizeAction E (i + k))) := by
  induction actions generalizing i with
  | nil =>
      rfl
  | cons a actions ih =>
      rw [List.map_cons, normalizeFrom, ih, List.mapIdx_cons]
      simp only [Except.map, Nat.add_zero, Nat.add_assoc, Nat.add_comm 1]

/-- The actions of a JSON array are normalised and checked. -/
theorem parseActions_print
    (E : Environment)
    {items : List Json} {actions : List Action}
    (h : parseActionsFromJSON (Json.print (.arr items)) = some (actions.map some)) :
    parseActions E (bytesOf (String.ofList (Json.print (.arr items)))) =
      validateActions (actions.mapIdx (normalizeAction E)) := by
  have hhead : (Json.print (.arr items)).head? = some '[' := by
    rw [Json.print]
    rfl
  have hparsed : parseEither E ((Json.print (.arr items)).map some) =
      .ok (actions.map some) := by
    rw [parseEither, List.head?_map, hhead, replaceInvalid_map_some, h]
    rfl
  have hnormal := normalizeFrom_map_some E 0 actions
  simp only [Nat.zero_add] at hnormal
  rw [parseActions, runes_bytesOf, trimRunes_map_some, String.toList_ofList,
    print_arr_trimmed, hparsed]
  simp only [bind, Except.bind, hnormal]

/-- Encoded actions are normalised and checked as they are. -/
theorem parseActions_marshalActions
    (E : Environment)
    {actions : List Action}
    (h : ∀ a ∈ actions, HasMaps a) :
    parseActions E (bytesOf (String.ofList (marshalActions actions))) =
      validateActions (actions.mapIdx (normalizeAction E)) :=
  parseActions_print E (parseActionsFromJSON_marshalActions h)

end RoundTrip

end Actions

namespace MessageJSON

section Members

/-- The name and the value of a field. -/
def member
    (name : String)
    (value : List Char) : List Char :=
  Json.quote name ++ ':' :: value

def objectText (members : List (List Char)) : List Char :=
  '{' :: [','].intercalate members ++ ['}']

/-- A string of bytes in quotes, with a replacement for every invalid byte. -/
def quoteBytes (s : List UInt8) : List Char :=
  let quoteRune : Option Char → List Char
    | some c => Json.escape c
    | none => ['\\', 'u', 'f', 'f', 'f', 'd']
  '"' :: (runes s).flatMap quoteRune ++ ['"']

def numberText (n : Nat) : List Char :=
  (toString n).toList

/-- A field that is left out if it is empty. -/
def omitText (name value : String) : List (List Char) :=
  if value = "" then [] else [member name (Json.quote value)]

/-- A field that is left out if it is zero. -/
def omitNumber
    (name : String)
    (n : Nat) : List (List Char) :=
  if n = 0 then [] else [member name (numberText n)]

def tagsMember (tags : List String) : List (List Char) :=
  if tags = [] then
    []
  else
    [member "tags" (Json.print (.arr (tags.map Json.str)))]

def actionsMember (actions : List Action) : List (List Char) :=
  if actions = [] then [] else [member "actions" (Actions.marshalActions actions)]

def attachmentText (a : Attachment) : List Char :=
  objectText ([member "name" (Json.quote a.name)] ++ omitText "type" a.type ++
    omitNumber "size" a.size ++ omitNumber "expires" a.expires ++
    [member "url" (Json.quote a.url)])

def attachmentMember : Option Attachment → List (List Char)
  | none => []
  | some a => [member "attachment" (attachmentText a)]

def replyToTextMember (preview : List UInt8) : List (List Char) :=
  if preview = [] then [] else [member "reply_to_text" (quoteBytes preview)]

end Members

section Messages

/-- The name of an event. -/
def eventText : Event → String
  | .open => "open"
  | .keepalive => "keepalive"
  | .message => "message"
  | .messageDelete => "message_delete"
  | .messageClear => "message_clear"
  | .pollRequest => "poll_request"
  | .coopNudge => "coop_nudge"

/-- The fields up to the tags. -/
def firstMembers (m : Message) : List (List Char) :=
  [member "id" (Json.quote m.id)] ++ omitText "sequence_id" m.sequenceID ++
    [member "time" (numberText m.time)] ++ omitNumber "expires" m.expires ++
    [member "event" (Json.quote (eventText m.event)),
      member "topic" (Json.quote m.topic)] ++
    omitText "title" m.title ++ omitText "message" m.message ++
    omitNumber "priority" m.priority

/-- The fields between the tags and the attachment. -/
def middleMembers (m : Message) : List (List Char) :=
  omitText "click" m.click ++ omitText "icon" m.icon ++ actionsMember m.actions

/-- The fields after the attachment. -/
def lastMembers (m : Message) : List (List Char) :=
  omitText "poll_id" m.pollID ++ omitText "content_type" m.contentType ++
    omitText "encoding" m.encoding ++ omitText "sender" m.senderName ++
    omitText "reply_to" m.replyTo ++ replyToTextMember m.replyToText

def members (m : Message) : List (List Char) :=
  firstMembers m ++ tagsMember m.tags ++ middleMembers m ++
    attachmentMember m.attachment ++ lastMembers m

/-- `json.Marshal` of a message. -/
def marshalMessage (m : Message) : List Char :=
  objectText (members m)

end Messages

section Lengths

/-- How much members take up, each with what separates it. -/
def totalLength (members : List (List Char)) : Nat :=
  (members.map (fun m => m.length + 1)).sum

theorem totalLength_append
    (l l' : List (List Char)) :
    totalLength (l ++ l') = totalLength l + totalLength l' := by
  simp [totalLength]

theorem length_objectText
    {members : List (List Char)}
    (hmembers : members ≠ []) :
    (objectText members).length = totalLength members + 1 := by
  have hlength : ([','].intercalate members).length + 1 = totalLength members := by
    induction members with
    | nil =>
        exact absurd rfl hmembers
    | cons m members ih =>
        cases members with
        | nil =>
            simp [totalLength]
        | cons m' members =>
            have hrest := ih (by simp)
            simp only [totalLength, List.map_cons, List.sum_cons] at hrest ⊢
            rw [List.intercalate_cons_cons, List.length_append, List.length_append,
              List.length_singleton, Nat.add_assoc, hrest]
  simp only [objectText, List.cons_append, List.length_cons, List.length_append,
    List.length_nil]
  omega

theorem totalLength_tagsMember_pos
    {tags : List String}
    (h : tags ≠ []) :
    0 < totalLength (tagsMember tags) := by
  rw [tagsMember, if_neg h]
  simp [totalLength]

theorem totalLength_attachmentMember_pos
    (a : Attachment) :
    0 < totalLength (attachmentMember (some a)) := by
  simp [totalLength, attachmentMember]

/-- A message whose tags or attachment get lost has a shorter text. -/
theorem marshalMessage_eq_iff
    {m : Message} {tags : List String} {attachment : Option Attachment}
    (htags : tags = m.tags ∨ tags = [])
    (hattachment : attachment = m.attachment ∨ attachment = none) :
    marshalMessage { m with tags, attachment } = marshalMessage m ↔
      tags = m.tags ∧ attachment = m.attachment := by
  refine ⟨fun h => ?_, ?_⟩
  · have hlength := congrArg List.length h
    have hne : ∀ m : Message, members m ≠ [] := by
      intro m
      simp [members, firstMembers]
    rw [marshalMessage, marshalMessage, length_objectText (hne _),
      length_objectText (hne _)] at hlength
    simp only [members, firstMembers, middleMembers, lastMembers,
      totalLength_append] at hlength
    have hloses : totalLength (tagsMember tags) ≤ totalLength (tagsMember m.tags) ∧
        (totalLength (tagsMember tags) = totalLength (tagsMember m.tags) →
          tags = m.tags) := by
      rcases htags with rfl | rfl
      · exact ⟨le_rfl, fun _ => rfl⟩
      · refine ⟨Nat.zero_le _, fun heq => ?_⟩
        by_contra hne
        exact absurd heq (totalLength_tagsMember_pos (Ne.symm hne)).ne
    have hdrops : totalLength (attachmentMember attachment) ≤
          totalLength (attachmentMember m.attachment) ∧
        (totalLength (attachmentMember attachment) =
          totalLength (attachmentMember m.attachment) →
            attachment = m.attachment) := by
      rcases hattachment with rfl | rfl
      · exact ⟨le_rfl, fun _ => rfl⟩
      · refine ⟨Nat.zero_le _, fun heq => ?_⟩
        cases hm : m.attachment with
        | none =>
            rfl
        | some a =>
            rw [hm] at heq
            exact absurd heq (totalLength_attachmentMember_pos a).ne
    exact ⟨hloses.2 (by omega), hdrops.2 (by omega)⟩
  · rintro ⟨rfl, rfl⟩
    rfl

end Lengths

end MessageJSON

end Server
end CoopMessenger
