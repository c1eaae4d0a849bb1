import CoopMessenger.Server.Publish

/-!
# What the parameters make of a message

Each parser of a parameter writes its own field and keeps the others, so that the
message after `parsePublishParams` is known field by field.

**Results.**
* `parsePublishParams_fields`: the fields of a message whose parameters are accepted.
-/

namespace CoopMessenger
namespace Server

open Library Manager Util

namespace Publish

section Fields

variable {P : Parsers}
variable {cfg : Config}
variable {req : Request}
variable {m m' : Message}

/-- The sequence ID that the path or a parameter gives, if one does. -/
def sequenceIDParam
    (P : Parsers)
    (req : Request) : Option String :=
  let param := readParam P req ["x-sequence-id", "sequence-id", "sid"]
  let given := if param = "" then none else some param
  match req.path.toList.splitOn '/' with
  | [[], topic, sequenceID] =>
      if req.method ≠ "GET" ∧ allowedTopic (String.ofList topic) = true ∧
          allowedTopic (String.ofList sequenceID) = true then
        some (String.ofList sequenceID)
      else
        given
  | _ => given

theorem parseSequenceID_fromParam_eq
    (h : parseSequenceID.fromParam P req m = .ok m') :
    m' = { m with
      sequenceID := (if readParam P req ["x-sequence-id", "sequence-id", "sid"] = ""
        then none else some (readParam P req
          ["x-sequence-id", "sequence-id", "sid"])).getD m.id } := by
  simp only [parseSequenceID.fromParam] at h
  split at h
  · next hempty =>
      cases h
      rw [if_pos hempty, Option.getD_none]
  · next hgiven =>
      split at h <;> cases h
      rw [if_neg hgiven, Option.getD_some]

theorem parseSequenceID_eq
    (h : parseSequenceID P req m = .ok m') :
    m' = { m with sequenceID := (sequenceIDParam P req).getD m.id } := by
  simp only [parseSequenceID] at h
  split at h
  case h_1 topic sequenceID hpath =>
    simp only [sequenceIDParam, hpath]
    split at h
    · next hcond =>
        cases h
        rw [if_pos hcond]
        rfl
    · next hcond =>
        rw [if_neg hcond]
        exact parseSequenceID_fromParam_eq h
  case h_2 hpath =>
    have hparam := parseSequenceID_fromParam_eq h
    unfold sequenceIDParam
    split
    case h_1 topic sequenceID hpath' =>
      exact absurd hpath' (hpath topic sequenceID)
    case h_2 =>
      exact hparam

/-- The attachment that the parameters describe. -/
def attachmentParam
    (P : Parsers)
    (req : Request) : Option Attachment :=
  let filename := readParam P req ["x-filename", "filename", "file", "f"]
  let attach := readParam P req ["x-attach", "attach", "a"]
  if attach ≠ "" then
    some ⟨if filename ≠ "" then filename else attachmentName P attach,
      "", 0, 0, attach⟩
  else if filename ≠ "" then
    some ⟨filename, "", 0, 0, ""⟩
  else
    none

theorem parseAttachment_eq
    (h : parseAttachment P req m = .ok m') :
    m' = { m with attachment := (attachmentParam P req).or m.attachment } := by
  simp only [parseAttachment] at h
  simp only [attachmentParam]
  split at h
  · next hattach =>
      split at h <;> cases h
      rw [if_pos hattach]
      rfl
  · next hattach =>
      rw [if_neg hattach]
      split at h
      · next hname =>
          cases h
          rw [if_pos hname]
          rfl
      · next hname =>
          cases h
          rw [if_neg hname]
          rfl

/-- The fields of a message whose parameters are accepted. -/
structure ParsedFields
    (P : Parsers)
    (req : Request)
    (m m' : Message) : Prop where
  id : m'.id = m.id
  event : m'.event = m.event
  topic : m'.topic = m.topic
  sequenceID : m'.sequenceID = (sequenceIDParam P req).getD m.id
  title : m'.title = readParam P req ["x-title", "title", "t"]
  click : m'.click = readParam P req ["x-click", "click"]
  noIcon : readParam P req ["x-icon", "icon"] = "" → m'.icon = m.icon
  icon : readParam P req ["x-icon", "icon"] ≠ "" →
    m'.icon = readParam P req ["x-icon", "icon"]
  attachment : m'.attachment = (attachmentParam P req).or m.attachment
  tags : m'.tags = readCommaSeparatedParam P req ["x-tags", "tags", "tag", "ta"]
  replyTo : m'.replyTo = readParam P req ["x-reply-to", "reply-to"]
  priority : readParam P req ["x-template", "template", "tpl"] = "" →
    parsePriority (readParam P req ["x-priority", "priority", "prio", "p"]) =
      some m'.priority
  noActions : readParam P req ["x-actions", "actions", "action"] = "" →
    m'.actions = m.actions
  actions : readParam P req ["x-actions", "actions", "action"] ≠ "" →
    P.parseActions (readParam P req ["x-actions", "actions", "action"]) =
      .ok m'.actions
  pollID : m'.pollID = readParam P req ["x-poll-id", "poll-id"]

theorem parsePublishParams_fields
    {now : Nat} {p : Params}
    (h : parsePublishParams P req cfg now m = .ok (m', p)) :
    ParsedFields P req m m' := by
  unfold parsePublishParams at h
  extract_lets cache firebase template unifiedpush at h
  obtain ⟨m₁, h₁, h⟩ := exists_of_bind_eq_ok h
  obtain ⟨m₂, h₂, h⟩ := exists_of_bind_eq_ok h
  obtain ⟨m₃, h₃, h⟩ := exists_of_bind_eq_ok h
  obtain ⟨email, -, h⟩ := exists_of_bind_eq_ok h
  obtain ⟨call, -, h⟩ := exists_of_bind_eq_ok h
  obtain ⟨⟨m₄, priorityStr⟩, h₄, h⟩ := exists_of_bind_eq_ok h
  obtain ⟨m₅, h₅, h⟩ := exists_of_bind_eq_ok h
  obtain ⟨m₆, h₆, h⟩ := exists_of_bind_eq_ok h
  -- each message is written out before the next one is
  have hm₁ := parseSequenceID_eq h₁
  subst hm₁
  have hm₂ := parseAttachment_eq h₂
  dsimp only at hm₂
  subst hm₂
  obtain ⟨icon, hm₃, hicon⟩ := parseIcon_eq h₃
  dsimp only at hm₃ hicon
  subst hm₃
  obtain ⟨message, hmessage⟩ := parseMessageParam_eq P req template _
  rw [hmessage] at h₄
  obtain ⟨priority, hm₄, hpriority⟩ := parsePriorityParam_eq h₄
  dsimp only at hm₄
  subst hm₄
  obtain ⟨time, hm₅⟩ := parseDelay_eq h₅
  dsimp only at hm₅
  subst hm₅
  obtain ⟨actions, hm₆, hactions⟩ := parseActionsParam_eq h₆
  dsimp only at hm₆ hactions
  subst hm₆
  obtain ⟨contentType, hm₇⟩ := parseContentType_eq P req _
  have hm' := congrArg Prod.fst (Except.ok.inj h)
  rw [hm₇, parsePollID_eq] at hm'
  dsimp only at hm'
  subst hm'
  constructor
  case noIcon =>
    exact hicon.1
  case icon =>
    exact hicon.2
  case priority =>
    exact hpriority
  case noActions =>
    exact hactions.1
  case actions =>
    exact hactions.2
  all_goals
    dsimp only

end Fields

end Publish

end Server
end CoopMessenger
