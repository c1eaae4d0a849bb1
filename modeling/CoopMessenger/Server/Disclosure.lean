import Mathlib
import CoopMessenger.Server.Publish

/-!
# What a publish discloses

The response and the message of a publish, seen as a function of the server's
state.  Two states look alike to a publisher if they have the same users and
access entries, and the same messages in every topic that the publisher may read.

**Results.**
* `handlePublish_discreet_iff`: when the outcome is the same in all states that
  look alike.
-/

namespace CoopMessenger
namespace Server

open Library Manager Util

namespace Disclosure

open Publish

/-- The server's state: message IDs are unique, and topics are well formed. -/
structure State where
  db : Database
  cache : MessageCache
  ids_nodup : (cache.rows.map (fun r => r.message.id)).Nodup
  topics_allowed : ∀ r ∈ cache.rows, allowedTopic r.message.topic = true

section Views

variable (P : Parsers)
variable (cfg : Config)
variable (v : Visit)
variable (req : Request)
variable (topic : String)

/-- May the publisher read the topic? -/
def canRead
    (db : Database)
    (topic : String) : Bool :=
  (authorize db cfg.defaultAccess v.user topic .read).isOk

/-- The messages of a topic, with whether they are published. -/
def topicMessages
    (c : MessageCache)
    (topic : String) : List (Message × Bool) :=
  (c.rows.filter (fun r => decide (r.message.topic = topic))).map
    (fun r => (r.message, r.published))

/-- The states look alike to the publisher. -/
def Agree (s s' : State) : Prop :=
  s'.db = s.db ∧
    ∀ topic, canRead cfg v s.db topic = true →
      topicMessages s'.cache topic = topicMessages s.cache topic

/-- What the publisher and the subscribers get. -/
def outcome
    (s : State) : Except ErrHTTP (Message × Message) :=
  (handlePublish P cfg v req s.db s.cache topic).map
    (fun r => (r.response, r.message))

/-- The messages that the publisher may read. -/
def readable
    (s : State) : MessageCache :=
  s.cache.filter (fun r => canRead cfg v s.db r.message.topic)

/-- The messages whose attachments count for the publisher. -/
def counted (m : Message) : Bool :=
  match v.user with
  | some u => decide (m.user = u.id)
  | none => decide (m.user = "") && decide (m.sender = v.ip)

/--
No topic is hidden from the publisher; or a request that is accepted at all
replies to no message, or to one that the publisher may read, and is accepted
even if the publisher's files use up the quota.
-/
def Discreet (s : State) : Prop :=
  (∀ t, allowedTopic t = true → canRead cfg v s.db t = true) ∨
    (authorize s.db cfg.defaultAccess v.user topic .write = .ok () →
      ∀ m p, draft P cfg v req topic = .ok (m, p) →
        ∀ m', handlePublishBody P cfg v req p
            (attachmentBytesUsed v (readable cfg v s)) m = .ok m' →
          (m.replyTo = "" ∨
            ∃ r ∈ (readable cfg v s).rows, r.message.id = m.replyTo) ∧
          ∃ m'', handlePublishBody P cfg v req p
            v.limits.attachmentTotalSizeLimit m = .ok m'')

end Views

section Lookups

variable {cfg : Config}
variable {v : Visit}
variable {s s' : State}

/-- The messages of states that look alike, as far as the publisher may read them. -/
theorem readable_perm
    (h : Agree cfg v s s') :
    ((readable cfg v s').rows.map StoredMessage.message).Perm
      ((readable cfg v s).rows.map StoredMessage.message) := by
  obtain ⟨hdb, htopics⟩ := h
  have hcount : ∀ (c : MessageCache) (m : Message),
      ((c.rows.filter (fun r => canRead cfg v s.db r.message.topic)).map
        StoredMessage.message).count m =
      if canRead cfg v s.db m.topic then
        ((topicMessages c m.topic).map Prod.fst).count m
      else 0 := by
    intro c m
    simp only [topicMessages, List.count, List.countP_map, List.countP_filter]
    split
    case isTrue hread =>
      refine List.countP_congr fun r _ => ?_
      simp only [Function.comp_apply, Bool.and_eq_true, beq_iff_eq,
        decide_eq_true_eq]
      constructor
      · rintro ⟨rfl, -⟩
        exact ⟨rfl, rfl⟩
      · rintro ⟨rfl, -⟩
        exact ⟨rfl, hread⟩
    case isFalse hread =>
      refine List.countP_eq_zero.mpr fun r _ => ?_
      simp only [Function.comp_apply, Bool.and_eq_true, beq_iff_eq, not_and]
      rintro rfl
      exact hread
  rw [List.perm_iff_count]
  intro m
  simp only [readable, MessageCache.filter, hdb]
  rw [hcount, hcount]
  split
  case isTrue hread =>
    rw [htopics m.topic hread]
  case isFalse =>
    rfl

theorem attachmentBytes_eq_sum
    (now : Nat)
    (ms : List Message) :
    MessageCache.attachmentBytes now ms =
      (((ms.filterMap Message.attachment).filter
        (fun a => decide (now ≤ a.expires))).map Attachment.size).sum := by
  unfold MessageCache.attachmentBytes
  induction (ms.filterMap Message.attachment).filter
      (fun a => decide (now ≤ a.expires)) with
  | nil =>
      rfl
  | cons a as ih =>
      simp [ih]

theorem attachmentBytesUsed_eq
    (c : MessageCache) :
    attachmentBytesUsed v c =
      MessageCache.attachmentBytes v.now
        ((c.rows.map StoredMessage.message).filter (counted v)) := by
  unfold attachmentBytesUsed counted
  cases v.user <;> rfl

/-- The size of attachments does not depend on the order of the messages. -/
theorem attachmentBytesUsed_perm
    {c c' : MessageCache}
    (h : (c'.rows.map StoredMessage.message).Perm
      (c.rows.map StoredMessage.message)) :
    attachmentBytesUsed v c' = attachmentBytesUsed v c := by
  simp only [attachmentBytesUsed_eq, attachmentBytes_eq_sum]
  exact ((((h.filter _).filterMap _).filter _).map _).sum_nat

/-- More messages take up at least as much. -/
theorem attachmentBytesUsed_readable_le
    (s : State) :
    attachmentBytesUsed v (readable cfg v s) ≤
      attachmentBytesUsed v s.cache := by
  have hsub : List.Sublist (readable cfg v s).rows s.cache.rows :=
    List.filter_sublist
  simp only [attachmentBytesUsed_eq, attachmentBytes_eq_sum]
  exact (((((hsub.map _).filter _).filterMap _).filter _).map _).sum_le_sum
    (fun _ _ => Nat.zero_le _)

/-- An ID names the one message that has it. -/
theorem message?_eq_some_iff
    {id : String} {m : Message} :
    s.cache.message? id = some m
      ↔
    ∃ r ∈ s.cache.rows, r.message = m ∧ m.id = id := by
  unfold MessageCache.message?
  rw [Option.map_eq_some_iff]
  constructor
  · rintro ⟨r, hr, rfl⟩
    exact ⟨r, List.mem_of_find?_eq_some hr, rfl,
      by simpa using List.find?_some hr⟩
  · rintro ⟨r, hr, rfl, rfl⟩
    refine ⟨r, ?_, rfl⟩
    cases hfind : s.cache.rows.find?
        (fun r' => decide (r'.message.id = r.message.id)) with
    | none =>
        have := List.find?_eq_none.mp hfind r hr
        simp at this
    | some r' =>
        have hid : r'.message.id = r.message.id := by
          simpa using List.find?_some hfind
        rw [List.inj_on_of_nodup_map s.ids_nodup
          (List.mem_of_find?_eq_some hfind) hr hid]

theorem mem_readable_iff
    {r : StoredMessage} :
    r ∈ (readable cfg v s).rows
      ↔
    r ∈ s.cache.rows ∧ canRead cfg v s.db r.message.topic = true := by
  simp [readable, MessageCache.filter]

/-- The preview of a message that the publisher may read. -/
theorem replyPreview_eq
    (h : Agree cfg v s s')
    {replyTo : String}
    (hreply : ∃ r ∈ (readable cfg v s).rows, r.message.id = replyTo) :
    replyPreview s'.cache replyTo = replyPreview s.cache replyTo := by
  obtain ⟨r, hr, rfl⟩ := hreply
  have hmem := (readable_perm h).mem_iff.mpr (List.mem_map_of_mem hr)
  obtain ⟨r', hr', hmessage⟩ := List.mem_map.mp hmem
  have hfound : s.cache.message? r.message.id = some r.message :=
    message?_eq_some_iff.mpr ⟨r, (mem_readable_iff.mp hr).1, rfl, rfl⟩
  have hfound' : s'.cache.message? r.message.id = some r.message :=
    message?_eq_some_iff.mpr
      ⟨r', (mem_readable_iff.mp hr').1, hmessage, rfl⟩
  simp only [replyPreview, hfound, hfound']

/-- Without hidden topics, the publisher may read every message. -/
theorem readable_rows_of_all
    (hall : ∀ t, allowedTopic t = true → canRead cfg v s.db t = true) :
    (readable cfg v s).rows = s.cache.rows := by
  refine List.filter_eq_self.mpr fun r hr => ?_
  exact hall r.message.topic (s.topics_allowed r hr)

/-- Without hidden topics, every preview is determined. -/
theorem replyPreview_eq_of_all
    (h : Agree cfg v s s')
    (hall : ∀ t, allowedTopic t = true → canRead cfg v s.db t = true)
    (replyTo : String) :
    replyPreview s'.cache replyTo = replyPreview s.cache replyTo := by
  have hperm := readable_perm h
  rw [readable_rows_of_all (by rwa [h.1]), readable_rows_of_all hall] at hperm
  have hmem : ∀ m, (∃ r ∈ s'.cache.rows, r.message = m) ↔
      ∃ r ∈ s.cache.rows, r.message = m := by
    intro m
    simpa using hperm.mem_iff (a := m)
  have hfound : s'.cache.message? replyTo = s.cache.message? replyTo := by
    apply Option.ext
    intro m
    simp only [message?_eq_some_iff, ← and_assoc, exists_and_right]
    rw [hmem]
  simp only [replyPreview, hfound]

end Lookups

section Outcomes

variable {P : Parsers}
variable {cfg : Config}
variable {v : Visit}
variable {req : Request}
variable {topic : String}
variable {s s' : State}
variable {p : Params}
variable {m m' : Message}

theorem outcome_of_refused
    {e : ErrHTTP}
    (hwrite : authorize s.db cfg.defaultAccess v.user topic .write = .ok ())
    (hdraft : draft P cfg v req topic = .ok (m, p))
    (hbody : handlePublishBody P cfg v req p (attachmentBytesUsed v s.cache) m =
      .error e) :
    outcome P cfg v req topic s = .error e := by
  simp [outcome, handlePublish, hwrite,
    handlePublishInternal_of_refused hdraft hbody, Except.map]

theorem outcome_of_accepted
    (hwrite : authorize s.db cfg.defaultAccess v.user topic .write = .ok ())
    (hdraft : draft P cfg v req topic = .ok (m, p))
    (hbody : handlePublishBody P cfg v req p (attachmentBytesUsed v s.cache) m =
      .ok m') :
    outcome P cfg v req topic s =
      .ok (forJSON (fillEmptyMessage
          (m'.withPreview (replyPreview s.cache m.replyTo))),
        fillEmptyMessage
          (m'.withPreview (replyPreview s.cache m.replyTo))) := by
  have hinternal := handlePublishInternal_of_accepted hdraft hbody
  simp only [outcome, handlePublish, hwrite]
  cases h : handlePublishInternal P cfg v req s.cache topic with
  | error e =>
      rw [h] at hinternal
      cases hinternal
  | ok result =>
      rw [h] at hinternal
      have hmessage : result.1 = fillEmptyMessage _ :=
        Except.ok.inj hinternal
      simp only [Except.map, hmessage]

/-- The outcome depends on the preview and on how the body is handled. -/
theorem outcome_eq_of_body_eq
    (hwrite : authorize s.db cfg.defaultAccess v.user topic .write = .ok ())
    (hdb : s'.db = s.db)
    (hdraft : draft P cfg v req topic = .ok (m, p))
    (hbody : handlePublishBody P cfg v req p
        (attachmentBytesUsed v s'.cache) m =
      handlePublishBody P cfg v req p (attachmentBytesUsed v s.cache) m)
    (hpreview : replyPreview s'.cache m.replyTo =
      replyPreview s.cache m.replyTo) :
    outcome P cfg v req topic s' = outcome P cfg v req topic s := by
  have hwrite' : authorize s'.db cfg.defaultAccess v.user topic .write =
      .ok () := by
    rw [hdb, hwrite]
  cases h : handlePublishBody P cfg v req p
      (attachmentBytesUsed v s.cache) m with
  | error e =>
      rw [outcome_of_refused hwrite hdraft h,
        outcome_of_refused hwrite' hdraft (hbody.trans h)]
  | ok m' =>
      rw [outcome_of_accepted hwrite hdraft h,
        outcome_of_accepted hwrite' hdraft (hbody.trans h), hpreview]

/-- A body that is accepted with the quota used up is always accepted. -/
theorem handlePublishBody_of_limit
    (h : handlePublishBody P cfg v req p v.limits.attachmentTotalSizeLimit m =
      .ok m')
    (bytesUsed : Nat) :
    handlePublishBody P cfg v req p bytesUsed m = .ok m' := by
  rcases Nat.le_total bytesUsed v.limits.attachmentTotalSizeLimit with hle | hle
  · exact handlePublishBody_mono hle h
  · rw [handlePublishBody_exhausted hle, h]

/-- A discreet publish has the same outcome in all states that look alike. -/
theorem outcome_eq_of_discreet
    (hdiscreet : Discreet P cfg v req topic s)
    (hagree : Agree cfg v s s') :
    outcome P cfg v req topic s' = outcome P cfg v req topic s := by
  have hdb := hagree.1
  have hbytes := attachmentBytesUsed_perm (v := v) (readable_perm hagree)
  cases hwrite : authorize s.db cfg.defaultAccess v.user topic .write with
  | error e =>
      simp [outcome, handlePublish, hdb, hwrite]
  | ok _ =>
      cases hdraft : draft P cfg v req topic with
      | error e =>
          have hinternal : ∀ c, handlePublishInternal P cfg v req c topic =
              .error e := by
            intro c
            simp [handlePublishInternal, hdraft, bind, Except.bind]
          simp [outcome, handlePublish, hdb, hwrite, hinternal]
      | ok result =>
          obtain ⟨m, p⟩ := result
          rcases hdiscreet with hall | hdiscreet
          · have hused : attachmentBytesUsed v s'.cache =
                attachmentBytesUsed v s.cache := by
              refine attachmentBytesUsed_perm ?_
              have hperm := readable_perm hagree
              rwa [readable_rows_of_all (by rwa [hdb]),
                readable_rows_of_all hall] at hperm
            exact outcome_eq_of_body_eq hwrite hdb hdraft (by rw [hused])
              (replyPreview_eq_of_all hagree hall m.replyTo)
          · cases hbody : handlePublishBody P cfg v req p
                (attachmentBytesUsed v (readable cfg v s)) m with
            | error e =>
                have hrefused := handlePublishBody_anti
                  (attachmentBytesUsed_readable_le s) hbody
                rw [← hbytes] at hbody
                have hrefused' := handlePublishBody_anti
                  (attachmentBytesUsed_readable_le s') hbody
                rw [outcome_of_refused hwrite hdraft hrefused,
                  outcome_of_refused (by rw [hdb, hwrite]) hdraft hrefused']
            | ok m' =>
                obtain ⟨hreply, m'', hlimit⟩ :=
                  hdiscreet hwrite m p hdraft m' hbody
                refine outcome_eq_of_body_eq hwrite hdb hdraft ?_ ?_
                · rw [handlePublishBody_of_limit hlimit,
                    handlePublishBody_of_limit hlimit]
                · rcases hreply with hnone | hreply
                  · simp [replyPreview, hnone]
                  · exact replyPreview_eq hagree hreply

end Outcomes

section HiddenMessages

variable {P : Parsers}
variable {cfg : Config}
variable {v : Visit}
variable {req : Request}
variable {topic : String}
variable {s : State}

/-- A message of the publisher. -/
def hiddenMessage
    (v : Visit)
    (id hidden text : String)
    (attachment : Option Attachment) : Message :=
  { newDefaultMessage id v.now hidden text with
    attachment
    sender := v.ip
    user := maybeUserID v.user }

/-- The messages the publisher may read, and another one. -/
def withHidden
    (cfg : Config)
    (v : Visit)
    (s : State)
    (m : Message)
    (hfresh : ∀ r ∈ (readable cfg v s).rows, r.message.id ≠ m.id)
    (hallowed : allowedTopic m.topic = true) : State where
  db := s.db
  cache := (readable cfg v s).insert v.now m
  ids_nodup := by
    have hsub : ((readable cfg v s).rows.map (fun r => r.message.id)).Nodup :=
      s.ids_nodup.sublist (List.filter_sublist.map _)
    simp only [MessageCache.insert, List.map_append, List.map_singleton]
    refine hsub.append (List.nodup_singleton _) ?_
    simpa [List.Disjoint] using hfresh
  topics_allowed := by
    intro r hr
    rcases MessageCache.mem_insert_iff.mp hr with hr | rfl
    · exact s.topics_allowed r (mem_readable_iff.mp hr).1
    · exact hallowed

/-- Another message in a hidden topic cannot be seen. -/
theorem agree_withHidden
    {m : Message}
    {hfresh : ∀ r ∈ (readable cfg v s).rows, r.message.id ≠ m.id}
    {hallowed : allowedTopic m.topic = true}
    (hhidden : canRead cfg v s.db m.topic = false) :
    Agree cfg v s (withHidden cfg v s m hfresh hallowed) := by
  refine ⟨rfl, fun t ht => ?_⟩
  have hne : m.topic ≠ t := by
    rintro rfl
    rw [hhidden] at ht
    cases ht
  have hrows : ((readable cfg v s).rows.filter
      (fun r => decide (r.message.topic = t))) =
      s.cache.rows.filter (fun r => decide (r.message.topic = t)) := by
    simp only [readable, MessageCache.filter, List.filter_filter]
    refine List.filter_congr fun r _ => ?_
    by_cases htopic : r.message.topic = t
    · simp [htopic, ht]
    · simp [htopic]
  simp [topicMessages, withHidden, MessageCache.insert, List.filter_append,
    hne, hrows]

/-- A state with one more message, which the publisher may not read. -/
theorem exists_hidden
    {hidden id : String}
    (hallowed : allowedTopic hidden = true)
    (hhidden : canRead cfg v s.db hidden = false)
    (hfresh : ∀ r ∈ (readable cfg v s).rows, r.message.id ≠ id)
    (text : String)
    (attachment : Option Attachment) :
    ∃ s', Agree cfg v s s' ∧
      attachmentBytesUsed v s'.cache =
        attachmentBytesUsed v (readable cfg v s) +
          ((attachment.toList.filter
            (fun a => decide (v.now ≤ a.expires))).map Attachment.size).sum ∧
      (id ≠ "" → replyPreview s'.cache id = (bytesOf text).take 100) := by
  let m := hiddenMessage v id hidden text attachment
  let s' := withHidden cfg v s m hfresh hallowed
  have hcounted : counted v m = true := by
    simp only [counted, m, hiddenMessage, maybeUserID]
    cases v.user <;> simp
  have hattachment : m.attachment = attachment := rfl
  refine ⟨s', agree_withHidden hhidden, ?_, ?_⟩
  · simp only [attachmentBytesUsed_eq, attachmentBytes_eq_sum, s', withHidden,
      MessageCache.insert, List.map_append, List.filter_append,
      List.filterMap_append, List.sum_append, List.map_singleton]
    congr 1
    cases attachment <;> simp [hcounted, hattachment]
  · intro hid
    have hfound : s'.cache.message? id = some m :=
      message?_eq_some_iff.mpr
        ⟨_, MessageCache.mem_insert_iff.mpr (Or.inr rfl), rfl, rfl⟩
    simp only [replyPreview, hid, if_false, hfound]
    rfl

theorem fillEmptyMessage_withPreview
    (x : List UInt8)
    (m : Message) :
    (fillEmptyMessage (m.withPreview x)).replyToText = x := by
  unfold fillEmptyMessage
  split <;> rfl

variable {p : Params}
variable {m m' : Message}

/-- A reply to a hidden message gives its text away. -/
theorem readable_reply_of_same
    (hsame : ∀ s', Agree cfg v s s' →
      outcome P cfg v req topic s' = outcome P cfg v req topic s)
    {hidden : String}
    (hallowed : allowedTopic hidden = true)
    (hhidden : canRead cfg v s.db hidden = false)
    (hwrite : authorize s.db cfg.defaultAccess v.user topic .write = .ok ())
    (hdraft : draft P cfg v req topic = .ok (m, p))
    (hbody : handlePublishBody P cfg v req p
      (attachmentBytesUsed v (readable cfg v s)) m = .ok m') :
    m.replyTo = "" ∨
      ∃ r ∈ (readable cfg v s).rows, r.message.id = m.replyTo := by
  by_contra hreply
  push Not at hreply
  obtain ⟨hne, hfresh⟩ := hreply
  have hpreview : ∀ text : String, ∃ x,
      outcome P cfg v req topic s = .ok x ∧
        x.2.replyToText = (bytesOf text).take 100 := by
    intro text
    obtain ⟨s', hagree, hused, htext⟩ :=
      exists_hidden hallowed hhidden hfresh text none
    have hbody' : handlePublishBody P cfg v req p
        (attachmentBytesUsed v s'.cache) m = .ok m' := by
      rw [hused]
      exact hbody
    refine ⟨_, (hsame s' hagree).symm.trans
      (outcome_of_accepted (by rw [hagree.1, hwrite]) hdraft hbody'), ?_⟩
    rw [fillEmptyMessage_withPreview, htext hne]
  obtain ⟨x, hx, hxtext⟩ := hpreview "a"
  obtain ⟨y, hy, hytext⟩ := hpreview "b"
  rw [hx] at hy
  cases hy
  rw [hxtext] at hytext
  exact absurd hytext (by decide)

/-- A file in a hidden topic shows in what is left of the quota. -/
theorem accepted_at_limit_of_same
    (hsame : ∀ s', Agree cfg v s s' →
      outcome P cfg v req topic s' = outcome P cfg v req topic s)
    {hidden : String}
    (hallowed : allowedTopic hidden = true)
    (hhidden : canRead cfg v s.db hidden = false)
    (hwrite : authorize s.db cfg.defaultAccess v.user topic .write = .ok ())
    (hdraft : draft P cfg v req topic = .ok (m, p))
    (hbody : handlePublishBody P cfg v req p
      (attachmentBytesUsed v (readable cfg v s)) m = .ok m') :
    ∃ m'', handlePublishBody P cfg v req p
      v.limits.attachmentTotalSizeLimit m = .ok m'' := by
  obtain ⟨id, hid⟩ := Infinite.exists_notMem_finset
    ((readable cfg v s).rows.map (fun r => r.message.id)).toFinset
  have hfresh : ∀ r ∈ (readable cfg v s).rows, r.message.id ≠ id := by
    simpa using hid
  cases hlimit : handlePublishBody P cfg v req p
      v.limits.attachmentTotalSizeLimit m with
  | ok m'' =>
      exact ⟨m'', rfl⟩
  | error e =>
      exfalso
      obtain ⟨s₁, hagree₁, hused₁, -⟩ :=
        exists_hidden hallowed hhidden hfresh "" none
      obtain ⟨s₂, hagree₂, hused₂, -⟩ :=
        exists_hidden hallowed hhidden hfresh ""
          (some ⟨"", "", v.limits.attachmentTotalSizeLimit, v.now, ""⟩)
      have hbody₁ : handlePublishBody P cfg v req p
          (attachmentBytesUsed v s₁.cache) m = .ok m' := by
        rw [hused₁]
        exact hbody
      have hbody₂ : handlePublishBody P cfg v req p
          (attachmentBytesUsed v s₂.cache) m = .error e := by
        rw [hused₂, handlePublishBody_exhausted (by simp), hlimit]
      have houtcome₁ := (hsame s₁ hagree₁).symm.trans
        (outcome_of_accepted (by rw [hagree₁.1, hwrite]) hdraft hbody₁)
      have houtcome₂ := (hsame s₂ hagree₂).symm.trans
        (outcome_of_refused (by rw [hagree₂.1, hwrite]) hdraft hbody₂)
      rw [houtcome₁] at houtcome₂
      cases houtcome₂

end HiddenMessages

/-- When a publish has the same outcome in all states that look alike. -/
theorem handlePublish_discreet_iff
    (P : Parsers)
    (cfg : Config)
    (v : Visit)
    (req : Request)
    (topic : String)
    (s : State) :
    (∀ s', Agree cfg v s s' →
      outcome P cfg v req topic s' = outcome P cfg v req topic s)
      ↔
    Discreet P cfg v req topic s := by
  constructor
  · intro hsame
    by_cases hall : ∀ t, allowedTopic t = true → canRead cfg v s.db t = true
    · exact Or.inl hall
    · push Not at hall
      obtain ⟨hidden, hallowed, hhidden⟩ := hall
      have hhidden : canRead cfg v s.db hidden = false := by
        simpa using hhidden
      refine Or.inr fun hwrite m p hdraft m' hbody => ⟨?_, ?_⟩
      · exact readable_reply_of_same hsame hallowed hhidden hwrite hdraft hbody
      · exact accepted_at_limit_of_same hsame hallowed hhidden hwrite hdraft
          hbody
  · intro hdiscreet s' hagree
    exact outcome_eq_of_discreet hdiscreet hagree

section Example

/-- Parsers of plain requests. -/
def plainParsers : Parsers where
  decodeHeader := some
  urlPath := fun _ => none
  parseFutureTime := fun _ _ => none
  parseActions := fun _ => .error "invalid"
  mimetype := fun _ => ("application/octet-stream", "")
  templateFile := fun _ => .error errHTTPBadRequestTemplateFileNotFound
  renderTemplate := fun tpl _ => .ok tpl

def plainConfig : Config where
  defaultAccess := .denyAll
  messageSizeLimit := 4096
  messageDelayMin := 10
  messageDelayMax := 259200
  baseURL := ""
  attachmentCacheDir := ""
  smtpSender := false
  twilioAccount := ""
  visitorSubscriberRateLimiting := false

/-- An anonymous publisher within all limits. -/
def plainVisit : Visit where
  user := none
  ip := .invalid
  phoneNumbers := []
  limits := ⟨43200, 0, 0, 0⟩
  exempt := false
  hasRateVisitor := false
  messageAllowed := true
  emailAllowed := false
  callAllowed := false
  bandwidthAllowed := fun _ => true
  fileCacheRemaining := none
  now := 0
  messageID := "nnnnnnnnnnnn"
  pollRequestID := "pppppppppppp"

/-- `hi`, in reply to a message. -/
def replyRequest : Request where
  method := "POST"
  path := "/drop"
  header := fun name => if name = "x-reply-to" then "ssssssssssss" else ""
  query := fun _ => ""
  body := [104, 105]

/-- Everyone may write to `drop`, and there is no message. -/
def dropState : State where
  db :=
    { Database.initial with
      access :=
        { rows := [⟨everyoneID, .ofPattern "drop" (by decide), false, true,
            none, false⟩]
          nodup := by decide } }
  cache := .empty
  ids_nodup := by decide
  topics_allowed := by decide

/-- The message replied to, in the topic `secret`. -/
def secretMessage : Message :=
  hiddenMessage plainVisit "ssssssssssss" "secret" "the password" none

theorem reply_discloses :
    ∃ s', Agree plainConfig plainVisit dropState s' ∧
      outcome plainParsers plainConfig plainVisit replyRequest "drop" s' ≠
        outcome plainParsers plainConfig plainVisit replyRequest "drop"
          dropState := by
  refine ⟨withHidden plainConfig plainVisit dropState secretMessage
    (by decide) (by decide), agree_withHidden (by decide), ?_⟩
  decide

end Example

end Disclosure

end Server
end CoopMessenger
