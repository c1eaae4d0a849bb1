import CoopMessenger.Library.Sorting
import CoopMessenger.Server.MessageCache
import CoopMessenger.Server.TopicNames

/-!
# Old messages

`sendOldMessages` of `server/server.go`: the cached messages of several topics, one query
for each, merged by time.  Times are in seconds and the sort is not stable, so messages of
the same second may change places; and a topic that is named twice is queried twice.

**Results.**
* `mem_messages_topic`, `pairwise_messages`: what a query for a topic returns.
* `sendOldMessages_eq`: what is passed does not depend on the subscriber, up to its errors.
* `sentOnce_iff`: when every message is passed once and in order.
-/

namespace CoopMessenger
namespace Server

open Library Util

namespace OldMessages

open TopicNames

universe u v

section Model

variable {σ : Type u} {ε : Type v}

/-- `topicsFromPath`, the IDs of the topics. -/
def topicsFromPath
    (conf : Config)
    (topics : List String)
    (path : String) : Option (List String) :=
  match parts path with
  | _ :: topicsStr :: _ =>
      if (topicsFromIDs conf topics (splitNoEmpty topicsStr ',')).2 then
        some (splitNoEmpty topicsStr ',')
      else
        none
  | _ => none

/-- Calls the subscriber for each message; `s` is what the subscriber writes to. -/
def sendOldMessages
    (slice : AscOrder Message.time)
    (c : MessageCache)
    (topics : List String)
    (since : SinceMarker)
    (scheduled : Bool)
    (sub : σ → Message → Except ε σ)
    (s : σ) : Except ε σ :=
  if since.isNone then
    .ok s
  else
    (slice.sort (topics.flatMap fun topic => c.messages topic since scheduled)).foldlM sub s

/-- The messages that are passed to a subscriber which takes them all. -/
def passed
    (slice : AscOrder Message.time)
    (c : MessageCache)
    (topics : List String)
    (since : SinceMarker)
    (scheduled : Bool) : Except ErrHTTP (List Message) :=
  sendOldMessages slice c topics since scheduled (fun sent m => .ok (sent ++ [m])) []

/-- The messages of each topic once and in their order, and all of them by time. -/
def SentOnce
    (c : MessageCache)
    (topics : List String)
    (since : SinceMarker)
    (scheduled : Bool)
    (sent : List Message) : Prop :=
  (∀ topic ∈ topics, sent.filter (fun m => decide (m.topic = topic)) =
    c.messages topic since scheduled) ∧
    (∀ m ∈ sent, m.topic ∈ topics) ∧ sent.Pairwise fun m m' => m.time ≤ m'.time

/--
A topic with messages is named once, and different messages of a topic have different
times.
-/
def Separate
    (c : MessageCache)
    (topics : List String)
    (since : SinceMarker)
    (scheduled : Bool) : Prop :=
  ∀ topic ∈ topics,
    (c.messages topic since scheduled ≠ [] → topics.count topic = 1) ∧
      ∀ m ∈ c.messages topic since scheduled, ∀ m' ∈ c.messages topic since scheduled,
        m.time = m'.time → m = m'

end Model

section Queries

variable {c : MessageCache} {topic : String} {since : SinceMarker} {scheduled : Bool}

theorem pairwise_select
    (p : StoredMessage → Bool) :
    (c.select p).Pairwise fun m m' => m.time ≤ m'.time := by
  rw [MessageCache.select, List.pairwise_map]
  have hsorted : (orderBy StoredMessage.order (c.rows.filter p)).Pairwise fun r r' =>
      r.order ≤ r'.order :=
    pairwise_orderBy
  refine hsorted.imp fun h => ?_
  rcases Prod.Lex.toLex_le_toLex.mp h with hlt | ⟨heq, -⟩
  · exact hlt.le
  · exact heq.le

/-- Whatever the marker, messages come from a selection of rows of the topic. -/
theorem messages_cases
    (c : MessageCache) (topic : String) (since : SinceMarker) (scheduled : Bool) :
    (∃ p : StoredMessage → Bool, (∀ r, p r = true → r.message.topic = topic) ∧
        c.messages topic since scheduled = c.select p) ∨
      ∃ r? : Option StoredMessage, (∀ r ∈ r?, r.message.topic = topic) ∧
        c.messages topic since scheduled = (r?.map StoredMessage.message).toList := by
  have htime : ∀ since : SinceMarker, ∃ p : StoredMessage → Bool,
      (∀ r, p r = true → r.message.topic = topic) ∧
        c.messagesSinceTime topic since scheduled = c.select p := by
    refine fun since => ⟨_, fun r hr => ?_, rfl⟩
    simp only [Bool.and_eq_true, decide_eq_true_eq] at hr
    exact hr.1.1
  unfold MessageCache.messages
  split
  · exact Or.inr ⟨none, by simp, rfl⟩
  · split
    · refine Or.inr ⟨_, fun r hr => ?_, rfl⟩
      have hmem := List.mem_filter.mp (top_best hr).1
      simp only [Bool.and_eq_true, decide_eq_true_eq] at hmem
      exact hmem.2.1
    · split
      · unfold MessageCache.messagesSinceID
        split
        · exact Or.inl (htime sinceAllMessages)
        · refine Or.inl ⟨_, fun r hr => ?_, rfl⟩
          simp only [Bool.and_eq_true, decide_eq_true_eq] at hr
          exact hr.1
      · exact Or.inl (htime since)

theorem mem_messages_topic
    {m : Message}
    (h : m ∈ c.messages topic since scheduled) :
    m.topic = topic := by
  rcases messages_cases c topic since scheduled with ⟨p, hp, hc⟩ | ⟨r?, hr?, hc⟩
  · rw [hc, MessageCache.mem_select_iff] at h
    obtain ⟨r, -, hr, rfl⟩ := h
    exact hp r hr
  · rw [hc, Option.mem_toList, Option.map_eq_some_iff] at h
    obtain ⟨r, hr, rfl⟩ := h
    exact hr? r hr

theorem pairwise_messages :
    (c.messages topic since scheduled).Pairwise fun m m' => m.time ≤ m'.time := by
  rcases messages_cases c topic since scheduled with ⟨p, -, hc⟩ | ⟨r?, -, hc⟩
  · rw [hc]
    exact pairwise_select p
  · rw [hc]
    cases r? with
    | none =>
        exact List.Pairwise.nil
    | some r =>
        exact List.pairwise_singleton _ _

theorem messages_of_isNone
    (h : since.isNone = true) :
    c.messages topic since scheduled = [] := by
  simp [MessageCache.messages, h]

end Queries

section Sending

variable {c : MessageCache} {topics : List String} {since : SinceMarker} {scheduled : Bool}

/-- The messages that the queries return, one topic after another. -/
def queried
    (c : MessageCache)
    (topics : List String)
    (since : SinceMarker)
    (scheduled : Bool) : List Message :=
  topics.flatMap fun topic => c.messages topic since scheduled

theorem foldlM_record
    (sent l : List Message) :
    l.foldlM (fun sent m => (.ok (sent ++ [m]) : Except ErrHTTP (List Message))) sent =
      .ok (sent ++ l) := by
  induction l generalizing sent with
  | nil =>
      rw [List.append_nil]
      rfl
  | cons m l ih =>
      have := ih (sent ++ [m])
      rw [List.append_assoc] at this
      exact this

theorem passed_eq
    (slice : AscOrder Message.time) :
    passed slice c topics since scheduled = .ok (slice.sort (queried c topics since scheduled)) := by
  unfold passed sendOldMessages
  split
  case isTrue h =>
    have hnone : queried c topics since scheduled = [] := by
      simp [queried, messages_of_isNone h]
    rw [hnone, (slice.perm []).eq_nil]
  case isFalse h =>
    rw [foldlM_record, List.nil_append]
    rfl

/-- Any subscriber is called for the same messages, until it fails. -/
theorem sendOldMessages_eq
    {σ : Type u} {ε : Type v}
    (slice : AscOrder Message.time)
    (sub : σ → Message → Except ε σ)
    (s : σ)
    {sent : List Message}
    (h : passed slice c topics since scheduled = .ok sent) :
    sendOldMessages slice c topics since scheduled sub s = sent.foldlM sub s := by
  rw [passed_eq, Except.ok.injEq] at h
  subst h
  unfold sendOldMessages
  split
  case isTrue h =>
    have hnone : queried c topics since scheduled = [] := by
      simp [queried, messages_of_isNone h]
    rw [hnone, (slice.perm []).eq_nil]
    rfl
  case isFalse h =>
    rfl

/-- The messages of a topic are queried as often as it is named. -/
theorem filter_queried
    (topic : String) :
    (queried c topics since scheduled).filter (fun m => decide (m.topic = topic)) =
      (List.replicate (topics.count topic) (c.messages topic since scheduled)).flatten := by
  induction topics with
  | nil =>
      rfl
  | cons t topics ih =>
      rw [queried, List.flatMap_cons, List.filter_append, ← queried, ih]
      by_cases ht : t = topic
      · subst ht
        have hall : (c.messages t since scheduled).filter (fun m => decide (m.topic = t)) =
            c.messages t since scheduled :=
          List.filter_eq_self.mpr fun m hm => by simp [mem_messages_topic hm]
        rw [hall, List.count_cons_self, List.replicate_succ, List.flatten_cons]
      · have hnone : (c.messages t since scheduled).filter (fun m => decide (m.topic = topic)) =
            [] :=
          List.filter_eq_nil_iff.mpr fun m hm => by simp [mem_messages_topic hm, ht]
        rw [hnone, List.nil_append, List.count_cons_of_ne ht]

/-- Named once, a topic is queried once; without messages it does not matter. -/
theorem filter_queried_of_separate
    (h : Separate c topics since scheduled)
    {topic : String}
    (htopic : topic ∈ topics) :
    (queried c topics since scheduled).filter (fun m => decide (m.topic = topic)) =
      c.messages topic since scheduled := by
  rw [filter_queried]
  by_cases hnil : c.messages topic since scheduled = []
  · simp [hnil]
  · rw [(h topic htopic).1 hnil]
    simp

/-- A topic whose messages are passed once has none or is named once. -/
theorem count_eq_one_of_perm
    {topic : String}
    (h : ((queried c topics since scheduled).filter (fun m => decide (m.topic = topic))).Perm
      (c.messages topic since scheduled))
    (hne : c.messages topic since scheduled ≠ []) :
    topics.count topic = 1 := by
  have hlength := h.length_eq
  rw [filter_queried, List.length_flatten, List.map_replicate, List.sum_replicate_nat] at hlength
  have hpos := List.length_pos_of_ne_nil hne
  exact Nat.eq_of_mul_eq_mul_right hpos (by rw [hlength, Nat.one_mul])

theorem SentOnce.count_eq_one
    {slice : AscOrder Message.time}
    (h : SentOnce c topics since scheduled (slice.sort (queried c topics since scheduled)))
    {topic : String}
    (htopic : topic ∈ topics)
    (hne : c.messages topic since scheduled ≠ []) :
    topics.count topic = 1 := by
  refine count_eq_one_of_perm ?_ hne
  rw [← h.1 topic htopic]
  exact ((slice.perm _).filter _).symm

theorem separate_of_sentOnce
    (h : ∀ slice : AscOrder Message.time,
      SentOnce c topics since scheduled (slice.sort (queried c topics since scheduled))) :
    Separate c topics since scheduled := by
  intro topic htopic
  have hcount := (h (AscOrder.stable _)).count_eq_one htopic
  refine ⟨hcount, ?_⟩
  by_cases hne : c.messages topic since scheduled = []
  · simp [hne]
  · have hqueried : (queried c topics since scheduled).filter
        (fun m => decide (m.topic = topic)) = c.messages topic since scheduled := by
      rw [filter_queried, hcount hne]
      simp
    have hsort : ∀ slice : AscOrder Message.time,
        (slice.sort (queried c topics since scheduled)).filter
          (fun m => decide (m.topic = topic)) =
        (queried c topics since scheduled).filter (fun m => decide (m.topic = topic)) := by
      intro slice
      rw [hqueried]
      exact (h slice).1 topic htopic
    have hkeys := (filter_sort_eq_iff _ (by rw [hqueried]; exact pairwise_messages)).mp hsort
    rwa [hqueried] at hkeys

theorem sentOnce_of_separate
    (h : Separate c topics since scheduled)
    (slice : AscOrder Message.time) :
    SentOnce c topics since scheduled (slice.sort (queried c topics since scheduled)) := by
  refine ⟨?_, ?_, slice.sorted _⟩
  · intro topic htopic
    have hqueried := filter_queried_of_separate h htopic
    rw [slice.filter_sort _ (by rw [hqueried]; exact pairwise_messages)
      (by rw [hqueried]; exact (h topic htopic).2), hqueried]
  · intro m hm
    obtain ⟨topic, htopic, hm⟩ := List.mem_flatMap.mp ((slice.perm _).mem_iff.mp hm)
    rw [mem_messages_topic hm]
    exact htopic

/--
Every message is passed once and in order, however the sort treats messages of the same
second, when topics with messages are named once and have no two messages of a second.
-/
theorem sentOnce_iff
    (c : MessageCache)
    (topics : List String)
    (since : SinceMarker)
    (scheduled : Bool) :
    (∀ slice : AscOrder Message.time, ∃ sent,
      passed slice c topics since scheduled = .ok sent ∧
        SentOnce c topics since scheduled sent)
      ↔
    Separate c topics since scheduled := by
  constructor
  · intro h
    refine separate_of_sentOnce fun slice => ?_
    obtain ⟨sent, hsent, honce⟩ := h slice
    rw [passed_eq, Except.ok.injEq] at hsent
    exact hsent ▸ honce
  · intro h slice
    exact ⟨_, passed_eq slice, sentOnce_of_separate h slice⟩

/-- A message for the topic `news`. -/
def news
    (id : String)
    (time : Nat) : Message :=
  newDefaultMessage id time "news" "hello"

/--
Whoever subscribes to `news,news` gets every message twice, and messages of the same second
may come in any order.
-/
theorem news_not_sentOnce :
    (handlerOf "GET" "/news,news/json" = some .subscribe ∧
      topicsFromPath ⟨⟨[], 100⟩, false⟩ [] "/news,news/json" = some ["news", "news"] ∧
      ¬ ∃ slice sent,
        passed slice (.insert .empty 5 (news "aaaaaaaaaaaa" 1)) ["news", "news"]
          sinceAllMessages false = .ok sent ∧
        SentOnce (.insert .empty 5 (news "aaaaaaaaaaaa" 1)) ["news", "news"]
          sinceAllMessages false sent) ∧
    ∃ slice sent,
      passed slice (.insert (.insert .empty 5 (news "aaaaaaaaaaaa" 1)) 5
        (news "bbbbbbbbbbbb" 1)) ["news"] sinceAllMessages false = .ok sent ∧
      ¬ SentOnce (.insert (.insert .empty 5 (news "aaaaaaaaaaaa" 1)) 5
        (news "bbbbbbbbbbbb" 1)) ["news"] sinceAllMessages false sent := by
  refine ⟨⟨by decide +kernel, by decide +kernel, ?_⟩, ?_⟩
  · rintro ⟨slice, sent, hsent, honce⟩
    rw [passed_eq, Except.ok.injEq] at hsent
    subst hsent
    exact absurd (honce.count_eq_one List.mem_cons_self (by decide +kernel)) (by decide)
  · by_contra hall
    simp only [not_exists, not_and, not_not] at hall
    have hsep := separate_of_sentOnce fun slice => hall slice _ (passed_eq slice)
    exact absurd ((hsep "news" List.mem_cons_self).2 (news "aaaaaaaaaaaa" 1) (by decide +kernel)
      (news "bbbbbbbbbbbb" 1) (by decide +kernel) rfl) (by decide)

end Sending

end OldMessages

end Server
end CoopMessenger
