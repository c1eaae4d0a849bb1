import CoopMessenger.Library.Runs
import CoopMessenger.Library.Table
import CoopMessenger.Server.MessageCache

/-!
# Reactions

The table `reactions` beside the message cache.  A reaction names its message by ID and
topic, without a foreign key.  The handler that adds or toggles one looks the message up
and then executes two statements; messages are deleted by topic, by sequence, and by ID
when they have expired.

**Results.**
* `origins_step`, `kept_step`: where reactions and requests come from, and that messages
  stay unless they are deleted.
* `Referring.step`: a step keeps the references, unless it deletes a message that has
  reactions or is about to get one.
* `reactions_refer_to_messages`: in runs without such steps every reaction refers to a
  stored message.
-/

namespace CoopMessenger
namespace Server

open Library

namespace Reactions

section Model

/-- A row of `reactions`, without its `id`. -/
structure Reaction where
  messageID : String
  topic : String
  username : String
  emoji : String
  createdAt : Nat
deriving DecidableEq, Repr

/-- `UNIQUE(message_id, username, emoji)` -/
def Reaction.key (x : Reaction) : String × String × String :=
  (x.messageID, x.username, x.emoji)

/--
A request that has looked up its message and is authorised; `inserting` once its `DELETE`
has found nothing.
-/
structure Request where
  id : Nat
  messageID : String
  topic : String
  username : String
  emoji : String
  inserting : Bool
deriving DecidableEq, Repr

def Request.key (q : Request) : String × String × String :=
  (q.messageID, q.username, q.emoji)

/-- `expired` is the list that a pruning has read. -/
structure State where
  now : Nat
  cache : MessageCache
  reactions : Table Reaction.key
  requests : Table Request.id
  expired : List String

def State.endRequest
    (s : State)
    (id : Nat) : State :=
  { s with requests := s.requests.delete (fun q => decide (q.id = id)) }

/--
`addReaction` looks up the message, `toggle` and `insert` are the statements of the
handler; `deleteReaction` is a whole request.
-/
inductive Label where
  | tick (seconds : Nat)
  | addMessages (ms : List Message)
  | markPublished (messageID : String)
  | expireMessages (topics : List String)
  | deleteScheduledBySequenceID (topic sequenceID : String)
  | deleteMessagesByTopic (topic : String)
  | messagesExpired
  | deleteMessages
  | addReaction (id : Nat) (messageID username emoji : String)
  | toggle (id : Nat)
  | insert (id : Nat) (fails : Bool)
  | deleteReaction (messageID username emoji : String)
deriving Repr

/-- The statements of a request that adds or toggles a reaction. -/
def stepRequest
    (s : State)
    (q : Request) : Label → Option State
  | .toggle _ =>
      if q.inserting then
        none
      else if (s.reactions.find? q.key).isSome then
        some
          { s.endRequest q.id with
            reactions := s.reactions.delete (fun x => decide (x.key = q.key)) }
      else
        some
          { s with
            requests :=
              s.requests.modify
                (fun p => if p.id = q.id then { p with inserting := true } else p)
                (by intro p; split <;> rfl) }
  | .insert _ fails =>
      if q.inserting then
        if fails then
          some (s.endRequest q.id)
        else
          match s.reactions.insert?
              ⟨q.messageID, q.topic, q.username, q.emoji, s.now⟩ with
          | none => some (s.endRequest q.id)
          | some reactions => some { s.endRequest q.id with reactions }
      else
        none
  | _ => none

/-- One step; `none` if it is not enabled, or is refused at once. -/
def step
    (s : State)
    (l : Label) : Option State :=
  match l with
  | .tick seconds => some { s with now := s.now + seconds }
  | .addMessages ms =>
      match s.cache.addMessages s.now ms with
      | .error _ => none
      | .ok cache => some { s with cache }
  | .markPublished messageID => some { s with cache := s.cache.markPublished messageID }
  | .expireMessages topics =>
      some { s with cache := s.cache.expireMessages s.now topics }
  | .deleteScheduledBySequenceID topic sequenceID =>
      some { s with cache := s.cache.deleteScheduledBySequenceID topic sequenceID }
  | .deleteMessagesByTopic topic =>
      some { s with cache := s.cache.deleteMessagesByTopic topic }
  | .messagesExpired => some { s with expired := s.cache.messagesExpired s.now }
  | .deleteMessages =>
      some { s with cache := s.cache.deleteMessages s.expired, expired := [] }
  | .addReaction id messageID username emoji =>
      if messageID = "" ∨ emoji = "" then
        none
      else
        match s.cache.message? messageID with
        | none => none
        | some m =>
            (s.requests.insert? ⟨id, messageID, m.topic, username, emoji, false⟩).map
              (fun requests => { s with requests })
  | .deleteReaction messageID username emoji =>
      if messageID = "" ∨ emoji = "" ∨ (s.cache.message? messageID).isNone then
        none
      else
        some
          { s with
            reactions :=
              s.reactions.delete (fun x => decide (x.key = (messageID, username, emoji))) }
  | .toggle id | .insert id _ =>
      (s.requests.find? id).bind (fun q => stepRequest s q l)

/-- A server without messages. -/
def initial (now : Nat) : State where
  now
  cache := .empty
  reactions := .empty
  requests := .empty
  expired := []

end Model

section Spec

/-- Is there a stored message with that ID and topic? -/
def State.HasMessage
    (s : State)
    (messageID topic : String) : Prop :=
  ∃ r ∈ s.cache.rows, r.message.id = messageID ∧ r.message.topic = topic

/-- Does the step delete the row? -/
def Label.deletes
    (s : State)
    (r : StoredMessage) : Label → Bool
  | .deleteScheduledBySequenceID topic sequenceID =>
      decide (r.message.topic = topic) && decide (r.message.sequenceID = sequenceID) &&
        !r.published
  | .deleteMessagesByTopic topic => decide (r.message.topic = topic)
  | .deleteMessages => decide (r.message.id ∈ s.expired)
  | _ => false

/-- No reaction refers to the message, and no request is going to add one. -/
def NotReferredTo
    (s : State)
    (m : Message) : Prop :=
  (∀ x ∈ s.reactions, ¬(x.messageID = m.id ∧ x.topic = m.topic)) ∧
    ∀ q ∈ s.requests, ¬(q.messageID = m.id ∧ q.topic = m.topic)

/-- Only messages without reactions are deleted. -/
def Unreferenced
    (s : State)
    (l : Label) : Prop :=
  ∀ r ∈ s.cache.rows, l.deletes s r = true → NotReferredTo s r.message

instance decidableNotReferredTo
    (s : State) (m : Message) :
    Decidable (NotReferredTo s m) := by
  unfold NotReferredTo
  infer_instance

instance decidableUnreferenced
    (s : State) (l : Label) :
    Decidable (Unreferenced s l) := by
  unfold Unreferenced
  infer_instance

end Spec

section Invariant

variable {s s' : State}

structure Referring (s : State) : Prop where
  reactions : ∀ x ∈ s.reactions, s.HasMessage x.messageID x.topic
  requests : ∀ q ∈ s.requests, s.HasMessage q.messageID q.topic

theorem hasMessage_of_message?
    {messageID : String} {m : Message}
    (h : s.cache.message? messageID = some m) :
    s.HasMessage messageID m.topic := by
  obtain ⟨r, hfind, rfl⟩ := Option.map_eq_some_iff.mp h
  exact ⟨r, List.mem_of_find?_eq_some hfind, by simpa using List.find?_some hfind, rfl⟩

/-- Where the reactions, requests and messages after a step come from. -/
structure Origins (s : State) (l : Label) (s' : State) : Prop where
  reactions : ∀ x ∈ s'.reactions, x ∈ s.reactions ∨
    ∃ q ∈ s.requests, q.messageID = x.messageID ∧ q.topic = x.topic
  requests : ∀ q ∈ s'.requests,
    (∃ p ∈ s.requests, p.messageID = q.messageID ∧ p.topic = q.topic) ∨
      q.messageID ≠ "" ∧ s.HasMessage q.messageID q.topic ∧ s'.cache = s.cache
  messages : ∀ r ∈ s'.cache.rows,
    (∃ r₀ ∈ s.cache.rows, r₀.message.topic = r.message.topic) ∨
      ∃ ms, l = .addMessages ms ∧ r.message ∈ ms

/-- A step that changes messages only. -/
theorem Origins.of_messages
    {l : Label} {cache : MessageCache} {now : Nat} {expired : List String}
    (h : ∀ r ∈ cache.rows, (∃ r₀ ∈ s.cache.rows, r₀.message.topic = r.message.topic) ∨
      ∃ ms, l = .addMessages ms ∧ r.message ∈ ms) :
    Origins s l { s with cache, now, expired } :=
  ⟨fun _ hx => Or.inl hx, fun q hq => Or.inl ⟨q, hq, rfl, rfl⟩, h⟩

/-- A step that changes reactions and requests only. -/
theorem Origins.of_reactions
    {l : Label} {reactions : Table Reaction.key} {requests : Table Request.id}
    (hreactions : ∀ x ∈ reactions, x ∈ s.reactions ∨
      ∃ q ∈ s.requests, q.messageID = x.messageID ∧ q.topic = x.topic)
    (hrequests : ∀ q ∈ requests,
      (∃ p ∈ s.requests, p.messageID = q.messageID ∧ p.topic = q.topic) ∨
        q.messageID ≠ "" ∧ s.HasMessage q.messageID q.topic) :
    Origins s l { s with reactions, requests } :=
  ⟨hreactions, fun q hq => (hrequests q hq).imp_right fun h => ⟨h.1, h.2, rfl⟩,
    fun r hr => Or.inl ⟨r, hr, rfl⟩⟩

theorem origins_step
    {l : Label}
    (hstep : Reactions.step s l = some s') :
    Origins s l s' := by
  have hended : ∀ id, ∀ p ∈ (s.endRequest id).requests,
      (∃ p' ∈ s.requests, p'.messageID = p.messageID ∧ p'.topic = p.topic) ∨
        p.messageID ≠ "" ∧ s.HasMessage p.messageID p.topic :=
    fun id p hp => Or.inl ⟨p, (Table.mem_delete_iff.mp hp).1, rfl, rfl⟩
  have hrequests : ∀ p ∈ s.requests,
      (∃ p' ∈ s.requests, p'.messageID = p.messageID ∧ p'.topic = p.topic) ∨
        p.messageID ≠ "" ∧ s.HasMessage p.messageID p.topic :=
    fun p hp => Or.inl ⟨p, hp, rfl, rfl⟩
  cases l with
  | tick seconds =>
      cases hstep
      exact .of_messages fun r hr => Or.inl ⟨r, hr, rfl⟩
  | addMessages ms =>
      simp only [Reactions.step] at hstep
      split at hstep
      case h_1 =>
        cases hstep
      case h_2 cache hcache =>
        cases hstep
        refine .of_messages fun r hr => ?_
        rcases MessageCache.mem_addMessages hcache hr with hold | ⟨hm, -⟩
        · exact Or.inl ⟨r, hold, rfl⟩
        · exact Or.inr ⟨ms, rfl, hm⟩
  | markPublished messageID =>
      cases hstep
      refine .of_messages fun r hr => ?_
      obtain ⟨r₀, hr₀, rfl⟩ := List.mem_map.mp hr
      refine Or.inl ⟨r₀, hr₀, ?_⟩
      split <;> rfl
  | expireMessages topics =>
      cases hstep
      refine .of_messages fun r hr => ?_
      obtain ⟨r₀, hr₀, rfl⟩ := List.mem_map.mp hr
      refine Or.inl ⟨r₀, hr₀, ?_⟩
      split <;> rfl
  | deleteScheduledBySequenceID topic sequenceID =>
      cases hstep
      exact .of_messages fun r hr => Or.inl ⟨r, List.mem_of_mem_filter hr, rfl⟩
  | deleteMessagesByTopic topic =>
      cases hstep
      exact .of_messages fun r hr => Or.inl ⟨r, List.mem_of_mem_filter hr, rfl⟩
  | messagesExpired =>
      cases hstep
      exact .of_messages fun r hr => Or.inl ⟨r, hr, rfl⟩
  | deleteMessages =>
      cases hstep
      exact .of_messages fun r hr => Or.inl ⟨r, List.mem_of_mem_filter hr, rfl⟩
  | addReaction id messageID username emoji =>
      simp only [Reactions.step, Option.ite_none_left_eq_some, not_or] at hstep
      obtain ⟨⟨hid, -⟩, hstep⟩ := hstep
      split at hstep
      case h_1 =>
        cases hstep
      case h_2 m hm =>
        obtain ⟨requests, hinsert, rfl⟩ := Option.map_eq_some_iff.mp hstep
        refine .of_reactions (fun x hx => Or.inl hx) fun q hq => ?_
        rcases (Table.mem_insert?_iff hinsert).mp hq with hold | rfl
        · exact hrequests q hold
        · exact Or.inr ⟨hid, hasMessage_of_message? hm⟩
  | toggle id =>
      obtain ⟨q, hfind, hstep⟩ := Option.bind_eq_some_iff.mp hstep
      simp only [stepRequest, Option.ite_none_left_eq_some] at hstep
      obtain ⟨-, hstep⟩ := hstep
      split at hstep
      case isTrue =>
        cases hstep
        exact .of_reactions (fun x hx => Or.inl (Table.mem_delete_iff.mp hx).1) (hended q.id)
      case isFalse =>
        cases hstep
        refine .of_reactions (fun x hx => Or.inl hx) fun p hp => ?_
        obtain ⟨p', hp', rfl⟩ := List.mem_map.mp hp
        refine Or.inl ⟨p', hp', ?_⟩
        split <;> exact ⟨rfl, rfl⟩
  | insert id fails =>
      obtain ⟨q, hfind, hstep⟩ := Option.bind_eq_some_iff.mp hstep
      obtain ⟨hq, rfl⟩ := Table.find?_eq_some_iff.mp hfind
      simp only [stepRequest, Option.ite_none_right_eq_some] at hstep
      obtain ⟨-, hstep⟩ := hstep
      split at hstep
      case isTrue =>
        cases hstep
        exact .of_reactions (fun _ hx => Or.inl hx) (hended q.id)
      case isFalse =>
        split at hstep
        case h_1 =>
          cases hstep
          exact .of_reactions (fun _ hx => Or.inl hx) (hended q.id)
        case h_2 reactions hinsert =>
          cases hstep
          refine .of_reactions (fun x hx => ?_) (hended q.id)
          rcases (Table.mem_insert?_iff hinsert).mp hx with hold | rfl
          · exact Or.inl hold
          · exact Or.inr ⟨q, hq, rfl, rfl⟩
  | deleteReaction messageID username emoji =>
      simp only [Reactions.step, Option.ite_none_left_eq_some] at hstep
      obtain ⟨-, ⟨⟩⟩ := hstep
      exact .of_reactions (fun x hx => Or.inl (Table.mem_delete_iff.mp hx).1) hrequests

theorem cache_stepRequest
    {q : Request} {l : Label}
    (h : stepRequest s q l = some s') :
    s'.cache = s.cache := by
  unfold stepRequest at h
  split at h
  case h_1 =>
    simp only [Option.ite_none_left_eq_some] at h
    obtain ⟨-, h⟩ := h
    split at h <;> (cases h; rfl)
  case h_2 =>
    simp only [Option.ite_none_right_eq_some] at h
    obtain ⟨-, h⟩ := h
    split at h
    · cases h
      rfl
    · split at h <;> (cases h; rfl)
  case h_3 =>
    cases h

/-- A message stays unless it is deleted. -/
theorem kept_step
    {l : Label}
    (hstep : Reactions.step s l = some s')
    {r : StoredMessage}
    (hr : r ∈ s.cache.rows)
    (hkept : l.deletes s r = false) :
    s'.HasMessage r.message.id r.message.topic := by
  have hsame : s'.cache = s.cache → s'.HasMessage r.message.id r.message.topic :=
    fun hcache => ⟨r, hcache ▸ hr, rfl, rfl⟩
  cases l with
  | tick seconds =>
      cases hstep
      exact hsame rfl
  | addMessages ms =>
      simp only [Reactions.step] at hstep
      split at hstep
      case h_1 =>
        cases hstep
      case h_2 cache hcache =>
        cases hstep
        exact ⟨r, MessageCache.mem_of_addMessages hcache hr, rfl, rfl⟩
  | markPublished messageID =>
      cases hstep
      refine ⟨_, List.mem_map.mpr ⟨r, hr, rfl⟩, ?_, ?_⟩ <;> (split <;> rfl)
  | expireMessages topics =>
      cases hstep
      refine ⟨_, List.mem_map.mpr ⟨r, hr, rfl⟩, ?_, ?_⟩ <;> (split <;> rfl)
  | deleteScheduledBySequenceID topic sequenceID =>
      cases hstep
      exact ⟨r, List.mem_filter.mpr ⟨hr, (Bool.not_eq_true' _).mpr hkept⟩, rfl, rfl⟩
  | deleteMessagesByTopic topic =>
      cases hstep
      exact ⟨r, List.mem_filter.mpr ⟨hr, (Bool.not_eq_true' _).mpr hkept⟩, rfl, rfl⟩
  | messagesExpired =>
      cases hstep
      exact hsame rfl
  | deleteMessages =>
      cases hstep
      exact ⟨r, List.mem_filter.mpr ⟨hr, (Bool.not_eq_true' _).mpr hkept⟩, rfl, rfl⟩
  | addReaction id messageID username emoji =>
      simp only [Reactions.step, Option.ite_none_left_eq_some] at hstep
      obtain ⟨-, hstep⟩ := hstep
      split at hstep
      case h_1 =>
        cases hstep
      case h_2 m hm =>
        obtain ⟨requests, -, rfl⟩ := Option.map_eq_some_iff.mp hstep
        exact hsame rfl
  | toggle id =>
      obtain ⟨q, -, hstep⟩ := Option.bind_eq_some_iff.mp hstep
      exact hsame (cache_stepRequest hstep)
  | insert id fails =>
      obtain ⟨q, -, hstep⟩ := Option.bind_eq_some_iff.mp hstep
      exact hsame (cache_stepRequest hstep)
  | deleteReaction messageID username emoji =>
      simp only [Reactions.step, Option.ite_none_left_eq_some] at hstep
      obtain ⟨-, ⟨⟩⟩ := hstep
      exact hsame rfl

/-- A step keeps the references, unless it deletes a message that has one. -/
theorem Referring.step
    (h : Referring s)
    {l : Label}
    (hfree : Unreferenced s l)
    (hstep : Reactions.step s l = some s') :
    Referring s' := by
  have horigins := origins_step hstep
  -- a message that something refers to is not deleted
  have hkept : ∀ messageID topic, s.HasMessage messageID topic →
      ¬((∀ x ∈ s.reactions, ¬(x.messageID = messageID ∧ x.topic = topic)) ∧
        ∀ q ∈ s.requests, ¬(q.messageID = messageID ∧ q.topic = topic)) →
      s'.HasMessage messageID topic := by
    rintro messageID topic ⟨r, hr, rfl, rfl⟩ hreferred
    refine kept_step hstep hr ?_
    by_contra hdeleted
    exact hreferred (hfree r hr (Bool.not_eq_false _ ▸ hdeleted))
  have hrequest : ∀ q ∈ s.requests, s'.HasMessage q.messageID q.topic :=
    fun q hq => hkept _ _ (h.requests q hq) fun hnone => hnone.2 q hq ⟨rfl, rfl⟩
  constructor
  · intro x hx
    rcases horigins.reactions x hx with hold | ⟨q, hq, hid, htopic⟩
    · exact hkept _ _ (h.reactions x hold) fun hnone => hnone.1 x hold ⟨rfl, rfl⟩
    · rw [← hid, ← htopic]
      exact hrequest q hq
  · intro q hq
    rcases horigins.requests q hq with ⟨p, hp, hid, htopic⟩ | ⟨-, hnew, hcache⟩
    · rw [← hid, ← htopic]
      exact hrequest p hp
    · rw [State.HasMessage, hcache]
      exact hnew

theorem referring_initial
    (now : Nat) :
    Referring (initial now) :=
  ⟨fun x hx => (Table.not_mem_empty x hx).elim,
    fun q hq => (Table.not_mem_empty q hq).elim⟩

/--
In every run in which only messages without reactions are deleted, each reaction refers
to a stored message with its ID and topic.
-/
theorem reactions_refer_to_messages
    {now : Nat} {ls : List Label}
    (hfree : Along Reactions.step Unreferenced (initial now) ls)
    (hrun : run Reactions.step (initial now) ls = some s) :
    ∀ x ∈ s.reactions, s.HasMessage x.messageID x.topic :=
  (run_invariant_along (fun _ _ _ hs hfree hstep => Referring.step hs hfree hstep)
    (referring_initial now) hfree hrun).reactions

end Invariant

section Examples

def exampleMessage
    (id : String)
    (time : Nat) : Message :=
  { newDefaultMessage id time "news" "hello" with
    sequenceID := "hello"
    expires := 2000 }

/-- A message is stored, and gets a reaction. -/
def reactionRun
    (time : Nat) : List Label :=
  [.addMessages [exampleMessage "aaaaaaaaaaaa" time],
    .addReaction 1 "aaaaaaaaaaaa" "phil" "+1", .toggle 1, .insert 1 false]

/-- The reaction is taken back before the message expires. -/
theorem reacted_example :
    ∃ s, run step (initial 1000)
        (reactionRun 1000 ++ [.deleteReaction "aaaaaaaaaaaa" "phil" "+1", .tick 1000,
          .messagesExpired, .deleteMessages] ++ reactionRun 2000) = some s ∧
      ∀ x ∈ s.reactions, s.HasMessage x.messageID x.topic := by
  have hfree : Along step Unreferenced (initial 1000)
      (reactionRun 1000 ++ [.deleteReaction "aaaaaaaaaaaa" "phil" "+1", .tick 1000,
        .messagesExpired, .deleteMessages] ++ reactionRun 2000) := by
    decide
  have hrun : (run step (initial 1000)
      (reactionRun 1000 ++ [.deleteReaction "aaaaaaaaaaaa" "phil" "+1", .tick 1000,
        .messagesExpired, .deleteMessages] ++ reactionRun 2000)).isSome = true := by
    decide
  obtain ⟨s, hs⟩ := Option.isSome_iff_exists.mp hrun
  exact ⟨s, hs, reactions_refer_to_messages hfree hs⟩

/-- How many messages there are, and the messages that reactions name. -/
def summary (s : State) : Nat × List (String × String) :=
  (s.cache.rows.length, s.reactions.rows.map (fun x => (x.messageID, x.topic)))

/--
A message with a reaction is pruned, deleted with its topic, or replaced; and one is
deleted while a request is about to add a reaction.
-/
theorem reactions_left :
    (run step (initial 1000)
        (reactionRun 1000 ++ [.tick 1000, .messagesExpired, .deleteMessages])).map
          summary = some (0, [("aaaaaaaaaaaa", "news")]) ∧
      (run step (initial 1000)
        (reactionRun 1000 ++ [.deleteMessagesByTopic "news"])).map summary =
        some (0, [("aaaaaaaaaaaa", "news")]) ∧
      (run step (initial 1000)
        (reactionRun 1500 ++ [.deleteScheduledBySequenceID "news" "hello"])).map
          summary = some (0, [("aaaaaaaaaaaa", "news")]) ∧
      (run step (initial 1000)
        [.addMessages [exampleMessage "aaaaaaaaaaaa" 1000],
          .addReaction 1 "aaaaaaaaaaaa" "phil" "+1", .toggle 1,
          .deleteMessagesByTopic "news", .insert 1 false]).map summary =
        some (0, [("aaaaaaaaaaaa", "news")]) := by
  refine ⟨?_, ?_, ?_, ?_⟩ <;> decide

end Examples

end Reactions

end Server
end CoopMessenger
