import CoopMessenger.Library.Grouping
import CoopMessenger.Server.Errors
import CoopMessenger.Server.Reactions

/-!
# Listings of reactions

Reactions are listed for one message, or for all messages of a topic.  Both handlers collect
the rows in a map of groups; one remembers the order of the emojis, while the other goes
through the map, which may have any order.

**Results.**
* `agrees_iff`: in which states the two listings agree.
* `Tidy.step_iff`: what one step does to that.
* `listings_agree_iff`: in which runs they agree in every state.
-/

namespace CoopMessenger
namespace Server

open Library

namespace Reactions

section Listings

structure ReactionGroup where
  emoji : String
  count : Nat
  users : List String
  reacted : Bool
deriving DecidableEq, Repr

/-- Who asks: the name, if there is one, and the topics that may be read. -/
structure Reader where
  user : Option String
  mayRead : String → Bool

def Reader.requestingUser (v : Reader) : String :=
  v.user.getD ""

/-- One row is added to its group. -/
def ReactionGroup.add
    (requestingUser : String)
    (x : Reaction)
    (g : ReactionGroup) : ReactionGroup :=
  { g with
    users := g.users ++ [x.username]
    count := g.count + 1
    reacted := g.reacted || decide (x.username = requestingUser) }

/-- A group starts without users. -/
def addReaction
    (requestingUser : String)
    (x : Reaction)
    (g : Option ReactionGroup) : ReactionGroup :=
  (g.getD ⟨x.emoji, 0, [], false⟩).add requestingUser x

/-- `emojiMap`, its entries in the order of `emojiOrder`. -/
def emojiMap
    (requestingUser : String)
    (rows : List Reaction) : List (String × ReactionGroup) :=
  collect Reaction.emoji (addReaction requestingUser) rows

/-- The groups of a message, in the order of their first reactions. -/
def groups
    (requestingUser : String)
    (rows : List Reaction) : List ReactionGroup :=
  (emojiMap requestingUser rows).map Prod.snd

/-- `WHERE message_id = ? ORDER BY created_at ASC` -/
def State.reactionsOf
    (s : State)
    (messageID : String) : List Reaction :=
  orderBy Reaction.createdAt
    (s.reactions.rows.filter (fun x => decide (x.messageID = messageID)))

/-- `handleReactionList` -/
def handleReactionList
    (s : State)
    (v : Reader)
    (messageID : String) : Except ErrHTTP (List ReactionGroup) :=
  if messageID = "" then
    .error (errHTTPBadRequest.wrap "invalid message ID")
  else
    match s.cache.message? messageID with
    | none => .error errHTTPNotFound
    | some m =>
        if v.mayRead m.topic then
          .ok (groups v.requestingUser (s.reactionsOf messageID))
        else
          .error errHTTPForbidden

/-- `WHERE topic = ? ORDER BY message_id, created_at ASC` -/
def State.topicReactions
    (s : State)
    (topic : String) : List Reaction :=
  orderBy (fun x => toLex (x.messageID, x.createdAt))
    (s.reactions.rows.filter (fun x => decide (x.topic = topic)))

/-- `msgMap`, its entries in the order of `msgOrder`. -/
def msgMap
    (requestingUser : String)
    (rows : List Reaction) : List (String × List (String × ReactionGroup)) :=
  collect Reaction.messageID
    (fun x m => alter x.emoji (addReaction requestingUser x) (m.getD [])) rows

/-- In what order `range` goes through the map of a message. -/
structure RangeOrder where
  order : String → List ReactionGroup → List ReactionGroup
  perm : ∀ messageID gs, (order messageID gs).Perm gs

def RangeOrder.inserted : RangeOrder where
  order := fun _ gs => gs
  perm := fun _ gs => .refl gs

def RangeOrder.reversed : RangeOrder where
  order := fun _ gs => gs.reverse
  perm := fun _ gs => gs.reverse_perm

/-- `handleReactionsByTopic` -/
def handleReactionsByTopic
    (s : State)
    (v : Reader)
    (o : RangeOrder)
    (topic : String) : Except ErrHTTP (List (String × List ReactionGroup)) :=
  if topic = "" then
    .error (errHTTPBadRequest.wrap "topic parameter is required")
  else if v.mayRead topic then
    .ok ((msgMap v.requestingUser (s.topicReactions topic)).map
      fun m => (m.1, o.order m.1 (m.2.map Prod.snd)))
  else
    .error errHTTPForbidden

/--
The listing of a topic has one entry for each of its messages that has reactions, with the
groups that are listed for the message, and no other entry.
-/
def ListingOf
    (s : State)
    (v : Reader)
    (topic : String)
    (listing : List (String × List ReactionGroup)) : Prop :=
  (listing.map Prod.fst).Nodup ∧ ∀ messageID gs, (messageID, gs) ∈ listing ↔
    s.HasMessage messageID topic ∧ handleReactionList s v messageID = .ok gs ∧ gs ≠ []

/-- The listings agree for everyone, whatever the order of the maps. -/
def Agrees (s : State) : Prop :=
  ∀ (v : Reader) topic, topic ≠ "" → v.mayRead topic = true →
    ∀ o, ∃ listing, handleReactionsByTopic s v o topic = .ok listing ∧
      ListingOf s v topic listing

end Listings

section Conditions

/--
The message is stored, under no other topic, and has no reaction with another emoji.
-/
structure Fits
    (s : State)
    (messageID topic emoji : String) : Prop where
  message : s.HasMessage messageID topic
  topic : ∀ r ∈ s.cache.rows, r.message.id = messageID → r.message.topic = topic
  emoji : ∀ x ∈ s.reactions, x.messageID = messageID → x.emoji = emoji

/-- All reactions fit. -/
def Tidy (s : State) : Prop :=
  ∀ x ∈ s.reactions, Fits s x.messageID x.topic x.emoji

/-- Messages, requests and reactions have topics, and requests and reactions IDs. -/
structure Named (s : State) : Prop where
  messages : ∀ r ∈ s.cache.rows, r.message.topic ≠ ""
  requests : ∀ q ∈ s.requests, q.messageID ≠ "" ∧ q.topic ≠ ""
  reactions : ∀ x ∈ s.reactions, x.messageID ≠ "" ∧ x.topic ≠ ""

/-- New messages have topics. -/
def NamedMessages : Label → Prop
  | .addMessages ms => ∀ m ∈ ms, m.topic ≠ ""
  | _ => True

/--
A new message has no reactions under another topic, a new reaction fits, and no other step
deletes a message with reactions.
-/
def KeepsTidy
    (s : State) : Label → Prop
  | .addMessages ms =>
      ∀ m ∈ ms, ∀ x ∈ s.reactions, x.messageID = m.id → x.topic = m.topic
  | .insert id fails =>
      fails = false → ∀ q ∈ s.requests, q.id = id → q.inserting = true →
        s.reactions.find? q.key = none → Fits s q.messageID q.topic q.emoji
  | l => ∀ x ∈ s.reactions, ∃ r ∈ s.cache.rows, l.deletes s r = false ∧
      r.message.id = x.messageID ∧ r.message.topic = x.topic

/-- The step keeps the reactions tidy, if it is taken. -/
def TidyStep
    (s : State)
    (l : Label) : Prop :=
  (step s l).isSome → KeepsTidy s l

/-- The listings agree after the step. -/
def AgreesAfter
    (s : State)
    (l : Label) : Prop :=
  ∀ s', step s l = some s' → Agrees s'

section Decidable

variable (s : State)

instance decidableHasMessage
    (messageID topic : String) :
    Decidable (s.HasMessage messageID topic) :=
  inferInstanceAs (Decidable (∃ r ∈ s.cache.rows, r.message.id = messageID ∧
    r.message.topic = topic))

instance decidableFits
    (messageID topic emoji : String) :
    Decidable (Fits s messageID topic emoji) :=
  decidable_of_iff
    (s.HasMessage messageID topic ∧
      (∀ r ∈ s.cache.rows, r.message.id = messageID → r.message.topic = topic) ∧
      ∀ x ∈ s.reactions, x.messageID = messageID → x.emoji = emoji)
    ⟨fun h => ⟨h.1, h.2.1, h.2.2⟩, fun h => ⟨h.message, h.topic, h.emoji⟩⟩

instance decidableTidy :
    Decidable (Tidy s) :=
  inferInstanceAs (Decidable (∀ x ∈ s.reactions, Fits s x.messageID x.topic x.emoji))

instance decidableKeepsTidy
    (l : Label) :
    Decidable (KeepsTidy s l) := by
  cases l <;> (unfold KeepsTidy; infer_instance)

instance decidableTidyStep
    (l : Label) :
    Decidable (TidyStep s l) :=
  inferInstanceAs (Decidable ((step s l).isSome → KeepsTidy s l))

instance decidableNamedMessages
    (l : Label) :
    Decidable (NamedMessages l) := by
  cases l <;> (unfold NamedMessages; infer_instance)

end Decidable

end Conditions

section Groups

variable {requestingUser : String} {rows : List Reaction}

theorem emoji_total
    {emoji : String} {g : ReactionGroup}
    (hemoji : ∀ x ∈ rows, x.emoji = emoji)
    (h : total (addReaction requestingUser) rows = some g) :
    g.emoji = emoji := by
  induction rows using List.reverseRecOn generalizing g with
  | nil =>
      cases h
  | append_singleton rows x ih =>
      rw [total_append_singleton] at h
      obtain rfl := Option.some.inj h
      rw [List.forall_mem_append] at hemoji
      cases hg : total (addReaction requestingUser) rows with
      | none =>
          exact hemoji.2 x (List.mem_singleton_self x)
      | some g =>
          have hold : g.emoji = emoji := ih hemoji.1 hg
          exact hold

/-- A group is found under its emoji. -/
theorem emoji_of_mem_emojiMap
    {p : String × ReactionGroup}
    (h : p ∈ emojiMap requestingUser rows) :
    p.2.emoji = p.1 := by
  obtain ⟨emoji, g⟩ := p
  refine emoji_total (fun x hx => ?_) (mem_collect_iff.mp h)
  exact of_decide_eq_true (List.mem_filter.mp hx).2

theorem emojis_groups :
    (groups requestingUser rows).map ReactionGroup.emoji =
      (emojiMap requestingUser rows).map Prod.fst := by
  rw [groups, List.map_map]
  exact List.map_congr_left fun p hp => emoji_of_mem_emojiMap hp

theorem mem_emojis_groups
    (emoji : String) :
    emoji ∈ (groups requestingUser rows).map ReactionGroup.emoji ↔
      ∃ x ∈ rows, x.emoji = emoji := by
  rw [emojis_groups]
  exact mem_keys_collect emoji

theorem nodup_emojis_groups :
    ((groups requestingUser rows).map ReactionGroup.emoji).Nodup := by
  rw [emojis_groups]
  exact nodup_collect

theorem groups_eq_nil_iff :
    groups requestingUser rows = [] ↔ rows = [] := by
  have hmem : ∀ emoji, emoji ∈ (groups requestingUser rows).map ReactionGroup.emoji ↔
      ∃ x ∈ rows, x.emoji = emoji := mem_emojis_groups
  constructor
  · intro hnil
    refine List.eq_nil_iff_forall_not_mem.mpr fun x hx => ?_
    have hx' := (hmem x.emoji).mpr ⟨x, hx, rfl⟩
    rw [hnil] at hx'
    exact List.not_mem_nil hx'
  · rintro rfl
    rfl

/-- There is at most one group just if there is at most one emoji. -/
theorem length_groups_le_one_iff :
    (groups requestingUser rows).length ≤ 1 ↔
      ∀ x ∈ rows, ∀ y ∈ rows, x.emoji = y.emoji := by
  have hlength : (groups requestingUser rows).length =
      ((groups requestingUser rows).map ReactionGroup.emoji).length := by
    rw [List.length_map]
  rw [hlength, length_le_one_iff nodup_emojis_groups]
  constructor
  · intro hsame x hx y hy
    exact hsame _ ((mem_emojis_groups x.emoji).mpr ⟨x, hx, rfl⟩) _
      ((mem_emojis_groups y.emoji).mpr ⟨y, hy, rfl⟩)
  · intro hsame a ha b hb
    obtain ⟨x, hx, rfl⟩ := (mem_emojis_groups a).mp ha
    obtain ⟨y, hy, rfl⟩ := (mem_emojis_groups b).mp hb
    exact hsame x hx y hy

end Groups

section Agreement

variable {s : State} {v : Reader} {o : RangeOrder} {topic messageID : String}

/-- The rows of one message in the query for a topic. -/
theorem filter_topicReactions :
    (s.topicReactions topic).filter (fun x => decide (x.messageID = messageID)) =
      orderBy Reaction.createdAt ((s.reactions.rows.filter
        (fun x => decide (x.topic = topic))).filter
          (fun x => decide (x.messageID = messageID))) := by
  rw [State.topicReactions, ← orderBy_filter]
  refine orderBy_prod fun x hx y hy => ?_
  rw [of_decide_eq_true (List.mem_filter.mp hx).2, of_decide_eq_true (List.mem_filter.mp hy).2]

/-- They are all rows of the message, if these have the topic. -/
theorem filter_topicReactions_of_topic
    (h : ∀ x ∈ s.reactions, x.messageID = messageID → x.topic = topic) :
    (s.topicReactions topic).filter (fun x => decide (x.messageID = messageID)) =
      s.reactionsOf messageID := by
  rw [filter_topicReactions, State.reactionsOf, List.filter_filter]
  refine congrArg (orderBy Reaction.createdAt) (List.filter_congr fun x hx => ?_)
  by_cases hid : x.messageID = messageID
  · rw [decide_eq_true (h x hx hid), decide_eq_true hid, Bool.and_self]
  · rw [decide_eq_false hid, Bool.false_and]

theorem mem_reactionsOf
    {x : Reaction} :
    x ∈ s.reactionsOf messageID ↔ x ∈ s.reactions ∧ x.messageID = messageID := by
  rw [State.reactionsOf, mem_orderBy, List.mem_filter, decide_eq_true_eq]
  exact Iff.rfl

/-- The entries of the listing, each the groups of one message in some order. -/
theorem mem_listing_iff
    {requestingUser : String} {rows : List Reaction} {gs : List ReactionGroup} :
    (messageID, gs) ∈ (msgMap requestingUser rows).map
        (fun m => (m.1, o.order m.1 (m.2.map Prod.snd))) ↔
      rows.filter (fun x => decide (x.messageID = messageID)) ≠ [] ∧
        gs = o.order messageID (groups requestingUser
          (rows.filter (fun x => decide (x.messageID = messageID)))) := by
  rw [List.mem_map]
  constructor
  · rintro ⟨⟨id, m⟩, hmem, heq⟩
    obtain ⟨rfl, rfl⟩ := Prod.mk.inj heq
    have htotal := mem_collect_iff.mp hmem
    have hrows : rows.filter (fun x => decide (x.messageID = id)) ≠ [] := by
      intro hnil
      rw [hnil] at htotal
      cases htotal
    rw [total_alter hrows] at htotal
    obtain rfl := Option.some.inj htotal
    exact ⟨hrows, rfl⟩
  · rintro ⟨hrows, rfl⟩
    exact ⟨(messageID, _), mem_collect_iff.mpr (total_alter hrows), rfl⟩

theorem nodup_listing
    {requestingUser : String} {rows : List Reaction} :
    (((msgMap requestingUser rows).map
      (fun m => (m.1, o.order m.1 (m.2.map Prod.snd)))).map Prod.fst).Nodup := by
  rw [List.map_map]
  exact nodup_collect

theorem handleReactionsByTopic_eq
    (htopic : topic ≠ "")
    (hread : v.mayRead topic = true) :
    handleReactionsByTopic s v o topic =
      .ok ((msgMap v.requestingUser (s.topicReactions topic)).map
        (fun m => (m.1, o.order m.1 (m.2.map Prod.snd)))) := by
  rw [handleReactionsByTopic, if_neg htopic, if_pos hread]

/-- What a listing of one message looks up. -/
theorem handleReactionList_eq_ok_iff
    {gs : List ReactionGroup} :
    handleReactionList s v messageID = .ok gs ↔
      messageID ≠ "" ∧ ∃ m, s.cache.message? messageID = some m ∧ v.mayRead m.topic = true ∧
        gs = groups v.requestingUser (s.reactionsOf messageID) := by
  rw [handleReactionList]
  split
  case isTrue hid =>
    simp [hid]
  case isFalse hid =>
    cases s.cache.message? messageID with
    | none =>
        simp
    | some m =>
        constructor
        · intro h
          dsimp only at h
          split at h
          case isTrue hread =>
            exact ⟨hid, m, rfl, hread, (Except.ok.inj h).symm⟩
          case isFalse =>
            cases h
        · rintro ⟨-, m', hm, hread, rfl⟩
          obtain rfl := Option.some.inj hm
          exact if_pos hread

theorem exists_message?
    (h : s.HasMessage messageID topic) :
    ∃ r ∈ s.cache.rows, r.message.id = messageID ∧
      s.cache.message? messageID = some r.message := by
  obtain ⟨r, hr, hid, -⟩ := h
  cases hfind : s.cache.rows.find? (fun r => decide (r.message.id = messageID)) with
  | none =>
      exact absurd (decide_eq_true hid) (List.find?_eq_none.mp hfind r hr)
  | some r' =>
      refine ⟨r', List.mem_of_find?_eq_some hfind, ?_, ?_⟩
      · simpa using List.find?_some hfind
      · rw [MessageCache.message?, hfind]
        rfl

/-- Where all reactions fit, the listings agree. -/
theorem Tidy.agrees
    (h : Tidy s)
    (hnamed : Named s) :
    Agrees s := by
  intro v topic htopic hread o
  refine ⟨_, handleReactionsByTopic_eq htopic hread, nodup_listing, fun messageID gs => ?_⟩
  rw [mem_listing_iff, handleReactionList_eq_ok_iff]
  have hfilter : ∀ x ∈ s.reactions, x.messageID = messageID → x.topic = topic →
      (s.topicReactions topic).filter (fun x => decide (x.messageID = messageID)) =
        s.reactionsOf messageID ∧
      ∀ gs, gs = o.order messageID (groups v.requestingUser (s.reactionsOf messageID)) ↔
        gs = groups v.requestingUser (s.reactionsOf messageID) := by
    rintro x hx rfl rfl
    have hfits := h x hx
    refine ⟨filter_topicReactions_of_topic fun y hy hid => ?_, fun gs => ?_⟩
    · have hy' := (h y hy).message
      rw [hid] at hy'
      obtain ⟨r, hr, hrid, hrtopic⟩ := hy'
      rw [← hrtopic, hfits.topic r hr hrid]
    · rw [eq_of_perm_of_length_le_one (o.perm _ _) (length_groups_le_one_iff.mpr ?_)]
      intro y hy z hz
      obtain ⟨hy, hyid⟩ := mem_reactionsOf.mp hy
      obtain ⟨hz, hzid⟩ := mem_reactionsOf.mp hz
      rw [hfits.emoji y hy hyid, hfits.emoji z hz hzid]
  constructor
  · rintro ⟨hrows, hgs⟩
    obtain ⟨x, hx⟩ := List.exists_mem_of_ne_nil _ hrows
    rw [filter_topicReactions, mem_orderBy, List.mem_filter, List.mem_filter,
      decide_eq_true_eq, decide_eq_true_eq] at hx
    obtain ⟨⟨hx, hxtopic⟩, hxid⟩ := hx
    obtain ⟨hrowsEq, horder⟩ := hfilter x hx hxid hxtopic
    rw [hrowsEq] at hrows hgs
    rw [horder] at hgs
    have hfits := h x hx
    rw [hxid, hxtopic] at hfits
    obtain ⟨r, hr, hrid, hfind⟩ := exists_message? hfits.message
    refine ⟨hfits.message, ⟨hxid ▸ (hnamed.reactions x hx).1, r.message, hfind, ?_, hgs⟩, ?_⟩
    · rwa [hfits.topic r hr hrid]
    · rw [hgs, ne_eq, groups_eq_nil_iff]
      exact hrows
  · rintro ⟨⟨r, hr, hrid, hrtopic⟩, ⟨-, m, -, -, hgs⟩, hne⟩
    rw [hgs, ne_eq, groups_eq_nil_iff] at hne
    obtain ⟨x, hx⟩ := List.exists_mem_of_ne_nil _ hne
    obtain ⟨hx, hxid⟩ := mem_reactionsOf.mp hx
    have hxtopic : x.topic = topic := by
      rw [← hrtopic]
      exact ((h x hx).topic r hr (hrid.trans hxid.symm)).symm
    obtain ⟨hrowsEq, horder⟩ := hfilter x hx hxid hxtopic
    rw [hrowsEq, horder]
    exact ⟨hne, hgs⟩

theorem mem_filter_topicReactions
    {x : Reaction} :
    x ∈ (s.topicReactions topic).filter (fun x => decide (x.messageID = messageID)) ↔
      x ∈ s.reactions ∧ x.topic = topic ∧ x.messageID = messageID := by
  rw [List.mem_filter, State.topicReactions, mem_orderBy, List.mem_filter,
    decide_eq_true_eq, decide_eq_true_eq, and_assoc]
  exact Iff.rfl

/-- The entry of a message with reactions is what is listed for the message. -/
theorem Agrees.entry
    (h : Agrees s)
    {x : Reaction}
    (hx : x ∈ s.reactions)
    (htopic : x.topic ≠ "")
    (hread : v.mayRead x.topic = true)
    (o : RangeOrder) :
    s.HasMessage x.messageID x.topic ∧
      handleReactionList s v x.messageID = .ok (o.order x.messageID
        (groups v.requestingUser ((s.topicReactions x.topic).filter
          (fun y => decide (y.messageID = x.messageID))))) := by
  obtain ⟨listing, hlisting, -, hmem⟩ := h v x.topic htopic hread o
  rw [handleReactionsByTopic_eq htopic hread] at hlisting
  obtain rfl := Except.ok.inj hlisting
  have hrows : (s.topicReactions x.topic).filter
      (fun y => decide (y.messageID = x.messageID)) ≠ [] :=
    List.ne_nil_of_mem (mem_filter_topicReactions.mpr ⟨hx, rfl, rfl⟩)
  obtain ⟨hmessage, hlist, -⟩ := (hmem _ _).mp (mem_listing_iff.mpr ⟨hrows, rfl⟩)
  exact ⟨hmessage, hlist⟩

/-- Where the listings agree, all reactions fit. -/
theorem Agrees.tidy
    (h : Agrees s)
    (hnamed : Named s) :
    Tidy s := by
  have hlookup : ∀ x ∈ s.reactions, ∃ m, s.cache.message? x.messageID = some m ∧
      m.topic = x.topic := by
    intro x hx
    have hread : decide (x.topic = x.topic) = true := decide_eq_true rfl
    obtain ⟨-, hlist⟩ := h.entry (v := ⟨none, fun t => decide (t = x.topic)⟩) hx
      (hnamed.reactions x hx).2 hread .inserted
    obtain ⟨-, m, hm, hmtopic, -⟩ := handleReactionList_eq_ok_iff.mp hlist
    exact ⟨m, hm, of_decide_eq_true hmtopic⟩
  have htopics : ∀ x ∈ s.reactions, ∀ y ∈ s.reactions, y.messageID = x.messageID →
      y.topic = x.topic := by
    intro x hx y hy hid
    obtain ⟨m, hm, hmtopic⟩ := hlookup x hx
    obtain ⟨m', hm', hmtopic'⟩ := hlookup y hy
    rw [hid, hm] at hm'
    rw [← hmtopic, ← hmtopic', Option.some.inj hm']
  intro x hx
  obtain ⟨hid, htopic⟩ := hnamed.reactions x hx
  have hentry := fun o => h.entry (v := ⟨none, fun _ => true⟩) hx htopic rfl o
  refine ⟨(hentry .inserted).1, fun r hr hrid => ?_, fun y hy hyid => ?_⟩
  · obtain ⟨m, hm, -⟩ := hlookup x hx
    obtain ⟨listing, hlisting, -, hmem⟩ := h ⟨none, fun _ => true⟩ r.message.topic
      (hnamed.messages r hr) rfl .inserted
    rw [handleReactionsByTopic_eq (hnamed.messages r hr) rfl] at hlisting
    obtain rfl := Except.ok.inj hlisting
    have hlist := handleReactionList_eq_ok_iff.mpr
      ⟨hid, m, hm, (rfl : (⟨none, fun _ => true⟩ : Reader).mayRead m.topic = true), rfl⟩
    have hne : groups "" (s.reactionsOf x.messageID) ≠ [] := by
      rw [ne_eq, groups_eq_nil_iff]
      exact List.ne_nil_of_mem (mem_reactionsOf.mpr ⟨hx, rfl⟩)
    obtain ⟨hrows, -⟩ := mem_listing_iff.mp ((hmem _ _).mpr
      ⟨⟨r, hr, hrid, rfl⟩, hlist, hne⟩)
    obtain ⟨y, hy⟩ := List.exists_mem_of_ne_nil _ hrows
    obtain ⟨hy, hytopic, hyid⟩ := mem_filter_topicReactions.mp hy
    rw [← hytopic]
    exact htopics x hx y hy hyid
  · have hreverse := Except.ok.inj ((hentry .reversed).2.symm.trans (hentry .inserted).2)
    have hlength := length_le_one_of_reverse nodup_emojis_groups.of_map hreverse
    exact length_groups_le_one_iff.mp hlength y
      (mem_filter_topicReactions.mpr ⟨hy, htopics x hx y hy hyid, hyid⟩) x
      (mem_filter_topicReactions.mpr ⟨hx, rfl, rfl⟩)

theorem agrees_iff
    (hnamed : Named s) :
    Agrees s ↔ Tidy s :=
  ⟨fun h => h.tidy hnamed, fun h => h.agrees hnamed⟩

end Agreement

section Steps

variable {s s' : State}

/-- Fewer reactions, and no new messages. -/
theorem Tidy.iff_of_fewer
    (h : Tidy s)
    (s' : State)
    (hreactions : ∀ x ∈ s'.reactions, x ∈ s.reactions)
    (hrows : ∀ r' ∈ s'.cache.rows, ∃ r ∈ s.cache.rows,
      r.message.id = r'.message.id ∧ r.message.topic = r'.message.topic) :
    Tidy s' ↔ ∀ x ∈ s'.reactions, s'.HasMessage x.messageID x.topic := by
  refine ⟨fun h' x hx => (h' x hx).message, fun hmessages x hx => ?_⟩
  refine ⟨hmessages x hx, fun r' hr' hid => ?_, fun y hy hid => ?_⟩
  · obtain ⟨r, hr, hrid, hrtopic⟩ := hrows r' hr'
    rw [← hrtopic]
    exact (h x (hreactions x hx)).topic r hr (hrid.trans hid)
  · exact (h x (hreactions x hx)).emoji y (hreactions y hy) hid

/-- A step that leaves the messages as they are. -/
theorem Tidy.of_fewer
    (h : Tidy s)
    (hreactions : ∀ x ∈ s'.reactions, x ∈ s.reactions)
    (hcache : s'.cache = s.cache) :
    Tidy s' := by
  refine (h.iff_of_fewer s' hreactions fun r hr => ⟨r, hcache ▸ hr, rfl, rfl⟩).mpr ?_
  intro x hx
  rw [State.HasMessage, hcache]
  exact (h x (hreactions x hx)).message

/-- A step that deletes no messages. -/
theorem Tidy.keeps
    (h : Tidy s)
    {l : Label}
    (hdeletes : ∀ r, l.deletes s r = false) :
    ∀ x ∈ s.reactions, ∃ r ∈ s.cache.rows, l.deletes s r = false ∧
      r.message.id = x.messageID ∧ r.message.topic = x.topic := by
  intro x hx
  obtain ⟨r, hr, hid, htopic⟩ := (h x hx).message
  exact ⟨r, hr, hdeletes r, hid, htopic⟩

/-- An `UPDATE` that leaves IDs and topics as they are. -/
theorem Tidy.update
    (h : Tidy s)
    {f : StoredMessage → StoredMessage}
    {hf : ∀ r, (f r).rowID = r.rowID}
    (hid : ∀ r, (f r).message.id = r.message.id)
    (htopic : ∀ r, (f r).message.topic = r.message.topic) :
    Tidy { s with cache := s.cache.update f hf } := by
  refine (h.iff_of_fewer { s with cache := s.cache.update f hf } (fun x hx => hx)
    fun r' hr' => ?_).mpr fun x hx => ?_
  · obtain ⟨r, hr, rfl⟩ := List.mem_map.mp hr'
    exact ⟨r, hr, (hid r).symm, (htopic r).symm⟩
  · obtain ⟨r, hr, hrid, hrtopic⟩ := (h x hx).message
    exact ⟨f r, List.mem_map.mpr ⟨r, hr, rfl⟩, (hid r).trans hrid, (htopic r).trans hrtopic⟩

/-- A `DELETE` of messages. -/
theorem Tidy.filter_iff
    (h : Tidy s)
    {p : StoredMessage → Bool} {expired : List String} {l : Label}
    (hp : ∀ r ∈ s.cache.rows, p r = !l.deletes s r) :
    Tidy { s with cache := s.cache.filter p, expired } ↔
      ∀ x ∈ s.reactions, ∃ r ∈ s.cache.rows, l.deletes s r = false ∧
        r.message.id = x.messageID ∧ r.message.topic = x.topic := by
  have hmem : ∀ r, r ∈ (s.cache.filter p).rows ↔
      r ∈ s.cache.rows ∧ l.deletes s r = false := by
    intro r
    rw [MessageCache.filter, List.mem_filter]
    refine and_congr_right fun hr => ?_
    rw [hp r hr, Bool.not_eq_true']
  refine (h.iff_of_fewer { s with cache := s.cache.filter p, expired } (fun x hx => hx)
    fun r hr => ⟨r, ((hmem r).mp hr).1, rfl, rfl⟩).trans ?_
  refine forall_congr' fun x => imp_congr_right fun _ => ?_
  simp only [State.HasMessage, hmem, and_assoc]

/-- New messages. -/
theorem Tidy.addMessages_iff
    (h : Tidy s)
    {cache : MessageCache} {ms : List Message}
    (hcache : s.cache.addMessages s.now ms = .ok cache) :
    Tidy { s with cache } ↔
      ∀ m ∈ ms, ∀ x ∈ s.reactions, x.messageID = m.id → x.topic = m.topic := by
  constructor
  · intro h' m hm x hx hid
    obtain ⟨r, hr, rfl⟩ := MessageCache.exists_of_addMessages hcache hm
    exact ((h' x hx).topic r hr hid.symm).symm
  · intro hnew x hx
    obtain ⟨r, hr, hid, htopic⟩ := (h x hx).message
    refine ⟨⟨r, MessageCache.mem_of_addMessages hcache hr, hid, htopic⟩, ?_, (h x hx).emoji⟩
    intro r' hr' hid'
    rcases MessageCache.mem_addMessages hcache hr' with hold | ⟨hm, -⟩
    · exact (h x hx).topic r' hold hid'
    · exact (hnew r'.message hm x hx hid'.symm).symm

/-- A new reaction. -/
theorem Tidy.insert_iff
    (h : Tidy s)
    {x : Reaction} {reactions : Table Reaction.key} {requests : Table Request.id}
    (hinsert : s.reactions.insert? x = some reactions) :
    Tidy { s with reactions, requests } ↔ Fits s x.messageID x.topic x.emoji := by
  have hmem : ∀ y, y ∈ reactions ↔ y ∈ s.reactions ∨ y = x :=
    fun y => Table.mem_insert?_iff hinsert
  constructor
  · intro h'
    have hx := h' x ((hmem x).mpr (Or.inr rfl))
    exact ⟨hx.message, hx.topic, fun y hy hid => hx.emoji y ((hmem y).mpr (Or.inl hy)) hid⟩
  · intro hfits y hy
    rcases (hmem y).mp hy with hold | rfl
    · refine ⟨(h y hold).message, (h y hold).topic, fun z hz hid => ?_⟩
      rcases (hmem z).mp hz with hzold | rfl
      · exact (h y hold).emoji z hzold hid
      · exact (hfits.emoji y hold hid.symm).symm
    · refine ⟨hfits.message, hfits.topic, fun z hz hid => ?_⟩
      rcases (hmem z).mp hz with hzold | rfl
      · exact hfits.emoji z hzold hid
      · rfl

/-- What one step does to the agreement of the listings. -/
theorem Tidy.step_iff
    (h : Tidy s)
    {l : Label}
    (hstep : Reactions.step s l = some s') :
    Tidy s' ↔ KeepsTidy s l := by
  cases l with
  | tick seconds =>
      cases hstep
      exact iff_of_true (h.of_fewer (fun x hx => hx) rfl) (h.keeps fun _ => rfl)
  | addMessages ms =>
      simp only [Reactions.step] at hstep
      split at hstep
      case h_1 =>
        cases hstep
      case h_2 cache hcache =>
        cases hstep
        exact h.addMessages_iff hcache
  | markPublished messageID =>
      cases hstep
      refine iff_of_true (h.update (fun r => ?_) (fun r => ?_)) (h.keeps fun _ => rfl) <;>
        (split <;> rfl)
  | expireMessages topics =>
      cases hstep
      refine iff_of_true (h.update (fun r => ?_) (fun r => ?_)) (h.keeps fun _ => rfl) <;>
        (split <;> rfl)
  | deleteScheduledBySequenceID topic sequenceID =>
      cases hstep
      exact h.filter_iff fun r _ => by simp [Label.deletes]
  | deleteMessagesByTopic topic =>
      cases hstep
      exact h.filter_iff fun r _ => by simp [Label.deletes]
  | messagesExpired =>
      cases hstep
      exact iff_of_true (h.of_fewer (fun x hx => hx) rfl) (h.keeps fun _ => rfl)
  | deleteMessages =>
      cases hstep
      exact h.filter_iff fun r _ => by simp [Label.deletes]
  | addReaction id messageID username emoji =>
      simp only [Reactions.step, Option.ite_none_left_eq_some] at hstep
      obtain ⟨-, hstep⟩ := hstep
      split at hstep
      case h_1 =>
        cases hstep
      case h_2 m hm =>
        obtain ⟨requests, -, rfl⟩ := Option.map_eq_some_iff.mp hstep
        exact iff_of_true (h.of_fewer (fun x hx => hx) rfl) (h.keeps fun _ => rfl)
  | toggle id =>
      obtain ⟨q, -, hstep⟩ := Option.bind_eq_some_iff.mp hstep
      simp only [stepRequest, Option.ite_none_left_eq_some] at hstep
      obtain ⟨-, hstep⟩ := hstep
      refine iff_of_true ?_ (h.keeps fun _ => rfl)
      split at hstep
      case isTrue =>
        cases hstep
        exact h.of_fewer (fun x hx => (Table.mem_delete_iff.mp hx).1) rfl
      case isFalse =>
        cases hstep
        exact h.of_fewer (fun x hx => hx) rfl
  | insert id fails =>
      obtain ⟨q, hfind, hstep⟩ := Option.bind_eq_some_iff.mp hstep
      obtain ⟨hq, rfl⟩ := Table.find?_eq_some_iff.mp hfind
      have honly : ∀ p ∈ s.requests, p.id = q.id → p = q :=
        fun p hp hid => Table.eq_of_key_eq hp hq hid
      simp only [stepRequest, Option.ite_none_right_eq_some] at hstep
      obtain ⟨hinserting, hstep⟩ := hstep
      rw [KeepsTidy]
      split at hstep
      case isTrue hfails =>
        cases hstep
        refine iff_of_true (h.of_fewer (fun x hx => hx) rfl) fun hnot => ?_
        rw [hnot] at hfails
        cases hfails
      case isFalse hfails =>
        split at hstep
        case h_1 hnone =>
          cases hstep
          refine iff_of_true (h.of_fewer (fun x hx => hx) rfl) fun _ p hp hid _ hfree => ?_
          obtain rfl := honly p hp hid
          obtain ⟨x, hx, hkey⟩ := Table.insert?_eq_none_iff.mp hnone
          exact absurd hkey (Table.find?_eq_none_iff.mp hfree x hx)
        case h_2 reactions hinsert =>
          cases hstep
          refine (h.insert_iff hinsert).trans ⟨fun hfits _ p hp hid _ _ => ?_, fun hall => ?_⟩
          · obtain rfl := honly p hp hid
            exact hfits
          · exact hall (Bool.eq_false_iff.mpr hfails) q hq rfl hinserting
              (Table.insert?_eq_some_iff.mp hinsert).1
  | deleteReaction messageID username emoji =>
      simp only [Reactions.step, Option.ite_none_left_eq_some] at hstep
      obtain ⟨-, ⟨⟩⟩ := hstep
      exact iff_of_true (h.of_fewer (fun x hx => (Table.mem_delete_iff.mp hx).1) rfl)
        (h.keeps fun _ => rfl)

end Steps

section Runs

variable {s s' : State}

theorem Named.step
    (h : Named s)
    {l : Label}
    (hl : NamedMessages l)
    (hstep : Reactions.step s l = some s') :
    Named s' := by
  have horigins := origins_step hstep
  constructor
  · intro r hr
    rcases horigins.messages r hr with ⟨r₀, hr₀, htopic⟩ | ⟨ms, rfl, hm⟩
    · rw [← htopic]
      exact h.messages r₀ hr₀
    · exact hl r.message hm
  · intro q hq
    rcases horigins.requests q hq with ⟨p, hp, hid, htopic⟩ | ⟨hid, ⟨r, hr, -, htopic⟩, -⟩
    · rw [← hid, ← htopic]
      exact h.requests p hp
    · exact ⟨hid, htopic ▸ h.messages r hr⟩
  · intro x hx
    rcases horigins.reactions x hx with hold | ⟨q, hq, hid, htopic⟩
    · exact h.reactions x hold
    · rw [← hid, ← htopic]
      exact h.requests q hq

/--
The listings agree after every step of a run, for everyone and in whatever order maps are
gone through, just if every step keeps the reactions tidy.
-/
theorem listings_agree_iff
    (now : Nat)
    {ls : List Label}
    (hnamed : ∀ l ∈ ls, NamedMessages l) :
    Along Reactions.step AgreesAfter (initial now) ls ↔
      Along Reactions.step TidyStep (initial now) ls := by
  have hinitial : Tidy (initial now) ∧ Named (initial now) :=
    ⟨fun x hx => (Table.not_mem_empty x hx).elim,
      fun r hr => (List.not_mem_nil hr).elim,
      fun q hq => (Table.not_mem_empty q hq).elim,
      fun x hx => (Table.not_mem_empty x hx).elim⟩
  have hiff : ∀ s, ∀ l ∈ ls, Tidy s ∧ Named s →
      (AgreesAfter s l ↔ TidyStep s l) := by
    rintro s l hl ⟨htidy, hs⟩
    have hafter : ∀ s', Reactions.step s l = some s' → (Agrees s' ↔ KeepsTidy s l) :=
      fun s' hstep => (agrees_iff (hs.step (hnamed l hl) hstep)).trans (htidy.step_iff hstep)
    constructor
    · intro hagrees hsome
      obtain ⟨s', hstep⟩ := Option.isSome_iff_exists.mp hsome
      exact (hafter s' hstep).mp (hagrees s' hstep)
    · intro hkeeps s' hstep
      exact (hafter s' hstep).mpr (hkeeps (Option.isSome_iff_exists.mpr ⟨s', hstep⟩))
  have hpres : ∀ s, ∀ l ∈ ls, ∀ s', Tidy s ∧ Named s → AgreesAfter s l →
      Reactions.step s l = some s' → Tidy s' ∧ Named s' := by
    rintro s l hl s' ⟨-, hs⟩ hafter hstep
    have hs' := hs.step (hnamed l hl) hstep
    exact ⟨(hafter s' hstep).tidy hs', hs'⟩
  exact Along.congr_of_mem hiff hpres hinitial

end Runs

section Examples

def react
    (id : Nat)
    (username emoji : String) : List Label :=
  [.addReaction id "aaaaaaaaaaaa" username emoji, .toggle id, .insert id false]

/-- Two users with the same reaction. -/
theorem one_emoji :
    Along step AgreesAfter (initial 1000) (reactionRun 1000 ++ react 2 "ben" "+1") :=
  (listings_agree_iff 1000 (by decide)).mpr (by decide)

/-- Two reactions to one message, which a listing may have in any order. -/
theorem two_emojis :
    ¬∀ now ls s, (∀ l ∈ ls, NamedMessages l) → run step (initial now) ls = some s →
      Agrees s := by
  intro h
  have hsome : (run step (initial 1000)
      (reactionRun 1000 ++ react 2 "ben" "tada")).isSome = true := by
    decide
  obtain ⟨s, hs⟩ := Option.isSome_iff_exists.mp hsome
  have hagrees := h 1000 _ s (by decide) hs
  have hemojis : (run step (initial 1000)
      (reactionRun 1000 ++ react 2 "ben" "tada")).map (fun s => s.reactions.rows) =
        some [⟨"aaaaaaaaaaaa", "news", "phil", "+1", 1000⟩,
          ⟨"aaaaaaaaaaaa", "news", "ben", "tada", 1000⟩] := by
    decide
  rw [hs, Option.map_some, Option.some.injEq] at hemojis
  have hrows : ∀ o : RangeOrder, ∃ gs, handleReactionList s ⟨none, fun _ => true⟩
      "aaaaaaaaaaaa" = .ok gs ∧ gs = o.order "aaaaaaaaaaaa"
        [⟨"+1", 1, ["phil"], false⟩, ⟨"tada", 1, ["ben"], false⟩] := by
    intro o
    have hx : (⟨"aaaaaaaaaaaa", "news", "phil", "+1", 1000⟩ : Reaction) ∈ s.reactions := by
      rw [Table.mem_def, hemojis]
      exact List.mem_cons_self
    obtain ⟨-, hlist⟩ := hagrees.entry (v := ⟨none, fun _ => true⟩) hx (by decide) rfl o
    refine ⟨_, hlist, congrArg (o.order "aaaaaaaaaaaa") ?_⟩
    rw [State.topicReactions, hemojis]
    decide
  obtain ⟨gs, hlist, hgs⟩ := hrows .inserted
  obtain ⟨gs', hlist', hgs'⟩ := hrows .reversed
  obtain rfl := Except.ok.inj (hlist.symm.trans hlist')
  exact absurd (hgs.symm.trans hgs') (by decide)

end Examples

end Reactions

end Server
end CoopMessenger
