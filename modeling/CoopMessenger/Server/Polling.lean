import CoopMessenger.Library.Runs
import CoopMessenger.Server.MessageCache

/-!
# Incremental polling

A client polls one topic, each time from the last message of the previous poll
that returned any.  Messages of all topics are published meanwhile, plain or
scheduled, and the delayed sender marks scheduled messages that are due.

The cursor is a row ID, the result is ordered by time, and a scheduled message
gets its row long before it is visible.  A poll is exact as long as the cursor
separates the messages returned from all others that are published.

**Results.**
* `pollResult_eq`: a poll is one query, whatever the cursor.
* `pollExact_iff`: exact polls and separating cursors.
* `polls_exact_iff`: which runs keep every poll exact.
-/

namespace CoopMessenger
namespace Server

open Library

namespace Polling

/--
The client keeps the ID of the last message it got; `returned` is all it ever
got, in order.
-/
structure State where
  now : Nat
  cache : MessageCache
  cursor : Option String
  returned : List String

/-- The marker of the next poll: everything, or what follows the cursor. -/
def pollSince : Option String → SinceMarker
  | none => sinceAllMessages
  | some id => newSinceID id

/--
The messages that a poll returns now.  The handler sorts them by time once more,
which leaves the sorted result of a single topic as it is.
-/
def pollResult
    (topic : String)
    (s : State) : List Message :=
  s.cache.messages topic (pollSince s.cursor) false

/-- The state after a poll. -/
def afterPoll
    (topic : String)
    (s : State) : State :=
  { s with
    cursor := ((pollResult topic s).getLast?.map Message.id).or s.cursor
    returned := s.returned ++ (pollResult topic s).map Message.id }

/--
Time passes, a message is stored, the delayed sender marks a message that is
due, or the client polls.
-/
inductive Label where
  | tick (seconds : Nat)
  | add (m : Message)
  | markPublished (id : String)
  | poll
deriving DecidableEq, Repr

/-- One step; `none` if it is not enabled.  New messages have fresh random IDs. -/
def step
    (topic : String)
    (s : State) : Label → Option State
  | .tick seconds => some { s with now := s.now + seconds }
  | .add m =>
      if validMessageID m.id = true ∧ s.cache.rowID? m.id = none then
        match s.cache.addMessages s.now [m] with
        | .ok cache => some { s with cache }
        | .error _ => none
      else
        none
  | .markPublished id =>
      if id ∈ (s.cache.messagesDue s.now).map Message.id then
        some { s with cache := s.cache.markPublished id }
      else
        none
  | .poll => some (afterPoll topic s)

/-- A poll now repeats no message and leaves out none that is published. -/
def PollExact
    (topic : String)
    (s : State) : Prop :=
  ((pollResult topic s).map Message.id).Nodup ∧
    (∀ m ∈ pollResult topic s, m.id ∉ s.returned) ∧
    ∀ r ∈ s.cache.rows, r.message.topic = topic → r.published = true →
      r.message.id ∈ s.returned ∨ r.message ∈ pollResult topic s

/-- Message IDs are unique and well formed. -/
def Identified (c : MessageCache) : Prop :=
  (c.rows.map (fun r => r.message.id)).Nodup ∧
    ∀ r ∈ c.rows, validMessageID r.message.id = true

/-- Was the row inserted after the one the cursor names? -/
def afterCursor
    (s : State)
    (r : StoredMessage) : Bool :=
  match s.cursor.bind s.cache.rowID? with
  | none => true
  | some rowID => decide (rowID < r.rowID)

/-- The rows that a poll returns. -/
def fresh
    (topic : String)
    (s : State)
    (r : StoredMessage) : Bool :=
  decide (r.message.topic = topic) && (afterCursor s r && r.published)

/-- Of the rows a poll returns, the one inserted last has the latest time. -/
def NewestLast
    (topic : String)
    (s : State) : Prop :=
  ∀ r ∈ s.cache.rows, fresh topic s r = true →
    (∀ r' ∈ s.cache.rows, fresh topic s r' = true → r'.rowID ≤ r.rowID) →
    ∀ r' ∈ s.cache.rows, fresh topic s r' = true →
      r'.message.time ≤ r.message.time

/--
Only messages behind the cursor are marked, and each poll returns the message
inserted last at the end.
-/
def InOrder
    (topic : String)
    (s : State) : Label → Prop
  | .tick _ | .add _ => True
  | .markPublished id =>
      ∀ r ∈ s.cache.rows, r.message.id = id → r.message.topic = topic →
        r.published = false → r.message.time ≤ s.now → afterCursor s r = true
  | .poll => NewestLast topic s

instance decidableNewestLast
    (topic : String) (s : State) :
    Decidable (NewestLast topic s) :=
  inferInstanceAs (Decidable (∀ r ∈ s.cache.rows, fresh topic s r = true →
    (∀ r' ∈ s.cache.rows, fresh topic s r' = true → r'.rowID ≤ r.rowID) →
    ∀ r' ∈ s.cache.rows, fresh topic s r' = true →
      r'.message.time ≤ r.message.time))

instance decidableInOrder
    (topic : String) (s : State) :
    ∀ l, Decidable (InOrder topic s l)
  | .tick _ | .add _ => isTrue trivial
  | .markPublished id =>
      inferInstanceAs (Decidable (∀ r ∈ s.cache.rows, r.message.id = id →
        r.message.topic = topic → r.published = false →
          r.message.time ≤ s.now → afterCursor s r = true))
  | .poll => inferInstanceAs (Decidable (NewestLast topic s))

section Invariants

variable {topic : String}
variable {s s' : State}

/-- What holds in every run, in order or not. -/
structure WellFormed
    (topic : String)
    (s : State) : Prop where
  identified : Identified s.cache
  returned : ∀ id ∈ s.returned, ∃ r ∈ s.cache.rows,
    r.message.id = id ∧ r.message.topic = topic ∧ r.published = true
  cursor : ∀ id, s.cursor = some id → ∃ r ∈ s.cache.rows, r.message.id = id

/-- The cursor separates what was returned from all else that is published. -/
def Separates
    (topic : String)
    (s : State) : Prop :=
  ∀ r ∈ s.cache.rows, r.message.topic = topic → r.published = true →
    (afterCursor s r = true ↔ r.message.id ∉ s.returned)

theorem Identified.eq_of_id_eq
    {c : MessageCache}
    (h : Identified c)
    {r r' : StoredMessage}
    (hr : r ∈ c.rows) (hr' : r' ∈ c.rows)
    (hid : r.message.id = r'.message.id) :
    r = r' :=
  List.inj_on_of_nodup_map h.1 hr hr' hid

/-- The row of a message is found by its ID. -/
theorem Identified.rowID?_eq
    {c : MessageCache}
    (h : Identified c)
    {r : StoredMessage}
    (hr : r ∈ c.rows) :
    c.rowID? r.message.id = some r.rowID := by
  unfold MessageCache.rowID?
  cases hfind : c.rows.find?
      (fun r' => decide (r'.message.id = r.message.id)) with
  | none =>
      have := List.find?_eq_none.mp hfind r hr
      simp at this
  | some r' =>
      have hr' := List.mem_of_find?_eq_some hfind
      have hid : r'.message.id = r.message.id := by
        simpa using List.find?_some hfind
      rw [h.eq_of_id_eq hr' hr hid]
      rfl

/-- A poll is one query for the fresh rows. -/
theorem pollResult_eq
    (h : WellFormed topic s) :
    pollResult topic s = s.cache.select (fresh topic s) := by
  unfold pollResult
  cases hcursor : s.cursor with
  | none =>
      have hafter : fresh topic s = fun r =>
          decide (r.message.topic = topic) &&
            decide (sinceAllMessages.time ≤ (r.message.time : Int)) &&
            (false || r.published) := by
        funext r
        simp [fresh, afterCursor, hcursor, sinceAllMessages]
      rw [hafter]
      rfl
  | some id =>
      obtain ⟨r₀, hr₀, rfl⟩ := h.cursor id hcursor
      obtain ⟨hnone, hlatest, hid⟩ :=
        SinceMarker.newSinceID_of_valid (h.identified.2 r₀ hr₀)
      have hrow := h.identified.rowID?_eq hr₀
      have hafter : fresh topic s = fun r =>
          decide (r.message.topic = topic) &&
            (decide (r₀.rowID < r.rowID) && r.published) := by
        funext r
        simp [fresh, afterCursor, hcursor, hrow]
      simp only [pollSince, MessageCache.messages, hnone, hlatest, hid,
        MessageCache.messagesSinceID, hafter]
      simp only [newSinceID, hrow]
      rfl

theorem fresh_iff
    {r : StoredMessage} :
    fresh topic s r = true
      ↔
    r.message.topic = topic ∧ afterCursor s r = true ∧ r.published = true := by
  simp [fresh]

theorem mem_pollResult_iff
    (h : WellFormed topic s)
    {m : Message} :
    m ∈ pollResult topic s
      ↔
    ∃ r ∈ s.cache.rows, fresh topic s r = true ∧ r.message = m := by
  rw [pollResult_eq h, MessageCache.mem_select_iff]

/-- A poll is exact when the cursor separates, and only then. -/
theorem pollExact_iff
    (h : WellFormed topic s) :
    PollExact topic s ↔ Separates topic s := by
  constructor
  · rintro ⟨-, hnew, hall⟩ r hr htopic hpublished
    constructor
    · intro hafter
      refine hnew r.message ((mem_pollResult_iff h).mpr ⟨r, hr, ?_, rfl⟩)
      exact fresh_iff.mpr ⟨htopic, hafter, hpublished⟩
    · intro hunseen
      rcases hall r hr htopic hpublished with hseen | hresult
      · exact absurd hseen hunseen
      · obtain ⟨r', hr', hfresh, hmsg⟩ := (mem_pollResult_iff h).mp hresult
        have heq := h.identified.eq_of_id_eq hr' hr (congrArg Message.id hmsg)
        rw [heq] at hfresh
        exact (fresh_iff.mp hfresh).2.1
  · intro hsep
    refine ⟨?_, ?_, ?_⟩
    · rw [pollResult_eq h, MessageCache.select, List.map_map]
      have hperm : (orderBy StoredMessage.order
          (s.cache.rows.filter (fresh topic s))).Perm _ := perm_orderBy
      rw [(hperm.map _).nodup_iff]
      exact h.identified.1.sublist (List.filter_sublist.map _)
    · intro m hm
      obtain ⟨r, hr, hfresh, rfl⟩ := (mem_pollResult_iff h).mp hm
      obtain ⟨htopic, hafter, hpublished⟩ := fresh_iff.mp hfresh
      exact (hsep r hr htopic hpublished).mp hafter
    · intro r hr htopic hpublished
      by_cases hseen : r.message.id ∈ s.returned
      · exact Or.inl hseen
      · right
        have hafter := (hsep r hr htopic hpublished).mpr hseen
        exact (mem_pollResult_iff h).mpr
          ⟨r, hr, fresh_iff.mpr ⟨htopic, hafter, hpublished⟩, rfl⟩

/-- Where a row stands to the row of the cursor. -/
theorem afterCursor_eq
    {r₀ : StoredMessage}
    (h : Identified s.cache)
    (hr₀ : r₀ ∈ s.cache.rows)
    (hcursor : s.cursor = some r₀.message.id)
    (r : StoredMessage) :
    afterCursor s r = decide (r₀.rowID < r.rowID) := by
  simp [afterCursor, hcursor, h.rowID?_eq hr₀]

theorem afterCursor_of_none
    (hcursor : s.cursor = none)
    (r : StoredMessage) :
    afterCursor s r = true := by
  simp [afterCursor, hcursor]

/-- A write that keeps all rows under their IDs leaves the cursor in place. -/
theorem afterCursor_congr
    {c : MessageCache}
    (h : WellFormed topic s)
    (hc : Identified c)
    (hkeep : ∀ r ∈ s.cache.rows, ∃ r' ∈ c.rows,
      r'.message.id = r.message.id ∧ r'.rowID = r.rowID)
    (r r' : StoredMessage)
    (hrow : r'.rowID = r.rowID) :
    afterCursor { s with cache := c } r' = afterCursor s r := by
  cases hcursor : s.cursor with
  | none =>
      rw [afterCursor_of_none hcursor]
      exact afterCursor_of_none rfl r'
  | some id =>
      obtain ⟨r₀, hr₀, rfl⟩ := h.cursor id hcursor
      obtain ⟨r₁, hr₁, hid, hrowID⟩ := hkeep r₀ hr₀
      rw [afterCursor_eq h.identified hr₀ hcursor, ← hrow, ← hrowID]
      exact afterCursor_eq hc hr₁ (congrArg some hid.symm) r'

section Add

variable {m : Message}

theorem identified_insert
    {c : MessageCache} {now : Nat}
    (h : Identified c)
    (hvalid : validMessageID m.id = true)
    (hfresh : c.rowID? m.id = none) :
    Identified (c.insert now m) := by
  rw [MessageCache.rowID?_eq_none_iff] at hfresh
  constructor
  · simp only [MessageCache.insert, List.map_append, List.map_cons,
      List.map_nil]
    refine h.1.append (List.nodup_singleton _) ?_
    intro id hid hid'
    obtain ⟨r, hr, rfl⟩ := List.mem_map.mp hid
    exact hfresh r hr (List.mem_singleton.mp hid')
  · intro r hr
    rcases MessageCache.mem_insert_iff.mp hr with hr | rfl
    · exact h.2 r hr
    · exact hvalid

/-- What a new message does to the state of a client. -/
theorem step_add
    (hstep : step topic s (.add m) = some s') :
    validMessageID m.id = true ∧ s.cache.rowID? m.id = none ∧
      s' = { s with cache := s.cache.insert s.now m } := by
  simp only [step] at hstep
  split at hstep
  case isFalse =>
    cases hstep
  case isTrue h =>
    split at hstep
    · rename_i cache hcache
      cases hstep
      rw [MessageCache.addMessages_singleton hcache]
      exact ⟨h.1, h.2, rfl⟩
    · cases hstep

theorem WellFormed.add
    (h : WellFormed topic s)
    (hvalid : validMessageID m.id = true)
    (hfresh : s.cache.rowID? m.id = none) :
    WellFormed topic { s with cache := s.cache.insert s.now m } := by
  constructor
  case identified =>
    exact identified_insert h.identified hvalid hfresh
  case returned =>
    intro id hid
    obtain ⟨r, hr, hrest⟩ := h.returned id hid
    exact ⟨r, MessageCache.mem_insert_iff.mpr (Or.inl hr), hrest⟩
  case cursor =>
    intro id hid
    obtain ⟨r, hr, hrest⟩ := h.cursor id hid
    exact ⟨r, MessageCache.mem_insert_iff.mpr (Or.inl hr), hrest⟩

/-- A new message is stored behind the cursor, whatever its time. -/
theorem Separates.add
    (hsep : Separates topic s)
    (h : WellFormed topic s)
    (hvalid : validMessageID m.id = true)
    (hfresh : s.cache.rowID? m.id = none) :
    Separates topic { s with cache := s.cache.insert s.now m } := by
  have hkeep : ∀ r ∈ s.cache.rows, ∃ r' ∈ (s.cache.insert s.now m).rows,
      r'.message.id = r.message.id ∧ r'.rowID = r.rowID :=
    fun r hr => ⟨r, MessageCache.mem_insert_iff.mpr (Or.inl hr), rfl, rfl⟩
  have hc : Identified (s.cache.insert s.now m) :=
    identified_insert h.identified hvalid hfresh
  intro r hr htopic hpublished
  rw [afterCursor_congr h hc hkeep r r rfl]
  rcases MessageCache.mem_insert_iff.mp hr with hr | rfl
  · exact hsep r hr htopic hpublished
  · refine iff_of_true ?_ ?_
    · cases hcursor : s.cursor with
      | none =>
          exact afterCursor_of_none hcursor _
      | some id =>
          obtain ⟨r₀, hr₀, rfl⟩ := h.cursor id hcursor
          rw [afterCursor_eq h.identified hr₀ hcursor]
          have := s.cache.bounded r₀ hr₀
          simp only [decide_eq_true_eq]
          omega
    · intro hseen
      obtain ⟨r, hr, hid, -⟩ := h.returned _ hseen
      exact MessageCache.rowID?_eq_none_iff.mp hfresh r hr hid

end Add

section MarkPublished

variable {id : String}

theorem identified_markPublished
    {c : MessageCache}
    (h : Identified c)
    (id : String) :
    Identified (c.markPublished id) := by
  constructor
  · have hids : (c.markPublished id).rows.map (fun r => r.message.id) =
        c.rows.map (fun r => r.message.id) := by
      simp only [MessageCache.markPublished, MessageCache.update, List.map_map]
      refine List.map_congr_left ?_
      intro r _
      simp only [Function.comp_apply]
      split <;> rfl
    rw [hids]
    exact h.1
  · intro r hr
    obtain ⟨r', hr', rfl⟩ := MessageCache.mem_markPublished_iff.mp hr
    split <;> exact h.2 r' hr'

/-- Every row is still there, published or not. -/
theorem markPublished_keeps
    {c : MessageCache} {r : StoredMessage}
    (hr : r ∈ c.rows)
    (id : String) :
    ∃ r' ∈ (c.markPublished id).rows,
      r'.message = r.message ∧ r'.rowID = r.rowID ∧
        (r.published = true → r'.published = true) := by
  refine ⟨_, MessageCache.mem_markPublished_iff.mpr ⟨r, hr, rfl⟩, ?_⟩
  split <;> simp

theorem WellFormed.markPublished
    (h : WellFormed topic s)
    (id : String) :
    WellFormed topic { s with cache := s.cache.markPublished id } := by
  constructor
  case identified =>
    exact identified_markPublished h.identified id
  case returned =>
    intro id' hid
    obtain ⟨r, hr, hid, htopic, hpublished⟩ := h.returned id' hid
    obtain ⟨r', hr', hmsg, -, hkeep⟩ := markPublished_keeps hr id
    exact ⟨r', hr', hmsg ▸ hid, hmsg ▸ htopic, hkeep hpublished⟩
  case cursor =>
    intro id' hid
    obtain ⟨r, hr, hid⟩ := h.cursor id' hid
    obtain ⟨r', hr', hmsg, -, -⟩ := markPublished_keeps hr id
    exact ⟨r', hr', hmsg ▸ hid⟩

/-- A scheduled message may become visible behind the cursor only. -/
theorem separates_markPublished_iff
    (h : WellFormed topic s)
    (hsep : Separates topic s)
    {r : StoredMessage}
    (hr : r ∈ s.cache.rows)
    (hunpublished : r.published = false) :
    Separates topic
        { s with cache := s.cache.markPublished r.message.id }
      ↔
    (r.message.topic = topic → afterCursor s r = true) := by
  have hkeep : ∀ r₁ ∈ s.cache.rows,
      ∃ r' ∈ (s.cache.markPublished r.message.id).rows,
        r'.message.id = r₁.message.id ∧ r'.rowID = r₁.rowID := by
    intro r₁ hr₁
    obtain ⟨r', hr', hmsg, hrow, -⟩ := markPublished_keeps hr₁ r.message.id
    exact ⟨r', hr', congrArg Message.id hmsg, hrow⟩
  have hc := identified_markPublished h.identified r.message.id
  have hunseen : r.message.id ∉ s.returned := by
    intro hseen
    obtain ⟨r₁, hr₁, hid, -, hpublished⟩ := h.returned _ hseen
    rw [h.identified.eq_of_id_eq hr₁ hr hid, hunpublished] at hpublished
    cases hpublished
  have hmarked : { r with published := true } ∈
      (s.cache.markPublished r.message.id).rows :=
    MessageCache.mem_markPublished_iff.mpr ⟨r, hr, if_pos rfl⟩
  constructor
  · intro hsep' htopic
    have hafter := (hsep' _ hmarked htopic rfl).mpr hunseen
    rwa [afterCursor_congr h hc hkeep r { r with published := true } rfl]
      at hafter
  · intro hafter r' hr' htopic hpublished
    obtain ⟨r₁, hr₁, rfl⟩ := MessageCache.mem_markPublished_iff.mp hr'
    by_cases hid : r₁.message.id = r.message.id
    · have heq := h.identified.eq_of_id_eq hr₁ hr hid
      subst heq
      rw [if_pos rfl] at htopic ⊢
      rw [afterCursor_congr h hc hkeep r₁ { r₁ with published := true } rfl]
      exact iff_of_true (hafter htopic) hunseen
    · rw [if_neg hid] at htopic hpublished ⊢
      rw [afterCursor_congr h hc hkeep r₁ r₁ rfl]
      exact hsep r₁ hr₁ htopic hpublished

end MarkPublished

section Poll

/-- The row of the last message that a poll returns. -/
theorem exists_last
    (h : WellFormed topic s)
    {m : Message}
    (hlast : (pollResult topic s).getLast? = some m) :
    ∃ r ∈ s.cache.rows, fresh topic s r = true ∧ r.message = m ∧
      ∀ r' ∈ s.cache.rows, fresh topic s r' = true → r'.order ≤ r.order := by
  rw [pollResult_eq h, MessageCache.select, List.getLast?_map,
    Option.map_eq_some_iff] at hlast
  obtain ⟨r, hr, rfl⟩ := hlast
  obtain ⟨hmem, hbest⟩ := last_orderBy_best hr
  obtain ⟨hrow, hfresh⟩ := List.mem_filter.mp hmem
  refine ⟨r, hrow, hfresh, rfl, ?_⟩
  intro r' hr' hfresh'
  exact hbest r' (List.mem_filter.mpr ⟨hr', hfresh'⟩)

/-- The last message is the one inserted last when that one is also the newest. -/
theorem newestLast_iff
    {r : StoredMessage}
    (hr : r ∈ s.cache.rows)
    (hfresh : fresh topic s r = true)
    (hlast : ∀ r' ∈ s.cache.rows, fresh topic s r' = true →
      r'.order ≤ r.order) :
    NewestLast topic s
      ↔
    ∀ r' ∈ s.cache.rows, fresh topic s r' = true → r'.rowID ≤ r.rowID := by
  have hle : ∀ r' ∈ s.cache.rows, fresh topic s r' = true →
      r'.message.time < r.message.time ∨
        (r'.message.time = r.message.time ∧ r'.rowID ≤ r.rowID) :=
    fun r' hr' hf => Prod.Lex.toLex_le_toLex.mp (hlast r' hr' hf)
  constructor
  · intro hnewest r' hr' hfresh'
    obtain ⟨m, hm, hmax⟩ := exists_best StoredMessage.rowID
      (List.mem_filter.mpr ⟨hr, hfresh⟩)
    obtain ⟨hmrow, hmfresh⟩ := List.mem_filter.mp hm
    have hmax' : ∀ r₁ ∈ s.cache.rows, fresh topic s r₁ = true →
        r₁.rowID ≤ m.rowID :=
      fun r₁ hr₁ hf => hmax r₁ (List.mem_filter.mpr ⟨hr₁, hf⟩)
    have htime := hnewest m hmrow hmfresh hmax' r hr hfresh
    have hbound := hmax' r' hr' hfresh'
    rcases hle m hmrow hmfresh with hlt | ⟨-, hrow⟩
    · omega
    · omega
  · intro hall m hm hmfresh hmax r' hr' hfresh'
    have hsame : m = r := by
      have h₁ := hall m hm hmfresh
      have h₂ := hmax r hr hfresh
      exact MessageCache.eq_of_rowID_eq hm hr (by omega)
    rcases hle r' hr' hfresh' with hlt | ⟨heq, -⟩
    · rw [hsame]
      omega
    · rw [hsame, heq]

/-- A row is returned by a poll, or was before. -/
theorem mem_returned_afterPoll_iff
    (h : WellFormed topic s)
    {r : StoredMessage}
    (hr : r ∈ s.cache.rows) :
    r.message.id ∈ (afterPoll topic s).returned
      ↔
    r.message.id ∈ s.returned ∨ fresh topic s r = true := by
  simp only [afterPoll, List.mem_append, List.mem_map]
  refine or_congr_right ?_
  constructor
  · rintro ⟨m, hm, hid⟩
    obtain ⟨r', hr', hfresh, rfl⟩ := (mem_pollResult_iff h).mp hm
    rwa [← h.identified.eq_of_id_eq hr' hr hid]
  · intro hfresh
    exact ⟨r.message, (mem_pollResult_iff h).mpr ⟨r, hr, hfresh, rfl⟩, rfl⟩

theorem WellFormed.poll
    (h : WellFormed topic s) :
    WellFormed topic (afterPoll topic s) := by
  constructor
  case identified =>
    exact h.identified
  case returned =>
    intro id hid
    rcases List.mem_append.mp hid with hold | hnew
    · exact h.returned id hold
    · obtain ⟨m, hm, rfl⟩ := List.mem_map.mp hnew
      obtain ⟨r, hr, hfresh, rfl⟩ := (mem_pollResult_iff h).mp hm
      obtain ⟨htopic, -, hpublished⟩ := fresh_iff.mp hfresh
      exact ⟨r, hr, rfl, htopic, hpublished⟩
  case cursor =>
    intro id hid
    cases hlast : (pollResult topic s).getLast? with
    | none =>
        simp only [afterPoll, hlast, Option.map_none, Option.none_or] at hid
        exact h.cursor id hid
    | some m =>
        simp only [afterPoll, hlast, Option.map_some, Option.some_or,
          Option.some.injEq] at hid
        obtain ⟨r, hr, -, rfl, -⟩ := exists_last h hlast
        exact ⟨r, hr, hid⟩

/-- A poll leaves a separating cursor if its last message was inserted last. -/
theorem separates_afterPoll_iff
    (h : WellFormed topic s)
    (hsep : Separates topic s) :
    Separates topic (afterPoll topic s) ↔ NewestLast topic s := by
  cases hlast : (pollResult topic s).getLast? with
  | none =>
      have hempty := List.getLast?_eq_none_iff.mp hlast
      refine iff_of_true ?_ ?_
      · have hsame : afterPoll topic s = s := by
          simp [afterPoll, hempty]
        rw [hsame]
        exact hsep
      · intro r hr hfresh
        have := (mem_pollResult_iff h).mpr ⟨r, hr, hfresh, rfl⟩
        simp [hempty] at this
  | some m =>
      obtain ⟨r₀, hr₀, hfresh₀, rfl, hbest⟩ := exists_last h hlast
      have hafter : ∀ r, afterCursor (afterPoll topic s) r =
          decide (r₀.rowID < r.rowID) :=
        afterCursor_eq h.identified hr₀
          (by simp [afterPoll, hlast])
      rw [newestLast_iff hr₀ hfresh₀ hbest]
      constructor
      · intro hsep' r hr hfresh
        obtain ⟨htopic, -, hpublished⟩ := fresh_iff.mp hfresh
        have hiff := hsep' r hr htopic hpublished
        rw [hafter, mem_returned_afterPoll_iff h hr] at hiff
        simp only [decide_eq_true_eq, hfresh, or_true, not_true_eq_false,
          iff_false] at hiff
        omega
      · intro hall r hr htopic hpublished
        rw [hafter, mem_returned_afterPoll_iff h hr]
        simp only [decide_eq_true_eq]
        by_cases hfresh : fresh topic s r = true
        · have := hall r hr hfresh
          simp only [hfresh, or_true, not_true_eq_false, iff_false]
          omega
        · have hnot : ¬ afterCursor s r = true := fun hafter =>
            hfresh (fresh_iff.mpr ⟨htopic, hafter, hpublished⟩)
          have hseen : r.message.id ∈ s.returned := by
            by_contra hunseen
            exact hnot ((hsep r hr htopic hpublished).mpr hunseen)
          have hbehind : r.rowID < r₀.rowID := by
            cases hcursor : s.cursor with
            | none =>
                exact absurd (afterCursor_of_none hcursor r) hnot
            | some id =>
                obtain ⟨r₁, hr₁, rfl⟩ := h.cursor id hcursor
                have h₀ := (fresh_iff.mp hfresh₀).2.1
                rw [afterCursor_eq h.identified hr₁ hcursor] at h₀ hnot
                simp only [decide_eq_true_eq] at h₀ hnot
                omega
          simp only [hseen, true_or, not_true_eq_false, iff_false]
          omega

end Poll

section Runs

/-- One step, in order or not, keeps the state well formed. -/
theorem WellFormed.step
    {l : Label}
    (h : WellFormed topic s)
    (hstep : step topic s l = some s') :
    WellFormed topic s' := by
  cases l with
  | tick seconds =>
      cases hstep
      exact ⟨h.identified, h.returned, h.cursor⟩
  | add m =>
      obtain ⟨hvalid, hfresh, rfl⟩ := step_add hstep
      exact h.add hvalid hfresh
  | markPublished id =>
      simp only [Polling.step] at hstep
      split at hstep
      · cases hstep
        exact h.markPublished id
      · cases hstep
  | poll =>
      cases hstep
      exact h.poll

/-- One step keeps polls exact exactly when it is in order. -/
theorem pollExact_step_iff
    (h : WellFormed topic s)
    (hexact : PollExact topic s)
    (l : Label) :
    (∀ s', step topic s l = some s' → PollExact topic s')
      ↔
    InOrder topic s l := by
  have hsep := (pollExact_iff h).mp hexact
  cases l with
  | tick seconds =>
      refine iff_of_true ?_ trivial
      intro s' hstep
      cases hstep
      exact hexact
  | add m =>
      refine iff_of_true ?_ trivial
      intro s' hstep
      obtain ⟨hvalid, hfresh, rfl⟩ := step_add hstep
      exact (pollExact_iff (h.add hvalid hfresh)).mpr
        (hsep.add h hvalid hfresh)
  | markPublished id =>
      by_cases hdue : id ∈ (s.cache.messagesDue s.now).map Message.id
      · obtain ⟨m, hm, rfl⟩ := List.mem_map.mp hdue
        obtain ⟨r, hr, hready, rfl⟩ := MessageCache.mem_select_iff.mp hm
        simp only [Bool.and_eq_true, decide_eq_true_eq,
          Bool.not_eq_true'] at hready
        simp only [step, if_pos hdue, Option.some.injEq, forall_eq', InOrder]
        rw [pollExact_iff (h.markPublished _),
          separates_markPublished_iff h hsep hr hready.2]
        constructor
        · intro hafter r' hr' hid htopic _ _
          rw [h.identified.eq_of_id_eq hr' hr hid] at htopic ⊢
          exact hafter htopic
        · intro hall htopic
          exact hall r hr rfl htopic hready.2 hready.1
      · refine iff_of_true ?_ ?_
        · intro s' hstep
          simp only [step, if_neg hdue] at hstep
          cases hstep
        · rintro r hr rfl _ hunpublished htime
          refine absurd (List.mem_map_of_mem ?_) hdue
          refine MessageCache.mem_select_iff.mpr ⟨r, hr, ?_, rfl⟩
          simp [htime, hunpublished]
  | poll =>
      have hstep : step topic s .poll = some (afterPoll topic s) := rfl
      simp only [hstep, Option.some.injEq, forall_eq', InOrder]
      rw [pollExact_iff h.poll, separates_afterPoll_iff h hsep]

/-- A client that has not polled yet. -/
def initial
    (c : MessageCache)
    (now : Nat) : State where
  now
  cache := c
  cursor := none
  returned := []

/-- The first poll is exact. -/
theorem initial_pollExact
    {c : MessageCache}
    (h : Identified c)
    (now : Nat) :
    WellFormed topic (initial c now) ∧ PollExact topic (initial c now) := by
  have hwf : WellFormed topic (initial c now) := by
    constructor
    case identified =>
      exact h
    case returned =>
      simp [initial]
    case cursor =>
      simp [initial]
  refine ⟨hwf, (pollExact_iff hwf).mpr ?_⟩
  intro r _ _ _
  simp [afterCursor, initial]

/--
In every state of a run a poll returns exactly the published messages that no
poll returned before, if and only if every scheduled message becomes visible
behind the cursor and every poll returns the message inserted last at the end.
-/
theorem polls_exact_iff
    {c : MessageCache}
    (h : Identified c)
    (now : Nat) (ls : List Label) :
    Along (step topic)
        (fun s l => ∀ s', step topic s l = some s' → PollExact topic s')
        (initial c now) ls
      ↔
    Along (step topic) (InOrder topic) (initial c now) ls := by
  have hiff : ∀ s l, WellFormed topic s ∧ PollExact topic s →
      ((∀ s', step topic s l = some s' → PollExact topic s') ↔
        InOrder topic s l) :=
    fun s l hs => pollExact_step_iff hs.1 hs.2 l
  have hpres : ∀ s l s', WellFormed topic s ∧ PollExact topic s →
      (∀ s', step topic s l = some s' → PollExact topic s') →
      step topic s l = some s' → WellFormed topic s' ∧ PollExact topic s' :=
    fun s l s' hs hexact hstep => ⟨hs.1.step hstep, hexact s' hstep⟩
  exact Along.congr_of_invariant hiff hpres (initial_pollExact h now)

theorem identified_empty :
    Identified .empty := by
  simp [Identified, MessageCache.empty]

/-- A message to the topic `news`. -/
def exampleMessage
    (id : String)
    (time : Nat) : Message :=
  newDefaultMessage id time "news" "hello"

/-- A message that becomes due before the next poll is returned by it. -/
theorem due_message_polled :
    Along (step "news")
      (fun s l => ∀ s', step "news" s l = some s' → PollExact "news" s')
      (initial .empty 0)
      [.add (exampleMessage "aaaaaaaaaaaa" 0), .poll,
        .add (exampleMessage "bbbbbbbbbbbb" 10), .tick 10,
        .markPublished "bbbbbbbbbbbb", .poll] :=
  (polls_exact_iff identified_empty 0 _).mpr (by decide)

/--
A message scheduled before another one is stored is not returned once it is due;
and of two messages stored in the wrong order one is returned twice.
-/
theorem polls_not_exact :
    (run (step "news") (initial .empty 0)
      [.add (exampleMessage "aaaaaaaaaaaa" 10),
        .add (exampleMessage "bbbbbbbbbbbb" 0), .poll, .tick 10,
        .markPublished "aaaaaaaaaaaa", .poll]).map
      (fun s => (s.cache.rows.map StoredMessage.published, s.returned)) =
      some ([true, true], ["bbbbbbbbbbbb"]) ∧
    (run (step "news") (initial .empty 1)
      [.add (exampleMessage "aaaaaaaaaaaa" 1),
        .add (exampleMessage "bbbbbbbbbbbb" 0), .poll, .poll]).map
      State.returned =
      some ["bbbbbbbbbbbb", "aaaaaaaaaaaa", "bbbbbbbbbbbb"] := by
  decide

end Runs

end Invariants

end Polling

end Server
end CoopMessenger
