import CoopMessenger.Server.MessageValues
import CoopMessenger.Server.OldMessages

/-!
# Streams of messages

The HTTP streams of `server/server.go`: a filter, an encoder for each format, and the
writer of a connection, which writes nothing once the connection is closed.

**Results.**
* `priorities_parseQueryFilters`: a filter only has priorities that exist.
* `written_run`: what a connection has written after any calls.
* `written_poll`: what a poll has written.
* `splitLines_raw`: a raw stream has one line for each event, whatever the messages say.
-/

namespace CoopMessenger
namespace Server
namespace Streams

open Library Util Publish MessageJSON

section Filters

structure QueryFilter where
  id : String
  message : String
  title : String
  tags : List String
  priority : List Nat
deriving DecidableEq, Repr

/-- The filter of a request without parameters. -/
def noFilters : QueryFilter :=
  ⟨"", "", "", [], []⟩

def parseQueryFilters
    (P : Parsers)
    (req : Request) : Except ErrHTTP QueryFilter :=
  match (splitNoEmpty (readParam P req ["x-priority", "priority", "prio", "p"]) ',').mapM
      parsePriority with
  | none => .error errHTTPBadRequestPriorityInvalid
  | some priority =>
      .ok {
        id := readParam P req ["x-id", "id"]
        message := readParam P req ["x-message", "message", "m"]
        title := readParam P req ["x-title", "title", "t"]
        tags := splitNoEmpty (readParam P req ["x-tags", "tags", "tag", "ta"]) ','
        priority }

/-- The events that filters apply to. -/
def isMessageEvent : Event → Bool
  | .message | .messageDelete | .messageClear => true
  | _ => false

/-- The default priority is the same as none. -/
def filteredPriority (m : Message) : Nat :=
  if m.priority = 0 then 3 else m.priority

namespace QueryFilter

def pass
    (q : QueryFilter)
    (m : Message) : Bool :=
  if isMessageEvent m.event = false then
    true
  else if q.id ≠ "" ∧ m.id ≠ q.id then
    false
  else if q.message ≠ "" ∧ m.message ≠ q.message then
    false
  else if q.title ≠ "" ∧ m.title ≠ q.title then
    false
  else if q.priority ≠ [] ∧ filteredPriority m ∉ q.priority then
    false
  else if q.tags ≠ [] ∧ ¬ ∀ tag ∈ q.tags, tag ∈ m.tags then
    false
  else
    true

end QueryFilter

/-- A list is mapped if every item of it is. -/
theorem mapM_eq_some_iff
    {α β : Type}
    {f : α → Option β}
    {l : List α} {l' : List β} :
    l.mapM f = some l' ↔ List.Forall₂ (fun a b => f a = some b) l l' := by
  induction l generalizing l' with
  | nil =>
      rw [List.mapM_nil, List.forall₂_nil_left_iff]
      exact ⟨fun h => (Option.some.inj h).symm, fun h => h ▸ rfl⟩
  | cons a l ih =>
      rw [List.mapM_cons, List.forall₂_cons_left_iff]
      constructor
      · intro h
        obtain ⟨b, hb, hrest⟩ := Option.bind_eq_some_iff.mp h
        obtain ⟨l'', hl'', heq⟩ := Option.bind_eq_some_iff.mp hrest
        exact ⟨b, l'', hb, ih.mp hl'', (Option.some.inj heq).symm⟩
      · rintro ⟨b, l'', hb, hl'', rfl⟩
        rw [hb, ih.mpr hl'']
        rfl

theorem le_of_parsePriority
    {s : String} {priority : Nat}
    (h : parsePriority s = some priority) :
    priority ≤ 5 := by
  unfold parsePriority at h
  split at h <;> first | (cases h; decide) | cases h

/-- The priorities of a filter exist. -/
theorem priorities_parseQueryFilters
    {P : Parsers} {req : Request} {q : QueryFilter}
    (h : parseQueryFilters P req = .ok q) :
    ∀ priority ∈ q.priority, priority ≤ 5 := by
  have hall : ∀ {texts : List String} {priorities : List Nat},
      List.Forall₂ (fun s k => parsePriority s = some k) texts priorities →
      ∀ k ∈ priorities, k ≤ 5 := by
    intro texts priorities hparse
    induction hparse with
    | nil =>
        exact fun k hk => absurd hk List.not_mem_nil
    | cons hs _ ih =>
        intro k hk
        rcases List.mem_cons.mp hk with rfl | hk
        · exact le_of_parsePriority hs
        · exact ih k hk
  unfold parseQueryFilters at h
  split at h
  case h_1 =>
    cases h
  case h_2 _ priority hpriority =>
    have hq := congrArg QueryFilter.priority (Except.ok.inj h)
    rw [← hq]
    exact hall (mapM_eq_some_iff.mp hpriority)

end Filters

section Encoders

/-- The text that `json.Encoder` writes, a line of its own. -/
def encodeMessage (m : Message) : List Char :=
  marshalMessage (forJSON m) ++ ['\n']

/-- The encoder of `handleSubscribeJSON` -/
def encodeJSON (m : Message) : List Char :=
  encodeMessage m

/-- The encoder of `handleSubscribeSSE`; browsers only call `onmessage` without a type. -/
def encodeSSE (m : Message) : List Char :=
  if isMessageEvent m.event then
    "data: ".toList ++ encodeMessage m ++ ['\n']
  else
    "event: ".toList ++ (eventText m.event).toList ++ "\ndata: ".toList ++ encodeMessage m ++
      ['\n']

/-- The encoder of `handleSubscribeRaw`; other events just send an empty line. -/
def encodeRaw (m : Message) : List Char :=
  if m.event = .message then
    m.message.toList.map (fun c => if c = '\n' then ' ' else c) ++ ['\n']
  else
    ['\n']

end Encoders

section Connections

/-- What was written to a connection, and whether its handler has returned. -/
structure Stream where
  written : List Char
  closed : Bool
deriving DecidableEq, Repr

def Stream.opened : Stream :=
  ⟨[], false⟩

/-- Calls that arrive at a connection, one after the other. -/
inductive Call where
  | send (m : Message)
  | close

variable (encoder : Message → List Char)
variable (q : QueryFilter)

/-- `sub` of `handleSubscribeHTTP`: after the handler has returned it does nothing. -/
def sub
    (s : Stream)
    (m : Message) : Stream :=
  if q.pass m = false then
    s
  else if s.closed then
    s
  else
    { s with written := s.written ++ encoder m }

def step
    (s : Stream) : Call → Stream
  | .send m => sub encoder q s m
  | .close => { s with closed := true }

def run
    (s : Stream)
    (calls : List Call) : Stream :=
  calls.foldl (step encoder q) s

/-- The messages that are sent before the connection is closed. -/
def sent : List Call → List Message
  | [] => []
  | .close :: _ => []
  | .send m :: calls => m :: sent calls

/-- What is closed does not change. -/
theorem written_run_of_closed
    {s : Stream}
    (hs : s.closed = true)
    (calls : List Call) :
    (run encoder q s calls).written = s.written := by
  induction calls generalizing s with
  | nil =>
      rfl
  | cons call calls ih =>
      have hstep : (step encoder q s call).closed = true ∧
          (step encoder q s call).written = s.written := by
        cases call with
        | send m =>
            rw [step, sub, hs, if_pos rfl, ite_self]
            exact ⟨hs, rfl⟩
        | close =>
            exact ⟨rfl, rfl⟩
      rw [run, List.foldl_cons, ← run, ih hstep.1, hstep.2]

/-- The messages that pass, each encoded, up to the end of the connection. -/
theorem written_run
    {s : Stream}
    (hs : s.closed = false)
    (calls : List Call) :
    (run encoder q s calls).written =
      s.written ++ ((sent calls).filter q.pass).flatMap encoder := by
  induction calls generalizing s with
  | nil =>
      rw [sent, List.filter_nil, List.flatMap_nil, List.append_nil]
      rfl
  | cons call calls ih =>
      rw [run, List.foldl_cons, ← run]
      cases call with
      | close =>
          rw [written_run_of_closed encoder q (s := step encoder q s .close) rfl, sent,
            List.filter_nil, List.flatMap_nil, List.append_nil]
          rfl
      | send m =>
          rw [step, sub, sent]
          cases hpass : q.pass m with
          | false =>
              rw [if_pos rfl, ih hs, List.filter_cons_of_neg (by simp [hpass])]
          | true =>
              rw [if_neg (by simp), hs, if_neg (by simp), ih rfl,
                List.filter_cons_of_pos hpass, List.flatMap_cons, List.append_assoc]

/-- The response to a poll, with whatever the cache gives. -/
def pollResponse
    (slice : AscOrder Message.time)
    (c : MessageCache)
    (topics : List String)
    (since : SinceMarker)
    (scheduled : Bool) : Except ErrHTTP Stream :=
  OldMessages.sendOldMessages slice c topics since scheduled
    (fun s m => .ok (sub encoder q s m)) .opened

theorem sent_map_send
    (ms : List Message) :
    sent (ms.map .send) = ms := by
  induction ms with
  | nil =>
      rfl
  | cons m ms ih =>
      rw [List.map_cons, sent, ih]

theorem foldlM_sub
    (ms : List Message)
    (s : Stream) :
    ms.foldlM (fun s m => (.ok (sub encoder q s m) : Except ErrHTTP Stream)) s =
      .ok (run encoder q s (ms.map .send)) := by
  induction ms generalizing s with
  | nil =>
      rfl
  | cons m ms ih =>
      exact ih (sub encoder q s m)

/-- A poll writes the messages that are passed to it. -/
theorem written_poll
    (slice : AscOrder Message.time)
    (c : MessageCache)
    (topics : List String)
    (since : SinceMarker)
    (scheduled : Bool) :
    ∃ s ms, pollResponse encoder q slice c topics since scheduled = .ok s ∧
      OldMessages.passed slice c topics since scheduled = .ok ms ∧
      s.written = (ms.filter q.pass).flatMap encoder := by
  have hms : OldMessages.passed slice c topics since scheduled =
      .ok (slice.sort (OldMessages.queried c topics since scheduled)) :=
    OldMessages.passed_eq slice
  refine ⟨_, _, (OldMessages.sendOldMessages_eq slice _ _ hms).trans (foldlM_sub encoder q _ _),
    hms, ?_⟩
  rw [written_run encoder q rfl, sent_map_send]
  rfl

/-- What a poll finds is in the cache. -/
theorem exists_row_of_mem_passed
    {slice : AscOrder Message.time}
    {c : MessageCache}
    {topics : List String}
    {since : SinceMarker}
    {scheduled : Bool}
    {ms : List Message}
    (h : OldMessages.passed slice c topics since scheduled = .ok ms)
    {m : Message}
    (hm : m ∈ ms) :
    ∃ r ∈ c.rows, r.message = m := by
  have hselect : ∀ p : StoredMessage → Bool, m ∈ c.select p → ∃ r ∈ c.rows, r.message = m := by
    intro p hp
    obtain ⟨r, hr, -, heq⟩ := MessageCache.mem_select_iff.mp hp
    exact ⟨r, hr, heq⟩
  rw [OldMessages.passed_eq, Except.ok.injEq] at h
  subst h
  obtain ⟨topic, -, hmem⟩ := List.mem_flatMap.mp ((slice.perm _).mem_iff.mp hm)
  unfold MessageCache.messages at hmem
  split at hmem
  · cases hmem
  · split at hmem
    · obtain ⟨r, hr, heq⟩ := Option.map_eq_some_iff.mp (Option.mem_toList.mp hmem)
      exact ⟨r, (List.mem_filter.mp (top_best hr).1).1, heq⟩
    · split at hmem
      · unfold MessageCache.messagesSinceID at hmem
        split at hmem <;> exact hselect _ hmem
      · exact hselect _ hmem

end Connections

section Raw

/-- The lines of a text, each ended by a line feed. -/
def splitLines (line : List Char) : List Char → List (List Char)
  | [] => []
  | c :: s => if c = '\n' then line :: splitLines [] s else splitLines (line ++ [c]) s

theorem splitLines_append
    {pre : List Char}
    (hpre : '\n' ∉ pre)
    (line s : List Char) :
    splitLines line (pre ++ '\n' :: s) = (line ++ pre) :: splitLines [] s := by
  induction pre generalizing line with
  | nil =>
      rw [List.nil_append, splitLines, if_pos rfl, List.append_nil]
  | cons c pre ih =>
      have hc : c ≠ '\n' := fun h => hpre (h ▸ List.mem_cons_self)
      have hrest : '\n' ∉ pre := fun h => hpre (List.mem_cons_of_mem c h)
      rw [List.cons_append, splitLines, if_neg hc, ih hrest, List.append_assoc,
        List.singleton_append]

/-- The line of an event. -/
def rawLine (m : Message) : List Char :=
  if m.event = .message then
    m.message.toList.map (fun c => if c = '\n' then ' ' else c)
  else
    []

/-- A raw stream has one line for each event, whatever the messages say. -/
theorem splitLines_raw
    (q : QueryFilter)
    (calls : List Call) :
    splitLines [] (run encodeRaw q .opened calls).written =
      ((sent calls).filter q.pass).map rawLine := by
  have hline : ∀ m, encodeRaw m = rawLine m ++ ['\n'] ∧ '\n' ∉ rawLine m := by
    intro m
    unfold encodeRaw rawLine
    split
    · refine ⟨rfl, fun hmem => ?_⟩
      obtain ⟨c, -, hc⟩ := List.mem_map.mp hmem
      split at hc
      · exact absurd hc (by decide)
      · next hne => exact hne hc
    · exact ⟨rfl, List.not_mem_nil⟩
  rw [written_run encodeRaw q rfl, show Stream.opened.written = [] from rfl, List.nil_append]
  induction (sent calls).filter q.pass with
  | nil =>
      rfl
  | cons m ms ih =>
      obtain ⟨heq, hplain⟩ := hline m
      rw [List.flatMap_cons, heq, List.append_assoc, List.singleton_append,
        splitLines_append hplain, ih, List.nil_append, List.map_cons]

end Raw

end Streams
end Server
end CoopMessenger
