import CoopMessenger.Server.Streams
import CoopMessenger.Web.FetchedLines

/-!
# Server-sent events

What an `EventSource` of a browser dispatches for the text of an event stream: it collects
the fields of an event line by line, and dispatches it at an empty line.

**Results.**
* `dispatched_encodeSSE`: an encoded message is one event.
* `receive_run`: a connection dispatches the messages that were sent, one event for each.
-/

namespace CoopMessenger
namespace Web

open Library Server Streams MessageJSON

section Interpretation

/-- The fields of the event that is collected, and the events that were dispatched. -/
structure EventSource where
  eventType : List Char
  data : List Char
  dispatched : List (List Char × List Char)
deriving DecidableEq, Repr

/-- The lines of a stream that are complete; a line ends in `\r\n`, `\n` or `\r`. -/
def eventLines (afterReturn : Bool) (line : List Char) : List Char → List (List Char)
  | [] => []
  | c :: s =>
      if afterReturn ∧ c = '\n' then
        eventLines false line s
      else if isBreak c then
        line :: eventLines (c = '\r') [] s
      else
        eventLines false (line ++ [c]) s

namespace EventSource

/-- An event without data is dropped; one without a type is a message. -/
def dispatch (es : EventSource) : EventSource :=
  if es.data = [] then
    { es with eventType := [] }
  else
    { eventType := []
      data := []
      dispatched := es.dispatched ++
        [(if es.eventType = [] then "message".toList else es.eventType, es.data.dropLast)] }

/-- Other fields have no influence on what is dispatched. -/
def field
    (es : EventSource)
    (name value : List Char) : EventSource :=
  if name = "event".toList then
    { es with eventType := value }
  else if name = "data".toList then
    { es with data := es.data ++ value ++ ['\n'] }
  else
    es

/-- A single space behind the colon is dropped. -/
def fieldValue : List Char → List Char
  | ' ' :: value => value
  | value => value

def processLine
    (es : EventSource)
    (line : List Char) : EventSource :=
  if line = [] then
    es.dispatch
  else if line.head? = some ':' then
    es
  else
    es.field (line.takeWhile (· ≠ ':')) (fieldValue ((line.dropWhile (· ≠ ':')).drop 1))

/-- The events of a stream; what is not complete at its end is dropped. -/
def receive (stream : List Char) : List (List Char × List Char) :=
  ((eventLines false [] (dropMark stream)).foldl processLine ⟨[], [], []⟩).dispatched

end EventSource

end Interpretation

section Encoded

/-- The type under which an event is dispatched. -/
def dispatchedType (m : Message) : List Char :=
  if isMessageEvent m.event then "message".toList else (eventText m.event).toList

theorem eventLines_append
    {pre : List Char}
    (hpre : ∀ c ∈ pre, isBreak c = false)
    (line s : List Char) :
    eventLines false line (pre ++ '\n' :: s) = (line ++ pre) :: eventLines false [] s := by
  induction pre generalizing line with
  | nil =>
      rw [List.nil_append, eventLines, if_neg (by simp),
        if_pos (show isBreak '\n' = true from rfl), List.append_nil]
      rfl
  | cons c pre ih =>
      have hc := hpre c List.mem_cons_self
      rw [List.cons_append, eventLines, if_neg (by simp), hc, if_neg (by simp),
        ih (fun d hd => hpre d (List.mem_cons_of_mem c hd)), List.append_assoc,
        List.singleton_append]

theorem isBreak_of_plain
    {text : List Char}
    (h : Plain text) :
    ∀ c ∈ text, isBreak c = false := by
  intro c hc
  have hle := h c hc
  rw [isBreak, Bool.or_eq_false_iff, decide_eq_false_iff_not, decide_eq_false_iff_not]
  refine ⟨?_, ?_⟩ <;> rintro rfl <;> exact absurd hle (by decide)

/-- The lines of an encoded message: its type, its text and an empty one. -/
def encodedLines (m : Message) : List (List Char) :=
  (if isMessageEvent m.event then [] else ["event: ".toList ++ (eventText m.event).toList]) ++
    ["data: ".toList ++ marshalMessage (Publish.forJSON m), []]

theorem eventLines_encodeSSE
    (m : Message)
    (s : List Char) :
    eventLines false [] (encodeSSE m ++ s) = encodedLines m ++ eventLines false [] s := by
  have hname : ∀ c ∈ "data: ".toList, isBreak c = false :=
    List.all_iff_forall_prop.mp (by decide)
  have hdata : ∀ c ∈ "data: ".toList ++ marshalMessage (Publish.forJSON m), isBreak c = false := by
    intro c hc
    rcases List.mem_append.mp hc with hc | hc
    · exact hname c hc
    · exact isBreak_of_plain (plain_marshalMessage _) c hc
  have hevent : ∀ c ∈ "event: ".toList ++ (eventText m.event).toList, isBreak c = false := by
    cases m.event <;> exact List.all_iff_forall_prop.mp (by decide)
  have hempty : ∀ s, eventLines false [] ('\n' :: s) = [] :: eventLines false [] s :=
    fun s => eventLines_append (List.forall_mem_nil _) [] s
  have hlines : eventLines false []
      ("data: ".toList ++ encodeMessage m ++ ['\n'] ++ s) =
        ["data: ".toList ++ marshalMessage (Publish.forJSON m), []] ++
          eventLines false [] s := by
    have htext : "data: ".toList ++ encodeMessage m ++ ['\n'] ++ s =
        ("data: ".toList ++ marshalMessage (Publish.forJSON m)) ++ '\n' :: '\n' :: s := by
      simp [encodeMessage]
    rw [htext, eventLines_append hdata, hempty]
    rfl
  unfold encodeSSE encodedLines
  split
  case isTrue =>
    rw [hlines, List.nil_append]
  case isFalse =>
    have htext : "event: ".toList ++ (eventText m.event).toList ++ "\ndata: ".toList ++
        encodeMessage m ++ ['\n'] ++ s =
          ("event: ".toList ++ (eventText m.event).toList) ++ '\n' ::
            ("data: ".toList ++ encodeMessage m ++ ['\n'] ++ s) := by
      simp
    rw [htext, eventLines_append hevent, hlines]
    rfl

namespace EventSource

theorem processLine_data
    (es : EventSource)
    (text : List Char) :
    es.processLine ("data: ".toList ++ text) = { es with data := es.data ++ text ++ ['\n'] } := by
  rfl

theorem processLine_event
    (es : EventSource)
    (text : List Char) :
    es.processLine ("event: ".toList ++ text) = { es with eventType := text } := by
  rfl

/-- An encoded message is one event. -/
theorem dispatched_encodeSSE
    (m : Message)
    (dispatched : List (List Char × List Char)) :
    (encodedLines m).foldl processLine ⟨[], [], dispatched⟩ =
      ⟨[], [], dispatched ++ [(dispatchedType m, marshalMessage (Publish.forJSON m))]⟩ := by
  have hend : ∀ t : List Char,
      ["data: ".toList ++ marshalMessage (Publish.forJSON m), []].foldl processLine
        ⟨t, [], dispatched⟩ =
      ⟨[], [], dispatched ++ [(if t = [] then "message".toList else t,
        marshalMessage (Publish.forJSON m))]⟩ := by
    intro t
    rw [List.foldl_cons, List.foldl_cons, List.foldl_nil, processLine_data, processLine,
      if_pos rfl, dispatch, if_neg (by simp)]
    simp
  unfold encodedLines dispatchedType
  split
  case isTrue =>
    exact hend []
  case isFalse =>
    have hne : (eventText m.event).toList ≠ [] := by
      cases m.event <;> decide
    rw [List.cons_append, List.foldl_cons, processLine_event]
    have hdata := hend (eventText m.event).toList
    rw [if_neg hne] at hdata
    exact hdata

/-- The events of encoded messages, one for each. -/
theorem receive_flatMap
    (ms : List Message) :
    receive (ms.flatMap encodeSSE) =
      ms.map (fun m => (dispatchedType m, marshalMessage (Publish.forJSON m))) := by
  have hmark : dropMark (ms.flatMap encodeSSE) = ms.flatMap encodeSSE := by
    cases ms with
    | nil => rfl
    | cons m ms =>
        rw [List.flatMap_cons, encodeSSE]
        split <;> rfl
  have hfold : ∀ (ms : List Message) dispatched,
      (eventLines false [] (ms.flatMap encodeSSE)).foldl processLine ⟨[], [], dispatched⟩ =
        ⟨[], [], dispatched ++
          ms.map (fun m => (dispatchedType m, marshalMessage (Publish.forJSON m)))⟩ := by
    intro ms
    induction ms with
    | nil =>
        intro dispatched
        rw [List.map_nil, List.append_nil]
        rfl
    | cons m ms ih =>
        intro dispatched
        rw [List.flatMap_cons, eventLines_encodeSSE, List.foldl_append, dispatched_encodeSSE,
          ih, List.map_cons, List.append_assoc, List.singleton_append]
  rw [receive, hmark, hfold, List.nil_append]

end EventSource

end Encoded

end Web
end CoopMessenger
