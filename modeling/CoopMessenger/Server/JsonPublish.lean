import CoopMessenger.Server.MessageJSON
import CoopMessenger.Server.Parameters
import Mathlib.Tactic.IntervalCases

/-!
# Publishing as JSON

`transformBodyJSON` of `server/server.go`: the fields of a JSON body become headers,
from which `parsePublishParams` then builds the message.  Headers are decoded as
MIME words and trimmed, and tags are split at commas.

**Results.**
* `parsePriority_toString`: a priority is read back as it is.
* `transformBodyJSON_faithful`: the message has the fields of the JSON body, unless
  a tag is blank or has a comma, or a value has MIME words.
-/

namespace CoopMessenger
namespace Server

open Library Manager Util

namespace Actions

/-- The parser as the publish handler sees it; a nil pointer fails the request. -/
def toParser
    (E : Environment)
    (s : String) : Except String (List Action) :=
  match parseActions E (bytesOf s) with
  | .ok actions => .ok actions
  | .error (.error e) => .error e
  | .error .nilPointer =>
      .error "runtime error: invalid memory address or nil pointer dereference"

end Actions

namespace Publish

section Body

/-- What a JSON body may contain. -/
structure PublishMessage where
  topic : String
  sequenceID : String
  title : String
  message : String
  priority : Int
  tags : Slice String
  click : String
  icon : String
  actions : Slice Action
  attach : String
  markdown : Bool
  filename : String
  email : String
  call : String
  cache : String
  firebase : String
  delay : String
  replyTo : String

def emptyPublishMessage : PublishMessage where
  topic := ""
  sequenceID := ""
  title := ""
  message := ""
  priority := 0
  tags := .empty
  click := ""
  icon := ""
  actions := .empty
  attach := ""
  markdown := false
  filename := ""
  email := ""
  call := ""
  cache := ""
  firebase := ""
  delay := ""
  replyTo := ""

def publishFields : List String :=
  ["topic", "sequence_id", "title", "message", "priority", "tags", "click", "icon",
    "actions", "attach", "markdown", "filename", "email", "call", "cache",
    "firebase", "delay", "reply_to"]

def setPublishField
    (p : PublishMessage)
    (name : String)
    (j : Json) : Option PublishMessage :=
  match name with
  | "topic" => (decodeString p.topic j).map fun topic => { p with topic }
  | "sequence_id" =>
      (decodeString p.sequenceID j).map fun sequenceID => { p with sequenceID }
  | "title" => (decodeString p.title j).map fun title => { p with title }
  | "message" => (decodeString p.message j).map fun message => { p with message }
  | "priority" => (decodeInt p.priority j).map fun priority => { p with priority }
  | "tags" => (decodeSlice decodeString "" p.tags j).map fun tags => { p with tags }
  | "click" => (decodeString p.click j).map fun click => { p with click }
  | "icon" => (decodeString p.icon j).map fun icon => { p with icon }
  | "actions" =>
      (decodeSlice Actions.decodeAction Actions.newAction p.actions j).map
        fun actions => { p with actions }
  | "attach" => (decodeString p.attach j).map fun attach => { p with attach }
  | "markdown" => (decodeBool p.markdown j).map fun markdown => { p with markdown }
  | "filename" => (decodeString p.filename j).map fun filename => { p with filename }
  | "email" => (decodeString p.email j).map fun email => { p with email }
  | "call" => (decodeString p.call j).map fun call => { p with call }
  | "cache" => (decodeString p.cache j).map fun cache => { p with cache }
  | "firebase" => (decodeString p.firebase j).map fun firebase => { p with firebase }
  | "delay" => (decodeString p.delay j).map fun delay => { p with delay }
  | "reply_to" => (decodeString p.replyTo j).map fun replyTo => { p with replyTo }
  | _ => some p

def decodePublishMessage : Json → Option PublishMessage
  | .obj members =>
      decodeFields publishFields setPublishField emptyPublishMessage members
  | .null => some emptyPublishMessage
  | _ => none

/-- Decodes the first value of a body that is shorter than the limit. -/
def readJSONWithLimit
    (limit : Nat)
    (body : List UInt8) : Except ErrHTTP PublishMessage :=
  if limit ≤ body.length then
    .error errHTTPEntityTooLargeJSONBody
  else
    match (Json.parseFirst (replaceInvalid (runes body))).bind
        decodePublishMessage with
    | some p => .ok p
    | none => .error errHTTPBadRequestJSONInvalid

end Body

section Headers

/-- `r.Header.Set` -/
def Request.setHeader
    (req : Request)
    (name value : String) : Request :=
  { req with
    header := fun n => if lower n = lower name then value else req.header n }

/-- Sets the headers that have a value. -/
def Request.setHeaders
    (req : Request)
    (headers : List (String × Option String)) : Request :=
  headers.foldl
    (fun req h =>
      match h.2 with
      | some value => req.setHeader h.1 value
      | none => req) req

/-- A text that is not set if it is empty. -/
def nonEmpty (value : String) : Option String :=
  if value = "" then none else some value

def priorityText (priority : Int) : Option String :=
  if priority = 0 then none else some (toString priority)

/-- `strings.Join` with commas. -/
def joinTags (tags : List String) : String :=
  String.ofList ([','].intercalate (tags.map String.toList))

def tagsText (tags : List String) : Option String :=
  if tags = [] then none else some (joinTags tags)

def actionsText (actions : List Action) : Option String :=
  if actions = [] then
    none
  else
    some (String.ofList (Actions.marshalActions actions))

/-- The headers that stand for the fields. -/
def publishHeaders (p : PublishMessage) : List (String × Option String) :=
  [("X-Title", nonEmpty p.title),
    ("X-Priority", priorityText p.priority),
    ("X-Tags", tagsText p.tags.items),
    ("X-Attach", nonEmpty p.attach),
    ("X-Filename", nonEmpty p.filename),
    ("X-Click", nonEmpty p.click),
    ("X-Icon", nonEmpty p.icon),
    ("X-Markdown", if p.markdown then some "yes" else none),
    ("X-Actions", actionsText p.actions.items),
    ("X-Email", nonEmpty p.email),
    ("X-Delay", nonEmpty p.delay),
    ("X-Call", nonEmpty p.call),
    ("X-Cache", nonEmpty p.cache),
    ("X-Firebase", nonEmpty p.firebase),
    ("X-Sequence-ID", nonEmpty p.sequenceID),
    ("X-Reply-To", nonEmpty p.replyTo)]

/-- The request that publishes the fields of the body. -/
def publishRequest
    (p : PublishMessage)
    (req : Request) : Request :=
  { req with
    path := "/" ++ p.topic
    body := bytesOf (if p.message = "" then emptyMessageBody else p.message)
  }.setHeaders (publishHeaders p)

def transformBodyJSON
    (cfg : Config)
    (req : Request) : Except ErrHTTP Request :=
  match readJSONWithLimit (cfg.messageSizeLimit * 2) req.body with
  | .error e => .error e
  | .ok p =>
      if allowedTopic p.topic then
        .ok (publishRequest p req)
      else
        .error errHTTPBadRequestTopicInvalid

end Headers

section Lookups

variable {P : Parsers}
variable {p : PublishMessage}
variable {req : Request}
variable {n : String}

/-- A header that is not set has the value it had. -/
theorem header_setHeaders
    {headers : List (String × Option String)}
    (hnodup : (headers.map (fun h => lower h.1)).Nodup)
    (hn : lower n = n) :
    (req.setHeaders headers).header n =
      ((headers.map (fun h => (lower h.1, h.2))).lookup n).join.getD
        (req.header n) := by
  induction headers generalizing req with
  | nil =>
      rfl
  | cons h headers ih =>
      obtain ⟨hfirst, hrest⟩ := List.nodup_cons.mp hnodup
      have hstep : req.setHeaders (h :: headers) =
          (match h.2 with
            | some value => req.setHeader h.1 value
            | none => req).setHeaders headers := rfl
      rw [hstep, ih hrest, List.map_cons, List.lookup_cons]
      by_cases heq : n = lower h.1
      · have hnone : (headers.map (fun h => (lower h.1, h.2))).lookup n = none := by
          rw [List.lookup_eq_none_iff]
          intro q hq
          obtain ⟨g, hg, rfl⟩ := List.mem_map.mp hq
          simp only [bne_iff_ne, ne_eq, heq]
          exact fun heq => hfirst (List.mem_map.mpr ⟨g, hg, heq.symm⟩)
        rw [hnone, beq_iff_eq.mpr heq]
        cases h.2 with
        | none =>
            rfl
        | some value =>
            simp [Request.setHeader, ← heq, hn]
      · rw [beq_eq_false_iff_ne.mpr heq]
        cases h.2 with
        | none =>
            rfl
        | some value =>
            simp [Request.setHeader, hn, heq]

theorem setHeaders_frame
    (req : Request)
    (headers : List (String × Option String)) :
    (req.setHeaders headers).query = req.query ∧
      (req.setHeaders headers).path = req.path := by
  induction headers generalizing req with
  | nil =>
      exact ⟨rfl, rfl⟩
  | cons h headers ih =>
      rw [Request.setHeaders, List.foldl_cons, ← Request.setHeaders, (ih _).1,
        (ih _).2]
      split <;> exact ⟨rfl, rfl⟩

/-- The value of a header by its name in lower case. -/
def headerValue
    (p : PublishMessage)
    (n : String) : String :=
  ((publishHeaders p).map (fun h => (lower h.1, h.2))).lookup n |>.join.getD ""

theorem lower_publishHeaders
    (p : PublishMessage) :
    (publishHeaders p).map (fun h => (lower h.1, h.2)) =
      [("x-title", nonEmpty p.title),
        ("x-priority", priorityText p.priority),
        ("x-tags", tagsText p.tags.items),
        ("x-attach", nonEmpty p.attach),
        ("x-filename", nonEmpty p.filename),
        ("x-click", nonEmpty p.click),
        ("x-icon", nonEmpty p.icon),
        ("x-markdown", if p.markdown then some "yes" else none),
        ("x-actions", actionsText p.actions.items),
        ("x-email", nonEmpty p.email),
        ("x-delay", nonEmpty p.delay),
        ("x-call", nonEmpty p.call),
        ("x-cache", nonEmpty p.cache),
        ("x-firebase", nonEmpty p.firebase),
        ("x-sequence-id", nonEmpty p.sequenceID),
        ("x-reply-to", nonEmpty p.replyTo)] := by
  simp only [publishHeaders, List.map_cons, List.map_nil, List.cons.injEq,
    Prod.mk.injEq, and_true]
  decide

theorem header_publishRequest
    (hheader : ∀ n, req.header n = "")
    (hn : lower n = n) :
    (publishRequest p req).header n = headerValue p n := by
  have hnodup : ((publishHeaders p).map (fun h => lower h.1)).Nodup := by
    have hnames : (publishHeaders p).map (fun h => lower h.1) =
        ((publishHeaders p).map (fun h => (lower h.1, h.2))).map Prod.fst := by
      rw [List.map_map]
      rfl
    rw [hnames, lower_publishHeaders]
    simp
  rw [publishRequest, header_setHeaders hnodup hn]
  simp only [hheader, headerValue]

/-- What a header with the value is read as. -/
def readAs
    (P : Parsers)
    (value : String) : String :=
  trim ((P.decodeHeader value).getD value)

/-- A parameter is read from the only header that may be set. -/
theorem readParam_publishRequest
    (hdecode : P.decodeHeader "" = some "")
    (hheader : ∀ n, req.header n = "")
    (hquery : ∀ n, req.query n = "")
    {others : List String}
    (hlower : ∀ name ∈ n :: others, lower name = name)
    (hn : n ≠ "priority")
    (hothers : ∀ name ∈ others, headerValue p name = "") :
    readParam P (publishRequest p req) (n :: others) =
      readAs P (headerValue p n) := by
  have hfirst : trim (maybeDecodeHeader P n ((publishRequest p req).header n)) =
      readAs P (headerValue p n) := by
    rw [header_publishRequest hheader (hlower n List.mem_cons_self),
      maybeDecodeHeader, maybeIgnoreSpecialHeader,
      hlower n List.mem_cons_self, if_neg fun h => hn h.1, readAs]
  have hrest : (others.map (fun name =>
      trim (maybeDecodeHeader P name ((publishRequest p req).header name)))).find?
        (fun value => decide (value ≠ "")) = none := by
    rw [List.find?_eq_none]
    intro value hvalue
    obtain ⟨name, hname, rfl⟩ := List.mem_map.mp hvalue
    have hempty : maybeDecodeHeader P name "" = "" := by
      simp [maybeDecodeHeader, maybeIgnoreSpecialHeader, hdecode]
    rw [header_publishRequest hheader (hlower name (List.mem_cons_of_mem _ hname)),
      hothers name hname, hempty]
    simp
  have hnoquery : ∀ names, readQueryParam (publishRequest p req) names = "" := by
    intro names
    have hnone : (names.map (fun name =>
        (publishRequest p req).query (lower name))).find?
          (fun value => decide (value ≠ "")) = none := by
      rw [List.find?_eq_none]
      intro value hvalue
      obtain ⟨name, -, rfl⟩ := List.mem_map.mp hvalue
      simp [publishRequest, (setHeaders_frame _ _).1, hquery]
    rw [readQueryParam, hnone]
    rfl
  rw [readParam, readHeaderParam, List.map_cons, hfirst, List.find?_cons, hrest,
    hnoquery]
  by_cases hvalue : readAs P (headerValue p n) = ""
  · simp [hvalue]
  · simp [hvalue]

end Lookups

section Priorities

/-- The text of a number has digits and a sign only. -/
theorem mem_toString
    {n : Int} {c : Char}
    (hc : c ∈ (toString n).toList) :
    c.isDigit = true ∨ c = '-' := by
  cases n with
  | ofNat m =>
      left
      have hmem : c ∈ Nat.toDigits 10 m := by
        simpa [Int.repr] using hc
      exact Nat.isDigit_of_mem_toDigits (by decide) (by decide) hmem
  | negSucc m =>
      have hmem : c = '-' ∨ c ∈ Nat.toDigits 10 (m + 1) := by
        simpa [Int.repr, String.toList_append] using hc
      rcases hmem with hsign | hmem
      · exact Or.inr hsign
      · exact Or.inl (Nat.isDigit_of_mem_toDigits (by decide) (by decide) hmem)

theorem eq_of_toString_eq
    {n : Int} {digits : List Char}
    (h : (toString n).toList = digits)
    (hsign : digits.head? ≠ some '-') :
    n = (Nat.ofDigitChars 10 digits 0 : Nat) := by
  cases n with
  | ofNat m =>
      have hdigits : Nat.toDigits 10 m = digits := by
        simpa [Int.repr] using h
      rw [← hdigits, Nat.ofDigitChars_ten_toDigits]
      rfl
  | negSucc m =>
      rw [← h] at hsign
      simp [Int.repr, String.toList_append] at hsign
theorem plain_of_isDigit
    {c : Char}
    (hc : c.isDigit = true ∨ c = '-') :
    isSpace c = false ∧ toLower c = c ∧ c ≠ '=' := by
  rcases hc with hc | rfl
  · have hbounds : 48 ≤ c.toNat ∧ c.toNat ≤ 57 := by
      simpa [Char.isDigit, UInt32.le_iff_toNat_le] using hc
    obtain ⟨n, hn⟩ : ∃ n, c.toNat = n := ⟨_, rfl⟩
    have hchar : c = Char.ofNat n := by
      rw [← hn, Char.ofNat_toNat]
    rw [hn] at hbounds
    obtain ⟨hlow, hhigh⟩ := hbounds
    subst hchar
    clear hn hc
    interval_cases n <;> decide
  · decide

/-- The priority that the text of a number denotes is the number. -/
theorem parsePriority_toString
    {n : Int} {k : Nat}
    (hn : n ≠ 0)
    (h : parsePriority (trim (toString n)) = some k) :
    (k : Int) = n := by
  have hplain : ∀ c ∈ (toString n).toList,
      isSpace c = false ∧ toLower c = c ∧ c ≠ '=' :=
    fun c hc => plain_of_isDigit (mem_toString hc)
  have htrim : trim (toString n) = toString n := by
    rw [trim, trimSpace_eq_self (fun c hc => (hplain c (List.mem_of_head? hc)).1)
      (fun c hc => (hplain c (List.mem_of_getLast? hc)).1), String.ofList_toList]
  have hlower : lower (toString n) = toString n := by
    rw [lower, List.map_congr_left (fun c hc => (hplain c hc).2.1), List.map_id',
      String.ofList_toList]
  have hletter : ∀ c : Char, c.isDigit = false → c ≠ '-' →
      c ∉ (toString n).toList := by
    intro c hdigit hsign hc
    rcases mem_toString hc with hc | hc
    · simp [hc] at hdigit
    · exact hsign hc
  rw [parsePriority, htrim, hlower, htrim] at h
  have hvalue : ∀ text digits, toString n = text → text.toList = digits →
      digits.head? ≠ some '-' → n = (Nat.ofDigitChars 10 digits 0 : Nat) :=
    fun text digits htext hdigits => eq_of_toString_eq (by rw [htext, hdigits])
  split at h
  case h_1 htext =>
    exact absurd (hvalue _ _ htext rfl (by simp)) hn
  case h_2 htext | h_4 htext | h_6 htext | h_8 htext | h_10 htext =>
    cases h
    exact (hvalue _ _ htext rfl (by decide)).symm
  case h_3 htext | h_11 htext =>
    exact absurd (htext ▸ by decide) (hletter 'm' (by decide) (by decide))
  case h_5 htext =>
    exact absurd (htext ▸ by decide) (hletter 'l' (by decide) (by decide))
  case h_7 htext =>
    exact absurd (htext ▸ by decide) (hletter 'd' (by decide) (by decide))
  case h_9 htext =>
    exact absurd (htext ▸ by decide) (hletter 'h' (by decide) (by decide))
  case h_12 htext =>
    exact absurd (htext ▸ by decide) (hletter 'u' (by decide) (by decide))
  case h_13 =>
    cases h

end Priorities

section Fields

variable {P : Parsers}
variable {E : Actions.Environment}
variable {p : PublishMessage}
variable {req : Request}

theorem setPublishField_hasMaps
    (p : PublishMessage)
    (name : String)
    (j : Json)
    (p' : PublishMessage)
    (hp : ∀ a ∈ p.actions.items ++ p.actions.spare, Actions.HasMaps a)
    (h : setPublishField p name j = some p') :
    ∀ a ∈ p'.actions.items ++ p'.actions.spare, Actions.HasMaps a := by
  unfold setPublishField at h
  split at h
  case h_9 =>
    obtain ⟨actions, hactions, rfl⟩ := Option.map_eq_some_iff.mp h
    exact decodeSlice_forall Actions.hasMaps_newAction
      Actions.decodeAction_hasMaps hp hactions
  case h_19 =>
    cases h
    exact hp
  all_goals
    obtain ⟨value, -, rfl⟩ := Option.map_eq_some_iff.mp h
    exact hp

/-- The actions of a JSON body have maps. -/
theorem readJSONWithLimit_hasMaps
    {limit : Nat} {body : List UInt8}
    (h : readJSONWithLimit limit body = .ok p) :
    ∀ a ∈ p.actions.items, Actions.HasMaps a := by
  unfold readJSONWithLimit at h
  split at h
  · cases h
  · split at h
    · next q hdecoded =>
        cases h
        obtain ⟨j, -, hj⟩ := Option.bind_eq_some_iff.mp hdecoded
        have hall : ∀ a ∈ p.actions.items ++ p.actions.spare,
            Actions.HasMaps a := by
          cases j with
          | obj members =>
              exact decodeFields_induction setPublishField_hasMaps
                (by simp [emptyPublishMessage, Slice.empty]) hj
          | null =>
              cases hj
              simp [emptyPublishMessage, Slice.empty]
          | bool b =>
              cases hj
          | num literal =>
              cases hj
          | str s =>
              cases hj
          | arr items =>
              cases hj
        exact fun a ha => hall a (List.mem_append_left _ ha)
    · cases h

/-- A text in which no MIME word starts. -/
def Unencoded (value : String) : Prop :=
  ¬ ['=', '?'] <:+: value.toList

/-- The attachment with the URL and the file name. -/
def attachmentOf
    (P : Parsers)
    (attach filename : String) : Option Attachment :=
  if attach ≠ "" then
    some ⟨if filename ≠ "" then filename else attachmentName P attach,
      "", 0, 0, attach⟩
  else if filename ≠ "" then
    some ⟨filename, "", 0, 0, ""⟩
  else
    none

/--
A message has the fields of the JSON body.  Its actions are normalised, its
attachment has a name, and it has a sequence ID, its own if none is given.
-/
structure FaithfulFields
    (P : Parsers)
    (E : Actions.Environment)
    (p : PublishMessage)
    (m : Message) : Prop where
  title : Unencoded p.title → m.title = trim p.title
  tags : (∀ t ∈ p.tags.items, ',' ∉ t.toList ∧ trim t ≠ "") →
    Unencoded (joinTags p.tags.items) → m.tags = p.tags.items.map trim
  priority : (m.priority : Int) = p.priority
  click : Unencoded p.click → m.click = trim p.click
  icon : Unencoded p.icon → m.icon = trim p.icon
  attachment : Unencoded p.attach → Unencoded p.filename →
    m.attachment = attachmentOf P (trim p.attach) (trim p.filename)
  actions : Unencoded (String.ofList (Actions.marshalActions p.actions.items)) →
    m.actions = p.actions.items.mapIdx (Actions.normalizeAction E)
  replyTo : Unencoded p.replyTo → m.replyTo = trim p.replyTo
  sequenceID : Unencoded p.sequenceID →
    m.sequenceID = if trim p.sequenceID = "" then m.id else trim p.sequenceID

@[simp] theorem getD_nonEmpty
    (value : String) :
    (nonEmpty value).getD "" = value := by
  unfold nonEmpty
  split
  · next h =>
      exact h.symm
  · rfl

theorem readAs_of_unencoded
    (hdecode : ∀ s, Unencoded s → P.decodeHeader s = some s)
    {value : String}
    (h : Unencoded value) :
    readAs P value = trim value := by
  rw [readAs, hdecode value h, Option.getD_some]

/-- Tags that are neither blank nor have commas are read back as they are. -/
theorem map_trim_splitNoEmpty_joinTags
    {tags : List String}
    (htags : ∀ t ∈ tags, ',' ∉ t.toList ∧ trim t ≠ "") :
    (splitNoEmpty (trim (joinTags tags)) ',').map trim = tags.map trim := by
  by_cases hnil : tags = []
  · subst hnil
    rfl
  · have hsplit : (joinTags tags).toList.splitOn ',' = tags.map String.toList := by
      rw [joinTags, String.toList_ofList]
      refine List.splitOn_intercalate ',' (fun l hl => ?_) (by simpa using hnil)
      obtain ⟨t, ht, rfl⟩ := List.mem_map.mp hl
      exact (htags t ht).1
    rw [map_trim_splitNoEmpty (by decide), hsplit, List.map_map]
    · rfl
    · intro part hpart
      rw [hsplit] at hpart
      obtain ⟨t, ht, rfl⟩ := List.mem_map.mp hpart
      intro hblank
      exact (htags t ht).2 (by rw [trim, hblank])

/-- Every parameter is read from the header of its field. -/
structure HeaderReads
    (P : Parsers)
    (p : PublishMessage)
    (r : Request) : Prop where
  title : readParam P r ["x-title", "title", "t"] = readAs P p.title
  tags : readParam P r ["x-tags", "tags", "tag", "ta"] =
    readAs P ((tagsText p.tags.items).getD "")
  template : readParam P r ["x-template", "template", "tpl"] = readAs P ""
  priority : readParam P r ["x-priority", "priority", "prio", "p"] =
    readAs P ((priorityText p.priority).getD "")
  click : readParam P r ["x-click", "click"] = readAs P p.click
  icon : readParam P r ["x-icon", "icon"] = readAs P p.icon
  attach : readParam P r ["x-attach", "attach", "a"] = readAs P p.attach
  filename : readParam P r ["x-filename", "filename", "file", "f"] =
    readAs P p.filename
  actions : readParam P r ["x-actions", "actions", "action"] =
    readAs P ((actionsText p.actions.items).getD "")
  replyTo : readParam P r ["x-reply-to", "reply-to"] = readAs P p.replyTo
  sequenceID : readParam P r ["x-sequence-id", "sequence-id", "sid"] =
    readAs P p.sequenceID

theorem headerReads_publishRequest
    (hdecode : P.decodeHeader "" = some "")
    (hheader : ∀ n, req.header n = "")
    (hquery : ∀ n, req.query n = "") :
    HeaderReads P p (publishRequest p req) := by
  have hread : ∀ (n value : String) (others : List String),
      (∀ name ∈ n :: others, lower name = name) ∧ n ≠ "priority" →
      headerValue p n = value ∧ (∀ name ∈ others, headerValue p name = "") →
      readParam P (publishRequest p req) (n :: others) = readAs P value := by
    rintro n value others ⟨hlower, hn⟩ ⟨hvalue, hothers⟩
    rw [readParam_publishRequest hdecode hheader hquery hlower hn hothers, hvalue]
  constructor
  all_goals
    refine hread _ _ _ (by decide) ?_
    simp [headerValue, lower_publishHeaders, List.lookup_cons]

/-- The path of a topic gives no sequence ID. -/
theorem sequenceIDParam_publishRequest
    (htopic : allowedTopic p.topic = true)
    (hreads : HeaderReads P p (publishRequest p req)) :
    sequenceIDParam P (publishRequest p req) =
      nonEmpty (readAs P p.sequenceID) := by
  have hslash : '/' ∉ p.topic.toList := by
    intro hmem
    simp only [allowedTopic, Bool.and_eq_true, List.all_eq_true] at htopic
    exact absurd (htopic.2 '/' hmem) (by decide)
  have hpath : (publishRequest p req).path.toList.splitOn '/' =
      [[], p.topic.toList] := by
    rw [publishRequest, (setHeaders_frame _ _).2, String.toList_append]
    rw [show "/".toList = ['/'] from rfl, List.singleton_append,
      List.splitOn_cons_eq_if_modifyHead, if_pos (by rfl),
      List.splitOn_eq_singleton hslash]
  rw [sequenceIDParam, hpath]
  simp only [hreads.sequenceID]
  rfl

/-- The actions that are accepted are those of the JSON body, normalised. -/
theorem toParser_eq_ok
    {actions parsed : List Action}
    (hmaps : ∀ a ∈ actions, Actions.HasMaps a)
    (h : Actions.toParser E
      (trim (String.ofList (Actions.marshalActions actions))) = .ok parsed) :
    parsed = actions.mapIdx (Actions.normalizeAction E) := by
  rw [trim, String.toList_ofList, (Actions.marshalActions_trimmed actions).2,
    Actions.toParser, Actions.parseActions_marshalActions E hmaps,
    Actions.validateActions] at h
  split at h
  · next accepted haccepted =>
      cases h
      split at haccepted
      · cases haccepted
      · split at haccepted
        · cases haccepted
        · cases haccepted
          rfl
  · cases h
  · cases h

/-- The message has the fields of the JSON body. -/
theorem transformBodyJSON_faithful
    {cfg : Config}
    {req' : Request}
    {id : String}
    {now : Nat}
    {m : Message}
    {params : Params}
    (hdecode : ∀ s, Unencoded s → P.decodeHeader s = some s)
    (hactions : P.parseActions = Actions.toParser E)
    (hheader : ∀ n, req.header n = "")
    (hquery : ∀ n, req.query n = "")
    (hbody : readJSONWithLimit (cfg.messageSizeLimit * 2) req.body = .ok p)
    (htransform : transformBodyJSON cfg req = .ok req')
    (hparse : parsePublishParams P req' cfg now
      (newDefaultMessage id now p.topic "") = .ok (m, params)) :
    FaithfulFields P E p m := by
  obtain ⟨htopic, rfl⟩ : allowedTopic p.topic = true ∧ req' = publishRequest p req := by
    rw [transformBodyJSON, hbody] at htransform
    simp only at htransform
    split at htransform
    · next htopic =>
        cases htransform
        exact ⟨htopic, rfl⟩
    · cases htransform
  have hfields := parsePublishParams_fields hparse
  have hnone : readAs P "" = "" :=
    readAs_of_unencoded hdecode (by simp [Unencoded])
  have hreads : HeaderReads P p (publishRequest p req) :=
    headerReads_publishRequest (hdecode "" (by simp [Unencoded])) hheader hquery
  have hread : ∀ {value : String}, Unencoded value → readAs P value = trim value :=
    readAs_of_unencoded hdecode
  constructor
  case title =>
    intro h
    rw [hfields.title, hreads.title, hread h]
  case tags =>
    intro htags h
    rw [hfields.tags, readCommaSeparatedParam, hreads.tags]
    by_cases hnil : p.tags.items = []
    · rw [tagsText, if_pos hnil, Option.getD_none, hnone, hnil]
      rfl
    · rw [tagsText, if_neg hnil, Option.getD_some, hread h,
        map_trim_splitNoEmpty_joinTags htags]
  case priority =>
    have hparsed := hfields.priority (by rw [hreads.template, hnone])
    rw [hreads.priority] at hparsed
    by_cases hzero : p.priority = 0
    · rw [priorityText, if_pos hzero, Option.getD_none, hnone] at hparsed
      have hdefault : some 0 = some m.priority := hparsed
      rw [hzero, ← Option.some.inj hdefault]
      rfl
    · have hplain : Unencoded (toString p.priority) := by
        intro hinfix
        have hmem : '=' ∈ (toString p.priority).toList :=
          hinfix.subset List.mem_cons_self
        exact (plain_of_isDigit (mem_toString hmem)).2.2 rfl
      rw [priorityText, if_neg hzero, Option.getD_some, hread hplain] at hparsed
      exact parsePriority_toString hzero hparsed
  case click =>
    intro h
    rw [hfields.click, hreads.click, hread h]
  case icon =>
    intro h
    by_cases hempty : readAs P p.icon = ""
    · rw [hfields.noIcon (hreads.icon.trans hempty), ← hread h, hempty]
      rfl
    · rw [hfields.icon (by rwa [hreads.icon]), hreads.icon, hread h]
  case attachment =>
    intro hattach hfilename
    rw [hfields.attachment, attachmentParam]
    simp only [hreads.attach, hreads.filename, hread hattach, hread hfilename]
    exact Option.or_none
  case actions =>
    intro h
    by_cases hnil : p.actions.items = []
    · rw [hfields.noActions, hnil]
      · rfl
      · rw [hreads.actions, actionsText, if_pos hnil, Option.getD_none, hnone]
    · have hvalue : readParam P (publishRequest p req)
          ["x-actions", "actions", "action"] =
            trim (String.ofList (Actions.marshalActions p.actions.items)) := by
        rw [hreads.actions, actionsText, if_neg hnil, Option.getD_some, hread h]
      have hgiven : trim (String.ofList
          (Actions.marshalActions p.actions.items)) ≠ "" := by
        obtain ⟨hhead, htrim⟩ := Actions.marshalActions_trimmed p.actions.items
        rw [trim, String.toList_ofList, htrim]
        intro hempty
        rw [String.ofList_eq_empty_iff.mp hempty] at hhead
        cases hhead
      have hparsed := hfields.actions (by rwa [hvalue])
      rw [hvalue, hactions] at hparsed
      exact toParser_eq_ok (readJSONWithLimit_hasMaps hbody) hparsed
  case replyTo =>
    intro h
    rw [hfields.replyTo, hreads.replyTo, hread h]
  case sequenceID =>
    intro h
    rw [hfields.sequenceID, sequenceIDParam_publishRequest htopic hreads, hread h,
      nonEmpty]
    split
    · rw [Option.getD_none, hfields.id]
    · rfl

end Fields

section Normalised

/-- Equality of all fields up to white space around them, and up to the IDs of actions. -/
def SameFields
    (p : PublishMessage)
    (m : Message) : Prop :=
  trim m.title = trim p.title ∧
    m.tags.map trim = p.tags.items.map trim ∧
    (m.priority : Int) = p.priority ∧
    trim m.click = trim p.click ∧
    trim (m.attachment.elim "" Attachment.url) = trim p.attach ∧
    trim (m.attachment.elim "" Attachment.name) = trim p.filename ∧
    trim m.icon = trim p.icon ∧
    m.actions.map ({ · with id := "" }) =
      p.actions.items.map ({ · with id := "" }) ∧
    trim m.replyTo = trim p.replyTo ∧
    trim m.sequenceID = trim p.sequenceID

/-- Headers without MIME words, and actions with ASCII letters. -/
def plainParsers : Parsers where
  decodeHeader := some
  urlPath := fun _ => none
  parseFutureTime := fun _ _ => none
  parseActions := Actions.toParser Actions.asciiEnvironment
  mimetype := fun _ => ("", "")
  templateFile := fun _ => .error errHTTPBadRequestTemplateFileNotFound
  renderTemplate := fun _ _ => .error errHTTPBadRequestTemplateFileNotFound

def plainConfig : Config where
  defaultAccess := .readWrite
  messageSizeLimit := 4096
  messageDelayMin := 10
  messageDelayMax := 1000
  baseURL := ""
  attachmentCacheDir := ""
  smtpSender := false
  twilioAccount := ""
  visitorSubscriberRateLimiting := false

def jsonRequest (body : String) : Request where
  method := "POST"
  path := "/"
  header := fun _ => ""
  query := fun _ => ""
  body := bytesOf body

def postBody : String :=
  "\x7b\"topic\":\"t\",\"sequence_id\":\"s\",\"actions\":[\x7b\"action\":\"http\",\"label\":\"a\",\"url\":\"https://x\",\"method\":\"post\"\x7d]\x7d"

def postAction : Action :=
  { Actions.newAction with
    action := "http"
    label := "a"
    url := "https://x"
    method := "post" }

def postMessage : PublishMessage :=
  { emptyPublishMessage with
    topic := "t"
    sequenceID := "s"
    actions := ⟨[postAction], []⟩ }

def postedMessage : Message :=
  { newDefaultMessage "m" 0 "t" "" with
    sequenceID := "s"
    actions := [Actions.normalizeAction Actions.asciiEnvironment 0 postAction] }

theorem readJSONWithLimit_postBody :
    readJSONWithLimit (plainConfig.messageSizeLimit * 2)
      (jsonRequest postBody).body = .ok postMessage := by
  have hbody : replaceInvalid (runes (jsonRequest postBody).body) =
      postBody.toList := by
    rw [jsonRequest, runes_bytesOf, replaceInvalid_map_some]
  rw [readJSONWithLimit, hbody]
  rfl

theorem transformBodyJSON_postBody :
    transformBodyJSON plainConfig (jsonRequest postBody) =
      .ok (publishRequest postMessage (jsonRequest postBody)) := by
  rw [transformBodyJSON, readJSONWithLimit_postBody]
  rfl

set_option maxRecDepth 100000 in
theorem parsePublishParams_postBody :
    parsePublishParams plainParsers
        (publishRequest postMessage (jsonRequest postBody)) plainConfig 0
        (newDefaultMessage "m" 0 "t" "") =
      .ok (postedMessage, ⟨true, true, "", "", "", false, ""⟩) := by
  rfl

/-- The method of an action gets upper-case letters. -/
theorem posted_method_differs :
    ∃ m params,
      readJSONWithLimit (plainConfig.messageSizeLimit * 2)
        (jsonRequest postBody).body = .ok postMessage ∧
      transformBodyJSON plainConfig (jsonRequest postBody) =
        .ok (publishRequest postMessage (jsonRequest postBody)) ∧
      parsePublishParams plainParsers
        (publishRequest postMessage (jsonRequest postBody)) plainConfig 0
        (newDefaultMessage "m" 0 "t" "") = .ok (m, params) ∧
      ¬ SameFields postMessage m := by
  refine ⟨postedMessage, _, readJSONWithLimit_postBody, transformBodyJSON_postBody,
    parsePublishParams_postBody, ?_⟩
  rintro ⟨-, -, -, -, -, -, -, hactions, -, -⟩
  have hmethods := congrArg (List.map Action.method) hactions
  revert hmethods
  decide

theorem posted_fields_faithful :
    FaithfulFields plainParsers Actions.asciiEnvironment postMessage postedMessage :=
  transformBodyJSON_faithful (fun _ _ => rfl) rfl (fun _ => rfl) (fun _ => rfl)
    readJSONWithLimit_postBody transformBodyJSON_postBody parsePublishParams_postBody

end Normalised

end Publish

end Server
end CoopMessenger
