import CoopMessenger.Server.Message
import CoopMessenger.Util.Unmarshal
import Mathlib.Algebra.GroupWithZero.Nat

/-!
# Action buttons

`server/actions.go`: the actions of a message are given as JSON or in a simple
format, are normalised, and are checked.

**Results.**
* `parseActions_sound`: the result is an error or at most three complete actions
  exactly if the text is not a JSON array of actions with a `null` among them.
* `parseActions_hasMaps`: headers and extras of parsed actions are maps.
-/

namespace CoopMessenger
namespace Server

open Library Util

namespace Actions

section Constants

def actionIDLength : Nat := 10
def actionsMax : Nat := 3

/-- What a reader sees at the end of the input. -/
def actionEOF : Char := '\x00'

def actionsAll : List String := ["view", "broadcast", "http", "copy"]
def actionsWithURL : List String := ["view", "http"]
def actionsWithValue : List String := ["copy"]

def newAction : Action where
  id := ""
  action := ""
  label := ""
  clear := false
  url := ""
  method := ""
  headers := []
  body := ""
  intent := ""
  extras := []
  value := ""

end Constants

section Json

def actionFields : List String :=
  ["id", "action", "label", "clear", "url", "method", "headers", "body", "intent",
    "extras", "value"]

def setActionField
    (a : Action)
    (name : String)
    (j : Json) : Option Action :=
  match name with
  | "id" => (decodeString a.id j).map fun id => { a with id }
  | "action" => (decodeString a.action j).map fun action => { a with action }
  | "label" => (decodeString a.label j).map fun label => { a with label }
  | "clear" => (decodeBool a.clear j).map fun clear => { a with clear }
  | "url" => (decodeString a.url j).map fun url => { a with url }
  | "method" => (decodeString a.method j).map fun method => { a with method }
  | "headers" => (decodeDict a.headers j).map fun headers => { a with headers }
  | "body" => (decodeString a.body j).map fun body => { a with body }
  | "intent" => (decodeString a.intent j).map fun intent => { a with intent }
  | "extras" => (decodeDict a.extras j).map fun extras => { a with extras }
  | "value" => (decodeString a.value j).map fun value => { a with value }
  | _ => some a

/-- Fills an action from an object; `null` leaves it as it is. -/
def decodeAction (a : Action) : Json → Option Action
  | .obj members => decodeFields actionFields setActionField a members
  | .null => some a
  | _ => none

/-- Fills a pointer to an action; `null` is a nil pointer. -/
def decodePointer : Json → Option (Option Action)
  | .null => some none
  | j => (decodeAction newAction j).map some

/-- The elements of a JSON array of pointers to actions. -/
def parseActionsFromJSON (text : List Char) : Option (List (Option Action)) :=
  match Json.parse text with
  | some (.arr items) => items.mapM decodePointer
  | some .null => some []
  | _ => none

end Json

section Simple

/-- The position in the input, and what is left of it. -/
structure ActionParser where
  pos : Nat
  rest : List Char
deriving DecidableEq, Repr

def isSpace (c : Char) : Bool :=
  c ∈ [' ', '\t', '\r', '\n']

def isSectionEnd (c : Char) : Bool :=
  c ∈ [actionEOF, ';', ',']

def isLastSection (c : Char) : Bool :=
  c ∈ [actionEOF, ';']

/-- `[-.\w]` -/
def isKeyChar (c : Char) : Bool :=
  c.isAlphanum || c ∈ ['_', '-', '.']

/-- `\s` -/
def isRegexSpace (c : Char) : Bool :=
  c ∈ ['\t', '\n', '\x0c', '\r', ' ']

namespace ActionParser

def eof (p : ActionParser) : Bool :=
  p.rest.isEmpty

def peek (p : ActionParser) : Char :=
  p.rest.headD actionEOF

/-- Moves on by one character, unless the end is reached. -/
def advance (p : ActionParser) : ActionParser :=
  match p.rest with
  | [] => p
  | c :: rest => ⟨p.pos + c.utf8Size, rest⟩

/-- The number of bytes of a text. -/
def width (s : List Char) : Nat :=
  (s.map Char.utf8Size).sum

def skipWhile
    (f : Char → Bool)
    (p : ActionParser) : ActionParser :=
  ⟨p.pos + width (p.rest.takeWhile f), p.rest.dropWhile f⟩

def slurpSpaces (p : ActionParser) : ActionParser :=
  p.skipWhile isSpace

/-- Matches `^([-.\w]+)\s*=\s*`. -/
def parseKey (p : ActionParser) : String × ActionParser :=
  let q := (p.skipWhile isKeyChar).skipWhile isRegexSpace
  if p.rest.takeWhile isKeyChar ≠ [] ∧ q.rest.head? = some '=' then
    (String.ofList (p.rest.takeWhile isKeyChar),
      q.advance.skipWhile isRegexSpace)
  else
    ("", p)

/-- The text up to the end of the section, and if the section is the last one. -/
def parseValue (p : ActionParser) : String × Bool × ActionParser :=
  let raw := p.rest.takeWhile (fun c => !isSectionEnd c)
  let q := p.skipWhile (fun c => !isSectionEnd c)
  (String.ofList (trimSpace raw), isLastSection q.peek, q.advance)

/-- The text up to the end quote; a quote after a backslash does not end it. -/
def scanQuoted
    (quote : Char) :
    Char → List Char → Option (List Char)
  | _, [] => none
  | prev, c :: rest =>
      if c = actionEOF then
        none
      else if c = quote ∧ prev ≠ '\\' then
        some []
      else
        (scanQuoted quote c rest).map (c :: ·)

/-- Replaces every backslash followed by a quote by the quote. -/
def unescapeQuotes
    (quote : Char) :
    List Char → List Char
  | [] => []
  | [c] => [c]
  | c :: d :: rest =>
      if c = '\\' ∧ d = quote then
        quote :: unescapeQuotes quote rest
      else
        c :: unescapeQuotes quote (d :: rest)

def parseQuotedValue
    (quote : Char)
    (p : ActionParser) : Except String (String × Bool × ActionParser) :=
  let start := p.advance
  match scanQuoted quote actionEOF start.rest with
  | none =>
      .error s!"unexpected end of input, quote started at position {start.pos}"
  | some raw =>
      let closed : ActionParser :=
        ⟨start.pos + width raw, start.rest.drop raw.length⟩
      let q := closed.advance.slurpSpaces
      if isSectionEnd q.peek then
        .ok (String.ofList (unescapeQuotes quote raw), isLastSection q.peek,
          q.advance)
      else
        .error s!"unexpected character '{q.peek}' at position {q.pos}"

/-- The key and the value of a section, and if it is the last one. -/
def parseSection
    (p : ActionParser) : Except String ((String × String × Bool) × ActionParser) :=
  let (key, q) := p.slurpSpaces.parseKey
  if isSectionEnd q.peek then
    .ok ((key, "", isLastSection q.peek), q.advance)
  else if q.peek = '"' ∨ q.peek = '\'' then
    (parseQuotedValue q.peek q).map fun r => ((key, r.1, r.2.1), r.2.2)
  else
    let r := q.parseValue
    .ok ((key, r.1, r.2.1), r.2.2)

end ActionParser

/-- The key that a value without one stands for. -/
def expandKey
    (a : Action)
    («section» : Nat)
    (key : String) : String :=
  if key = "" ∧ «section» = 0 then
    "action"
  else if key = "" ∧ «section» = 1 then
    "label"
  else if key = "" ∧ «section» = 2 ∧ a.action ∈ actionsWithURL then
    "url"
  else if key = "" ∧ «section» = 2 ∧ a.action ∈ actionsWithValue then
    "value"
  else
    key

/-- Applies a key and its value to the action. -/
def populateAction
    (a : Action)
    («section» : Nat)
    (key value : String) : Except String Action :=
  let key := expandKey a «section» key
  if key = "" then
    .error s!"term '{value}' unknown"
  else if "headers.".toList.isPrefixOf key.toList then
    .ok { a with
      headers := Dictionary.set
        (String.ofList (trimPrefix "headers.".toList key.toList)) value a.headers }
  else if "extras.".toList.isPrefixOf key.toList then
    .ok { a with
      extras := Dictionary.set
        (String.ofList (trimPrefix "extras.".toList key.toList)) value a.extras }
  else
    match lower key with
    | "action" => .ok { a with action := value }
    | "label" => .ok { a with label := value }
    | "clear" =>
        let lvalue := lower value
        if lvalue ∈ ["true", "yes", "1", "false", "no", "0"] then
          .ok { a with clear := decide (lvalue ∈ ["true", "yes", "1"]) }
        else
          .error s!"parameter 'clear' cannot be '{value}', only boolean values are allowed (true/yes/1/false/no/0)"
    | "url" => .ok { a with url := value }
    | "method" => .ok { a with method := value }
    | "body" => .ok { a with body := value }
    | "value" => .ok { a with value }
    | "intent" => .ok { a with intent := value }
    | _ => .error s!"key '{key}' unknown"

end Simple

section Progress

namespace ActionParser

@[simp] theorem length_advance
    (p : ActionParser) :
    p.advance.rest.length = p.rest.length - 1 := by
  unfold advance
  split
  · next h =>
      rw [h]
      rfl
  · next h =>
      rw [h]
      rfl

theorem skipWhile_le
    (f : Char → Bool)
    (p : ActionParser) :
    (p.skipWhile f).rest.length ≤ p.rest.length :=
  (List.dropWhile_suffix f).length_le

theorem parseKey_le
    (p : ActionParser) :
    p.parseKey.2.rest.length ≤ p.rest.length := by
  simp only [parseKey]
  split
  · refine (skipWhile_le _ _).trans ?_
    rw [length_advance]
    exact (Nat.sub_le _ _).trans ((skipWhile_le _ _).trans (skipWhile_le _ _))
  · exact le_rfl

theorem parseQuotedValue_le
    {quote : Char} {p q : ActionParser} {value : String} {last : Bool}
    (h : p.parseQuotedValue quote = .ok (value, last, q)) :
    q.rest.length ≤ p.rest.length - 1 := by
  simp only [parseQuotedValue] at h
  split at h
  · cases h
  · next raw hraw =>
      split at h
      · cases h
        have hslurp := skipWhile_le isSpace
          (advance ⟨p.advance.pos + width raw, p.advance.rest.drop raw.length⟩)
        simp only [length_advance, List.length_drop] at hslurp
        simp only [length_advance, slurpSpaces]
        omega
      · cases h

/-- A section takes something of the input that is left, if there is something. -/
theorem parseSection_le
    {p q : ActionParser} {key value : String} {last : Bool}
    (h : p.parseSection = .ok ((key, value, last), q)) :
    q.rest.length ≤ p.rest.length - 1 := by
  have hkey : p.slurpSpaces.parseKey.2.rest.length ≤ p.rest.length :=
    (parseKey_le _).trans (skipWhile_le _ _)
  simp only [parseSection] at h
  split at h
  · cases h
    rw [length_advance]
    omega
  · split at h
    · cases hquoted : p.slurpSpaces.parseKey.2.parseQuotedValue
          p.slurpSpaces.parseKey.2.peek with
      | error e =>
          rw [hquoted] at h
          cases h
      | ok r =>
          rw [hquoted] at h
          cases h
          exact (parseQuotedValue_le hquoted).trans (Nat.sub_le_sub_right hkey 1)
    · cases h
      have hvalue := skipWhile_le (fun c => !isSectionEnd c)
        p.slurpSpaces.parseKey.2
      simp only [parseValue, length_advance]
      omega

/-- At the end of the input a section is the last one. -/
theorem parseSection_last
    {p q : ActionParser} {key value : String}
    (h : p.parseSection = .ok ((key, value, false), q)) :
    p.rest ≠ [] := by
  rintro hempty
  have hslurp : p.slurpSpaces.rest = [] := by
    simp [slurpSpaces, skipWhile, hempty]
  have hkey : p.slurpSpaces.parseKey = ("", p.slurpSpaces) := by
    simp [parseKey, hslurp]
  simp only [parseSection, hkey] at h
  rw [peek, hslurp] at h
  cases h

end ActionParser

end Progress

section Parser

/-- The sections of one action. -/
def parseSections
    (a : Action)
    («section» : Nat)
    (p : ActionParser) : Except String (Action × ActionParser) :=
  match h : p.parseSection with
  | .error e => .error e
  | .ok ((key, value, last), q) =>
      match populateAction a «section» key value with
      | .error e => .error e
      | .ok a' =>
          match last with
          | true => .ok (a', q.slurpSpaces)
          | false => parseSections a' («section» + 1) q.slurpSpaces
termination_by p.rest.length
decreasing_by
  have hpos := List.length_pos_iff.mpr (ActionParser.parseSection_last h)
  have hsection := ActionParser.parseSection_le h
  have hslurp := ActionParser.skipWhile_le isSpace q
  simp only [ActionParser.slurpSpaces]
  omega

theorem parseSections_le
    {a a' : Action} {«section» : Nat} {p q : ActionParser}
    (h : parseSections a «section» p = .ok (a', q)) :
    q.rest.length ≤ p.rest.length - 1 := by
  fun_induction parseSections a «section» p with
  | case1 a i p e hsection =>
      cases h
  | case2 a i p key value last r hsection e hpopulate =>
      cases h
  | case3 a i p key value r a₁ hpopulate hsection =>
      cases h
      exact (ActionParser.skipWhile_le _ _).trans
        (ActionParser.parseSection_le hsection)
  | case4 a i p key value r a₁ hpopulate _ hsection ih =>
      have hrest := ih h
      have hstep := ActionParser.parseSection_le hsection
      have hslurp := ActionParser.skipWhile_le isSpace r
      simp only [ActionParser.slurpSpaces] at hrest
      omega

/-- A section that is read and understood is followed by the others. -/
theorem parseSections_of_section
    {a a' : Action} {«section» : Nat} {p q : ActionParser}
    {key value : String} {last : Bool}
    (hsection : p.parseSection = .ok ((key, value, last), q))
    (hpopulate : populateAction a «section» key value = .ok a') :
    parseSections a «section» p =
      if last then .ok (a', q.slurpSpaces)
      else parseSections a' («section» + 1) q.slurpSpaces := by
  rw [parseSections]
  split
  · next h =>
      cases hsection.symm.trans h
  · next h =>
      cases hsection.symm.trans h
      rw [hpopulate]
      cases last <;> rfl

theorem parseSections_of_error
    {a : Action} {«section» : Nat} {p q : ActionParser}
    {key value e : String} {last : Bool}
    (hsection : p.parseSection = .ok ((key, value, last), q))
    (hpopulate : populateAction a «section» key value = .error e) :
    parseSections a «section» p = .error e := by
  rw [parseSections]
  split
  · next h =>
      cases hsection.symm.trans h
  · next h =>
      cases hsection.symm.trans h
      rw [hpopulate]

/-- The actions up to the end of the input. -/
def parse (p : ActionParser) : Except String (List Action) :=
  if _ : p.rest = [] then
    .ok []
  else
    match _ : parseSections newAction 0 p with
    | .error e => .error e
    | .ok (a, q) => (parse q).map (a :: ·)
termination_by p.rest.length
decreasing_by
  have hpos := List.length_pos_iff.mpr ‹p.rest ≠ []›
  have hsections := parseSections_le ‹parseSections newAction 0 p = .ok (a, q)›
  omega

theorem parse_nil
    (pos : Nat) :
    parse ⟨pos, []⟩ = .ok [] := by
  rw [parse]
  exact dif_pos rfl

/-- An action that is read is followed by the others. -/
theorem parse_of_sections
    {a : Action} {p q : ActionParser}
    (hp : p.rest ≠ [])
    (h : parseSections newAction 0 p = .ok (a, q)) :
    parse p = (parse q).map (a :: ·) := by
  rw [parse, dif_neg hp]
  split
  · next h' =>
      cases h.symm.trans h'
  · next h' =>
      cases h.symm.trans h'
      rfl

def parseActionsFromSimple
    (s : List (Option Char)) : Except String (List Action) :=
  match validText s with
  | none => .error "invalid utf-8 string"
  | some text => parse ⟨0, text⟩

end Parser

section Normalising

/-- What goes wrong: an error with its text, or the use of a nil pointer. -/
inductive Failure where
  | error (message : String)
  | nilPointer
deriving DecidableEq, Repr

/-- What an action may not be. -/
def actionProblem (a : Action) : Option String :=
  if a.action ∉ actionsAll then
    some s!"parameter 'action' cannot be '{a.action}', valid values are 'view', 'broadcast', 'http' and 'copy'"
  else if a.label = "" then
    some "parameter 'label' is required"
  else if a.action ∈ actionsWithURL ∧ a.url = "" then
    some s!"parameter 'url' is required for action '{a.action}'"
  else if a.action ∈ actionsWithValue ∧ a.value = "" then
    some s!"parameter 'value' is required for action '{a.action}'"
  else if a.action = "http" ∧ a.method ∈ ["GET", "HEAD"] ∧ a.body ≠ "" then
    some s!"parameter 'body' cannot be set if method is {a.method}"
  else
    none

/-- The case mappings of Unicode, the error texts of the JSON decoder, and the random draws. -/
structure Environment where
  toLower : Char → Char
  toUpper : Char → Char
  jsonError : List Char → String
  draws : Nat → Nat → Nat

def mapText
    (f : Char → Char)
    (s : String) : String :=
  String.ofList (s.toList.map f)

variable (E : Environment)

/-- Sets the ID of the action with the index, and the case of its type and method. -/
def normalizeAction
    (i : Nat)
    (a : Action) : Action :=
  { a with
    id := randomString (E.draws i) actionIDLength
    action := mapText E.toLower a.action
    method := mapText E.toUpper a.method }

/-- Normalises the actions in turn, and fails at a nil pointer. -/
def normalizeFrom :
    Nat → List (Option Action) → Except Failure (List Action)
  | _, [] => .ok []
  | _, none :: _ => .error .nilPointer
  | i, some a :: rest =>
      (normalizeFrom (i + 1) rest).map (normalizeAction E i a :: ·)

/-- The actions before they are normalised, which may be nil. -/
def parseEither
    (s : List (Option Char)) : Except Failure (List (Option Action)) :=
  if s.head? = some (some '[') then
    match parseActionsFromJSON (replaceInvalid s) with
    | some actions => .ok actions
    | none => .error (.error s!"JSON error: {E.jsonError (replaceInvalid s)}")
  else
    match parseActionsFromSimple s with
    | .ok actions => .ok (actions.map some)
    | .error e => .error (.error e)

def validateActions
    (actions : List Action) : Except Failure (List Action) :=
  if actionsMax < actions.length then
    .error (.error s!"only {actionsMax} actions allowed")
  else
    match actions.findSome? actionProblem with
    | some e => .error (.error e)
    | none => .ok actions

/-- Parses the actions, sets their IDs, normalises and checks them. -/
def parseActions
    (s : List UInt8) : Except Failure (List Action) := do
  let parsed ← parseEither E (trimRunes (runes s))
  let actions ← normalizeFrom E 0 parsed
  validateActions actions

end Normalising

section Soundness

variable (E : Environment)

/-- An action with everything that its type needs. -/
def ValidAction (a : Action) : Prop :=
  a.id ≠ "" ∧ a.action ∈ actionsAll ∧ a.label ≠ "" ∧
    (a.action ∈ actionsWithURL → a.url ≠ "") ∧
    (a.action ∈ actionsWithValue → a.value ≠ "") ∧
    ¬ (a.action = "http" ∧ a.method ∈ ["GET", "HEAD"] ∧ a.body ≠ "")

/-- An error, or a few valid actions. -/
def Sound : Except Failure (List Action) → Prop
  | .ok actions => actions.length ≤ actionsMax ∧ ∀ a ∈ actions, ValidAction a
  | .error (.error _) => True
  | .error .nilPointer => False

/-- A JSON array of actions with a `null` among them. -/
def HasNull (s : List (Option Char)) : Prop :=
  s.head? = some (some '[') ∧ ∃ items,
    Json.parse (replaceInvalid s) = some (.arr items) ∧ Json.null ∈ items ∧
      ∀ j ∈ items, (decodePointer j).isSome

theorem actionProblem_eq_none_iff
    {a : Action} :
    actionProblem a = none ↔
      a.action ∈ actionsAll ∧ a.label ≠ "" ∧
        (a.action ∈ actionsWithURL → a.url ≠ "") ∧
        (a.action ∈ actionsWithValue → a.value ≠ "") ∧
        ¬ (a.action = "http" ∧ a.method ∈ ["GET", "HEAD"] ∧ a.body ≠ "") := by
  unfold actionProblem
  by_cases haction : a.action ∈ actionsAll
  · rw [if_neg (not_not_intro haction)]
    by_cases hlabel : a.label = ""
    · simp [haction, hlabel]
    · rw [if_neg hlabel]
      by_cases hurl : a.action ∈ actionsWithURL ∧ a.url = ""
      · simp [hurl]
      · rw [if_neg hurl]
        by_cases hvalue : a.action ∈ actionsWithValue ∧ a.value = ""
        · simp [hvalue]
        · rw [if_neg hvalue]
          by_cases hbody : a.action = "http" ∧ a.method ∈ ["GET", "HEAD"] ∧
              a.body ≠ ""
          · rw [if_pos hbody]
            simp only [reduceCtorEq, false_iff]
            exact fun h => h.2.2.2.2 hbody
          · rw [if_neg hbody]
            simp only [true_iff]
            exact ⟨haction, hlabel, not_and.mp hurl, not_and.mp hvalue, hbody⟩
  · rw [if_pos haction]
    simp [haction]

theorem normalizeFrom_eq_nilPointer_iff
    (i : Nat)
    (parsed : List (Option Action)) :
    normalizeFrom E i parsed = .error .nilPointer ↔ none ∈ parsed := by
  induction parsed generalizing i with
  | nil =>
      simp [normalizeFrom]
  | cons a parsed ih =>
      cases a with
      | none =>
          simp [normalizeFrom]
      | some a =>
          have hrest := ih (i + 1)
          cases hnormal : normalizeFrom E (i + 1) parsed with
          | error e =>
              simp [normalizeFrom, hnormal, Except.map, ← hrest]
          | ok actions =>
              simp [normalizeFrom, hnormal, Except.map, ← hrest]

/-- Normalising fails at a nil pointer only, and all IDs are set. -/
theorem normalizeFrom_spec
    (i : Nat)
    (parsed : List (Option Action)) :
    match normalizeFrom E i parsed with
    | .ok actions => ∀ a ∈ actions, a.id ≠ ""
    | .error e => e = .nilPointer := by
  induction parsed generalizing i with
  | nil =>
      simp [normalizeFrom]
  | cons a parsed ih =>
      cases a with
      | none =>
          rfl
      | some a =>
          have hrest := ih (i + 1)
          cases hnormal : normalizeFrom E (i + 1) parsed with
          | error e =>
              simpa [normalizeFrom, hnormal, Except.map] using hrest
          | ok actions =>
              have hid : (normalizeAction E i a).id ≠ "" :=
                randomString_ne_empty _ (by decide)
              simpa [normalizeFrom, hnormal, Except.map, hid] using hrest

/-- What is validated, with IDs set, is sound. -/
theorem sound_validateActions
    {actions : List Action}
    (hids : ∀ a ∈ actions, a.id ≠ "") :
    Sound (validateActions actions) := by
  unfold validateActions
  split
  · trivial
  · next hlength =>
      split
      · trivial
      · next hproblem =>
          refine ⟨Nat.le_of_not_lt hlength, fun a ha => ⟨hids a ha, ?_⟩⟩
          exact actionProblem_eq_none_iff.mp
            (List.findSome?_eq_none_iff.mp hproblem a ha)

theorem parseEither_ne_nilPointer
    (s : List (Option Char)) :
    parseEither E s ≠ .error .nilPointer := by
  unfold parseEither
  split <;> split <;> simp

theorem decodePointer_eq_none_iff
    {j : Json} {a : Option Action}
    (h : decodePointer j = some a) :
    a = none ↔ j = .null := by
  cases j with
  | null =>
      cases h
      simp
  | _ =>
      simp only [decodePointer, Option.map_eq_some_iff] at h
      obtain ⟨a, -, rfl⟩ := h
      simp

theorem mem_mapM_decodePointer
    {items : List Json} {parsed : List (Option Action)}
    (h : items.mapM decodePointer = some parsed) :
    none ∈ parsed ↔ Json.null ∈ items := by
  induction items generalizing parsed with
  | nil =>
      cases h
      simp
  | cons j items ih =>
      simp only [List.mapM_cons, Option.pure_def, Option.bind_eq_bind,
        Option.bind_eq_some_iff, Option.some.injEq] at h
      obtain ⟨a, hhead, rest, hrest, rfl⟩ := h
      have hnull := decodePointer_eq_none_iff hhead
      simp only [List.mem_cons, ih hrest, eq_comm (a := none), hnull,
        eq_comm (a := Json.null)]

theorem exists_mapM_decodePointer
    {items : List Json} :
    (∃ parsed, items.mapM decodePointer = some parsed) ↔
      ∀ j ∈ items, (decodePointer j).isSome := by
  induction items with
  | nil =>
      simp
  | cons j items ih =>
      rw [List.forall_mem_cons, ← ih, Option.isSome_iff_exists]
      simp only [List.mapM_cons, Option.pure_def, Option.bind_eq_bind,
        Option.bind_eq_some_iff, Option.some.injEq]
      constructor
      · rintro ⟨-, a, ha, rest, hrest, -⟩
        exact ⟨⟨a, ha⟩, rest, hrest⟩
      · rintro ⟨⟨a, ha⟩, rest, hrest⟩
        exact ⟨_, a, ha, rest, hrest, rfl⟩

theorem parseActionsFromJSON_hasNull_iff
    (text : List Char) :
    (∃ parsed, parseActionsFromJSON text = some parsed ∧ none ∈ parsed) ↔
      ∃ items, Json.parse text = some (.arr items) ∧ Json.null ∈ items ∧
        ∀ j ∈ items, (decodePointer j).isSome := by
  unfold parseActionsFromJSON
  split
  case h_1 items hparse =>
    constructor
    · rintro ⟨parsed, hmap, hnone⟩
      exact ⟨items, hparse, (mem_mapM_decodePointer hmap).mp hnone,
        exists_mapM_decodePointer.mp ⟨parsed, hmap⟩⟩
    · rintro ⟨items', hitems, hnull, hall⟩
      cases hparse.symm.trans hitems
      obtain ⟨parsed, hmap⟩ := exists_mapM_decodePointer.mpr hall
      exact ⟨parsed, hmap, (mem_mapM_decodePointer hmap).mpr hnull⟩
  case h_2 hparse =>
    simp [hparse]
  case h_3 harr hnull =>
    constructor
    · rintro ⟨parsed, hparsed, -⟩
      cases hparsed
    · rintro ⟨items, hitems, -⟩
      exact absurd hitems (harr items)

/-- The parsed actions contain a nil pointer exactly for a `null` in the array. -/
theorem parseEither_hasNull_iff
    (s : List (Option Char)) :
    (∃ parsed, parseEither E s = .ok parsed ∧ none ∈ parsed) ↔ HasNull s := by
  unfold parseEither HasNull
  by_cases hbracket : s.head? = some (some '[')
  · rw [if_pos hbracket, ← parseActionsFromJSON_hasNull_iff]
    cases parseActionsFromJSON (replaceInvalid s) with
    | none =>
        simp
    | some parsed =>
        simp [hbracket]
  · rw [if_neg hbracket]
    simp only [hbracket, false_and, iff_false]
    rintro ⟨parsed, hparsed, hnone⟩
    split at hparsed
    · cases hparsed
      simp at hnone
    · cases hparsed

/--
The result is an error or a few valid actions exactly if the text is not a JSON
array of actions with a `null` among them.
-/
theorem parseActions_sound
    (s : List UInt8) :
    Sound (parseActions E s) ↔ ¬ HasNull (trimRunes (runes s)) := by
  rw [← parseEither_hasNull_iff E, parseActions]
  cases hparsed : parseEither E (trimRunes (runes s)) with
  | error e =>
      have hne := parseEither_ne_nilPointer E (trimRunes (runes s))
      cases e with
      | error message =>
          simp [bind, Except.bind, Sound]
      | nilPointer =>
          exact absurd hparsed hne
  | ok parsed =>
      have hspec := normalizeFrom_spec E 0 parsed
      have hnil := normalizeFrom_eq_nilPointer_iff E 0 parsed
      cases hnormal : normalizeFrom E 0 parsed with
      | error e =>
          rw [hnormal] at hspec
          cases hspec
          simp [bind, Except.bind, hnormal, Sound, ← hnil]
      | ok actions =>
          rw [hnormal] at hspec
          have hsound := sound_validateActions hspec
          simp [bind, Except.bind, hnormal, hsound, ← hnil]

/-- Letter case of ASCII, and draws that all give the same letter. -/
def asciiEnvironment : Environment where
  toLower := Char.toLower
  toUpper := Char.toUpper
  jsonError := fun _ => "unexpected end of JSON input"
  draws := fun _ _ => 0

/-- A `null` in the array is used as a pointer. -/
theorem null_action_panics :
    parseActions asciiEnvironment (bytesOf "[null]") = .error .nilPointer ∧
      ¬ Sound (parseActions asciiEnvironment (bytesOf "[null]")) := by
  have hpanic : parseActions asciiEnvironment (bytesOf "[null]") =
      .error .nilPointer := by
    rw [parseActions, runes_bytesOf, trimRunes_map_some]
    rfl
  refine ⟨hpanic, ?_⟩
  rw [hpanic]
  exact id

end Soundness

section Maps

variable {E : Environment}

/-- Headers and extras are in the order of their names, without repetitions. -/
def HasMaps (a : Action) : Prop :=
  Dictionary.IsDict a.headers ∧ Dictionary.IsDict a.extras

theorem hasMaps_newAction :
    HasMaps newAction :=
  ⟨List.Pairwise.nil, List.Pairwise.nil⟩

theorem setActionField_hasMaps
    (a : Action)
    (name : String)
    (j : Json)
    (a' : Action)
    (ha : HasMaps a)
    (h : setActionField a name j = some a') :
    HasMaps a' := by
  unfold setActionField at h
  split at h
  case h_7 =>
    obtain ⟨d, hd, rfl⟩ := Option.map_eq_some_iff.mp h
    exact ⟨decodeDict_isDict ha.1 hd, ha.2⟩
  case h_10 =>
    obtain ⟨d, hd, rfl⟩ := Option.map_eq_some_iff.mp h
    exact ⟨ha.1, decodeDict_isDict ha.2 hd⟩
  case h_12 =>
    cases h
    exact ha
  all_goals
    obtain ⟨x, -, rfl⟩ := Option.map_eq_some_iff.mp h
    exact ha

theorem decodeAction_hasMaps
    (a : Action)
    (j : Json)
    (a' : Action)
    (ha : HasMaps a)
    (h : decodeAction a j = some a') :
    HasMaps a' := by
  unfold decodeAction at h
  split at h
  · exact decodeFields_induction setActionField_hasMaps ha h
  · cases h
    exact ha
  · cases h

theorem parseActionsFromJSON_hasMaps
    {text : List Char} {parsed : List (Option Action)}
    (h : parseActionsFromJSON text = some parsed) :
    ∀ a, some a ∈ parsed → HasMaps a := by
  unfold parseActionsFromJSON at h
  split at h
  · next items hparse =>
      clear hparse
      induction items generalizing parsed with
      | nil =>
          cases h
          simp
      | cons j items ih =>
          simp only [List.mapM_cons, Option.pure_def, Option.bind_eq_bind,
            Option.bind_eq_some_iff, Option.some.injEq] at h
          obtain ⟨a, hhead, rest, hrest, rfl⟩ := h
          intro b hb
          rcases List.mem_cons.mp hb with rfl | hb
          · unfold decodePointer at hhead
            split at hhead
            · cases hhead
            · obtain ⟨b, hdecode, heq⟩ := Option.map_eq_some_iff.mp hhead
              cases heq
              exact decodeAction_hasMaps _ _ _ hasMaps_newAction hdecode
          · exact ih hrest b hb
  · cases h
    simp
  · cases h

theorem populateAction_hasMaps
    {a a' : Action} {«section» : Nat} {key value : String}
    (ha : HasMaps a)
    (h : populateAction a «section» key value = .ok a') :
    HasMaps a' := by
  simp only [populateAction] at h
  split at h
  · cases h
  · split at h
    · cases h
      exact ⟨ha.1.set _ _, ha.2⟩
    · split at h
      · cases h
        exact ⟨ha.1, ha.2.set _ _⟩
      · split at h
        case h_3 =>
          split at h <;> cases h
          exact ha
        case h_9 =>
          cases h
        all_goals
          cases h
          exact ha

theorem parseSections_hasMaps
    {a a' : Action} {«section» : Nat} {p q : ActionParser}
    (ha : HasMaps a)
    (h : parseSections a «section» p = .ok (a', q)) :
    HasMaps a' := by
  fun_induction parseSections a «section» p with
  | case1 a i p e hsection =>
      cases h
  | case2 a i p key value last r hsection e hpopulate =>
      cases h
  | case3 a i p key value r a₁ hpopulate hsection =>
      cases h
      exact populateAction_hasMaps ha hpopulate
  | case4 a i p key value r a₁ hpopulate _ hsection ih =>
      exact ih (populateAction_hasMaps ha hpopulate) h

theorem parse_hasMaps
    {p : ActionParser} {actions : List Action}
    (h : parse p = .ok actions) :
    ∀ a ∈ actions, HasMaps a := by
  fun_induction parse p generalizing actions with
  | case1 p hrest =>
      cases h
      simp
  | case2 p hrest e hsections =>
      cases h
  | case3 p hrest a q hsections ih =>
      cases hparse : parse q with
      | error e =>
          rw [hparse] at h
          cases h
      | ok others =>
          rw [hparse] at h
          cases h
          exact List.forall_mem_cons.mpr
            ⟨parseSections_hasMaps hasMaps_newAction hsections, ih hparse⟩

theorem parseEither_hasMaps
    {s : List (Option Char)} {parsed : List (Option Action)}
    (h : parseEither E s = .ok parsed) :
    ∀ a, some a ∈ parsed → HasMaps a := by
  unfold parseEither at h
  split at h
  · split at h
    · next hjson =>
        cases h
        exact parseActionsFromJSON_hasMaps hjson
    · cases h
  · split at h
    · next actions hsimple =>
        cases h
        unfold parseActionsFromSimple at hsimple
        split at hsimple
        · cases hsimple
        · intro a ha
          obtain ⟨b, hb, heq⟩ := List.mem_map.mp ha
          cases heq
          exact parse_hasMaps hsimple a hb
    · cases h

theorem normalizeFrom_hasMaps
    {i : Nat} {parsed : List (Option Action)} {actions : List Action}
    (hparsed : ∀ a, some a ∈ parsed → HasMaps a)
    (h : normalizeFrom E i parsed = .ok actions) :
    ∀ a ∈ actions, HasMaps a := by
  induction parsed generalizing i actions with
  | nil =>
      cases h
      simp
  | cons a parsed ih =>
      cases a with
      | none =>
          cases h
      | some a =>
          cases hrest : normalizeFrom E (i + 1) parsed with
          | error e =>
              rw [normalizeFrom, hrest] at h
              cases h
          | ok others =>
              rw [normalizeFrom, hrest] at h
              cases h
              have ha : HasMaps a := hparsed a List.mem_cons_self
              exact List.forall_mem_cons.mpr ⟨ha,
                ih (fun b hb => hparsed b (List.mem_cons_of_mem _ hb)) hrest⟩

/-- Headers and extras of parsed actions are maps. -/
theorem parseActions_hasMaps
    {s : List UInt8} {actions : List Action}
    (h : parseActions E s = .ok actions) :
    ∀ a ∈ actions, HasMaps a := by
  unfold parseActions at h
  cases hparsed : parseEither E (trimRunes (runes s)) with
  | error e =>
      simp [hparsed, bind, Except.bind] at h
  | ok parsed =>
      cases hnormal : normalizeFrom E 0 parsed with
      | error e =>
          simp [hparsed, hnormal, bind, Except.bind] at h
      | ok normal =>
          have hmaps := normalizeFrom_hasMaps (parseEither_hasMaps hparsed) hnormal
          simp only [hparsed, hnormal, bind, Except.bind, validateActions] at h
          split at h
          · cases h
          · split at h <;> cases h
            exact hmaps

end Maps

end Actions

end Server
end CoopMessenger
