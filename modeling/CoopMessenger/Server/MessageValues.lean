import CoopMessenger.Library.DamagedTexts
import CoopMessenger.Server.MessageJSON

/-!
# What the text of a message denotes

The value that a JSON decoder reads from the text that `encoding/json` writes for a
message: an object with the same fields, in the order of the struct.

**Results.**
* `parse_marshalMessage`: the decoder reads that value, for every message.
* `plain_marshalMessage`: the text is a single line.
* `field?_id`: the value has the ID of the message.
-/

namespace CoopMessenger
namespace Server
namespace MessageJSON

open Library Util

section Values

def omitNumberValue
    (name : String)
    (n : Nat) : List (String × Json) :=
  if n = 0 then [] else [(name, .num (numberText n))]

def tagsValue (tags : List String) : List (String × Json) :=
  if tags = [] then [] else [("tags", .arr (tags.map Json.str))]

def actionsValue (actions : List Action) : List (String × Json) :=
  if actions = [] then [] else [("actions", .arr (actions.map Actions.actionJSON))]

def attachmentValue : Option Attachment → List (String × Json)
  | none => []
  | some a =>
      [("attachment", .obj ([("name", .str a.name)] ++ Actions.omitEmpty "type" a.type ++
        omitNumberValue "size" a.size ++ omitNumberValue "expires" a.expires ++
        [("url", .str a.url)]))]

/-- The preview, with a replacement for every invalid byte. -/
def replyToTextValue (preview : List UInt8) : List (String × Json) :=
  if preview = [] then
    []
  else
    [("reply_to_text", .str (String.ofList (replaceInvalid (runes preview))))]

def firstValues (m : Message) : List (String × Json) :=
  [("id", .str m.id)] ++ Actions.omitEmpty "sequence_id" m.sequenceID ++
    [("time", .num (numberText m.time))] ++ omitNumberValue "expires" m.expires ++
    [("event", .str (eventText m.event)), ("topic", .str m.topic)] ++
    Actions.omitEmpty "title" m.title ++ Actions.omitEmpty "message" m.message ++
    omitNumberValue "priority" m.priority

def middleValues (m : Message) : List (String × Json) :=
  Actions.omitEmpty "click" m.click ++ Actions.omitEmpty "icon" m.icon ++
    actionsValue m.actions

def lastValues (m : Message) : List (String × Json) :=
  Actions.omitEmpty "poll_id" m.pollID ++
    Actions.omitEmpty "content_type" m.contentType ++
    Actions.omitEmpty "encoding" m.encoding ++ Actions.omitEmpty "sender" m.senderName ++
    Actions.omitEmpty "reply_to" m.replyTo ++ replyToTextValue m.replyToText

def memberValues (m : Message) : List (String × Json) :=
  firstValues m ++ tagsValue m.tags ++ middleValues m ++ attachmentValue m.attachment ++
    lastValues m

/-- The value that the text of a message denotes. -/
def messageValue (m : Message) : Json :=
  .obj (memberValues m)

end Values

section Objects

/-- The text of a member with this name and value. -/
def IsMember
    (n : Nat)
    (text : List Char)
    (m : String × Json) : Prop :=
  ∃ value, text = member m.1 value ∧ Json.Denotes n value m.2

/-- The members of an object up to its end, after those that are done. -/
theorem denotes_intercalate
    {n : Nat} {text : List Char} {m : String × Json}
    {texts : List (List Char)} {members : List (String × Json)}
    (hm : IsMember n text m)
    (h : List.Forall₂ (IsMember n) texts members) :
    ∃ tokens, Json.Reads ([','].intercalate (text :: texts) ++ ['}'])
        (.value (.str m.1) :: tokens) ∧
      ∀ done stack, stack.length + 1 + n ≤ Json.maxNestingDepth →
        tokens.foldlM Json.feed (.colon done m.1 stack) =
          some (.after (.obj (done ++ m :: members)) stack) := by
  induction h generalizing text m with
  | nil =>
      obtain ⟨value, rfl, t, tokens, hreads, hfeed⟩ := hm
      refine ⟨.colon :: t :: tokens ++ [.closeObject], ?_, ?_⟩
      · rw [List.intercalate_singleton]
        exact ((Json.reads_quote m.1).append (hreads.cons rfl) rfl).append
          (Json.reads_single rfl) rfl
      · intro done stack hdepth
        have hvalue := hfeed (.object done m.1 :: stack) (by simpa using hdepth)
        exact Json.bind_feed_append hvalue [.closeObject]
  | @cons text' m' texts members hm' _ ih =>
      obtain ⟨value, rfl, t, tokens, hreads, hfeed⟩ := hm
      obtain ⟨tokens', hreads', hfeed'⟩ := ih hm'
      refine ⟨.colon :: t :: tokens ++ .comma :: .value (.str m'.1) :: tokens', ?_, ?_⟩
      · rw [List.intercalate_cons_cons, List.append_assoc, List.append_assoc,
          List.singleton_append]
        exact ((Json.reads_quote m.1).append (hreads.cons rfl) rfl).append
          (hreads'.cons rfl) rfl
      · intro done stack hdepth
        have hvalue := hfeed (.object done m.1 :: stack) (by simpa using hdepth)
        have hrest := hfeed' (done ++ [m]) stack hdepth
        rw [List.append_assoc] at hrest
        exact (Json.bind_feed_append hvalue _).trans hrest

/-- An object that is written member by member. -/
theorem denotes_objectText
    {n : Nat} {texts : List (List Char)} {members : List (String × Json)}
    (h : List.Forall₂ (IsMember n) texts members) :
    Json.Denotes (n + 1) (objectText texts) (.obj members) := by
  cases h with
  | nil =>
      refine ⟨.openObject, [.closeObject], (Json.reads_single rfl).cons rfl, ?_⟩
      intro stack hdepth
      rw [Json.feedValue, if_pos (by omega)]
      rfl
  | cons hm h =>
      obtain ⟨tokens, hreads, hfeed⟩ := denotes_intercalate hm h
      refine ⟨.openObject, _, hreads.cons rfl, ?_⟩
      intro stack hdepth
      rw [Json.feedValue, if_pos (by omega)]
      exact hfeed [] stack (by omega)

theorem Denotes.mono
    {n k : Nat} {text : List Char} {j : Json}
    (h : Json.Denotes n text j)
    (hle : n ≤ k) :
    Json.Denotes k text j := by
  obtain ⟨t, tokens, hreads, hfeed⟩ := h
  exact ⟨t, tokens, hreads, fun stack hdepth => hfeed stack (by omega)⟩

end Objects

section Numbers

/-- The first digit of a positive number is not a zero. -/
theorem head?_toDigits
    {n : Nat}
    (hn : 0 < n) :
    (Nat.toDigits 10 n).head? ≠ some '0' := by
  induction n using Nat.strong_induction_on with
  | _ n ih =>
      by_cases hlt : n < 10
      · have hsmall : ∀ k < 10, 0 < k → [k.digitChar].head? ≠ some '0' := by
          decide
        rw [Nat.toDigits_of_lt_base hlt]
        exact hsmall n hlt hn
      · have hrest := ih (n / 10) (by omega) (by omega)
        rw [Nat.toDigits_of_base_le (by omega) (by omega), List.head?_append]
        cases hdigits : Nat.toDigits 10 (n / 10) with
        | nil =>
            exact absurd hdigits Nat.toDigits_ne_nil
        | cons c digits =>
            rwa [hdigits] at hrest

theorem validNumber_numberText
    (n : Nat) :
    Json.validNumber (numberText n) = true := by
  have hdigits : numberText n = Nat.toDigits 10 n := by
    simp [numberText]
  have hall : ∀ c ∈ Nat.toDigits 10 n, c.isDigit = true :=
    fun c hc => Nat.isDigit_of_mem_toDigits (by decide) (by decide) hc
  have hminus : ∀ rest, Nat.toDigits 10 n ≠ '-' :: rest := by
    intro rest h
    exact absurd (hall '-' (h ▸ List.mem_cons_self)) (by decide)
  have htake : (Nat.toDigits 10 n).takeWhile Char.isDigit = Nat.toDigits 10 n :=
    List.takeWhile_eq_self_iff.mpr hall
  have hdrop : (Nat.toDigits 10 n).dropWhile Char.isDigit = [] :=
    List.dropWhile_eq_nil_iff.mpr hall
  have hint : Json.validInt (Nat.toDigits 10 n) = true := by
    rw [Json.validInt, Json.areDigits, List.all_eq_true.mpr hall, Bool.and_true,
      Bool.and_eq_true, Bool.or_eq_true, decide_eq_true_eq, decide_eq_true_eq]
    refine ⟨by simp [Nat.toDigits_ne_nil], ?_⟩
    by_cases hn : n = 0
    · subst hn
      exact Or.inl rfl
    · exact Or.inr (head?_toDigits (by omega))
  rw [hdigits, Json.validNumber]
  · simp only [htake, hdrop, hint, Bool.true_and]
    rfl
  · exact fun rest h => hminus rest h

end Numbers

section RoundTrip

variable {n : Nat}

theorem isMember_quote
    (name value : String) :
    IsMember n (member name (Json.quote value)) (name, .str value) :=
  ⟨_, rfl, Json.denotes_value (Json.reads_quote value)⟩

theorem isMember_numberText
    (name : String)
    (k : Nat) :
    IsMember n (member name (numberText k)) (name, .num (numberText k)) :=
  ⟨_, rfl, Json.denotes_value (Json.reads_number (validNumber_numberText k))⟩

theorem isMember_print
    (name : String)
    {j : Json}
    (hj : Json.Printable n j) :
    IsMember n (member name (Json.print j)) (name, j) :=
  ⟨_, rfl, Json.denotes_print hj⟩

theorem forall₂_omitText
    (name value : String) :
    List.Forall₂ (IsMember n) (omitText name value) (Actions.omitEmpty name value) := by
  unfold omitText Actions.omitEmpty
  split
  · exact .nil
  · exact .cons (isMember_quote name value) .nil

theorem forall₂_omitNumber
    (name : String)
    (k : Nat) :
    List.Forall₂ (IsMember n) (omitNumber name k) (omitNumberValue name k) := by
  unfold omitNumber omitNumberValue
  split
  · exact .nil
  · exact .cons (isMember_numberText name k) .nil

theorem forall₂_tagsMember
    (tags : List String) :
    List.Forall₂ (IsMember (n + 1)) (tagsMember tags) (tagsValue tags) := by
  unfold tagsMember tagsValue
  split
  · exact .nil
  · refine .cons (isMember_print "tags" (.arr _ fun j hj => ?_)) .nil
    obtain ⟨tag, -, rfl⟩ := List.mem_map.mp hj
    exact .str tag

theorem forall₂_actionsMember
    (actions : List Action) :
    List.Forall₂ (IsMember (n + 3)) (actionsMember actions) (actionsValue actions) := by
  unfold actionsMember actionsValue
  split
  · exact .nil
  · refine .cons (isMember_print "actions" (.arr _ fun j hj => ?_)) .nil
    obtain ⟨a, -, rfl⟩ := List.mem_map.mp hj
    exact Actions.printable_actionJSON n a

theorem forall₂_attachmentMember
    (attachment : Option Attachment) :
    List.Forall₂ (IsMember (n + 1)) (attachmentMember attachment)
      (attachmentValue attachment) := by
  cases attachment with
  | none =>
      exact .nil
  | some a =>
      refine .cons ⟨_, rfl, denotes_objectText ?_⟩ .nil
      refine List.rel_append (List.rel_append (List.rel_append (List.rel_append ?_
        (forall₂_omitText "type" a.type)) (forall₂_omitNumber "size" a.size))
        (forall₂_omitNumber "expires" a.expires)) ?_
      · exact .cons (isMember_quote "name" a.name) .nil
      · exact .cons (isMember_quote "url" a.url) .nil

/-- What the lexer collects for a rune that was written. -/
def codeOfRune : Option Char → Json.CodeUnit
  | some c => Json.codeOf c
  | none => .unit 0xfffd

theorem combine_map_codeOfRune
    (s : List (Option Char)) :
    Json.combine (s.map codeOfRune) = replaceInvalid s := by
  induction s with
  | nil =>
      rfl
  | cons r s ih =>
      cases r with
      | some c =>
          rw [List.map_cons, codeOfRune, Json.combine_codeOf, ih]
          rfl
      | none =>
          rw [List.map_cons, codeOfRune, Json.combine_unit rfl, ih]
          rfl

/-- What is written for a rune between quotes. -/
def escapeRune : Option Char → List Char
  | some c => Json.escape c
  | none => ['\\', 'u', 'f', 'f', 'f', 'd']

theorem quoteBytes_eq
    (s : List UInt8) :
    quoteBytes s = '"' :: ((runes s).flatMap escapeRune ++ ['"']) := by
  have hrune : escapeRune = fun r =>
      match r with
      | some c => Json.escape c
      | none => ['\\', 'u', 'f', 'f', 'f', 'd'] := by
    funext r
    cases r <;> rfl
  rw [hrune]
  rfl

theorem lex_escapeRune
    (units : List Json.CodeUnit)
    (r : Option Char)
    (rest : List Char) :
    Json.lex (.string units) (escapeRune r ++ rest) =
      Json.lex (.string (units ++ [codeOfRune r])) rest := by
  cases r with
  | some c =>
      exact Json.lex_escape units c rest
  | none =>
      have hf : Json.hexValue 'f' = some 15 := rfl
      have hd : Json.hexValue 'd' = some 13 := rfl
      simp [escapeRune, codeOfRune, Json.lexChar, hf, hd, Json.ofHex, Function.comp_def]

theorem lex_escapeRunes
    (units : List Json.CodeUnit)
    (rs : List (Option Char))
    (rest : List Char) :
    Json.lex (.string units) (rs.flatMap escapeRune ++ rest) =
      Json.lex (.string (units ++ rs.map codeOfRune)) rest := by
  induction rs generalizing units with
  | nil =>
      rw [List.flatMap_nil, List.map_nil, List.nil_append, List.append_nil]
  | cons r rs ih =>
      rw [List.flatMap_cons, List.append_assoc, lex_escapeRune, ih, List.map_cons,
        List.append_assoc, List.singleton_append]

/-- A string of bytes is read with its replacements. -/
theorem reads_quoteBytes
    (s : List UInt8) :
    Json.Reads (quoteBytes s)
      [.value (.str (String.ofList (replaceInvalid (runes s))))] := by
  intro rest _
  have hstart : Json.lexChar .between '"' = some ([], .string []) := rfl
  have hend : ∀ units, Json.lexChar (.string units) '"' =
      some ([.value (.str (String.ofList (Json.combine units)))], .between) :=
    fun _ => rfl
  rw [quoteBytes_eq, List.cons_append, List.append_assoc, Json.lex_cons, hstart,
    Option.bind_some, lex_escapeRunes, List.singleton_append, Json.lex_cons, hend,
    Option.bind_some, List.nil_append, combine_map_codeOfRune, Option.map_map]
  rfl

theorem forall₂_replyToTextMember
    (preview : List UInt8) :
    List.Forall₂ (IsMember n) (replyToTextMember preview) (replyToTextValue preview) := by
  unfold replyToTextMember replyToTextValue
  split
  · exact .nil
  · exact .cons ⟨_, rfl, Json.denotes_value (reads_quoteBytes preview)⟩ .nil

theorem forall₂_members
    (m : Message) :
    List.Forall₂ (IsMember (n + 3)) (members m) (memberValues m) := by
  have hfirst : List.Forall₂ (IsMember (n + 3)) (firstMembers m) (firstValues m) :=
    List.rel_append (List.rel_append (List.rel_append (List.rel_append (List.rel_append
      (List.rel_append (List.rel_append (.cons (isMember_quote "id" m.id) .nil)
        (forall₂_omitText "sequence_id" m.sequenceID))
        (.cons (isMember_numberText "time" m.time) .nil))
        (forall₂_omitNumber "expires" m.expires))
        (.cons (isMember_quote "event" (eventText m.event))
          (.cons (isMember_quote "topic" m.topic) .nil)))
        (forall₂_omitText "title" m.title)) (forall₂_omitText "message" m.message))
        (forall₂_omitNumber "priority" m.priority)
  have hmiddle : List.Forall₂ (IsMember (n + 3)) (middleMembers m) (middleValues m) :=
    List.rel_append (List.rel_append (forall₂_omitText "click" m.click)
      (forall₂_omitText "icon" m.icon)) (forall₂_actionsMember m.actions)
  have hlast : List.Forall₂ (IsMember (n + 3)) (lastMembers m) (lastValues m) :=
    List.rel_append (List.rel_append (List.rel_append (List.rel_append (List.rel_append
      (forall₂_omitText "poll_id" m.pollID) (forall₂_omitText "content_type" m.contentType))
      (forall₂_omitText "encoding" m.encoding)) (forall₂_omitText "sender" m.senderName))
      (forall₂_omitText "reply_to" m.replyTo)) (forall₂_replyToTextMember m.replyToText)
  exact List.rel_append (List.rel_append (List.rel_append (List.rel_append hfirst
    (forall₂_tagsMember m.tags)) hmiddle) (forall₂_attachmentMember m.attachment)) hlast

/-- The decoder reads the value of a message. -/
theorem parse_marshalMessage
    (m : Message) :
    Json.parse (marshalMessage m) = some (messageValue m) := by
  have hmembers : List.Forall₂ (IsMember 9999) (members m) (memberValues m) :=
    forall₂_members m
  obtain ⟨t, tokens, hreads, hfeed⟩ := denotes_objectText hmembers
  have hlex : Json.lex .between (marshalMessage m) = some (t :: tokens) := by
    simpa [Json.lex, marshalMessage] using hreads [] (by rintro c ⟨⟩)
  have hmachine : (t :: tokens).foldlM Json.feed (.value []) =
      some (.after (.obj (memberValues m)) []) :=
    hfeed [] (by simp [Json.maxNestingDepth])
  rw [Json.parse, hlex, Option.bind_some, Json.ofTokens, hmachine, messageValue]

end RoundTrip

section Names

/-- The fields of a message, in the order of the struct. -/
def fieldNames : List String :=
  ["id", "sequence_id", "time", "expires", "event", "topic", "title", "message",
    "priority", "tags", "click", "icon", "actions", "attachment", "poll_id",
    "content_type", "encoding", "sender", "reply_to", "reply_to_text"]

theorem names_omitEmpty
    (name value : String) :
    ((Actions.omitEmpty name value).map Prod.fst).Sublist [name] := by
  unfold Actions.omitEmpty
  split
  · exact List.nil_sublist _
  · exact List.Sublist.refl _

theorem names_omitNumberValue
    (name : String)
    (k : Nat) :
    ((omitNumberValue name k).map Prod.fst).Sublist [name] := by
  unfold omitNumberValue
  split
  · exact List.nil_sublist _
  · exact List.Sublist.refl _

theorem names_tagsValue
    (tags : List String) :
    ((tagsValue tags).map Prod.fst).Sublist ["tags"] := by
  unfold tagsValue
  split
  · exact List.nil_sublist _
  · exact List.Sublist.refl _

theorem names_actionsValue
    (actions : List Action) :
    ((actionsValue actions).map Prod.fst).Sublist ["actions"] := by
  unfold actionsValue
  split
  · exact List.nil_sublist _
  · exact List.Sublist.refl _

theorem names_attachmentValue
    (attachment : Option Attachment) :
    ((attachmentValue attachment).map Prod.fst).Sublist ["attachment"] := by
  cases attachment with
  | none => exact List.nil_sublist _
  | some a => exact List.Sublist.refl _

theorem names_replyToTextValue
    (preview : List UInt8) :
    ((replyToTextValue preview).map Prod.fst).Sublist ["reply_to_text"] := by
  unfold replyToTextValue
  split
  · exact List.nil_sublist _
  · exact List.Sublist.refl _

/-- No field is written twice, and the order is that of the struct. -/
theorem names_memberValues
    (m : Message) :
    ((memberValues m).map Prod.fst).Sublist fieldNames := by
  simp only [memberValues, firstValues, middleValues, lastValues, List.map_append]
  have hone : ∀ name, ([name] : List String).Sublist [name] := fun _ => List.Sublist.refl _
  have htwo : (["event", "topic"] : List String).Sublist ["event", "topic"] :=
    List.Sublist.refl _
  exact (((((((((((hone "id").append (names_omitEmpty _ _)).append (hone "time")).append
    (names_omitNumberValue _ _)).append htwo).append (names_omitEmpty _ _)).append
    (names_omitEmpty _ _)).append (names_omitNumberValue _ _)).append
    (names_tagsValue _)).append (((names_omitEmpty _ _).append
    (names_omitEmpty _ _)).append (names_actionsValue _))).append
    (names_attachmentValue _)).append ((((((names_omitEmpty _ _).append
    (names_omitEmpty _ _)).append (names_omitEmpty _ _)).append
    (names_omitEmpty _ _)).append (names_omitEmpty _ _)).append
    (names_replyToTextValue _))

end Names

section Lines

/-- No control character, and so no line break. -/
def Plain (text : List Char) : Prop :=
  ∀ c ∈ text, 0x20 ≤ c.toNat

theorem Plain.append
    {s t : List Char}
    (hs : Plain s)
    (ht : Plain t) :
    Plain (s ++ t) :=
  fun c hc => (List.mem_append.mp hc).elim (hs c) (ht c)

theorem Plain.cons
    {c : Char} {s : List Char}
    (hc : 0x20 ≤ c.toNat)
    (hs : Plain s) :
    Plain (c :: s) := by
  intro d hd
  rcases List.mem_cons.mp hd with rfl | hd
  · exact hc
  · exact hs d hd

theorem plain_escape
    (c : Char) :
    Plain (Json.escape c) := by
  have hdigit : ∀ k < 16, 0x20 ≤ (Json.hexDigit k).toNat := by
    decide
  unfold Json.escape
  split
  case h_1 _ e he =>
    have hshort : 0x20 ≤ e.toNat := by
      unfold Json.shortEscape at he
      split at he <;> cases he <;> decide
    exact .cons (by decide) (.cons hshort (fun d hd => absurd hd List.not_mem_nil))
  case h_2 =>
    split
    case isTrue hunit =>
      have hsmall : c.toNat / 0x1000 < 16 := by
        simp only [Json.needsUnit, Bool.or_eq_true, decide_eq_true_eq, List.mem_cons,
          List.not_mem_nil, or_false] at hunit
        obtain hsmall | rfl | rfl | rfl | rfl | rfl := hunit
        · omega
        all_goals decide
      exact .cons (by decide) (.cons (by decide) (.cons (hdigit _ hsmall)
        (.cons (hdigit _ (Nat.mod_lt _ (by decide))) (.cons (hdigit _ (Nat.mod_lt _ (by decide)))
        (.cons (hdigit _ (Nat.mod_lt _ (by decide)))
          (fun d hd => absurd hd List.not_mem_nil))))))
    case isFalse hunit =>
      simp only [Json.needsUnit, Bool.or_eq_true, decide_eq_true_eq, not_or] at hunit
      intro d hd
      rw [List.mem_singleton.mp hd]
      omega

theorem plain_quote
    (s : String) :
    Plain (Json.quote s) := by
  refine .append (.cons (by decide) fun c hc => ?_) (.cons (by decide)
    fun d hd => absurd hd List.not_mem_nil)
  obtain ⟨d, -, hd⟩ := List.mem_flatMap.mp hc
  exact plain_escape d c hd

theorem plain_quoteBytes
    (s : List UInt8) :
    Plain (quoteBytes s) := by
  rw [quoteBytes_eq]
  refine .cons (by decide) (.append (fun c hc => ?_) (.cons (by decide)
    fun d hd => absurd hd List.not_mem_nil))
  obtain ⟨r, -, hr⟩ := List.mem_flatMap.mp hc
  cases r with
  | some d =>
      exact plain_escape d c hr
  | none =>
      rw [escapeRune] at hr
      simp only [List.mem_cons, List.not_mem_nil, or_false] at hr
      rcases hr with rfl | rfl | rfl | rfl | rfl | rfl <;> decide

theorem plain_number
    {literal : List Char}
    (h : Json.validNumber literal = true) :
    Plain literal := by
  obtain ⟨c, rest, rfl, hc, hrest⟩ := Json.validNumber_spec h
  have hchar : ∀ d, Json.isNumberChar d = true → 0x20 ≤ d.toNat := by
    intro d hd
    simp only [Json.isNumberChar, Bool.or_eq_true, decide_eq_true_eq, List.mem_cons,
      List.not_mem_nil, or_false, Char.isDigit_iff_toNat] at hd
    rcases hd with ⟨hle, -⟩ | rfl | rfl | rfl | rfl | rfl
    · have hzero : '0'.toNat = 48 := rfl
      omega
    all_goals decide
  refine .cons (hchar c ?_) fun d hd => hchar d (List.all_eq_true.mp hrest d hd)
  rw [Json.isNumberChar]
  rw [Bool.or_eq_true, beq_iff_eq] at hc
  rcases hc with hdigit | rfl
  · rw [hdigit, Bool.true_or]
  · rfl

theorem plain_printItems
    {items : List Json}
    (h : ∀ j ∈ items, Plain (Json.print j)) :
    Plain (Json.printItems items) := by
  have hend : Plain [']'] := .cons (by decide) fun d hd => absurd hd List.not_mem_nil
  induction items with
  | nil =>
      exact hend
  | cons j items ih =>
      have hj := h j List.mem_cons_self
      have hrest := ih fun k hk => h k (List.mem_cons_of_mem j hk)
      cases items with
      | nil =>
          rw [Json.printItems]
          exact hj.append hend
      | cons k items =>
          rw [Json.printItems]
          · exact hj.append (.cons (by decide) hrest)
          · simp

theorem plain_printMembers
    {members : List (String × Json)}
    (h : ∀ m ∈ members, Plain (Json.print m.2)) :
    Plain (Json.printMembers members) := by
  have hend : Plain ['}'] := .cons (by decide) fun d hd => absurd hd List.not_mem_nil
  have hmember : ∀ m ∈ members, Plain (Json.printMember m) := by
    intro m hm
    rw [Json.printMember]
    exact (plain_quote m.1).append (.cons (by decide) (h m hm))
  clear h
  induction members with
  | nil =>
      exact hend
  | cons m members ih =>
      have hm := hmember m List.mem_cons_self
      have hrest := ih fun k hk => hmember k (List.mem_cons_of_mem m hk)
      cases members with
      | nil =>
          rw [Json.printMembers]
          exact hm.append hend
      | cons k members =>
          rw [Json.printMembers]
          · exact hm.append (.cons (by decide) hrest)
          · simp

theorem plain_print
    {n : Nat} {j : Json}
    (h : Json.Printable n j) :
    Plain (Json.print j) := by
  induction h with
  | null =>
      exact show ∀ c ∈ ['n', 'u', 'l', 'l'], 0x20 ≤ c.toNat from List.all_iff_forall_prop.mp (by decide)
  | bool b =>
      cases b
      · exact show ∀ c ∈ ['f', 'a', 'l', 's', 'e'], 0x20 ≤ c.toNat from
          List.all_iff_forall_prop.mp (by decide)
      · exact show ∀ c ∈ ['t', 'r', 'u', 'e'], 0x20 ≤ c.toNat from
          List.all_iff_forall_prop.mp (by decide)
  | num literal h =>
      exact plain_number h
  | str s =>
      exact plain_quote s
  | arr items _ ih =>
      exact .cons (by decide) (plain_printItems ih)
  | obj members _ ih =>
      exact .cons (by decide) (plain_printMembers ih)

theorem plain_objectText
    {texts : List (List Char)}
    (h : ∀ text ∈ texts, Plain text) :
    Plain (objectText texts) := by
  have hend : Plain ['}'] := .cons (by decide) fun d hd => absurd hd List.not_mem_nil
  refine .append (.cons (by decide) ?_) hend
  induction texts with
  | nil =>
      exact fun d hd => absurd hd List.not_mem_nil
  | cons text texts ih =>
      have hrest := ih fun t ht => h t (List.mem_cons_of_mem text ht)
      cases texts with
      | nil =>
          rw [List.intercalate_singleton]
          exact h text List.mem_cons_self
      | cons text' texts =>
          rw [List.intercalate_cons_cons, List.append_assoc]
          exact (h text List.mem_cons_self).append (.cons (by decide) hrest)

theorem plain_member
    (name : String)
    {value : List Char}
    (hvalue : Plain value) :
    Plain (member name value) :=
  (plain_quote name).append (.cons (by decide) hvalue)

theorem plain_omitText
    (name value : String) :
    ∀ text ∈ omitText name value, Plain text := by
  intro text htext
  unfold omitText at htext
  split at htext
  · cases htext
  · rw [List.mem_singleton.mp htext]
    exact plain_member name (plain_quote value)

theorem plain_omitNumber
    (name : String)
    (k : Nat) :
    ∀ text ∈ omitNumber name k, Plain text := by
  intro text htext
  unfold omitNumber at htext
  split at htext
  · cases htext
  · rw [List.mem_singleton.mp htext]
    exact plain_member name (plain_number (validNumber_numberText k))

theorem plain_tagsMember
    (tags : List String) :
    ∀ text ∈ tagsMember tags, Plain text := by
  intro text htext
  unfold tagsMember at htext
  split at htext
  · cases htext
  · have hprintable : Json.Printable 1 (.arr (tags.map Json.str)) := by
      refine .arr _ fun j hj => ?_
      obtain ⟨tag, -, rfl⟩ := List.mem_map.mp hj
      exact .str tag
    rw [List.mem_singleton.mp htext]
    exact plain_member "tags" (plain_print hprintable)

theorem plain_actionsMember
    (actions : List Action) :
    ∀ text ∈ actionsMember actions, Plain text := by
  intro text htext
  unfold actionsMember at htext
  split at htext
  · cases htext
  · have hprintable : Json.Printable 3 (.arr (actions.map Actions.actionJSON)) := by
      refine .arr _ fun j hj => ?_
      obtain ⟨a, -, rfl⟩ := List.mem_map.mp hj
      exact Actions.printable_actionJSON 0 a
    rw [List.mem_singleton.mp htext]
    exact plain_member "actions" (plain_print hprintable)

theorem plain_attachmentMember
    (attachment : Option Attachment) :
    ∀ text ∈ attachmentMember attachment, Plain text := by
  intro text htext
  cases attachment with
  | none =>
      cases htext
  | some a =>
      rw [List.mem_singleton.mp htext]
      refine plain_member "attachment" (plain_objectText ?_)
      simp only [List.forall_mem_append, List.forall_mem_singleton]
      exact ⟨⟨⟨⟨plain_member "name" (plain_quote a.name), plain_omitText _ _⟩,
        plain_omitNumber _ _⟩, plain_omitNumber _ _⟩,
        plain_member "url" (plain_quote a.url)⟩

theorem plain_replyToTextMember
    (preview : List UInt8) :
    ∀ text ∈ replyToTextMember preview, Plain text := by
  intro text htext
  unfold replyToTextMember at htext
  split at htext
  · cases htext
  · rw [List.mem_singleton.mp htext]
    exact plain_member _ (plain_quoteBytes preview)

/-- The text of a message has no control characters, whatever the message has. -/
theorem plain_marshalMessage
    (m : Message) :
    Plain (marshalMessage m) := by
  refine plain_objectText ?_
  simp only [members, firstMembers, middleMembers, lastMembers, List.forall_mem_append,
    List.forall_mem_cons]
  have hnil : ∀ text ∈ ([] : List (List Char)), Plain text :=
    fun _ h => absurd h List.not_mem_nil
  have hid := plain_member "id" (plain_quote m.id)
  have htime := plain_member "time" (plain_number (validNumber_numberText m.time))
  have hevent := plain_member "event" (plain_quote (eventText m.event))
  have htopic := plain_member "topic" (plain_quote m.topic)
  exact ⟨⟨⟨⟨⟨⟨⟨⟨⟨⟨⟨⟨hid, hnil⟩, plain_omitText _ _⟩, htime, hnil⟩, plain_omitNumber _ _⟩,
    hevent, htopic, hnil⟩, plain_omitText _ _⟩, plain_omitText _ _⟩, plain_omitNumber _ _⟩,
    plain_tagsMember _⟩, ⟨plain_omitText _ _, plain_omitText _ _⟩, plain_actionsMember _⟩,
    plain_attachmentMember _⟩, ⟨⟨⟨⟨plain_omitText _ _, plain_omitText _ _⟩,
    plain_omitText _ _⟩, plain_omitText _ _⟩, plain_omitText _ _⟩, plain_replyToTextMember _⟩

end Lines

section Fields

/-- The ID of a message is the field of that name. -/
theorem field?_id
    (m : Message) :
    (messageValue m).field? "id" = some (.str m.id) := by
  have hnodup : ((memberValues m).map Prod.fst).Nodup :=
    (names_memberValues m).nodup (by decide)
  have hmem : ("id", Json.str m.id) ∈ memberValues m := by
    simp [memberValues, firstValues]
  exact Json.field?_of_mem hnodup hmem

/-- Names of fields are within ASCII. -/
theorem isASCII_of_mem_names
    (m : Message) :
    ∀ p ∈ memberValues m, ∀ c ∈ p.1.toList, isASCII c = true := by
  have hall : fieldNames.all (fun name => name.toList.all isASCII) = true := by
    decide
  intro p hp
  have hname := (names_memberValues m).subset (List.mem_map_of_mem hp)
  exact List.all_eq_true.mp (List.all_eq_true.mp hall p.1 hname)

end Fields

end MessageJSON
end Server
end CoopMessenger
