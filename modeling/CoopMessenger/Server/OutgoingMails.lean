import CoopMessenger.Library.Base64
import CoopMessenger.Library.Templates
import CoopMessenger.Server.MailVisitors
import CoopMessenger.Server.Message
import CoopMessenger.Util.Dates
import CoopMessenger.Util.Encodings

/-!
# Outgoing mails

`formatMail` of `server/smtp_sender.go` replaces the placeholders of a text one after the
other.  The subject comes before the message, so that a placeholder in a subject is
replaced too.

**Results.**
* `substitute_mailText`: the mail line by line.
* `newline_filled_iff`: when a line break gets into a line of the header.
* `header_intact_iff`: when the header of a mail is the five lines it is made of.
-/

namespace CoopMessenger
namespace Server

open Library Library.Templates Manager Util

namespace OutgoingMails

section Model

/-- The placeholders, in the order in which they are replaced. -/
inductive Field where
  | sender
  | recipient
  | date
  | subject
  | message
  | topicURL
  | shortTopicURL
  | time
  | ip
deriving DecidableEq, Repr

def Field.placeholder : Field → List Char
  | .sender => "{from}".toList
  | .recipient => "{to}".toList
  | .date => "{date}".toList
  | .subject => "{subject}".toList
  | .message => "{message}".toList
  | .topicURL => "{topicURL}".toList
  | .shortTopicURL => "{shortTopicURL}".toList
  | .time => "{time}".toList
  | .ip => "{ip}".toList

def fields : List Field :=
  [.sender, .recipient, .date, .subject, .message, .topicURL, .shortTopicURL, .time, .ip]

def mailText : List Char :=
  ("From: \"{shortTopicURL}\" <{from}>\nTo: {to}\nDate: {date}\nSubject: {subject}\n" ++
    "Content-Type: text/plain; charset=\"utf-8\"\n\n{message}\n\n--\n" ++
    "This message was sent by {ip} at {time} via {topicURL}").toList

def toEmojis
    (emojiMap : String → Option String)
    (tags : List String) : List String × List String :=
  (tags.filterMap emojiMap, tags.filter fun t => (emojiMap t).isNone)

def priorityString : Nat → Option String
  | 0 => some "default"
  | 1 => some "min"
  | 2 => some "low"
  | 3 => some "default"
  | 4 => some "high"
  | 5 => some "max"
  | _ => none

/-- `maxBase64Len` of the package `mime` -/
def maxBase64Len : Nat := 45

/-- The parts of a text that fit into one encoded word each; characters are not cut. -/
def splitWords (current : List Char) (size : Nat) : List Char → List (List Char)
  | [] => [current]
  | c :: rest =>
      if size + c.utf8Size ≤ maxBase64Len then
        splitWords (current ++ [c]) (size + c.utf8Size) rest
      else
        current :: splitWords [c] c.utf8Size rest

def needsEncoding (s : List Char) : Bool :=
  s.any fun c => (decide (c < ' ') || decide ('~' < c)) && c ≠ '\t'

/-- `mime.BEncoding.Encode("utf-8", s)` -/
def bEncode (s : List Char) : List Char :=
  if needsEncoding s then
    [' '].intercalate ((splitWords [] 0 s).map fun word =>
      "=?utf-8?b?".toList ++ Base64.encode stdEncoding true (encode word) ++ "?=".toList)
  else
    s

/-- The subject before it is encoded. -/
def subjectText
    (emojiMap : String → Option String)
    (m : Message) : List Char :=
  let subject := if m.title = "" then m.message.toList else m.title.toList
  let subject := (subject.filter (· ≠ '\r')).map fun c => if c = '\n' then ' ' else c
  let emojis := (toEmojis emojiMap m.tags).1
  if emojis ≠ [] then
    (" ".intercalate emojis).toList ++ ' ' :: subject
  else
    subject

/-- What is below the message. -/
def trailer
    (emojiMap : String → Option String)
    (m : Message) : Option (List Char) :=
  let tags := (toEmojis emojiMap m.tags).2
  let trailer := if tags ≠ [] then "Tags: ".toList ++ (", ".intercalate tags).toList else []
  if m.priority ≠ 0 ∧ m.priority ≠ 3 then
    (priorityString m.priority).map fun priority =>
      (if trailer ≠ [] then trailer ++ ['\n'] else trailer) ++ "Priority: ".toList ++
        priority.toList
  else
    some trailer

def messageText
    (emojiMap : String → Option String)
    (m : Message) : Option (List Char) :=
  (trailer emojiMap m).map fun trailer =>
    if trailer ≠ [] then m.message.toList ++ "\n\n".toList ++ trailer else m.message.toList

/-- `ShortTopicURL` -/
def shortTopicURL (s : List Char) : List Char :=
  trimPrefix "http://".toList (trimPrefix "https://".toList s)

variable (emojiMap : String → Option String)
variable (baseURL senderIP sender recipient : List Char)
variable (m : Message)

/-- What is put in for the placeholders, for this text of the message. -/
def values (text : List Char) : Field → List Char
  | .sender => sender
  | .recipient => recipient
  | .date => Dates.formatRFC1123 "+0000".toList m.time
  | .subject => bEncode (subjectText emojiMap m)
  | .message => text
  | .topicURL => baseURL ++ '/' :: m.topic.toList
  | .shortTopicURL => shortTopicURL (baseURL ++ '/' :: m.topic.toList)
  | .time => Dates.formatRFC1123 "UTC".toList m.time
  | .ip => senderIP

def substitutions
    (values : Field → List Char)
    (fields : List Field) : List (List Char × List Char) :=
  fields.map fun f => (f.placeholder, values f)

/-- A priority that has no name is an error. -/
def formatMail : Option (List Char) :=
  (messageText emojiMap m).map fun text =>
    substitute (substitutions (values emojiMap baseURL senderIP sender recipient m text) fields)
      mailText

/-- `smtp.SendMail` refuses addresses of more than one line. -/
def validateLine (line : List Char) : Bool :=
  '\n' ∉ line && '\r' ∉ line

structure Config where
  baseURL : List Char
  smtpSenderAddr : List Char
  smtpSenderFrom : List Char

/-- `Send`, up to the connection to the mail server: the mail that it is given. -/
def send
    (conf : Config) : Option (List Char) :=
  if (MailVisitors.splitHostPort conf.smtpSenderAddr).isNone then
    none
  else
    match formatMail emojiMap conf.baseURL senderIP conf.smtpSenderFrom recipient m with
    | none => none
    | some mail =>
        if validateLine conf.smtpSenderFrom && validateLine recipient then some mail else none

/-- A mail as its reader splits it: the lines up to the first empty line, and the rest. -/
def readMail (mail : List Char) : List (List Char) × List Char :=
  let lines := mail.splitOn '\n'
  (lines.takeWhile (· ≠ []), ['\n'].intercalate (lines.dropWhile (· ≠ [])).tail)

end Model

section Template

/-- The text as a template behind its first characters. -/
def mailTemplate : Template Char Field :=
  .next .shortTopicURL '"' " ".toList '<' <|
  .next .sender '>' "\nTo:".toList ' ' <|
  .next .recipient '\n' "Date:".toList ' ' <|
  .next .date '\n' "Subject:".toList ' ' <|
  .next .subject '\n' "Content-Type: text/plain; charset=\"utf-8\"\n".toList '\n' <|
  .next .message '\n' "\n--\nThis message was sent by".toList ' ' <|
  .next .ip ' ' "at".toList ' ' <|
  .next .time ' ' "via".toList ' ' <|
  .last .topicURL

theorem mailText_eq :
    mailText = "From: ".toList ++ '"' :: mailTemplate.fill Field.placeholder := by
  decide +kernel

variable {values : Field → List Char}

/-- What all placeholders have in common. -/
theorem forall_mem_substitutions
    {p : List Char → Prop} {used : List Field}
    (h : ∀ f : Field, p f.placeholder) :
    ∀ sub ∈ substitutions values used, p sub.1 := by
  intro sub hsub
  obtain ⟨f, -, rfl⟩ := List.mem_map.mp hsub
  exact h f

theorem placeholder_ne_nil
    {used : List Field} :
    ∀ sub ∈ substitutions values used, sub.1 ≠ [] :=
  forall_mem_substitutions (p := (· ≠ [])) fun f => by cases f <;> decide

theorem separated_mailTemplate
    {used : List Field} :
    mailTemplate.Separated (substitutions values used) := by
  have hseparates : ∀ (c d : Char) (middle : List Char),
      (∀ f ∈ fields, c ∉ f.placeholder ∧ d ∉ f.placeholder ∧ ¬ f.placeholder <:+: middle) →
        ∀ sub ∈ substitutions values used, c ∉ sub.1 ∧ d ∉ sub.1 ∧ ¬ sub.1 <:+: middle :=
    fun c d middle h => forall_mem_substitutions
      (p := fun s => c ∉ s ∧ d ∉ s ∧ ¬ s <:+: middle)
      fun f => h f (by cases f <;> decide)
  unfold mailTemplate
  simp only [Template.Separated, and_true]
  refine ⟨?_, ?_, ?_, ?_, ?_, ?_, ?_, ?_⟩ <;> exact hseparates _ _ _ (by decide +kernel)

/-- The placeholders that are replaced after this one. -/
def Field.later (f : Field) : List Field :=
  (fields.dropWhile (· ≠ f)).tail

/-- What becomes of the value of a placeholder. -/
def filled
    (values : Field → List Char)
    (f : Field) : List Char :=
  substitute (substitutions values f.later) (values f)

theorem substitute_fields
    (f : Field) :
    substitute (substitutions values fields) f.placeholder = filled values f := by
  have hsplit : fields = fields.takeWhile (· ≠ f) ++ f :: f.later := by
    cases f <;> rfl
  have hearlier : ∀ g ∈ fields.takeWhile (· ≠ f), ¬ g.placeholder <:+: f.placeholder := by
    cases f <;> decide +kernel
  have hne : f.placeholder ≠ [] := by
    cases f <;> decide
  conv_lhs => rw [hsplit]
  rw [substitutions, List.map_append, List.map_cons, substitute_placeholder hne]
  · rfl
  · intro sub hsub
    obtain ⟨g, hg, rfl⟩ := List.mem_map.mp hsub
    exact hearlier g hg

/-- The lines of the header. -/
def headerLines (values : Field → List Char) : List (List Char) :=
  ["From: \"".toList ++ filled values .shortTopicURL ++ "\" <".toList ++
      filled values .sender ++ [('>' : Char)],
    "To: ".toList ++ filled values .recipient,
    "Date: ".toList ++ filled values .date,
    "Subject: ".toList ++ filled values .subject,
    "Content-Type: text/plain; charset=\"utf-8\"".toList]

/-- What is below the header. -/
def bodyText (values : Field → List Char) : List Char :=
  filled values .message ++ "\n\n--\nThis message was sent by ".toList ++
    filled values .ip ++ " at ".toList ++ filled values .time ++ " via ".toList ++
      filled values .topicURL

/-- The mail line by line. -/
theorem substitute_mailText :
    substitute (substitutions values fields) mailText =
      ['\n'].intercalate (headerLines values ++ [[], bodyText values]) := by
  have hquote : ∀ sub ∈ substitutions values fields, '"' ∉ sub.1 :=
    forall_mem_substitutions (p := ('"' ∉ ·)) fun f => by cases f <;> decide
  have hstart : ∀ sub ∈ substitutions values fields, ¬ sub.1 <:+: "From: ".toList :=
    forall_mem_substitutions (p := (¬ · <:+: "From: ".toList)) fun f => by
      cases f <;> decide
  rw [mailText_eq, substitute_separate placeholder_ne_nil hquote, substitute_of_not_infix hstart,
    substitute_text placeholder_ne_nil separated_mailTemplate]
  simp only [substitute_fields]
  simp [mailTemplate, Template.fill, headerLines, bodyText, List.intercalate]

end Template

section Reading

variable {values : Field → List Char}

theorem splitOn_lines
    {lines : List (List Char)}
    (hlines : ∀ line ∈ lines, '\n' ∉ line)
    (body : List Char) :
    (['\n'].intercalate (lines ++ [[], body])).splitOn '\n' =
      lines ++ [] :: body.splitOn '\n' := by
  induction lines with
  | nil =>
      have htext : ['\n'].intercalate ([] ++ [[], body]) = [] ++ '\n' :: body := by
        simp [List.intercalate]
      rw [htext, List.splitOn_append_cons_self_of_not_mem List.not_mem_nil]
      rfl
  | cons line lines ih =>
      have hne : lines ++ [[], body] ≠ [] :=
        List.append_ne_nil_of_right_ne_nil _ (List.cons_ne_nil _ _)
      have htext : ['\n'].intercalate (line :: lines ++ [[], body]) =
          line ++ '\n' :: ['\n'].intercalate (lines ++ [[], body]) := by
        rw [List.cons_append, List.intercalate_cons_of_ne_nil hne, List.append_assoc]
        rfl
      rw [htext, List.splitOn_append_cons_self_of_not_mem (hlines line List.mem_cons_self),
        ih fun l hl => hlines l (List.mem_cons_of_mem _ hl)]
      rfl

theorem headerLines_ne_nil :
    ∀ line ∈ headerLines values, line ≠ [] := by
  intro line hline
  simp only [headerLines, List.mem_cons, List.not_mem_nil, or_false] at hline
  rcases hline with rfl | rfl | rfl | rfl | rfl <;> simp

/-- A mail is read as it is made, just if the lines of its header are lines. -/
theorem readMail_iff :
    readMail (['\n'].intercalate (headerLines values ++ [[], bodyText values])) =
        (headerLines values, bodyText values) ↔
      ∀ line ∈ headerLines values, '\n' ∉ line := by
  constructor
  · intro hread line hline
    have hlines := congrArg Prod.fst hread
    dsimp only [readMail] at hlines
    rw [← hlines] at hline
    exact notMem_of_mem_splitOn ((List.takeWhile_sublist _).subset hline)
  · intro hlines
    have hall : ∀ line ∈ headerLines values, (fun l => decide (l ≠ [])) line = true :=
      fun line hline => decide_eq_true (headerLines_ne_nil line hline)
    simp only [readMail]
    rw [splitOn_lines hlines, List.takeWhile_append_of_pos hall,
      List.dropWhile_append_of_pos hall]
    simp [List.intercalate_splitOn]

/-- The placeholders that are replaced after this one and before the message. -/
def Field.between (f : Field) : List Field :=
  f.later.takeWhile (· ≠ .message)

/-- When the message is put in, its placeholder is in the value. -/
def Exposed
    (values : Field → List Char)
    (f : Field) : Prop :=
  Field.message.placeholder <:+: substitute (substitutions values f.between) (values f)

theorem newline_placeholder :
    ∀ f : Field, '\n' ∉ f.placeholder := by
  intro f
  cases f <;> decide

/-- How a line break gets into a value that is put in before the message. -/
theorem newline_filled_iff
    (hvalues : ∀ f, f ≠ .message → '\n' ∉ values f)
    {f : Field}
    (hf : f ∈ [Field.sender, .recipient, .date, .subject]) :
    '\n' ∈ filled values f ↔ Exposed values f ∧ '\n' ∈ values .message := by
  have hsplit : f.later = f.between ++ .message :: [.topicURL, .shortTopicURL, .time, .ip] ∧
      f ≠ .message ∧ ∀ g ∈ f.between, g ≠ .message := by
    revert f
    decide
  obtain ⟨hlater, hself, hbetween⟩ := hsplit
  have hsubs : substitutions values f.later = substitutions values f.between ++
      (Field.message.placeholder, values .message) ::
        substitutions values [.topicURL, .shortTopicURL, .time, .ip] := by
    rw [hlater, substitutions, List.map_append, List.map_cons]
    rfl
  have hnewline : ∀ used : List Field, ∀ sub ∈ substitutions values used, '\n' ∉ sub.1 :=
    fun used => forall_mem_substitutions (p := ('\n' ∉ ·)) newline_placeholder
  rw [filled, hsubs, mem_substitute_iff (hsubs ▸ placeholder_ne_nil) (hsubs ▸ hnewline _)]
  · constructor
    · rintro (h | h)
      · exact absurd h (hvalues f hself)
      · exact h
    · exact .inr
  · intro sub hsub
    obtain ⟨g, hg, rfl⟩ := List.mem_map.mp hsub
    exact hvalues g (hbetween g hg)
  · intro sub hsub
    obtain ⟨g, hg, rfl⟩ := List.mem_map.mp hsub
    refine hvalues g ?_
    rintro rfl
    revert hg
    decide

/-- The URL of the topic is put in after the message. -/
theorem newline_filled_shortTopicURL
    (hvalues : ∀ f, f ≠ .message → '\n' ∉ values f) :
    '\n' ∉ filled values .shortTopicURL := by
  rw [filled, mem_substitute_iff_of_not_mem placeholder_ne_nil
    (forall_mem_substitutions (p := ('\n' ∉ ·)) newline_placeholder)]
  · exact hvalues _ (by decide)
  · intro sub hsub
    obtain ⟨g, hg, rfl⟩ := List.mem_map.mp hsub
    refine hvalues g ?_
    rintro rfl
    revert hg
    decide

/-- When the lines of the header are lines. -/
theorem header_lines_iff
    (hvalues : ∀ f, f ≠ .message → '\n' ∉ values f)
    (hdate : ¬ Exposed values .date) :
    (∀ line ∈ headerLines values, '\n' ∉ line) ↔
      '\n' ∉ values .message ∨
        ∀ f ∈ [Field.sender, .recipient, .subject], ¬ Exposed values f := by
  have hshort := newline_filled_shortTopicURL hvalues
  have hsender := newline_filled_iff hvalues (f := .sender) (by decide)
  have hrecipient := newline_filled_iff hvalues (f := .recipient) (by decide)
  have hdate' := newline_filled_iff hvalues (f := .date) (by decide)
  have hsubject := newline_filled_iff hvalues (f := .subject) (by decide)
  have hlines : (∀ line ∈ headerLines values, '\n' ∉ line) ↔
      '\n' ∉ filled values .sender ∧ '\n' ∉ filled values .recipient ∧
        '\n' ∉ filled values .date ∧ '\n' ∉ filled values .subject := by
    simp only [headerLines, List.forall_mem_cons, List.mem_append, not_or, List.not_mem_nil,
      IsEmpty.forall_iff, implies_true, and_true, hshort, not_false_eq_true]
    have hconst : '\n' ∉ "From: \"".toList ∧ '\n' ∉ "\" <".toList ∧ '\n' ∉ [('>' : Char)] ∧
        '\n' ∉ "To: ".toList ∧ '\n' ∉ "Date: ".toList ∧ '\n' ∉ "Subject: ".toList ∧
        '\n' ∉ "Content-Type: text/plain; charset=\"utf-8\"".toList := by
      decide
    obtain ⟨h₁, h₂, h₃, h₄, h₅, h₆, h₇⟩ := hconst
    simp only [h₁, h₂, h₃, h₄, h₅, h₆, h₇, not_false_eq_true, true_and, and_true]
  rw [hlines, hsender, hrecipient, hdate', hsubject, List.forall_mem_cons,
    List.forall_mem_cons, List.forall_mem_singleton]
  constructor
  · rintro ⟨h₁, h₂, -, h₃⟩
    by_cases hnewline : '\n' ∈ values .message
    · exact .inr ⟨fun h => h₁ ⟨h, hnewline⟩, fun h => h₂ ⟨h, hnewline⟩,
        fun h => h₃ ⟨h, hnewline⟩⟩
    · exact .inl hnewline
  · rintro (hnewline | ⟨h₁, h₂, h₃⟩)
    · exact ⟨fun h => hnewline h.2, fun h => hnewline h.2, fun h => hnewline h.2,
        fun h => hnewline h.2⟩
    · exact ⟨fun h => h₁ h.1, fun h => h₂ h.1, fun h => hdate h.1, fun h => h₃ h.1⟩

end Reading

section Values

variable {emojiMap : String → Option String}
variable {s text baseURL senderIP sender recipient : List Char}
variable {m : Message}

theorem mem_intercalate
    {sep : List Char} {parts : List (List Char)} {c : Char}
    (h : c ∈ sep.intercalate parts) :
    c ∈ sep ∨ ∃ part ∈ parts, c ∈ part := by
  induction parts with
  | nil =>
      simp at h
  | cons part parts ih =>
      by_cases hne : parts = []
      · rw [hne, List.intercalate_singleton] at h
        exact .inr ⟨part, List.mem_cons_self, h⟩
      · rw [List.intercalate_cons_of_ne_nil hne, List.append_assoc, List.mem_append,
          List.mem_append] at h
        rcases h with h | h | h
        · exact .inr ⟨part, List.mem_cons_self, h⟩
        · exact .inl h
        · rcases ih h with h | ⟨p, hp, h⟩
          · exact .inl h
          · exact .inr ⟨p, List.mem_cons_of_mem _ hp, h⟩

/-- An encoded subject is one line and has no braces. -/
theorem mem_bEncode
    {c : Char}
    (hs : needsEncoding s = true)
    (h : c ∈ bEncode s) :
    c ≠ '\n' ∧ c ≠ '\x7b' := by
  have halphabet : ∀ c ∈ stdEncoding.chars, c ≠ '\n' ∧ c ≠ '\x7b' :=
    List.all_iff_forall_prop.mp (by decide +kernel)
  have hfixed : ∀ c ∈ ' ' :: ("=?utf-8?b?".toList ++ "?=".toList), c ≠ '\n' ∧ c ≠ '\x7b' :=
    List.all_iff_forall_prop.mp (by decide)
  rw [bEncode, if_pos hs] at h
  rcases mem_intercalate h with h | ⟨part, hpart, h⟩
  · exact hfixed c (List.mem_cons.mpr (.inl (List.mem_singleton.mp h)))
  · obtain ⟨word, -, rfl⟩ := List.mem_map.mp hpart
    rw [List.mem_append, List.mem_append] at h
    rcases h with (h | h) | h
    · exact hfixed c (List.mem_cons_of_mem _ (List.mem_append_left _ h))
    · rcases Base64.mem_encode h with hmem | ⟨-, rfl⟩
      · exact halphabet c hmem
      · decide
    · exact hfixed c (List.mem_cons_of_mem _ (List.mem_append_right _ h))

theorem newline_bEncode :
    '\n' ∉ bEncode s := by
  intro h
  by_cases hs : needsEncoding s = true
  · exact (mem_bEncode hs h).1 rfl
  · rw [bEncode, if_neg hs] at h
    refine hs (List.any_eq_true.mpr ⟨'\n', h, ?_⟩)
    decide

/-- A text without braces has no placeholders. -/
theorem not_infix_placeholder
    (h : '\x7b' ∉ s)
    (f : Field) :
    ¬ f.placeholder <:+: s := by
  intro hpart
  refine h (hpart.subset ?_)
  cases f <;> decide

theorem plain_allowedTopic
    {topic : String}
    (h : allowedTopic topic = true) :
    '\n' ∉ topic.toList := by
  intro hmem
  rw [allowedTopic, Bool.and_eq_true] at h
  exact absurd (List.all_eq_true.mp h.2 _ hmem) (by decide)

theorem mem_trimPrefix
    {start : List Char} {c : Char}
    (h : c ∈ trimPrefix start s) :
    c ∈ s := by
  rw [trimPrefix] at h
  split at h
  · exact List.mem_of_mem_drop h
  · exact h

/-- Only the message has line breaks. -/
theorem newline_values
    (hbase : '\n' ∉ baseURL)
    (hip : '\n' ∉ senderIP)
    (hsender : '\n' ∉ sender)
    (hrecipient : '\n' ∉ recipient)
    (htopic : allowedTopic m.topic = true) :
    ∀ f, f ≠ .message →
      '\n' ∉ values emojiMap baseURL senderIP sender recipient m text f := by
  have hdate : ∀ zone unix, (∀ c ∈ zone, Dates.plain c = true) →
      '\n' ∉ Dates.formatRFC1123 zone unix := by
    intro zone unix hzone h
    exact absurd (Dates.plain_formatRFC1123 hzone _ h) (by decide)
  have hurl : '\n' ∉ baseURL ++ '/' :: m.topic.toList := by
    rw [List.mem_append, List.mem_cons]
    rintro (h | h | h)
    · exact hbase h
    · exact absurd h (by decide)
    · exact plain_allowedTopic htopic h
  intro f hf
  cases f with
  | sender =>
      exact hsender
  | recipient =>
      exact hrecipient
  | date =>
      exact hdate _ _ (List.all_iff_forall_prop.mp (by decide))
  | subject =>
      exact newline_bEncode
  | message =>
      exact absurd rfl hf
  | topicURL =>
      exact hurl
  | shortTopicURL =>
      exact fun h => hurl (mem_trimPrefix (mem_trimPrefix h))
  | time =>
      exact hdate _ _ (List.all_iff_forall_prop.mp (by decide))
  | ip =>
      exact hip

theorem not_exposed_date :
    ¬ Exposed (values emojiMap baseURL senderIP sender recipient m text) .date := by
  have hbrace : '\x7b' ∉ Dates.formatRFC1123 "+0000".toList m.time := by
    intro h
    exact absurd (Dates.plain_formatRFC1123 (List.all_iff_forall_prop.mp (by decide)) _ h) (by decide)
  have hsame : substitute (substitutions
      (values emojiMap baseURL senderIP sender recipient m text) Field.date.between)
        (Dates.formatRFC1123 "+0000".toList m.time) =
      Dates.formatRFC1123 "+0000".toList m.time :=
    substitute_of_not_infix
      (forall_mem_substitutions (p := (¬ · <:+: _)) (not_infix_placeholder hbrace))
  rw [Exposed]
  simp only [values]
  rw [hsame]
  exact not_infix_placeholder hbrace _

/-- Which subjects have the message in them when they are sent. -/
theorem exposed_subject_iff :
    Exposed (values emojiMap baseURL senderIP sender recipient m text) .subject ↔
      needsEncoding (subjectText emojiMap m) = false ∧
        Field.message.placeholder <:+: subjectText emojiMap m := by
  have hbetween : Field.subject.between = [] := by
    rfl
  rw [Exposed, hbetween]
  change Field.message.placeholder <:+: bEncode (subjectText emojiMap m) ↔ _
  cases hs : needsEncoding (subjectText emojiMap m) with
  | true =>
      have hbrace : '\x7b' ∉ bEncode (subjectText emojiMap m) :=
        fun h => (mem_bEncode hs h).2 rfl
      simp [not_infix_placeholder hbrace]
  | false =>
      rw [bEncode, if_neg (by simp [hs])]
      simp

/--
The header of a mail that is sent is the five lines that it is made of, and the message is
below, just if the message with its trailer is one line, or `{message}` is in none of the
values that are put in before it.
-/
theorem header_intact_iff
    (emojiMap : String → Option String)
    (conf : Config)
    (senderIP recipient : List Char)
    (m : Message)
    {mail text : List Char}
    (hbase : '\n' ∉ conf.baseURL)
    (hip : '\n' ∉ senderIP)
    (htopic : allowedTopic m.topic = true)
    (htext : messageText emojiMap m = some text)
    (hmail : send emojiMap senderIP recipient m conf = some mail) :
    let v := values emojiMap conf.baseURL senderIP conf.smtpSenderFrom recipient m text
    readMail mail = (headerLines v, bodyText v) ↔
      '\n' ∉ text ∨ ∀ f ∈ [Field.sender, .recipient, .subject], ¬ Exposed v f := by
  intro v
  rw [send] at hmail
  split at hmail
  · cases hmail
  · rw [formatMail, htext] at hmail
    dsimp only [Option.map_some] at hmail
    split at hmail
    · next hlines =>
        simp only [Bool.and_eq_true, validateLine, decide_eq_true_eq] at hlines
        have hvalues := @newline_values emojiMap text _ _ _ _ _ hbase hip hlines.1.1 hlines.2.1
          htopic
        rw [← Option.some.inj hmail, substitute_mailText, readMail_iff]
        exact header_lines_iff hvalues not_exposed_date
    · cases hmail

def ntfyMailer : Config where
  baseURL := "https://ntfy.sh".toList
  smtpSenderAddr := "mail.ntfy.sh:587".toList
  smtpSenderFrom := "ntfy@ntfy.sh".toList

/-- A title that is a placeholder. -/
def titleMessage : Message :=
  { newMessage "LFPmpSqdCmUq" 1640382204 .message "alerts" "Hi\nBcc: eve@example.com" with
    title := "{message}" }

theorem header_not_intact_titleMessage :
    ∃ mail, send (fun _ => none) "1.2.3.4".toList "phil@example.com".toList titleMessage
        ntfyMailer = some mail ∧
      "Bcc: eve@example.com".toList ∈ (readMail mail).1 ∧
      let v := values (fun _ => none) ntfyMailer.baseURL "1.2.3.4".toList
        ntfyMailer.smtpSenderFrom "phil@example.com".toList titleMessage
        "Hi\nBcc: eve@example.com".toList
      readMail mail ≠ (headerLines v, bodyText v) := by
  refine ⟨_, rfl, by decide +kernel, ?_⟩
  intro v hread
  rcases (header_intact_iff (fun _ => none) ntfyMailer "1.2.3.4".toList
    "phil@example.com".toList titleMessage (by decide) (by decide) (by decide) rfl rfl).mp
      hread with h | h
  · exact h (by decide)
  · refine h .subject (by decide) ?_
    rw [exposed_subject_iff]
    decide +kernel

end Values

end OutgoingMails
end Server
end CoopMessenger
