import CoopMessenger.Util.Text

/-!
# Mail bodies

`readMailBody` of `server/smtp_server.go`: the text of a mail is taken from its parts.
The reader of a multipart body ends with `io.EOF`, also a nested one, and the reader
around it takes this for an error of its own: after the first nested multipart body no
part is read any more.

**Results.**
* `readMultipartMailBodyParts_spec`: which parts are read, and what ends the reading.
* `keepsText_iff`: for which mails the text is kept.
-/

namespace CoopMessenger
namespace Server

open Util

namespace MailBodies

abbrev Bytes : Type := List UInt8

section Model

/-- Decoders of the standard library, and the policy that strips HTML of its tags. -/
structure Library where
  base64 : Bytes → Option Bytes
  quotedPrintable : Bytes → Option Bytes
  sanitize : Bytes → Bytes

/-- The media type of a part that is no multipart body. -/
structure LeafType where
  mediaType : String
  notMultipart : "multipart/".toList.isPrefixOf (lower mediaType).toList = false
deriving DecidableEq

/-- A part with content; the type is missing if the header `Content-Type` is. -/
structure Leaf where
  contentType : Option LeafType
  transferEncoding : String
  body : Bytes
deriving DecidableEq

/-- The parts of a multipart body in their order. -/
inductive Parts where
  | done
  | leaf (part : Leaf) (rest : Parts)
  | multipart (parts : Parts) (rest : Parts)
deriving DecidableEq

inductive Mail where
  | leaf (part : Leaf)
  | multipart (parts : Parts)
deriving DecidableEq

inductive Error where
  | eof
  | multipartNestedTooDeep
  | unsupportedContentType
  | noMediaType
  | malformed
deriving DecidableEq, Repr

def maxMultipartDepth : Nat := 2

/-- White space of the regular expressions. -/
def isBlank (b : UInt8) : Bool :=
  b == 9 || b == 10 || b == 12 || b == 13 || b == 32

/-- The length of what `^\s+$` matches at the start of a line. -/
def blankLength (s : Bytes) : Nat :=
  let run := s.takeWhile isBlank
  if run.length = s.length then
    run.length
  else
    (run.rdropWhile (· != 10)).length - 1

/-- Deletes the matches, after so many deleted bytes and maybe at the start of a line. -/
def deleteBlank :
    Nat → Bool → Bytes → Bytes
  | _, _, [] => []
  | skip + 1, _, b :: rest => deleteBlank skip (b == 10) rest
  | 0, lineStart, b :: rest =>
      if lineStart ∧ 0 < blankLength (b :: rest) then
        deleteBlank (blankLength (b :: rest) - 1) (b == 10) rest
      else
        b :: deleteBlank 0 (b == 10) rest

/-- Leaves two of three or more newlines, after so many. -/
def limitNewLines :
    Nat → Bytes → Bytes
  | _, [] => []
  | n, b :: rest =>
      if b = 10 then
        if n < 2 then b :: limitNewLines (n + 1) rest else limitNewLines n rest
      else
        b :: limitNewLines 0 rest

def removeExtraEmptyLines (s : Bytes) : Bytes :=
  limitNewLines 0 (deleteBlank 0 true s)

variable (lib : Library)

def readPlainTextMailBody
    (body : Bytes)
    (transferEncoding : String) : Except Error Bytes :=
  if lower transferEncoding = "base64" then
    (lib.base64 body).elim (.error .malformed) .ok
  else if lower transferEncoding = "quoted-printable" then
    (lib.quotedPrintable body).elim (.error .malformed) .ok
  else
    .ok body

def readHTMLMailBody
    (body : Bytes)
    (transferEncoding : String) : Except Error Bytes :=
  (readPlainTextMailBody lib body transferEncoding).map fun s =>
    removeExtraEmptyLines (lib.sanitize s)

def readTextMailBody
    (body : Bytes)
    (contentType transferEncoding : String) : Except Error Bytes :=
  if contentType = "text/plain" then
    readPlainTextMailBody lib body transferEncoding
  else if contentType = "text/html" then
    readHTMLMailBody lib body transferEncoding
  else
    .error .unsupportedContentType

/-- The map of the text parts that were read. -/
structure Found where
  plain : Option Bytes
  html : Option Bytes
deriving DecidableEq, Repr

def Found.set
    (found : Found)
    (contentType : String)
    (s : Bytes) : Found :=
  if contentType = "text/plain" then
    { found with plain := some s }
  else
    { found with html := some s }

/-- Reads the parts into the map, until an error. -/
def readMultipartMailBodyParts :
    Nat → Parts → Found → Found × Option Error
  | depth, parts, found =>
      if maxMultipartDepth ≤ depth then
        (found, some .multipartNestedTooDeep)
      else
        match parts with
        | .done => (found, some .eof)
        | .leaf part rest =>
            match part.contentType with
            | none => (found, some .noMediaType)
            | some ty =>
                if lower ty.mediaType = "text/plain" ∨ lower ty.mediaType = "text/html" then
                  match readTextMailBody lib part.body (lower ty.mediaType)
                    part.transferEncoding with
                  | .error e => (found, some e)
                  | .ok s =>
                      readMultipartMailBodyParts depth rest
                        (found.set (lower ty.mediaType) s)
                else
                  readMultipartMailBodyParts depth rest found
        | .multipart parts rest =>
            match readMultipartMailBodyParts (depth + 1) parts found with
            | (found, some e) => (found, some e)
            | (found, none) => readMultipartMailBodyParts depth rest found

def readMultipartMailBody (parts : Parts) : Except Error Bytes :=
  match readMultipartMailBodyParts lib 0 parts ⟨none, none⟩ with
  | (found, e) =>
      match e.filter (fun e => e ≠ .eof) with
      | some e => .error e
      | none =>
          match found.plain with
          | some s => .ok s
          | none =>
              match found.html with
              | some s => .ok s
              | none => .error .eof

def readMailBody : Mail → Except Error Bytes
  | .leaf part =>
      match part.contentType with
      | none => readPlainTextMailBody lib part.body part.transferEncoding
      | some ty =>
          if lower ty.mediaType = "text/plain" ∨ lower ty.mediaType = "text/html" then
            readTextMailBody lib part.body (lower ty.mediaType) part.transferEncoding
          else
            .error .unsupportedContentType
  | .multipart parts => readMultipartMailBody lib parts

/-- The media type of a part; it is plain text if there is none. -/
def Leaf.mediaType (part : Leaf) : String :=
  part.contentType.elim "text/plain" fun ty => lower ty.mediaType

/-- The text of a part, decoded, and stripped if it is HTML. -/
def Leaf.text (part : Leaf) : Except Error Bytes :=
  readTextMailBody lib part.body part.mediaType part.transferEncoding

/-- All parts with content, at any depth. -/
def Parts.leaves :
    Parts → List Leaf
  | .done => []
  | .leaf part rest => part :: rest.leaves
  | .multipart parts rest => parts.leaves ++ rest.leaves

def Mail.leaves :
    Mail → List Leaf
  | .leaf part => [part]
  | .multipart parts => parts.leaves

/-- The parts up to the first nested multipart body, and of that one the same. -/
def Parts.reached :
    Parts → List Leaf
  | .done => []
  | .leaf part rest => part :: rest.reached
  | .multipart parts _ => parts.reached

/-- How deep multipart bodies are nested in the parts. -/
def Parts.height :
    Parts → Nat
  | .done => 0
  | .leaf _ rest => rest.height
  | .multipart parts rest => max (parts.height + 1) rest.height

/-- The nesting is allowed, and the encodings can be decoded. -/
structure WellFormed (mail : Mail) : Prop where
  depth : ∀ parts, mail = .multipart parts → parts.height < maxMultipartDepth
  decodable : ∀ part ∈ mail.leaves,
    ∃ s, readPlainTextMailBody lib part.body part.transferEncoding = .ok s

/--
The text of a plain part if there is one, or else that of an HTML part if there is one,
or else an error.
-/
def IsTextOf
    (leaves : List Leaf)
    (result : Except Error Bytes) : Prop :=
  if ∃ part ∈ leaves, part.mediaType = "text/plain" then
    ∃ part ∈ leaves, part.mediaType = "text/plain" ∧
      ∃ s, part.text lib = .ok s ∧ result = .ok s
  else if ∃ part ∈ leaves, part.mediaType = "text/html" then
    ∃ part ∈ leaves, part.mediaType = "text/html" ∧
      ∃ s, part.text lib = .ok s ∧ result = .ok s
  else
    ∃ e, result = .error e

def KeepsText (mail : Mail) : Prop :=
  IsTextOf lib mail.leaves (readMailBody lib mail)

/-- The last part of a media type. -/
def lastPart
    (mediaType : String)
    (parts : List Leaf) : Option Leaf :=
  parts.reverse.find? fun part => part.mediaType = mediaType

/--
There is no text in the mail, or every part that is reached has a type and among them
is a plain part, or an HTML part and the mail has no plain one, or one with its text.
-/
def TextReached :
    Mail → Prop
  | .leaf _ => True
  | .multipart parts =>
      (∀ part ∈ parts.leaves,
        part.mediaType ≠ "text/plain" ∧ part.mediaType ≠ "text/html") ∨
      ((∀ part ∈ parts.reached, part.contentType.isSome = true) ∧
        ((∃ part ∈ parts.reached, part.mediaType = "text/plain") ∨
          ∃ html, lastPart "text/html" parts.reached = some html ∧
            ((∀ part ∈ parts.leaves, part.mediaType ≠ "text/plain") ∨
              ∃ part ∈ parts.leaves, part.mediaType = "text/plain" ∧
                part.text lib = html.text lib)))

end Model

section Reading

variable {lib : Library}

theorem mem_leaves_of_mem_reached
    {parts : Parts} {part : Leaf}
    (h : part ∈ parts.reached) :
    part ∈ parts.leaves := by
  induction parts with
  | done =>
      exact h
  | leaf first rest ih =>
      rcases List.mem_cons.mp h with rfl | h
      · exact List.mem_cons_self
      · exact List.mem_cons_of_mem _ (ih h)
  | multipart inner rest ih _ =>
      exact List.mem_append_left _ (ih h)

/-- A text part that can be decoded has a text. -/
theorem exists_text
    {part : Leaf}
    (hdecode : ∃ s, readPlainTextMailBody lib part.body part.transferEncoding = .ok s)
    (htype : part.mediaType = "text/plain" ∨ part.mediaType = "text/html") :
    ∃ s, part.text lib = .ok s := by
  obtain ⟨s, hs⟩ := hdecode
  rcases htype with htype | htype
  · exact ⟨s, by rw [Leaf.text, htype, readTextMailBody, if_pos rfl, hs]⟩
  · refine ⟨removeExtraEmptyLines (lib.sanitize s), ?_⟩
    rw [Leaf.text, htype, readTextMailBody, if_neg (by decide), if_pos rfl,
      readHTMLMailBody, hs]
    rfl

/-- The map after one part. -/
def Found.add
    (lib : Library)
    (found : Found)
    (part : Leaf) : Found :=
  if part.mediaType = "text/plain" ∨ part.mediaType = "text/html" then
    match part.text lib with
    | .error _ => found
    | .ok s => found.set part.mediaType s
  else
    found

/-- The parts that are reached are read, up to one without a type. -/
theorem readMultipartMailBodyParts_spec
    {depth : Nat} {parts : Parts} {found : Found}
    (hdepth : depth + parts.height < maxMultipartDepth)
    (hdecode : ∀ part ∈ parts.reached,
      ∃ s, readPlainTextMailBody lib part.body part.transferEncoding = .ok s) :
    ((∀ part ∈ parts.reached, part.contentType.isSome = true) →
      readMultipartMailBodyParts lib depth parts found =
        (parts.reached.foldl (Found.add lib) found, some .eof)) ∧
    ((∃ part ∈ parts.reached, part.contentType = none) →
      (readMultipartMailBodyParts lib depth parts found).2 = some .noMediaType) := by
  induction parts generalizing depth found with
  | done =>
      rw [readMultipartMailBodyParts, if_neg (by omega)]
      exact ⟨fun _ => rfl, fun h => by simp [Parts.reached] at h⟩
  | leaf part rest ih =>
      have hih := fun found => @ih depth found hdepth
        fun p hp => hdecode p (List.mem_cons_of_mem _ hp)
      rw [readMultipartMailBodyParts, if_neg (by omega)]
      cases htype : part.contentType with
      | none =>
          refine ⟨fun h => ?_, fun _ => rfl⟩
          have htyped := h part List.mem_cons_self
          simp [htype] at htyped
      | some ty =>
          have hmedia : part.mediaType = lower ty.mediaType := by
            simp [Leaf.mediaType, htype]
          have hrest : (∃ p ∈ (Parts.leaf part rest).reached, p.contentType = none) →
              ∃ p ∈ rest.reached, p.contentType = none := by
            rintro ⟨p, hp, hnone⟩
            rcases List.mem_cons.mp hp with rfl | hp
            · simp [htype] at hnone
            · exact ⟨p, hp, hnone⟩
          have hlift : ∀ found', found.add lib part = found' →
              ((∀ p ∈ (Parts.leaf part rest).reached, p.contentType.isSome = true) →
                readMultipartMailBodyParts lib depth rest found' =
                  ((Parts.leaf part rest).reached.foldl (Found.add lib) found,
                    some .eof)) ∧
              ((∃ p ∈ (Parts.leaf part rest).reached, p.contentType = none) →
                (readMultipartMailBodyParts lib depth rest found').2 =
                  some .noMediaType) := by
            rintro found' rfl
            exact ⟨fun h => (hih _).1 fun p hp => h p (List.mem_cons_of_mem _ hp),
              fun h => (hih _).2 (hrest h)⟩
          dsimp only
          split
          · next htext =>
              rw [← hmedia] at htext
              obtain ⟨s, hs⟩ := exists_text (hdecode part List.mem_cons_self) htext
              rw [← hmedia, show readTextMailBody lib part.body part.mediaType
                part.transferEncoding = .ok s from hs]
              refine hlift _ ?_
              rw [Found.add, if_pos htext, hs]
          · next htext =>
              rw [← hmedia] at htext
              exact hlift found (by rw [Found.add, if_neg htext])
  | multipart inner rest ih _ =>
      have hinner : depth + 1 + inner.height < maxMultipartDepth := by
        simp only [Parts.height] at hdepth
        omega
      have hih := @ih (depth + 1) found hinner hdecode
      rw [readMultipartMailBodyParts, if_neg (by omega)]
      -- the nested body ends with an error in both cases, so the rest is not read
      constructor
      · intro h
        rw [hih.1 h]
        rfl
      · intro h
        have hnone := hih.2 h
        cases hread : readMultipartMailBodyParts lib (depth + 1) inner found with
        | mk found' e =>
            rw [hread] at hnone
            dsimp only at hnone
            subst hnone
            rfl

/-- The text under one of the two types. -/
def Found.get
    (found : Found)
    (contentType : String) : Option Bytes :=
  if contentType = "text/plain" then found.plain else found.html

theorem get_add
    {part : Leaf} {found : Found} {contentType : String}
    (htype : contentType = "text/plain" ∨ contentType = "text/html") :
    (part.mediaType ≠ contentType →
      (found.add lib part).get contentType = found.get contentType) ∧
    (∀ s, part.mediaType = contentType → part.text lib = .ok s →
      (found.add lib part).get contentType = some s) := by
  constructor
  · intro hne
    unfold Found.add
    split
    · next htext =>
        cases part.text lib with
        | error e =>
            rfl
        | ok s =>
            rcases htext with htext | htext <;> rcases htype with rfl | rfl <;>
              simp_all [Found.set, Found.get]
    · rfl
  · rintro s rfl hs
    unfold Found.add
    rw [if_pos htype, hs]
    rcases htype with htype | htype <;> simp [Found.set, Found.get, htype]

/-- After the parts that were read, the map has the last text of each type. -/
theorem foldl_add_get
    {parts : List Leaf} {contentType : String}
    (htype : contentType = "text/plain" ∨ contentType = "text/html")
    (hdecode : ∀ part ∈ parts,
      ∃ s, readPlainTextMailBody lib part.body part.transferEncoding = .ok s) :
    (lastPart contentType parts = none →
      (parts.foldl (Found.add lib) ⟨none, none⟩).get contentType = none) ∧
    (∀ part, lastPart contentType parts = some part →
      ∃ s, part.text lib = .ok s ∧
        (parts.foldl (Found.add lib) ⟨none, none⟩).get contentType = some s) := by
  induction parts using List.reverseRecOn with
  | nil =>
      refine ⟨fun _ => ?_, by simp [lastPart]⟩
      rcases htype with rfl | rfl <;> rfl
  | append_singleton parts last ih =>
      have hih := ih fun part hp => hdecode part (List.mem_append_left _ hp)
      obtain ⟨hother, hsame⟩ :=
        @get_add lib last (parts.foldl (Found.add lib) ⟨none, none⟩) contentType htype
      rw [List.foldl_append, List.foldl_cons, List.foldl_nil]
      by_cases hlast : last.mediaType = contentType
      · have hfound : lastPart contentType (parts ++ [last]) = some last := by
          simp [lastPart, hlast]
        obtain ⟨s, hs⟩ := exists_text (hdecode last (by simp)) (hlast ▸ htype)
        rw [hfound]
        refine ⟨fun h => by simp at h, fun part hpart => ?_⟩
        obtain rfl := Option.some.inj hpart
        exact ⟨s, hs, hsame s hlast hs⟩
      · have hfound : lastPart contentType (parts ++ [last]) = lastPart contentType parts := by
          simp [lastPart, hlast]
        rw [hfound, hother hlast]
        exact hih

theorem lastPart_eq_none
    {contentType : String} {parts : List Leaf} :
    lastPart contentType parts = none ↔
      ∀ part ∈ parts, part.mediaType ≠ contentType := by
  simp [lastPart]

theorem lastPart_spec
    {contentType : String} {parts : List Leaf} {part : Leaf}
    (h : lastPart contentType parts = some part) :
    part ∈ parts ∧ part.mediaType = contentType := by
  unfold lastPart at h
  have htype := List.find?_some h
  exact ⟨List.mem_reverse.mp (List.mem_of_find?_eq_some h), of_decide_eq_true htype⟩

end Reading

section Mails

variable {lib : Library}

/-- A mail with a single part keeps its text. -/
theorem keepsText_leaf
    {part : Leaf}
    (hdecode : ∃ s, readPlainTextMailBody lib part.body part.transferEncoding = .ok s) :
    KeepsText lib (.leaf part) := by
  have hread : part.mediaType = "text/plain" ∨ part.mediaType = "text/html" →
      readMailBody lib (.leaf part) = part.text lib := by
    intro htext
    unfold readMailBody Leaf.text
    cases htype : part.contentType with
    | none =>
        simp [Leaf.mediaType, htype, readTextMailBody]
    | some ty =>
        have hmedia : part.mediaType = lower ty.mediaType := by
          simp [Leaf.mediaType, htype]
        rw [hmedia] at htext ⊢
        simp only [htype]
        rw [if_pos htext]
  unfold KeepsText IsTextOf
  simp only [Mail.leaves, List.mem_singleton, exists_eq_left]
  split
  · next hplain =>
      obtain ⟨s, hs⟩ := exists_text hdecode (Or.inl hplain)
      exact ⟨hplain, s, hs, (hread (Or.inl hplain)).trans hs⟩
  · next hplain =>
      split
      · next hhtml =>
          obtain ⟨s, hs⟩ := exists_text hdecode (Or.inr hhtml)
          exact ⟨hhtml, s, hs, (hread (Or.inr hhtml)).trans hs⟩
      · next hhtml =>
          unfold readMailBody
          cases htype : part.contentType with
          | none =>
              simp [Leaf.mediaType, htype] at hplain
          | some ty =>
              have hmedia : part.mediaType = lower ty.mediaType := by
                simp [Leaf.mediaType, htype]
              rw [hmedia] at hplain hhtml
              exact ⟨.unsupportedContentType, by simp [htype, hplain, hhtml]⟩

/-- What a multipart mail comes to, by the parts that are reached. -/
theorem readMultipartMailBody_spec
    {parts : Parts}
    (hdepth : parts.height < maxMultipartDepth)
    (hdecode : ∀ part ∈ parts.reached,
      ∃ s, readPlainTextMailBody lib part.body part.transferEncoding = .ok s) :
    ((∃ part ∈ parts.reached, part.contentType = none) →
      readMultipartMailBody lib parts = .error .noMediaType) ∧
    ((∀ part ∈ parts.reached, part.contentType.isSome = true) →
      readMultipartMailBody lib parts =
        match lastPart "text/plain" parts.reached, lastPart "text/html" parts.reached with
        | some plain, _ => plain.text lib
        | none, some html => html.text lib
        | none, none => .error .eof) := by
  have hdepth' : 0 + parts.height < maxMultipartDepth := by
    omega
  have hspec := @readMultipartMailBodyParts_spec lib 0 parts ⟨none, none⟩ hdepth' hdecode
  obtain ⟨hnoPlain, hplain⟩ := foldl_add_get (Or.inl rfl) hdecode
  obtain ⟨hnoHTML, hhtml⟩ := foldl_add_get (Or.inr rfl) hdecode
  constructor
  · intro h
    have hnone := hspec.2 h
    unfold readMultipartMailBody
    cases hread : readMultipartMailBodyParts lib 0 parts ⟨none, none⟩ with
    | mk found e =>
        rw [hread] at hnone
        simp only at hnone
        subst hnone
        rfl
  · intro htyped
    have hread := hspec.1 htyped
    cases hlast : lastPart "text/plain" parts.reached with
    | some part =>
        obtain ⟨s, hs, hget⟩ := hplain part hlast
        have hfound : (parts.reached.foldl (Found.add lib) ⟨none, none⟩).plain = some s :=
          hget
        simp [readMultipartMailBody, hread, hfound, hs, Option.filter]
    | none =>
        have hempty : (parts.reached.foldl (Found.add lib) ⟨none, none⟩).plain = none :=
          hnoPlain hlast
        cases hlast' : lastPart "text/html" parts.reached with
        | some part =>
            obtain ⟨s, hs, hget⟩ := hhtml part hlast'
            have hfound :
                (parts.reached.foldl (Found.add lib) ⟨none, none⟩).html = some s :=
              hget
            simp [readMultipartMailBody, hread, hfound, hempty, hs, Option.filter]
        | none =>
            have hempty' :
                (parts.reached.foldl (Found.add lib) ⟨none, none⟩).html = none :=
              hnoHTML hlast'
            simp [readMultipartMailBody, hread, hempty, hempty', Option.filter]

/-- The text of a mail is kept exactly if the reader comes to it. -/
theorem keepsText_iff
    (lib : Library)
    (mail : Mail)
    (hwf : WellFormed lib mail) :
    KeepsText lib mail ↔ TextReached lib mail := by
  cases mail with
  | leaf part =>
      exact ⟨fun _ => trivial,
        fun _ => keepsText_leaf (hwf.decodable part List.mem_cons_self)⟩
  | multipart parts =>
      have hdecode : ∀ part ∈ parts.reached,
          ∃ s, readPlainTextMailBody lib part.body part.transferEncoding = .ok s :=
        fun part hp => hwf.decodable part (mem_leaves_of_mem_reached hp)
      have huntyped : ∀ part : Leaf, part.contentType = none →
          part.mediaType = "text/plain" := by
        intro part hnone
        simp [Leaf.mediaType, hnone]
      obtain ⟨herror, hbody⟩ := readMultipartMailBody_spec (hwf.depth parts rfl) hdecode
      have hdef : KeepsText lib (.multipart parts) =
          IsTextOf lib parts.leaves (readMultipartMailBody lib parts) :=
        rfl
      rw [hdef]
      unfold IsTextOf TextReached
      constructor
      · intro hkeeps
        by_cases hnone : ∀ part ∈ parts.leaves,
            part.mediaType ≠ "text/plain" ∧ part.mediaType ≠ "text/html"
        · exact Or.inl hnone
        refine Or.inr ?_
        -- there is text, so the mail is read
        obtain ⟨s, hs⟩ : ∃ s, readMultipartMailBody lib parts = .ok s := by
          by_cases hplain : ∃ part ∈ parts.leaves, part.mediaType = "text/plain"
          · rw [if_pos hplain] at hkeeps
            obtain ⟨_, _, _, s, _, hs⟩ := hkeeps
            exact ⟨s, hs⟩
          rw [if_neg hplain] at hkeeps
          by_cases hhtml : ∃ part ∈ parts.leaves, part.mediaType = "text/html"
          · rw [if_pos hhtml] at hkeeps
            obtain ⟨_, _, _, s, _, hs⟩ := hkeeps
            exact ⟨s, hs⟩
          exact absurd (fun part hp => ⟨fun h => hplain ⟨part, hp, h⟩,
            fun h => hhtml ⟨part, hp, h⟩⟩) hnone
        have htyped : ∀ part ∈ parts.reached, part.contentType.isSome = true := by
          by_contra hno
          push Not at hno
          obtain ⟨part, hp, hpart⟩ := hno
          rw [herror ⟨part, hp, by simpa using hpart⟩] at hs
          cases hs
        refine ⟨htyped, ?_⟩
        rw [hbody htyped] at hs hkeeps
        cases hplain : lastPart "text/plain" parts.reached with
        | some part =>
            exact Or.inl ⟨part, lastPart_spec hplain⟩
        | none =>
            rw [hplain] at hs hkeeps
            cases hhtml : lastPart "text/html" parts.reached with
            | none =>
                rw [hhtml] at hs
                cases hs
            | some html =>
                refine Or.inr ⟨html, rfl, ?_⟩
                rw [hhtml] at hkeeps
                by_cases hany : ∃ part ∈ parts.leaves, part.mediaType = "text/plain"
                · rw [if_pos hany] at hkeeps
                  obtain ⟨part, hp, htype, s, htext, hs⟩ := hkeeps
                  exact Or.inr ⟨part, hp, htype, htext.trans hs.symm⟩
                · exact Or.inl fun part hp htype => hany ⟨part, hp, htype⟩
      · rintro (hnone | ⟨htyped, hreached⟩)
        · have hleaf : ∀ part ∈ parts.reached, part ∈ parts.leaves :=
            fun part hp => mem_leaves_of_mem_reached hp
          have htyped : ∀ part ∈ parts.reached, part.contentType.isSome = true := by
            intro part hp
            by_contra hpart
            exact (hnone part (hleaf part hp)).1 (huntyped part (by simpa using hpart))
          rw [if_neg (by rintro ⟨part, hp, htype⟩; exact (hnone part hp).1 htype),
            if_neg (by rintro ⟨part, hp, htype⟩; exact (hnone part hp).2 htype),
            hbody htyped,
            lastPart_eq_none.mpr fun part hp => (hnone part (hleaf part hp)).1,
            lastPart_eq_none.mpr fun part hp => (hnone part (hleaf part hp)).2]
          exact ⟨.eof, rfl⟩
        · rw [hbody htyped]
          cases hplain : lastPart "text/plain" parts.reached with
          | some part =>
              obtain ⟨hp, htype⟩ := lastPart_spec hplain
              obtain ⟨s, hs⟩ := exists_text (hdecode part hp) (Or.inl htype)
              have hmem := mem_leaves_of_mem_reached hp
              rw [if_pos ⟨part, hmem, htype⟩]
              exact ⟨part, hmem, htype, s, hs, hs⟩
          | none =>
              rcases hreached with ⟨part, hp, htype⟩ | ⟨html, hhtml, hreached⟩
              · exact absurd htype (lastPart_eq_none.mp hplain part hp)
              obtain ⟨hp, htype⟩ := lastPart_spec hhtml
              obtain ⟨s, hs⟩ := exists_text (hdecode html hp) (Or.inr htype)
              have hmem := mem_leaves_of_mem_reached hp
              simp only [hhtml]
              rcases hreached with hno | ⟨part, hleaf, hpart, htext⟩
              · rw [if_neg (by rintro ⟨part, hp, htype⟩; exact hno part hp htype),
                  if_pos ⟨html, hmem, htype⟩]
                exact ⟨html, hmem, htype, s, hs, hs⟩
              · rw [if_pos ⟨part, hleaf, hpart⟩]
                exact ⟨part, hleaf, hpart, s, htext.trans hs, hs⟩

end Mails

section Mail

/-- No part below is encoded, and none is HTML. -/
def noDecoder : Library where
  base64 := fun _ => none
  quotedPrintable := fun _ => none
  sanitize := id

theorem textPlain_notMultipart :
    "multipart/".toList.isPrefixOf (lower "text/plain").toList = false := by
  decide +kernel

theorem imagePNG_notMultipart :
    "multipart/".toList.isPrefixOf (lower "image/png").toList = false := by
  decide +kernel

def textPart : Leaf where
  contentType := some ⟨"text/plain", textPlain_notMultipart⟩
  transferEncoding := ""
  body := [104, 105]

def imagePart : Leaf where
  contentType := some ⟨"image/png", imagePNG_notMultipart⟩
  transferEncoding := ""
  body := [137, 80]

theorem readPlainTextMailBody_unencoded
    {lib : Library} {part : Leaf}
    (h : part = textPart ∨ part = imagePart) :
    ∃ s, readPlainTextMailBody lib part.body part.transferEncoding = .ok s := by
  have hplain : part.transferEncoding = "" := by
    rcases h with rfl | rfl <;> rfl
  refine ⟨part.body, ?_⟩
  rw [readPlainTextMailBody, hplain, if_neg (by decide +kernel), if_neg (by decide +kernel)]

def textBeforeImage : Parts :=
  .leaf textPart (.leaf imagePart .done)

theorem text_before_image_kept :
    WellFormed noDecoder (.multipart textBeforeImage) ∧
      KeepsText noDecoder (.multipart textBeforeImage) := by
  have hwf : WellFormed noDecoder (.multipart textBeforeImage) :=
    { depth := by
        rintro parts ⟨⟩
        decide
      decodable := fun part hp => readPlainTextMailBody_unencoded (by
        simpa [textBeforeImage, Mail.leaves, Parts.leaves] using hp) }
  exact ⟨hwf, (keepsText_iff noDecoder _ hwf).mpr
    (Or.inr ⟨by decide +kernel, Or.inl ⟨textPart, List.mem_cons_self, by decide +kernel⟩⟩)⟩

/-- An image in a multipart body of its own, and the text after it. -/
def textAfterNested : Parts :=
  .multipart (.leaf imagePart .done) (.leaf textPart .done)

theorem text_after_nested_lost :
    WellFormed noDecoder (.multipart textAfterNested) ∧
      textPart ∈ (Mail.multipart textAfterNested).leaves ∧
      textPart.text noDecoder = .ok [104, 105] ∧
      readMailBody noDecoder (.multipart textAfterNested) = .error .eof ∧
      ¬KeepsText noDecoder (.multipart textAfterNested) := by
  have hread : readMailBody noDecoder (.multipart textAfterNested) = .error .eof := by
    simp [readMailBody, readMultipartMailBody, textAfterNested, readMultipartMailBodyParts,
      maxMultipartDepth, imagePart, show lower "image/png" = "image/png" by decide +kernel,
      Option.filter]
  have htext : textPart.text noDecoder = .ok [104, 105] := by
    simp [Leaf.text, Leaf.mediaType, textPart, readTextMailBody, readPlainTextMailBody,
      show lower "text/plain" = "text/plain" by decide +kernel,
      show lower "" = "" by decide +kernel]
  have hmem : textPart ∈ (Mail.multipart textAfterNested).leaves := by
    simp [textAfterNested, Mail.leaves, Parts.leaves]
  refine ⟨⟨?_, ?_⟩, hmem, htext, hread, ?_⟩
  · rintro parts ⟨⟩
    decide
  · intro part hp
    refine readPlainTextMailBody_unencoded ?_
    simpa [textAfterNested, Mail.leaves, Parts.leaves, or_comm] using hp
  · intro hkeeps
    have hplain : textPart.mediaType = "text/plain" := by decide +kernel
    rw [KeepsText, IsTextOf, if_pos ⟨textPart, hmem, hplain⟩, hread] at hkeeps
    obtain ⟨_, _, _, s, _, hs⟩ := hkeeps
    cases hs

end Mail

end MailBodies
end Server
end CoopMessenger
