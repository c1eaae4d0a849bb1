import Mathlib.Data.List.Basic
import Mathlib.Data.String.Basic

/-!
# JSON texts

Values, their texts as a compact encoder writes them, and a decoder that reads a
text character by character: a lexer emits tokens, and a machine with a stack
puts values together.  The encoder escapes what is special in HTML.  The decoder
joins surrogate pairs and replaces halves that stand alone; it limits the depth.

**Results.**
* `parse_print`: the decoder reads back what the encoder wrote.
-/

namespace CoopMessenger
namespace Library

/-- A JSON value; a number is the text of its literal. -/
inductive Json where
  | null
  | bool (b : Bool)
  | num (literal : List Char)
  | str (s : String)
  | arr (items : List Json)
  | obj (members : List (String × Json))

namespace Json

section Strings

/-- What stands for one character, or for half of one, between quotes. -/
inductive CodeUnit where
  | char (c : Char)
  | unit (n : Nat)
deriving DecidableEq, Repr

def isHighSurrogate (n : Nat) : Bool :=
  decide (0xd800 ≤ n) && decide (n < 0xdc00)

def isLowSurrogate (n : Nat) : Bool :=
  decide (0xdc00 ≤ n) && decide (n < 0xe000)

/-- The character of a code unit; half of a pair alone is replaced. -/
def ofUnit (n : Nat) : Char :=
  if isHighSurrogate n || isLowSurrogate n then
    '\ufffd'
  else
    Char.ofNat n

/-- Joins surrogate pairs. -/
def combine :
    List CodeUnit → List Char
  | [] => []
  | .char c :: rest => c :: combine rest
  | [.unit n] => [ofUnit n]
  | .unit n :: .char c :: rest => ofUnit n :: combine (.char c :: rest)
  | .unit n :: .unit l :: rest =>
      if isHighSurrogate n && isLowSurrogate l then
        Char.ofNat (0x10000 + (n - 0xd800) * 0x400 + (l - 0xdc00)) ::
          combine rest
      else
        ofUnit n :: combine (.unit l :: rest)

/-- The digits of a hexadecimal number, in lower case. -/
def hexDigit (n : Nat) : Char :=
  if n < 10 then Char.ofNat ('0'.toNat + n) else Char.ofNat ('a'.toNat + (n - 10))

def hexValue (c : Char) : Option Nat :=
  if c.isDigit then
    some (c.toNat - '0'.toNat)
  else if 'a' ≤ c ∧ c ≤ 'f' then
    some (c.toNat - 'a'.toNat + 10)
  else if 'A' ≤ c ∧ c ≤ 'F' then
    some (c.toNat - 'A'.toNat + 10)
  else
    none

def ofHex (digits : List Nat) : Nat :=
  digits.foldl (fun n d => 16 * n + d) 0

/-- The character that stands for a special one after a backslash. -/
def shortEscape : Char → Option Char
  | '"' => some '"'
  | '\\' => some '\\'
  | '\x08' => some 'b'
  | '\x0c' => some 'f'
  | '\n' => some 'n'
  | '\r' => some 'r'
  | '\t' => some 't'
  | _ => none

def ofShortEscape : Char → Option Char
  | '"' => some '"'
  | '\\' => some '\\'
  | '/' => some '/'
  | 'b' => some '\x08'
  | 'f' => some '\x0c'
  | 'n' => some '\n'
  | 'r' => some '\r'
  | 't' => some '\t'
  | _ => none

/-- Control characters, and what HTML and JavaScript read as special. -/
def needsUnit (c : Char) : Bool :=
  decide (c.toNat < 0x20) || c ∈ ['<', '>', '&', '\u2028', '\u2029']

def escape (c : Char) : List Char :=
  match shortEscape c with
  | some e => ['\\', e]
  | none =>
      if needsUnit c then
        ['\\', 'u', hexDigit (c.toNat / 0x1000), hexDigit (c.toNat / 0x100 % 16),
          hexDigit (c.toNat / 16 % 16), hexDigit (c.toNat % 16)]
      else
        [c]

/-- A string in quotes. -/
def quote (s : String) : List Char :=
  '"' :: s.toList.flatMap escape ++ ['"']

end Strings

section Numbers

/-- At least one digit, and nothing else. -/
def areDigits (s : List Char) : Bool :=
  !s.isEmpty && s.all Char.isDigit

/-- No leading zero. -/
def validInt (s : List Char) : Bool :=
  areDigits s && (decide (s.length = 1) || decide (s.head? ≠ some '0'))

def validExponent : List Char → Bool
  | [] => true
  | e :: rest =>
      (e == 'e' || e == 'E') &&
        match rest with
        | '+' :: digits => areDigits digits
        | '-' :: digits => areDigits digits
        | digits => areDigits digits

def validFraction : List Char → Bool
  | '.' :: rest =>
      areDigits (rest.takeWhile Char.isDigit) &&
        validExponent (rest.dropWhile Char.isDigit)
  | rest => validExponent rest

/-- The literals of numbers. -/
def validNumber (s : List Char) : Bool :=
  let magnitude :=
    match s with
    | '-' :: rest => rest
    | rest => rest
  validInt (magnitude.takeWhile Char.isDigit) &&
    validFraction (magnitude.dropWhile Char.isDigit)

/-- The characters that literals of numbers consist of. -/
def isNumberChar (c : Char) : Bool :=
  c.isDigit || c ∈ ['-', '+', '.', 'e', 'E']

end Numbers

section Lexer

/-- Literals, strings and punctuation. -/
inductive Token where
  | openArray
  | closeArray
  | openObject
  | closeObject
  | comma
  | colon
  | value (j : Json)

/-- What the lexer is in the middle of. -/
inductive Mode where
  | between
  | word (rest : List Char) (t : Token)
  | number (digits : List Char)
  | string (units : List CodeUnit)
  | escaped (units : List CodeUnit)
  | hex (units : List CodeUnit) (digits : List Nat)

/-- The first character of a token. -/
def startToken (c : Char) : Option (List Token × Mode) :=
  if c ∈ [' ', '\t', '\n', '\r'] then
    some ([], .between)
  else if c.isDigit || c == '-' then
    some ([], .number [c])
  else
    match c with
    | '[' => some ([.openArray], .between)
    | ']' => some ([.closeArray], .between)
    | '{' => some ([.openObject], .between)
    | '}' => some ([.closeObject], .between)
    | ',' => some ([.comma], .between)
    | ':' => some ([.colon], .between)
    | '"' => some ([], .string [])
    | 't' => some ([], .word ['r', 'u', 'e'] (.value (.bool true)))
    | 'f' => some ([], .word ['a', 'l', 's', 'e'] (.value (.bool false)))
    | 'n' => some ([], .word ['u', 'l', 'l'] (.value .null))
    | _ => none

/-- Reads one character. -/
def lexChar : Mode → Char → Option (List Token × Mode)
  | .between, c => startToken c
  | .word [] _, _ => none
  | .word [x] t, c => if c = x then some ([t], .between) else none
  | .word (x :: rest) t, c => if c = x then some ([], .word rest t) else none
  | .number digits, c =>
      if isNumberChar c then
        some ([], .number (digits ++ [c]))
      else if validNumber digits then
        (startToken c).map (fun p => (.value (.num digits) :: p.1, p.2))
      else
        none
  | .string units, c =>
      if c = '"' then
        some ([.value (.str (String.ofList (combine units)))], .between)
      else if c = '\\' then
        some ([], .escaped units)
      else if c.toNat < 0x20 then
        none
      else
        some ([], .string (units ++ [.char c]))
  | .escaped units, c =>
      if c = 'u' then
        some ([], .hex units [])
      else
        (ofShortEscape c).map (fun d => ([], .string (units ++ [.char d])))
  | .hex units digits, c =>
      (hexValue c).map fun d =>
        if digits.length = 3 then
          ([], .string (units ++ [.unit (ofHex (digits ++ [d]))]))
        else
          ([], .hex units (digits ++ [d]))

/-- The tokens of the rest of a text. -/
def lex : Mode → List Char → Option (List Token)
  | .between, [] => some []
  | .number digits, [] =>
      if validNumber digits then some [.value (.num digits)] else none
  | _, [] => none
  | mode, c :: rest =>
      (lexChar mode c).bind fun p => (lex p.2 rest).map (p.1 ++ ·)

end Lexer

section Machine

/-- An array or an object that is not closed yet. -/
inductive Frame where
  | array (items : List Json)
  | object (members : List (String × Json)) (key : String)

/-- What may follow, inside of which arrays and objects. -/
inductive State where
  | value (stack : List Frame)
  | firstItem (stack : List Frame)
  | firstKey (stack : List Frame)
  | key (members : List (String × Json)) (stack : List Frame)
  | colon (members : List (String × Json)) (key : String) (stack : List Frame)
  | after (j : Json) (stack : List Frame)

def maxNestingDepth : Nat := 10000

/-- The first token of a value. -/
def feedValue (stack : List Frame) : Token → Option State
  | .value j => some (.after j stack)
  | .openArray =>
      if stack.length < maxNestingDepth then some (.firstItem stack) else none
  | .openObject =>
      if stack.length < maxNestingDepth then some (.firstKey stack) else none
  | _ => none

def feed : State → Token → Option State
  | .value stack, t => feedValue stack t
  | .firstItem stack, .closeArray => some (.after (.arr []) stack)
  | .firstItem stack, t => feedValue (.array [] :: stack) t
  | .firstKey stack, .closeObject => some (.after (.obj []) stack)
  | .firstKey stack, .value (.str k) => some (.colon [] k stack)
  | .key members stack, .value (.str k) => some (.colon members k stack)
  | .colon members k stack, .colon => some (.value (.object members k :: stack))
  | .after j (.array items :: stack), .comma =>
      some (.value (.array (items ++ [j]) :: stack))
  | .after j (.array items :: stack), .closeArray =>
      some (.after (.arr (items ++ [j])) stack)
  | .after j (.object members k :: stack), .comma =>
      some (.key (members ++ [(k, j)]) stack)
  | .after j (.object members k :: stack), .closeObject =>
      some (.after (.obj (members ++ [(k, j)])) stack)
  | _, _ => none

/-- One value and nothing else. -/
def ofTokens (tokens : List Token) : Option Json :=
  match tokens.foldlM feed (.value []) with
  | some (.after j []) => some j
  | _ => none

/-- The value that a text denotes. -/
def parse (text : List Char) : Option Json :=
  (lex .between text).bind ofTokens

/-- Reads on until a value is complete, and ignores what comes after it. -/
def parseFirstFrom :
    Mode → State → List Char → Option Json
  | mode, state, [] =>
      (lex mode []).bind fun tokens =>
        match tokens.foldlM feed state with
        | some (.after j []) => some j
        | _ => none
  | mode, state, c :: rest =>
      match lexChar mode c with
      | none => none
      | some (tokens, mode) =>
          match tokens.foldlM feed state with
          | none => none
          | some (.after j []) => some j
          | some state => parseFirstFrom mode state rest

/-- The first value of a text. -/
def parseFirst (text : List Char) : Option Json :=
  parseFirstFrom .between (.value []) text

end Machine

section Printing

mutual

/-- The text of a value, without white space. -/
def print : Json → List Char
  | .null => ['n', 'u', 'l', 'l']
  | .bool true => ['t', 'r', 'u', 'e']
  | .bool false => ['f', 'a', 'l', 's', 'e']
  | .num literal => literal
  | .str s => quote s
  | .arr items => '[' :: printItems items
  | .obj members => '{' :: printMembers members

/-- The items of an array, up to its end. -/
def printItems : List Json → List Char
  | [] => [']']
  | [j] => print j ++ [']']
  | j :: rest => print j ++ ',' :: printItems rest

def printMembers : List (String × Json) → List Char
  | [] => ['}']
  | [m] => printMember m ++ ['}']
  | m :: rest => printMember m ++ ',' :: printMembers rest

def printMember : String × Json → List Char
  | (k, j) => quote k ++ ':' :: print j

end

end Printing

section StringLemmas

/-- What the decoder collects for a character that the encoder wrote. -/
def codeOf (c : Char) : CodeUnit :=
  if (shortEscape c).isNone && needsUnit c then .unit c.toNat else .char c

@[simp] theorem lex_cons
    (mode : Mode)
    (c : Char)
    (rest : List Char) :
    lex mode (c :: rest) =
      (lexChar mode c).bind fun p => (lex p.2 rest).map (p.1 ++ ·) := by
  cases mode <;> rfl

theorem ofUnit_toNat
    (c : Char) :
    ofUnit c.toNat = c := by
  have hvalid : c.toNat < 0xd800 ∨ 0xdfff < c.toNat := by
    rcases c.valid with h | h
    · exact Or.inl h
    · exact Or.inr h.1
  have hhalf : (isHighSurrogate c.toNat || isLowSurrogate c.toNat) = false := by
    simp only [isHighSurrogate, isLowSurrogate, Bool.or_eq_false_iff,
      Bool.and_eq_false_iff, decide_eq_false_iff_not]
    omega
  rw [ofUnit, hhalf]
  exact Char.ofNat_toNat c

theorem combine_unit
    {n : Nat}
    (hn : isHighSurrogate n = false)
    (rest : List CodeUnit) :
    combine (.unit n :: rest) = ofUnit n :: combine rest := by
  cases rest with
  | nil =>
      rfl
  | cons u rest =>
      cases u with
      | char c =>
          rfl
      | unit l =>
          simp [combine, hn]

theorem combine_codeOf
    (c : Char)
    (rest : List CodeUnit) :
    combine (codeOf c :: rest) = c :: combine rest := by
  unfold codeOf
  split
  case isTrue hunit =>
    have hn : isHighSurrogate c.toNat = false := by
      simp only [Bool.and_eq_true, needsUnit, Bool.or_eq_true, decide_eq_true_eq,
        List.mem_cons, List.not_mem_nil, or_false] at hunit
      obtain ⟨-, hsmall | rfl | rfl | rfl | rfl | rfl⟩ := hunit
      · simp only [isHighSurrogate, Bool.and_eq_false_iff,
          decide_eq_false_iff_not]
        omega
      all_goals rfl
    rw [combine_unit hn, ofUnit_toNat]
  case isFalse =>
    rfl

theorem combine_map_codeOf
    (s : List Char) :
    combine (s.map codeOf) = s := by
  induction s with
  | nil =>
      rfl
  | cons c s ih =>
      rw [List.map_cons, combine_codeOf, ih]

theorem hexValue_hexDigit :
    ∀ n < 16, hexValue (hexDigit n) = some n := by
  decide

theorem ofShortEscape_of_shortEscape
    {c e : Char}
    (h : shortEscape c = some e) :
    ofShortEscape e = some c ∧ e ≠ 'u' := by
  unfold shortEscape at h
  split at h <;> cases h <;> decide

theorem lex_escape
    (units : List CodeUnit)
    (c : Char)
    (rest : List Char) :
    lex (.string units) (escape c ++ rest) =
      lex (.string (units ++ [codeOf c])) rest := by
  unfold escape codeOf
  cases hshort : shortEscape c with
  | some e =>
      obtain ⟨hback, hu⟩ := ofShortEscape_of_shortEscape hshort
      simp [lexChar, hu, hback, Function.comp_def]
  | none =>
      by_cases hunit : needsUnit c = true
      · have hsmall : c.toNat < 0x10000 := by
          simp only [needsUnit, Bool.or_eq_true, decide_eq_true_eq, List.mem_cons,
            List.not_mem_nil, or_false] at hunit
          obtain hsmall | rfl | rfl | rfl | rfl | rfl := hunit
          · omega
          all_goals decide
        have hvalue : ofHex [c.toNat / 0x1000, c.toNat / 0x100 % 16,
            c.toNat / 16 % 16, c.toNat % 16] = c.toNat := by
          simp only [ofHex, List.foldl_cons, List.foldl_nil]
          omega
        have h₁ := hexValue_hexDigit (c.toNat / 0x1000) (by omega)
        have h₂ := hexValue_hexDigit (c.toNat / 0x100 % 16) (by omega)
        have h₃ := hexValue_hexDigit (c.toNat / 16 % 16) (by omega)
        have h₄ := hexValue_hexDigit (c.toNat % 16) (by omega)
        simp [hunit, lexChar, h₁, h₂, h₃, h₄, hvalue, Function.comp_def]
      · have hquote : c ≠ '"' ∧ c ≠ '\\' := by
          refine ⟨?_, ?_⟩ <;> rintro rfl <;> cases hshort
        have hlarge : ¬ c.toNat < 0x20 := by
          simp only [needsUnit, Bool.or_eq_true, decide_eq_true_eq, not_or] at hunit
          exact hunit.1
        simp [hunit, lexChar, hquote.1, hquote.2, hlarge]

theorem lex_string
    (units : List CodeUnit)
    (s : List Char)
    (rest : List Char) :
    lex (.string units) (s.flatMap escape ++ '"' :: rest) =
      (lex .between rest).map
        (.value (.str (String.ofList (combine (units ++ s.map codeOf)))) :: ·) := by
  induction s generalizing units with
  | nil =>
      simp [lexChar]
  | cons c s ih =>
      rw [List.flatMap_cons, List.append_assoc, lex_escape, ih]
      simp

end StringLemmas

section Texts

/-- Whatever comes next is no part of a number. -/
def Separated (rest : List Char) : Prop :=
  ∀ c ∈ rest.head?, isNumberChar c = false

/-- The text consists of these tokens, in front of whatever is separated. -/
def Reads
    (text : List Char)
    (tokens : List Token) : Prop :=
  ∀ rest, Separated rest →
    lex .between (text ++ rest) = (lex .between rest).map (tokens ++ ·)

theorem Reads.append
    {text text' : List Char} {tokens tokens' : List Token}
    {c : Char}
    (h : Reads text tokens)
    (h' : Reads (c :: text') tokens')
    (hc : isNumberChar c = false) :
    Reads (text ++ c :: text') (tokens ++ tokens') := by
  intro rest hrest
  have hseparated : Separated (c :: text' ++ rest) := by
    intro d hd
    cases hd
    exact hc
  rw [List.append_assoc, h _ hseparated, h' rest hrest, Option.map_map]
  congr 1
  funext ts
  exact (List.append_assoc tokens tokens' ts).symm

/-- Punctuation is a token of its own. -/
theorem Reads.cons
    {text : List Char} {tokens : List Token}
    {c : Char} {t : Token}
    (hc : startToken c = some ([t], .between))
    (h : Reads text tokens) :
    Reads (c :: text) (t :: tokens) := by
  intro rest hrest
  simp [lexChar, hc, h rest hrest, Function.comp_def]

theorem reads_single
    {c : Char} {t : Token}
    (hc : startToken c = some ([t], .between)) :
    Reads [c] [t] := by
  intro rest hrest
  simp [lexChar, hc]

theorem reads_quote
    (s : String) :
    Reads (quote s) [.value (.str s)] := by
  intro rest hrest
  have hstart : startToken '"' = some ([], .string []) := by
    rfl
  simp [quote, lexChar, hstart, lex_string, combine_map_codeOf,
    Function.comp_def]

theorem all_isNumberChar_of_validExponent
    {s : List Char}
    (h : validExponent s = true) :
    s.all isNumberChar = true := by
  have hdigits : ∀ {ds : List Char}, areDigits ds = true →
      ds.all isNumberChar = true := by
    intro ds hds
    simp only [areDigits, Bool.and_eq_true, List.all_eq_true] at hds ⊢
    intro c hc
    simp [isNumberChar, hds.2 c hc]
  cases s with
  | nil =>
      rfl
  | cons e rest =>
      simp only [validExponent, Bool.and_eq_true, Bool.or_eq_true,
        beq_iff_eq] at h
      obtain ⟨he, hrest⟩ := h
      have hhead : isNumberChar e = true := by
        rcases he with rfl | rfl <;> rfl
      rw [List.all_cons, hhead, Bool.true_and]
      split at hrest
      · exact (List.all_cons ..).trans (hdigits hrest)
      · exact (List.all_cons ..).trans (hdigits hrest)
      · exact hdigits hrest

theorem all_isNumberChar_of_digits
    (s : List Char) :
    (s.takeWhile Char.isDigit).all isNumberChar = true := by
  have hdigits := List.all_takeWhile (l := s) (p := Char.isDigit)
  rw [List.all_eq_true] at hdigits ⊢
  intro c hc
  simp [isNumberChar, hdigits c hc]

theorem all_isNumberChar_of_validFraction
    {s : List Char}
    (h : validFraction s = true) :
    s.all isNumberChar = true := by
  unfold validFraction at h
  split at h
  · next rest =>
      rw [Bool.and_eq_true] at h
      rw [List.all_cons, ← List.takeWhile_append_dropWhile (p := Char.isDigit)
        (l := rest), List.all_append, all_isNumberChar_of_digits,
        all_isNumberChar_of_validExponent h.2]
      rfl
  · exact all_isNumberChar_of_validExponent h

theorem validMagnitude_spec
    {s : List Char}
    (hint : validInt (s.takeWhile Char.isDigit) = true)
    (hfraction : validFraction (s.dropWhile Char.isDigit) = true) :
    s.all isNumberChar = true ∧ ∃ c rest, s = c :: rest ∧ c.isDigit = true := by
  refine ⟨?_, ?_⟩
  · rw [← List.takeWhile_append_dropWhile (p := Char.isDigit) (l := s),
      List.all_append, all_isNumberChar_of_digits,
      all_isNumberChar_of_validFraction hfraction]
    rfl
  · cases s with
    | nil =>
        cases hint
    | cons c rest =>
        cases hc : c.isDigit with
        | true =>
            exact ⟨c, rest, rfl, hc⟩
        | false =>
            simp [hc, validInt, areDigits] at hint

/-- A literal starts like a number, and goes on like one. -/
theorem validNumber_spec
    {s : List Char}
    (h : validNumber s = true) :
    ∃ c rest, s = c :: rest ∧ (c.isDigit || c == '-') = true ∧
      rest.all isNumberChar = true := by
  simp only [validNumber] at h
  split at h
  · next rest =>
      rw [Bool.and_eq_true] at h
      exact ⟨'-', rest, rfl, rfl, (validMagnitude_spec h.1 h.2).1⟩
  · rw [Bool.and_eq_true] at h
    obtain ⟨hall, c, rest, rfl, hc⟩ := validMagnitude_spec h.1 h.2
    rw [List.all_cons, Bool.and_eq_true] at hall
    exact ⟨c, rest, rfl, by rw [hc, Bool.true_or], hall.2⟩

theorem lex_number
    {digits more rest : List Char}
    (hvalid : validNumber (digits ++ more) = true)
    (hmore : more.all isNumberChar = true)
    (hrest : Separated rest) :
    lex (.number digits) (more ++ rest) =
      (lex .between rest).map (.value (.num (digits ++ more)) :: ·) := by
  induction more generalizing digits with
  | nil =>
      rw [List.append_nil] at hvalid ⊢
      cases rest with
      | nil =>
          simp [lex, hvalid]
      | cons c rest =>
          have hc : isNumberChar c = false := hrest c rfl
          cases hstart : startToken c with
          | none =>
              simp [lexChar, hc, hvalid, hstart]
          | some p =>
              simp [lexChar, hc, hvalid, hstart, Function.comp_def]
  | cons c more ih =>
      rw [List.all_cons, Bool.and_eq_true] at hmore
      have hshift : digits ++ c :: more = digits ++ [c] ++ more := by
        simp
      rw [hshift] at hvalid ⊢
      simpa [lexChar, hmore.1] using ih hvalid hmore.2

theorem reads_number
    {literal : List Char}
    (h : validNumber literal = true) :
    Reads literal [.value (.num literal)] := by
  intro rest hrest
  obtain ⟨c, more, rfl, hc, hmore⟩ := validNumber_spec h
  have hspace : c ∉ [' ', '\t', '\n', '\r'] := by
    intro hmem
    simp only [List.mem_cons, List.not_mem_nil, or_false] at hmem
    rcases hmem with rfl | rfl | rfl | rfl <;> cases hc
  have hstart : startToken c = some ([], .number [c]) := by
    unfold startToken
    rw [if_neg hspace, if_pos hc]
  have hnumber : lex (.number [c]) (more ++ rest) =
      (lex .between rest).map (.value (.num ([c] ++ more)) :: ·) :=
    lex_number h hmore hrest
  simpa [lexChar, hstart] using hnumber

end Texts

section RoundTrip

/-- Values with valid numbers whose depth is limited. -/
inductive Printable : Nat → Json → Prop
  | null {n : Nat} : Printable n .null
  | bool {n : Nat} (b : Bool) : Printable n (.bool b)
  | num {n : Nat} (literal : List Char) (h : validNumber literal = true) :
      Printable n (.num literal)
  | str {n : Nat} (s : String) : Printable n (.str s)
  | arr {n : Nat} (items : List Json) (h : ∀ j ∈ items, Printable n j) :
      Printable (n + 1) (.arr items)
  | obj {n : Nat} (members : List (String × Json))
      (h : ∀ m ∈ members, Printable n m.2) : Printable (n + 1) (.obj members)

/-- The tokens of the text bring the machine from before the value to after it. -/
def Denotes
    (n : Nat)
    (text : List Char)
    (j : Json) : Prop :=
  ∃ t tokens, Reads text (t :: tokens) ∧
    ∀ stack, stack.length + n ≤ maxNestingDepth →
      (feedValue stack t).bind (tokens.foldlM feed ·) = some (.after j stack)

theorem bind_feed_append
    {x : Option State} {s : State} {tokens : List Token}
    (h : x.bind (tokens.foldlM feed ·) = some s)
    (more : List Token) :
    x.bind ((tokens ++ more).foldlM feed ·) = more.foldlM feed s := by
  cases x with
  | none =>
      cases h
  | some s₀ =>
      have hs : tokens.foldlM feed s₀ = some s := h
      rw [Option.bind_some, List.foldlM_append, hs]
      rfl

theorem denotes_value
    {n : Nat} {text : List Char} {j : Json}
    (h : Reads text [.value j]) :
    Denotes n text j :=
  ⟨.value j, [], h, fun _ _ => rfl⟩

/-- The items of an array up to its end, after those that are done. -/
theorem denotes_items
    {n : Nat}
    (j : Json)
    (items : List Json)
    (h : ∀ i ∈ j :: items, Denotes n (print i) i) :
    ∃ t tokens, Reads (printItems (j :: items)) (t :: tokens) ∧
      ∀ done stack, stack.length + 1 + n ≤ maxNestingDepth →
        (feedValue (.array done :: stack) t).bind (tokens.foldlM feed ·) =
          some (.after (.arr (done ++ j :: items)) stack) := by
  induction items generalizing j with
  | nil =>
      obtain ⟨t, tokens, hreads, hfeed⟩ := h j List.mem_cons_self
      refine ⟨t, tokens ++ [.closeArray], ?_, ?_⟩
      · rw [printItems]
        exact hreads.append (reads_single rfl) rfl
      intro done stack hdepth
      have hvalue := hfeed (.array done :: stack)
        (by simpa using hdepth)
      exact bind_feed_append hvalue [.closeArray]
  | cons i items ih =>
      obtain ⟨t, tokens, hreads, hfeed⟩ := h j List.mem_cons_self
      obtain ⟨t', tokens', hreads', hfeed'⟩ := ih i
        (fun k hk => h k (List.mem_cons_of_mem j hk))
      refine ⟨t, tokens ++ .comma :: t' :: tokens', ?_, ?_⟩
      · rw [printItems]
        · exact hreads.append (hreads'.cons rfl) rfl
        · rintro ⟨⟩
      intro done stack hdepth
      have hvalue := hfeed (.array done :: stack)
        (by simpa using hdepth)
      have hrest := hfeed' (done ++ [j]) stack hdepth
      rw [List.append_assoc] at hrest
      exact (bind_feed_append hvalue _).trans hrest

/-- The members of an object up to its end, after those that are done. -/
theorem denotes_members
    {n : Nat}
    (m : String × Json)
    (members : List (String × Json))
    (h : ∀ i ∈ m :: members, Denotes n (print i.2) i.2) :
    ∃ tokens, Reads (printMembers (m :: members)) (.value (.str m.1) :: tokens) ∧
      ∀ done stack, stack.length + 1 + n ≤ maxNestingDepth →
        tokens.foldlM feed (.colon done m.1 stack) =
          some (.after (.obj (done ++ m :: members)) stack) := by
  induction members generalizing m with
  | nil =>
      obtain ⟨t, tokens, hreads, hfeed⟩ := h m List.mem_cons_self
      refine ⟨.colon :: t :: tokens ++ [.closeObject], ?_, ?_⟩
      · rw [printMembers, printMember]
        exact ((reads_quote m.1).append (hreads.cons rfl) rfl).append
          (reads_single rfl) rfl
      · intro done stack hdepth
        have hvalue := hfeed (.object done m.1 :: stack) (by simpa using hdepth)
        exact bind_feed_append hvalue [.closeObject]
  | cons i members ih =>
      obtain ⟨t, tokens, hreads, hfeed⟩ := h m List.mem_cons_self
      obtain ⟨tokens', hreads', hfeed'⟩ := ih i
        (fun k hk => h k (List.mem_cons_of_mem m hk))
      refine ⟨.colon :: t :: tokens ++ .comma :: .value (.str i.1) :: tokens',
        ?_, ?_⟩
      · rw [printMembers, printMember]
        · exact ((reads_quote m.1).append (hreads.cons rfl) rfl).append
            (hreads'.cons rfl) rfl
        · rintro ⟨⟩
      · intro done stack hdepth
        have hvalue := hfeed (.object done m.1 :: stack) (by simpa using hdepth)
        have hrest := hfeed' (done ++ [m]) stack hdepth
        rw [List.append_assoc] at hrest
        exact (bind_feed_append hvalue _).trans hrest

theorem denotes_print
    {n : Nat} {j : Json}
    (h : Printable n j) :
    Denotes n (print j) j := by
  induction h with
  | null =>
      refine denotes_value fun rest _ => ?_
      simp [print, lexChar, startToken, Function.comp_def]
  | bool b =>
      refine denotes_value fun rest _ => ?_
      cases b <;> simp [print, lexChar, startToken, Function.comp_def]
  | num literal h =>
      exact denotes_value (reads_number h)
  | str s =>
      exact denotes_value (reads_quote s)
  | arr items h ih =>
      cases items with
      | nil =>
          refine ⟨.openArray, [.closeArray], (reads_single rfl).cons rfl, ?_⟩
          intro stack hdepth
          rw [feedValue, if_pos (by omega)]
          rfl
      | cons j items =>
          obtain ⟨t, tokens, hreads, hfeed⟩ := denotes_items j items ih
          refine ⟨.openArray, t :: tokens, hreads.cons rfl, ?_⟩
          intro stack hdepth
          rw [feedValue, if_pos (by omega)]
          have hitems := hfeed [] stack (by omega)
          cases t <;> first | exact hitems | cases hitems
  | obj members h ih =>
      cases members with
      | nil =>
          refine ⟨.openObject, [.closeObject], (reads_single rfl).cons rfl, ?_⟩
          intro stack hdepth
          rw [feedValue, if_pos (by omega)]
          rfl
      | cons m members =>
          obtain ⟨tokens, hreads, hfeed⟩ := denotes_members m members ih
          refine ⟨.openObject, _, hreads.cons rfl, ?_⟩
          intro stack hdepth
          rw [feedValue, if_pos (by omega)]
          exact hfeed [] stack (by omega)

/-- The decoder reads back what the encoder wrote. -/
theorem parse_print
    {j : Json}
    (h : Printable maxNestingDepth j) :
    parse (print j) = some j := by
  obtain ⟨t, tokens, hreads, hfeed⟩ := denotes_print h
  have hlex : lex .between (print j) = some (t :: tokens) := by
    simpa [lex] using hreads [] (by rintro c ⟨⟩)
  have hmachine : (t :: tokens).foldlM feed (.value []) = some (.after j []) :=
    hfeed [] (by simp)
  rw [parse, hlex, Option.bind_some, ofTokens, hmachine]

end RoundTrip

end Json

end Library
end CoopMessenger
