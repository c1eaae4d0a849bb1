import Mathlib.Data.List.DropRight
import Mathlib.Data.String.Basic

/-!
# Text functions

The functions on strings of the standard library that the server uses, as they
are documented: letter case, white space, splitting, numbers, paths and base64.
-/

namespace CoopMessenger
namespace Util

section Characters

/-- The lower-case letter, for every character that has an ASCII one. -/
def toLower (c : Char) : Char :=
  if c = '\u0130' then
    'i'
  else if c = '\u212a' then
    'k'
  else
    c.toLower

/-- White space as defined by Unicode. -/
def isSpace (c : Char) : Bool :=
  c ∈ ['\t', '\n', '\x0b', '\x0c', '\r', ' ', '\u0085', '\u00a0', '\u1680',
    '\u2028', '\u2029', '\u202f', '\u205f', '\u3000'] ||
    ('\u2000' ≤ c && c ≤ '\u200a')

end Characters

section Strings

/-- Slices off white space on both sides. -/
def trimSpace (s : List Char) : List Char :=
  (s.dropWhile isSpace).rdropWhile isSpace

/-- `strings.TrimSpace` -/
def trim (s : String) : String :=
  String.ofList (trimSpace s.toList)

/-- `strings.TrimPrefix` -/
def trimPrefix (start s : List Char) : List Char :=
  if start.isPrefixOf s then
    s.drop start.length
  else
    s

/-- `strings.TrimSuffix` -/
def trimSuffix (tail s : List Char) : List Char :=
  if tail.isSuffixOf s then
    s.take (s.length - tail.length)
  else
    s

/-- `strings.ToLower`, for comparisons with ASCII text. -/
def lower (s : String) : String :=
  String.ofList (s.toList.map toLower)

/-- Splits a string by a character, and leaves out empty parts. -/
def splitNoEmpty
    (s : String)
    (sep : Char) : List String :=
  ((s.toList.splitOn sep).filter (fun part => !part.isEmpty)).map String.ofList

/-- Replaces every backslash followed by `n` by a newline. -/
def unescapeNewlines :
    List Char → List Char
  | [] => []
  | [c] => [c]
  | c :: d :: rest =>
      if c = '\\' ∧ d = 'n' then
        '\n' :: unescapeNewlines rest
      else
        c :: unescapeNewlines (d :: rest)

end Strings

section Numbers

/-- The number that decimal digits denote. -/
def decimal
    (digits : List Char) : Nat :=
  digits.foldl (fun n c => 10 * n + (c.toNat - '0'.toNat)) 0

/-- `strconv.ParseInt(s, 10, 64)` -/
def parseInt (s : String) : Option Int :=
  let (negative, digits) :=
    match s.toList with
    | '-' :: digits => (true, digits)
    | '+' :: digits => (false, digits)
    | digits => (false, digits)
  if digits.isEmpty || !digits.all Char.isDigit then
    none
  else if negative then
    if decimal digits ≤ 2 ^ 63 then some (-(decimal digits : Int)) else none
  else
    if decimal digits < 2 ^ 63 then some (decimal digits) else none

end Numbers

section Paths

/-- `path.Base` -/
def pathBase (path : String) : String :=
  if path = "" then
    "."
  else
    match path.toList.rdropWhile (· == '/') with
    | [] => "/"
    | p => String.ofList (p.rtakeWhile (· != '/'))

end Paths

section Bytes

/-- Valid UTF-8 as a string. -/
def decodeUTF8 (bytes : List UInt8) : Option String :=
  String.fromUTF8? ⟨bytes.toArray⟩

/-- The bytes of a string. -/
def bytesOf (s : String) : List UInt8 :=
  s.toUTF8.data.toList

/-- The letter of the base64 alphabet. -/
def base64Char (n : Nat) : Char :=
  if n < 26 then
    Char.ofNat ('A'.toNat + n)
  else if n < 52 then
    Char.ofNat ('a'.toNat + (n - 26))
  else if n < 62 then
    Char.ofNat ('0'.toNat + (n - 52))
  else if n = 62 then
    '+'
  else
    '/'

/-- Standard base64 with padding. -/
def base64 :
    List UInt8 → List Char
  | [] => []
  | [a] =>
      [base64Char (a.toNat / 4), base64Char (a.toNat % 4 * 16), '=', '=']
  | [a, b] =>
      [base64Char (a.toNat / 4),
        base64Char (a.toNat % 4 * 16 + b.toNat / 16),
        base64Char (b.toNat % 16 * 4), '=']
  | a :: b :: c :: rest =>
      [base64Char (a.toNat / 4),
        base64Char (a.toNat % 4 * 16 + b.toNat / 16),
        base64Char (b.toNat % 16 * 4 + c.toNat / 64),
        base64Char (c.toNat % 64)] ++ base64 rest

end Bytes

end Util
end CoopMessenger
