import CoopMessenger.Util.Text

/-!
# Durations

`time.ParseDuration`: numbers with units, such as `1h30m` or `1.5s`.  A number
without a unit is no duration, unless it is zero.

**Results.**
* `parseDuration_of_digits`: digits alone are no duration.
-/

namespace CoopMessenger
namespace Util

section Durations

/-- Nanoseconds of a unit. -/
def durationUnit (unit : String) : Option Nat :=
  match unit with
  | "ns" => some 1
  | "us" | "\u00b5s" | "\u03bcs" => some 1000
  | "ms" => some (10 ^ 6)
  | "s" => some (10 ^ 9)
  | "m" => some (60 * 10 ^ 9)
  | "h" => some (3600 * 10 ^ 9)
  | _ => none

def isNumberRune (c : Char) : Bool :=
  c.isDigit || c == '.'

/-- The longest pieces that belong to numbers, or do not. -/
def runs : List Char → List (List Char)
  | [] => []
  | c :: rest =>
      match runs rest with
      | [] => [[c]]
      | piece :: others =>
          if isNumberRune c = piece.any isNumberRune then
            (c :: piece) :: others
          else
            [c] :: piece :: others

/-- A number as its whole part, its fraction, and the scale of the fraction. -/
def parseNumber (s : List Char) : Option (Nat × Nat × Nat) :=
  if !s.all isNumberRune then
    none
  else
    match s.splitOn '.' with
    | [whole] =>
        if whole.isEmpty then none else some (decimal whole, 0, 1)
    | [whole, fraction] =>
        if whole.isEmpty && fraction.isEmpty then
          none
        else
          some (decimal whole, decimal fraction, 10 ^ fraction.length)
    | _ => none

/-- The sum of numbers with their units; fractions are rounded down. -/
def nanoseconds : List (List Char) → Option Nat
  | [] => some 0
  | [_] => none
  | number :: unit :: rest =>
      (parseNumber number).bind fun (whole, fraction, scale) =>
        (durationUnit (String.ofList unit)).bind fun size =>
          (nanoseconds rest).map fun sum =>
            whole * size + fraction * size / scale + sum

/-- `time.ParseDuration`, in nanoseconds. -/
def parseDuration (s : String) : Option Int :=
  let (negative, digits) :=
    match s.toList with
    | '-' :: digits => (true, digits)
    | '+' :: digits => (false, digits)
    | digits => (false, digits)
  if digits = ['0'] then
    some 0
  else if digits = [] then
    none
  else
    match nanoseconds (runs digits) with
    | none => none
    | some d =>
        if negative then
          if d ≤ 2 ^ 63 then some (-(d : Int)) else none
        else
          if d < 2 ^ 63 then some d else none

theorem runs_of_digits
    {s : List Char}
    (hs : s ≠ [])
    (hdigits : ∀ c ∈ s, c.isDigit = true) :
    runs s = [s] := by
  induction s with
  | nil =>
      exact absurd rfl hs
  | cons c s ih =>
      obtain ⟨hc, hrest⟩ := List.forall_mem_cons.mp hdigits
      cases s with
      | nil =>
          rfl
      | cons d s =>
          rw [runs, ih (by simp) hrest]
          simp [isNumberRune, hc, hrest d List.mem_cons_self]

/-- Digits alone are no duration. -/
theorem parseDuration_of_digits
    {s : String}
    (hs : s ≠ "")
    (hzero : s ≠ "0")
    (hdigits : ∀ c ∈ s.toList, c.isDigit = true) :
    parseDuration s = none := by
  have hnil : s.toList ≠ [] := fun h => hs (String.toList_eq_nil_iff.mp h)
  have hnotZero : s.toList ≠ ['0'] := fun h => hzero (String.toList_inj.mp h)
  have hruns := runs_of_digits hnil hdigits
  rw [parseDuration]
  split
  next negative digits hsplit =>
    have heq : digits = s.toList := by
      split at hsplit
      · next rest hlist =>
          have hsign := hdigits '-' (hlist ▸ List.mem_cons_self)
          exact absurd hsign (by decide)
      · next rest hlist =>
          have hsign := hdigits '+' (hlist ▸ List.mem_cons_self)
          exact absurd hsign (by decide)
      · cases hsplit
        rfl
    rw [heq, if_neg hnotZero, if_neg hnil, hruns]
    rfl

end Durations

end Util
end CoopMessenger
