import CoopMessenger.Util.Durations
import CoopMessenger.Util.Trimming
import Mathlib.Algebra.Group.Int.Defs
import Mathlib.Algebra.GroupWithZero.Nat

/-!
# Times in the future

`util/time.go`: a time is given as a Unix timestamp, as a duration from now on, or in
natural language.  Durations with units that `time.ParseDuration` does not know, such as
days, are multiplied out in 64 bits.

**Results.**
* `mul64_mul64`: products wrap around once, whatever the order.
* `parseDuration_text`: what a number with a unit stands for.
* `parseFutureTime_text`: the time that it gives.
-/

namespace CoopMessenger
namespace Util

namespace FutureTime

section Model

/-- A product of signed 64-bit numbers. -/
def mul64 (a b : Int) : Int :=
  Int.bmod (a * b) (2 ^ 64)

/-- `time.Second`, and so on, in nanoseconds. -/
def second : Int := 1000000000
def minute : Int := 60 * second
def hour : Int := 60 * minute

/-- White space of the regular expressions. -/
def isRegexSpace (c : Char) : Bool :=
  c ∈ ['\t', '\n', '\x0c', '\r', ' ']

/-- Letters are alike for the flag `i`; a long s is an s. -/
def foldCase (c : Char) : Char :=
  if c = '\u017f' then 's' else c.toLower

def unitWords : List (List Char) :=
  ["d", "day", "days", "h", "hour", "hours", "m", "min", "mins", "minute", "minutes", "s",
    "sec", "secs", "second", "seconds"].map String.toList

/-- `durationStrRegex`, with what it captures. -/
def durationStr (s : List Char) : Option (List Char × List Char) :=
  let digits := s.takeWhile Char.isDigit
  let unit := (s.dropWhile Char.isDigit).dropWhile isRegexSpace
  if digits ≠ [] ∧ unit.map foldCase ∈ unitWords then
    some (digits, unit)
  else
    none

/-- `ParseDuration`; the case of the first letter of the unit matters. -/
def parseDuration (s : String) : Option Int :=
  match Util.parseDuration s with
  | some d => some d
  | none =>
      match durationStr s.toList with
      | none => none
      | some (digits, unit) =>
          (parseInt (String.ofList digits)).bind fun number =>
            match unit.head? with
            | some 'd' => some (mul64 (mul64 number 24) hour)
            | some 'h' => some (mul64 number hour)
            | some 'm' => some (mul64 number minute)
            | some 's' => some (mul64 number second)
            | _ => none

/-- `Unix`, for a time in nanoseconds. -/
def unix (t : Int) : Int :=
  t / second

def parseUnixTime
    (s : String)
    (now : Int) : Option Int :=
  (parseInt s).bind fun t => if t < unix now then none else some (t * second)

def parseFromDuration
    (s : String)
    (now : Int) : Option Int :=
  (parseDuration s).map (now + ·)

/-- The parser of natural language is that of another package. -/
def parseNaturalTime
    (parse : String → Int → Option Int)
    (s : String)
    (now : Int) : Option Int :=
  match parse s now with
  | none => none
  | some t =>
      if now < t then
        some t
      else
        match parse ("tomorrow, " ++ s) now with
        | none => none
        | some t => if now < t then some t else none

def parseFutureTime
    (parse : String → Int → Option Int)
    (s : String)
    (now : Int) : Option Int :=
  match parseUnixTime (trim s) now with
  | some t => some t
  | none =>
      match parseFromDuration (trim s) now with
      | some t => some t
      | none => parseNaturalTime parse (trim s) now

end Model

section Numbers

theorem mul64_mul64
    (a b c : Int) :
    mul64 (mul64 a b) c = mul64 a (b * c) := by
  rw [mul64, mul64, mul64, Int.bmod_mul_bmod, Int.mul_assoc]

/-- A product that is not negative is right if it fits. -/
theorem mul64_eq_self_iff
    {a b : Int}
    (h : 0 ≤ a * b) :
    mul64 a b = a * b ↔ a * b < 2 ^ 63 := by
  rw [mul64]
  constructor
  · intro heq
    have := Int.bmod_lt (x := a * b) (m := 2 ^ 64) (by decide)
    omega
  · intro hlt
    exact Int.bmod_eq_of_le (by omega) (by omega)

theorem mul64_of_fits
    {a b : Nat}
    (h : a * b < 2 ^ 63) :
    mul64 a b = ((a * b : Nat) : Int) := by
  rw [Int.natCast_mul, mul64_eq_self_iff] <;> rw [← Int.natCast_mul] <;> omega

theorem toDigits_ne_nil
    (n : Nat) :
    Nat.toDigits 10 n ≠ [] :=
  Nat.toDigits_ne_nil

/-- What is printed for a number is digits. -/
theorem isDigit_of_mem_toDigits
    (n : Nat) :
    ∀ c ∈ Nat.toDigits 10 n, c.isDigit = true :=
  fun _ hc => Nat.isDigit_of_mem_toDigits (by decide) (by decide) hc

end Numbers

section Texts

/-- The units that only `time.ParseDuration` knows. -/
def fineUnits : List (List Char) :=
  ["ns", "us", "\u00b5s", "\u03bcs", "ms"].map String.toList

/-- A number with a unit, as they are put into a delay. -/
structure DelayText where
  digits : List Char
  space : List Char
  unit : List Char
  digits_ne_nil : digits ≠ []
  all_digits : ∀ c ∈ digits, c.isDigit = true
  all_space : ∀ c ∈ space, isRegexSpace c = true
  known : unit.map foldCase ∈ unitWords ∨ (space = [] ∧ unit ∈ fineUnits)

namespace DelayText

def chars (t : DelayText) : List Char :=
  t.digits ++ (t.space ++ t.unit)

def text (t : DelayText) : String :=
  String.ofList t.chars

def number (t : DelayText) : Nat :=
  decimal t.digits

/-- The unit is one of the regular expression. -/
def IsWord (t : DelayText) : Prop :=
  t.unit.map foldCase ∈ unitWords

instance (t : DelayText) : Decidable t.IsWord :=
  inferInstanceAs (Decidable (t.unit.map foldCase ∈ unitWords))

/-- The nanoseconds of the unit. -/
def size (t : DelayText) : Nat :=
  if t.IsWord then
    match (t.unit.map foldCase).head? with
    | some 'd' => 24 * 3600 * 10 ^ 9
    | some 'h' => 3600 * 10 ^ 9
    | some 'm' => 60 * 10 ^ 9
    | _ => 10 ^ 9
  else
    (durationUnit (String.ofList t.unit)).getD 0

/-- The first letter of the unit is in lower case. -/
def StartsLower (t : DelayText) : Prop :=
  t.unit.head? ∈ [some 'd', some 'h', some 'm', some 's']

instance (t : DelayText) : Decidable t.StartsLower :=
  inferInstanceAs (Decidable (t.unit.head? ∈ [some 'd', some 'h', some 'm', some 's']))

end DelayText

theorem foldCase_of_not_isUpper
    {c : Char}
    (hs : c ≠ '\u017f')
    (hc : ¬(c.val ≥ 'A'.val ∧ c.val ≤ 'Z'.val)) :
    foldCase c = c := by
  rw [foldCase, if_neg hs]
  exact dif_neg hc

/-- Neither numbers nor white space are folded. -/
theorem foldCase_eq_self
    {c : Char}
    (hc : isNumberRune c = true ∨ isRegexSpace c = true) :
    foldCase c = c := by
  rcases hc with hnumber | hspace
  · simp only [isNumberRune, Bool.or_eq_true, beq_iff_eq] at hnumber
    rcases hnumber with hdigit | rfl
    · have hbound : c.val ≤ '9'.val := by
        simp only [Char.isDigit, Bool.and_eq_true, decide_eq_true_eq] at hdigit
        exact hdigit.2
      refine foldCase_of_not_isUpper ?_ ?_
      · rintro rfl
        exact absurd hbound (by decide)
      · intro hupper
        have hle : 'A'.val ≤ '9'.val := UInt32.le_trans hupper.1 hbound
        exact absurd hle (by decide)
    · decide
  · simp only [isRegexSpace, List.mem_cons, List.not_mem_nil, or_false, decide_eq_true_eq]
      at hspace
    rcases hspace with rfl | rfl | rfl | rfl | rfl <;> decide

theorem unitWords_letters :
    ∀ word ∈ unitWords, word.all (fun c => !isNumberRune c && !isRegexSpace c) = true := by
  decide

theorem fineUnits_letters :
    ∀ unit ∈ fineUnits, unit.all (fun c => !isNumberRune c && !isRegexSpace c) = true := by
  decide

namespace DelayText

variable {t : DelayText}

/-- The unit has neither numbers nor white space. -/
theorem unit_letters
    {c : Char}
    (hc : c ∈ t.unit) :
    isNumberRune c = false ∧ isRegexSpace c = false := by
  rcases t.known with hword | ⟨-, hfine⟩
  · have hall := unitWords_letters _ hword
    rw [List.all_eq_true] at hall
    have hfolded := hall _ (List.mem_map_of_mem hc)
    simp only [Bool.and_eq_true, Bool.not_eq_true'] at hfolded
    constructor
    · by_contra hnumber
      rw [Bool.not_eq_false] at hnumber
      rw [foldCase_eq_self (Or.inl hnumber), hnumber] at hfolded
      cases hfolded.1
    · by_contra hspace
      rw [Bool.not_eq_false] at hspace
      rw [foldCase_eq_self (Or.inr hspace), hspace] at hfolded
      cases hfolded.2
  · have hall := fineUnits_letters _ hfine
    rw [List.all_eq_true] at hall
    have hletter := hall _ hc
    simpa [Bool.and_eq_true] using hletter

theorem unit_ne_nil
    (t : DelayText) :
    t.unit ≠ [] := by
  intro hnil
  rcases t.known with hword | ⟨-, hfine⟩
  · rw [hnil] at hword
    exact absurd hword (by decide)
  · rw [hnil] at hfine
    exact absurd hfine (by decide)

/-- White space is no part of a number. -/
theorem rest_no_number
    {c : Char}
    (hc : c ∈ t.space ++ t.unit) :
    isNumberRune c = false := by
  rcases List.mem_append.mp hc with hspace | hunit
  · have hregex := t.all_space c hspace
    simp only [isRegexSpace, List.mem_cons, List.not_mem_nil, or_false, decide_eq_true_eq]
      at hregex
    rcases hregex with rfl | rfl | rfl | rfl | rfl <;> decide
  · exact (unit_letters hunit).1

end DelayText

end Texts

section Durations

variable {t : DelayText}

theorem runs_append
    {digits rest : List Char}
    (hdigits : ∀ c ∈ digits, isNumberRune c = true)
    (hne : digits ≠ [])
    (hrest : ∀ c ∈ rest, isNumberRune c = false)
    (hrestNe : rest ≠ []) :
    runs (digits ++ rest) = [digits, rest] := by
  have hruns : ∀ rest : List Char, rest ≠ [] → (∀ c ∈ rest, isNumberRune c = false) →
      runs rest = [rest] := by
    intro rest hne hrest
    induction rest with
    | nil =>
        exact absurd rfl hne
    | cons c rest ih =>
        obtain ⟨hc, hrest⟩ := List.forall_mem_cons.mp hrest
        cases rest with
        | nil =>
            rfl
        | cons d rest =>
            rw [runs, ih (List.cons_ne_nil _ _) hrest]
            have hnone : (d :: rest).any isNumberRune = false := by
              rw [List.any_eq_false]
              exact fun e he => by rw [hrest e he]; exact Bool.false_ne_true
            simp only [hc, hnone, if_true]
  induction digits with
  | nil =>
      exact absurd rfl hne
  | cons c digits ih =>
      obtain ⟨hc, hdigits⟩ := List.forall_mem_cons.mp hdigits
      cases digits with
      | nil =>
          have hnone : rest.any isNumberRune = false := by
            rw [List.any_eq_false]
            exact fun e he => by rw [hrest e he]; exact Bool.false_ne_true
          rw [List.cons_append, List.nil_append, runs, hruns rest hrestNe hrest]
          simp only [hc, hnone, Bool.true_eq_false, if_false]
      | cons d digits =>
          have hsome : (d :: digits).any isNumberRune = true := by
            rw [List.any_cons, hdigits d List.mem_cons_self, Bool.true_or]
          rw [List.cons_append, runs, ih hdigits (List.cons_ne_nil _ _)]
          simp only [hc, hsome, if_true]

/-- A text that starts with a digit has no sign. -/
theorem parseInt_of_isDigit
    {s cs : List Char} {c : Char}
    (hs : s = c :: cs)
    (hc : c.isDigit = true) :
    parseInt (String.ofList s) =
      if s.all Char.isDigit = true then
        if decimal s < 2 ^ 63 then some (decimal s : Int) else none
      else
        none := by
  have hne : s.isEmpty = false := by
    rw [hs]
    rfl
  rw [parseInt, String.toList_ofList]
  split
  next negative digits hsign =>
    have heq : negative = false ∧ digits = s := by
      split at hsign
      · rw [← (List.cons.inj hs).1] at hc
        exact absurd hc (by decide)
      · rw [← (List.cons.inj hs).1] at hc
        exact absurd hc (by decide)
      · cases hsign
        exact ⟨rfl, rfl⟩
    obtain ⟨rfl, rfl⟩ := heq
    rw [hne, Bool.false_or]
    cases digits.all Char.isDigit <;> rfl

/-- The white space that is not in a row. -/
def listedSpaces : List Char :=
  ['\t', '\n', '\x0b', '\x0c', '\r', ' ', '\u0085', '\u00a0', '\u1680', '\u2028', '\u2029',
    '\u202f', '\u205f', '\u3000']

theorem isSpace_cases
    {c : Char}
    (hc : isSpace c = true) :
    c ∈ listedSpaces ∨ '\u2000'.val ≤ c.val := by
  simp only [isSpace, Bool.or_eq_true, Bool.and_eq_true, decide_eq_true_eq] at hc
  rcases hc with hlist | ⟨hlow, -⟩
  · exact Or.inl hlist
  · exact Or.inr hlow

theorem isSpace_of_isDigit
    {c : Char}
    (hc : c.isDigit = true) :
    isSpace c = false := by
  rw [Bool.eq_false_iff]
  intro hspace
  rcases isSpace_cases hspace with hlist | hlow
  · have hall : listedSpaces.all (fun d => !d.isDigit) = true := by
      decide
    have hdigit := List.all_eq_true.mp hall c hlist
    rw [hc] at hdigit
    cases hdigit
  · simp only [Char.isDigit, Bool.and_eq_true, decide_eq_true_eq] at hc
    have hle : '\u2000'.val ≤ '9'.val := UInt32.le_trans hlow hc.2
    exact absurd hle (by decide)

namespace DelayText

theorem digits_eq_cons
    (t : DelayText) :
    ∃ c cs, t.digits = c :: cs ∧ c.isDigit = true := by
  obtain ⟨c, cs, hcons⟩ := List.exists_cons_of_ne_nil t.digits_ne_nil
  exact ⟨c, cs, hcons, t.all_digits c (hcons ▸ List.mem_cons_self)⟩

theorem rest_ne_nil
    (t : DelayText) :
    t.space ++ t.unit ≠ [] := by
  rw [Ne, List.append_eq_nil_iff, not_and]
  exact fun _ => t.unit_ne_nil

theorem parseNumber_digits
    (t : DelayText) :
    parseNumber t.digits = some (t.number, 0, 1) := by
  have hall : t.digits.all isNumberRune = true := by
    rw [List.all_eq_true]
    intro c hc
    rw [isNumberRune, t.all_digits c hc, Bool.true_or]
  have hpoint : '.' ∉ t.digits := fun hmem => absurd (t.all_digits _ hmem) (by decide)
  have hsplit : t.digits.splitOn '.' = [t.digits] := List.splitOn_eq_singleton hpoint
  rw [parseNumber, hall, hsplit]
  have hne : t.digits.isEmpty = false := List.isEmpty_eq_false_iff.mpr t.digits_ne_nil
  simp only [Bool.not_true, Bool.false_eq_true, if_false, hne]
  rfl

/-- What `time.ParseDuration` makes of a number with a unit. -/
theorem timeParseDuration_text
    (t : DelayText) :
    Util.parseDuration t.text =
      (durationUnit (String.ofList (t.space ++ t.unit))).bind fun size =>
        if t.number * size < 2 ^ 63 then some ((t.number * size : Nat) : Int) else none := by
  obtain ⟨c, cs, hcons, hc⟩ := t.digits_eq_cons
  have hruns : runs t.chars = [t.digits, t.space ++ t.unit] :=
    runs_append (fun c hc => by rw [isNumberRune, t.all_digits c hc, Bool.true_or])
      t.digits_ne_nil (fun c hc => rest_no_number hc) t.rest_ne_nil
  have hlong : 2 ≤ t.chars.length := by
    have hdigits := List.length_pos_iff.mpr t.digits_ne_nil
    have hrest := List.length_pos_iff.mpr t.rest_ne_nil
    rw [chars, List.length_append]
    omega
  have hzero : t.chars ≠ ['0'] := fun h => by rw [h] at hlong; simp at hlong
  have hnil : t.chars ≠ [] := fun h => by rw [h] at hlong; simp at hlong
  rw [Util.parseDuration, text, String.toList_ofList]
  split
  next negative digits hsign =>
    have heq : negative = false ∧ digits = t.chars := by
      split at hsign
      · next rest hlist =>
          rw [chars, hcons, List.cons_append, List.cons.injEq] at hlist
          rw [hlist.1] at hc
          exact absurd hc (by decide)
      · next rest hlist =>
          rw [chars, hcons, List.cons_append, List.cons.injEq] at hlist
          rw [hlist.1] at hc
          exact absurd hc (by decide)
      · cases hsign
        exact ⟨rfl, rfl⟩
    obtain ⟨rfl, rfl⟩ := heq
    rw [if_neg hzero, if_neg hnil, hruns, nanoseconds, parseNumber_digits]
    cases durationUnit (String.ofList (t.space ++ t.unit)) with
    | none =>
        rfl
    | some size =>
        simp [nanoseconds]

/-- What the regular expression captures. -/
theorem durationStr_chars
    (t : DelayText) :
    durationStr t.chars = if t.IsWord then some (t.digits, t.unit) else none := by
  have hrest : ∀ c, (t.space ++ t.unit).head? = some c → c.isDigit = false := by
    intro c hc
    have hnumber := rest_no_number (List.mem_of_head? hc)
    rw [isNumberRune, Bool.or_eq_false_iff] at hnumber
    exact hnumber.1
  have htake : t.chars.takeWhile Char.isDigit = t.digits := by
    rw [chars, List.takeWhile_append_of_pos t.all_digits]
    cases hcons : t.space ++ t.unit with
    | nil =>
        simp
    | cons c cs =>
        rw [List.takeWhile_cons_of_neg (by simp [hrest c (by rw [hcons]; rfl)]),
          List.append_nil]
  have hdrop : (t.chars.dropWhile Char.isDigit).dropWhile isRegexSpace = t.unit := by
    rw [chars, List.dropWhile_append_of_pos t.all_digits]
    have hunit : t.unit.dropWhile isRegexSpace = t.unit := by
      cases hcons : t.unit with
      | nil =>
          rfl
      | cons c cs =>
          have hc : isRegexSpace c = false :=
            (unit_letters (t := t) (hcons ▸ List.mem_cons_self)).2
          rw [List.dropWhile_cons_of_neg (by simp [hc])]
    cases hcons : t.space ++ t.unit with
    | nil =>
        exact absurd hcons t.rest_ne_nil
    | cons c cs =>
        rw [List.dropWhile_cons_of_neg (by simp [hrest c (by rw [hcons]; rfl)]), ← hcons,
          List.dropWhile_append_of_pos t.all_space, hunit]
  simp only [durationStr, htake, hdrop, IsWord, t.digits_ne_nil, ne_eq, not_false_eq_true,
    true_and]
  rfl

theorem parseInt_digits
    (t : DelayText) :
    parseInt (String.ofList t.digits) =
      if t.number < 2 ^ 63 then some (t.number : Int) else none := by
  obtain ⟨c, cs, hcons, hc⟩ := t.digits_eq_cons
  rw [parseInt_of_isDigit hcons hc, if_pos (List.all_eq_true.mpr t.all_digits)]
  rfl

/-- The units that `time.ParseDuration` knows. -/
theorem durationUnit_eq_none
    {unit : List Char}
    (h : unit ∉ ["s", "m", "h"].map String.toList ++ fineUnits) :
    durationUnit (String.ofList unit) = none := by
  have hne : ∀ known : String,
      known.toList ∈ ["s", "m", "h"].map String.toList ++ fineUnits →
        String.ofList unit ≠ known := by
    rintro known hknown rfl
    rw [String.toList_ofList] at hknown
    exact h hknown
  unfold durationUnit
  split
  case h_9 =>
    rfl
  all_goals
    next heq =>
      exact absurd heq (hne _ (by decide))

/-- A unit that both know is the same for both, and in lower case. -/
theorem durationUnit_word
    (hword : t.IsWord) :
    durationUnit (String.ofList (t.space ++ t.unit)) = none ∨
      (t.StartsLower ∧
        durationUnit (String.ofList (t.space ++ t.unit)) = some t.size) := by
  by_cases hknown : t.space ++ t.unit ∈ ["s", "m", "h"].map String.toList ++ fineUnits
  · right
    have hspace : t.space = [] := by
      cases hcons : t.space with
      | nil =>
          rfl
      | cons c cs =>
          have hc := t.all_space c (hcons ▸ List.mem_cons_self)
          have hfirst : ∀ w ∈ ["s", "m", "h"].map String.toList ++ fineUnits,
              w.head?.any isRegexSpace = false := by
            decide
          have hhead := hfirst _ hknown
          rw [hcons, List.cons_append, List.head?_cons, Option.any_some, hc] at hhead
          cases hhead
    rw [hspace, List.nil_append] at hknown ⊢
    rw [StartsLower, size, if_pos hword]
    rw [IsWord] at hword
    simp only [fineUnits, List.map_cons, List.map_nil, List.cons_append, List.nil_append,
      List.mem_cons, List.not_mem_nil, or_false] at hknown
    rcases hknown with h | h | h | h | h | h | h | h <;> rw [h] at hword ⊢
    · exact ⟨by decide, rfl⟩
    · exact ⟨by decide, rfl⟩
    · exact ⟨by decide, rfl⟩
    all_goals exact absurd hword (by decide)
  · exact Or.inl (durationUnit_eq_none hknown)

theorem durationUnit_fine
    (hword : ¬t.IsWord) :
    durationUnit (String.ofList (t.space ++ t.unit)) = some t.size := by
  obtain ⟨hspace, hfine⟩ := t.known.resolve_left hword
  rw [hspace, List.nil_append, size, if_neg hword]
  simp only [fineUnits, List.map_cons, List.map_nil, List.mem_cons, List.not_mem_nil, or_false]
    at hfine
  rcases hfine with h | h | h | h | h <;> rw [h, String.ofList_toList] <;> rfl

theorem size_pos
    (t : DelayText) :
    0 < t.size := by
  by_cases hword : t.IsWord
  · rw [size, if_pos hword]
    split <;> decide
  · obtain ⟨-, hfine⟩ := t.known.resolve_left hword
    rw [size, if_neg hword]
    simp only [fineUnits, List.map_cons, List.map_nil, List.mem_cons, List.not_mem_nil,
      or_false] at hfine
    rcases hfine with h | h | h | h | h <;> rw [h, String.ofList_toList] <;> decide

/-- The units of the regular expression are multiplied out in 64 bits. -/
theorem multiply_word
    (hword : t.IsWord) :
    ((parseInt (String.ofList t.digits)).bind fun number =>
        match t.unit.head? with
        | some 'd' => some (mul64 (mul64 number 24) hour)
        | some 'h' => some (mul64 number hour)
        | some 'm' => some (mul64 number minute)
        | some 's' => some (mul64 number second)
        | _ => none) =
      if t.StartsLower ∧ t.number < 2 ^ 63 then some (mul64 t.number t.size) else none := by
  rw [parseInt_digits]
  by_cases hfits : t.number < 2 ^ 63
  · rw [if_pos hfits, Option.bind_some]
    by_cases hlower : t.StartsLower
    · rw [if_pos ⟨hlower, hfits⟩, size, if_pos hword]
      rw [StartsLower] at hlower
      simp only [List.mem_cons, List.not_mem_nil, or_false] at hlower
      rcases hlower with h | h | h | h <;> simp only [h, List.head?_map, Option.map_some]
      · rw [mul64_mul64]
        rfl
      · rfl
      · rfl
      · rfl
    · rw [if_neg (fun h => hlower h.1)]
      split
      all_goals first
        | rfl
        | next hhead => exact absurd (by rw [StartsLower, hhead]; decide) hlower
  · rw [if_neg hfits, if_neg (fun h => hfits h.2)]
    rfl

/-- What a number with a unit stands for. -/
theorem parseDuration_text
    (t : DelayText) :
    FutureTime.parseDuration t.text =
      if t.IsWord then
        if t.StartsLower ∧ t.number < 2 ^ 63 then some (mul64 t.number t.size) else none
      else if t.number * t.size < 2 ^ 63 then
        some ((t.number * t.size : Nat) : Int)
      else
        none := by
  rw [FutureTime.parseDuration, timeParseDuration_text, text, String.toList_ofList,
    durationStr_chars]
  by_cases hword : t.IsWord
  · simp only [if_pos hword, multiply_word hword]
    rcases durationUnit_word hword with hnone | ⟨hlower, hsome⟩
    · rw [hnone]
      rfl
    · rw [hsome, Option.bind_some]
      by_cases hfits : t.number * t.size < 2 ^ 63
      · have hnumber : t.number < 2 ^ 63 :=
          lt_of_le_of_lt (Nat.le_mul_of_pos_right _ t.size_pos) hfits
        simp only [if_pos hfits, if_pos (And.intro hlower hnumber), mul64_of_fits hfits]
      · simp only [if_neg hfits]
  · simp only [if_neg hword]
    rw [durationUnit_fine hword, Option.bind_some]
    by_cases hfits : t.number * t.size < 2 ^ 63
    · simp only [if_pos hfits]
    · simp only [if_neg hfits]

/-- White space is not folded either. -/
theorem foldCase_of_isSpace
    {c : Char}
    (hc : isSpace c = true) :
    foldCase c = c := by
  rcases isSpace_cases hc with hlist | hlow
  · have hall : listedSpaces.all (fun d => foldCase d == d) = true := by
      decide
    exact eq_of_beq (List.all_eq_true.mp hall c hlist)
  · refine foldCase_of_not_isUpper ?_ ?_
    · rintro rfl
      exact absurd hlow (by decide)
    · intro hupper
      have hle : '\u2000'.val ≤ 'Z'.val := UInt32.le_trans hlow hupper.2
      exact absurd hle (by decide)

theorem unit_not_space
    {c : Char}
    (hc : c ∈ t.unit) :
    isSpace c = false := by
  have hletters : ∀ word ∈ unitWords ++ fineUnits, word.all (fun c => !isSpace c) = true := by
    decide
  rw [Bool.eq_false_iff]
  intro hspace
  rcases t.known with hword | ⟨-, hfine⟩
  · have hall := List.all_eq_true.mp (hletters _ (List.mem_append_left _ hword)) _
      (List.mem_map_of_mem hc)
    rw [foldCase_of_isSpace hspace, hspace] at hall
    cases hall
  · have hall := List.all_eq_true.mp (hletters _ (List.mem_append_right _ hfine)) c hc
    rw [hspace] at hall
    cases hall

theorem trim_text
    (t : DelayText) :
    trim t.text = t.text := by
  obtain ⟨c, cs, hcons, hdigit⟩ := t.digits_eq_cons
  rw [trim, text, String.toList_ofList, trimSpace_eq_self]
  · intro d hd
    rw [chars, hcons, List.cons_append, List.head?_cons, Option.some.injEq] at hd
    exact isSpace_of_isDigit (hd ▸ hdigit)
  · intro d hd
    rw [chars, ← List.append_assoc, List.getLast?_append_of_ne_nil _ t.unit_ne_nil] at hd
    exact unit_not_space (List.mem_of_getLast? hd)

theorem parseInt_text
    (t : DelayText) :
    parseInt t.text = none := by
  obtain ⟨c, cs, hcons, hc⟩ := t.digits_eq_cons
  obtain ⟨d, ds, hunit⟩ := List.exists_cons_of_ne_nil t.unit_ne_nil
  have hd : d ∈ t.unit := hunit ▸ List.mem_cons_self
  have hchars : t.chars = c :: (cs ++ (t.space ++ t.unit)) := by
    rw [chars, hcons, List.cons_append]
  have hall : ¬t.chars.all Char.isDigit = true := by
    intro hall
    have hdigit := List.all_eq_true.mp hall d
      (List.mem_append_right _ (List.mem_append_right _ hd))
    have hnumber := (unit_letters hd).1
    rw [isNumberRune, hdigit, Bool.true_or] at hnumber
    cases hnumber
  rw [text, parseInt_of_isDigit hchars hc, if_neg hall]

/-- The time that a number with a unit gives, unless it is natural language. -/
theorem parseFutureTime_text
    {parse : String → Int → Option Int} {now : Int}
    (hparse : parse t.text now = none) :
    parseFutureTime parse t.text now = (FutureTime.parseDuration t.text).map (now + ·) := by
  have hunix : parseUnixTime t.text now = none := by
    rw [parseUnixTime, parseInt_text]
    rfl
  rw [parseFutureTime, trim_text, hunix, parseFromDuration, parseNaturalTime, hparse]
  cases FutureTime.parseDuration t.text <;> rfl

end DelayText

end Durations

end FutureTime

end Util
end CoopMessenger
