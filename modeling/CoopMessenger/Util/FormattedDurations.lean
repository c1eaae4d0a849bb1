import CoopMessenger.Util.FutureTime

/-!
# Durations that are printed

`FormatDuration` of `util/time.go` prints a duration in the largest unit that is not above
it, and `ParseDuration` reads it again.  The parser admits its units in either case, but
tells them apart by a letter in lower case.

**Results.**
* `parseDuration_printed`: a number with a unit that is printed is read back.
* `durations_iff`: every duration is read back as it is printed, and a text that fits the
  parser's own expression is read if it starts its unit in lower case.
-/

namespace CoopMessenger
namespace Util

open FutureTime

namespace FormattedDurations

section Model

/-- `FormatDuration`; the quotients are not negative. -/
def formatDuration (d : Int) : String :=
  if 24 * hour ≤ d then toString (d / (24 * hour)) ++ "d"
  else if hour ≤ d then toString (d / hour) ++ "h"
  else if minute ≤ d then toString (d / minute) ++ "m"
  else if second ≤ d then toString (d / second) ++ "s"
  else "0s"

/-- The unit of the text. -/
def printedUnit (d : Int) : Int :=
  if 24 * hour ≤ d then 24 * hour
  else if hour ≤ d then hour
  else if minute ≤ d then minute
  else second

end Model

section Printing

theorem all_space_nil :
    ∀ c ∈ ([] : List Char), isRegexSpace c = true :=
  List.forall_mem_nil _

theorem known_of_word
    {letter : Char}
    (h : [letter].map foldCase ∈ unitWords) :
    [letter].map foldCase ∈ unitWords ∨ (([] : List Char) = [] ∧ [letter] ∈ fineUnits) :=
  Or.inl h

/-- Digits with the letter of a unit. -/
def printed
    (n : Nat)
    (letter : Char)
    (hknown : [letter].map foldCase ∈ unitWords) : DelayText where
  digits := Nat.toDigits 10 n
  space := []
  unit := [letter]
  digits_ne_nil := toDigits_ne_nil n
  all_digits := isDigit_of_mem_toDigits n
  all_space := all_space_nil
  known := known_of_word hknown

variable {n u : Nat}
variable {letter : Char}

theorem text_printed
    (hknown : [letter].map foldCase ∈ unitWords) :
    (printed n letter hknown).text = toString (n : Int) ++ String.singleton letter := by
  have hint : toString (n : Int) = toString n := rfl
  rw [hint, ← String.toList_inj]
  simp [DelayText.text, DelayText.chars, printed]

theorem parseDuration_printed
    {unit : Int}
    (letter : Char)
    (hknown : [letter].map foldCase ∈ unitWords)
    (hlower : some letter ∈ [some 'd', some 'h', some 'm', some 's'])
    (hsize : (printed 0 letter hknown).size = u)
    (hunit : unit = u)
    (hn : n < 2 ^ 63) :
    FutureTime.parseDuration (toString ((n : Int) / unit) ++ String.singleton letter) =
      some ((n : Int) / unit * unit) := by
  have hnumber : (printed (n / u) letter hknown).number = n / u :=
    Nat.ofDigitChars_ten_toDigits
  have hprinted : (printed (n / u) letter hknown).size = u := hsize
  have hword : (printed (n / u) letter hknown).IsWord := hknown
  have hdiv : n / u ≤ n := Nat.div_le_self n u
  have hmul : n / u * u ≤ n := Nat.div_mul_le_self n u
  rw [hunit, ← Int.natCast_ediv, ← text_printed hknown, DelayText.parseDuration_text, hnumber,
    hprinted, if_pos hword, if_pos ⟨hlower, by omega⟩, mul64_of_fits (by omega),
    Int.natCast_mul]

/-- A duration that is not negative is read back rounded down to its unit. -/
theorem parseDuration_formatDuration
    (hn : n < 2 ^ 63) :
    FutureTime.parseDuration (formatDuration n) =
      some ((n : Int) / printedUnit n * printedUnit n) := by
  rw [formatDuration, printedUnit]
  split_ifs with hday hhour hminute hsecond
  · exact parseDuration_printed (u := 24 * 3600 * 10 ^ 9) 'd' (by decide) (by decide)
      (by decide) (by decide) hn
  · exact parseDuration_printed (u := 3600 * 10 ^ 9) 'h' (by decide) (by decide)
      (by decide) (by decide) hn
  · exact parseDuration_printed (u := 60 * 10 ^ 9) 'm' (by decide) (by decide)
      (by decide) (by decide) hn
  · exact parseDuration_printed (u := 10 ^ 9) 's' (by decide) (by decide)
      (by decide) (by decide) hn
  · have hzero : (n : Int) / second = 0 := by
      rw [second] at hsecond ⊢
      omega
    rw [hzero]
    decide +kernel

end Printing

section Claim

/-- Whatever the regular expression captures is a number with a unit. -/
theorem exists_text_of_durationStr
    {s : String} {digits unit : List Char}
    (h : durationStr s.toList = some (digits, unit)) :
    ∃ t : DelayText, t.text = s ∧ t.IsWord := by
  rw [durationStr] at h
  split at h
  · next hmatch =>
      obtain ⟨hne, hword⟩ := hmatch
      let t : DelayText :=
        { digits := s.toList.takeWhile Char.isDigit
          space := (s.toList.dropWhile Char.isDigit).takeWhile isRegexSpace
          unit := (s.toList.dropWhile Char.isDigit).dropWhile isRegexSpace
          digits_ne_nil := hne
          all_digits := fun c hc => List.mem_takeWhile_imp hc
          all_space := fun c hc => List.mem_takeWhile_imp hc
          known := Or.inl hword }
      refine ⟨t, ?_, hword⟩
      have hchars : t.chars = s.toList := by
        rw [DelayText.chars]
        simp only [t, List.takeWhile_append_dropWhile]
      rw [DelayText.text, hchars, String.ofList_toList]
  · cases h

theorem reads_iff
    {t : DelayText}
    (hword : t.IsWord)
    (hfits : t.number * t.size < 2 ^ 63) :
    FutureTime.parseDuration t.text = some ((t.number * t.size : Nat) : Int) ↔
      t.StartsLower := by
  have hnumber : t.number < 2 ^ 63 :=
    lt_of_le_of_lt (Nat.le_mul_of_pos_right _ t.size_pos) hfits
  rw [DelayText.parseDuration_text, if_pos hword, mul64_of_fits hfits]
  by_cases hlower : t.StartsLower
  · rw [if_pos ⟨hlower, hnumber⟩]
    exact iff_of_true rfl hlower
  · rw [if_neg fun h => hlower h.1]
    exact iff_of_false nofun hlower

/--
A duration is read back rounded down to the unit that is printed, and a text of the
expression that fits is read as number times unit if its unit starts in lower case.
-/
theorem durations_iff
    {d : Int} {t : DelayText}
    (hnonneg : 0 ≤ d)
    (hd : d < 2 ^ 63)
    (hword : t.IsWord)
    (hfits : t.number * t.size < 2 ^ 63) :
    FutureTime.parseDuration (formatDuration d) =
        some (d / printedUnit d * printedUnit d) ∧
      (∀ s digits unit, durationStr s.toList = some (digits, unit) →
        ∃ t : DelayText, t.text = s ∧ t.IsWord) ∧
      (FutureTime.parseDuration t.text = some ((t.number * t.size : Nat) : Int) ↔
        t.StartsLower) := by
  refine ⟨?_, fun s digits unit => exists_text_of_durationStr, reads_iff hword hfits⟩
  obtain ⟨n, rfl⟩ := Int.eq_ofNat_of_zero_le hnonneg
  exact parseDuration_formatDuration (by omega)

def twoDays : DelayText :=
  printed 2 'd' (by decide)

/-- Forty-seven hours are printed as a day, and two days are read. -/
theorem days_read :
    FutureTime.parseDuration "1d" = some (24 * hour) ∧
      FutureTime.parseDuration twoDays.text =
        some ((twoDays.number * twoDays.size : Nat) : Int) := by
  have hday : formatDuration (47 * hour) = "1d" := by
    decide +kernel
  have hword : twoDays.IsWord := by
    decide
  have hread := durations_iff (d := 47 * hour) (by decide) (by decide) hword
    (by decide +kernel)
  rw [hday] at hread
  exact ⟨hread.1, hread.2.2.mpr (by decide)⟩

/-- The expression takes capital letters, which are not read. -/
theorem twoDays_not_read :
    durationStr "2 Days".toList = some (['2'], "Days".toList) ∧
      FutureTime.parseDuration "2 Days" = none := by
  decide +kernel

end Claim

end FormattedDurations

end Util
end CoopMessenger
