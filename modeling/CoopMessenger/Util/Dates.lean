import Mathlib.Data.Bool.AllAny
import Mathlib.Data.List.Basic

/-!
# Dates

Unix times in UTC as the standard library formats them for the headers of mails.

**Results.**
* `plain_formatRFC1123`: a date is one line and has no braces.
-/

namespace CoopMessenger
namespace Util

namespace Dates

section Model

structure Date where
  year : Nat
  month : Nat
  day : Nat
deriving DecidableEq, Repr

/-- The date of a day, counted from the first of January 1970; months count from 1. -/
def date (days : Nat) : Date :=
  let z := days + 719468 -- days since the first of March of the year 0
  let dayOfEra := z % 146097
  let yearOfEra :=
    (dayOfEra - dayOfEra / 1460 + dayOfEra / 36524 - dayOfEra / 146096) / 365
  let dayOfYear := dayOfEra - (365 * yearOfEra + yearOfEra / 4 - yearOfEra / 100)
  let m := (5 * dayOfYear + 2) / 153
  let month := if m < 10 then m + 3 else m - 9
  ⟨z / 146097 * 400 + yearOfEra + (if month ≤ 2 then 1 else 0), month,
    dayOfYear - (153 * m + 2) / 5 + 1⟩

def weekdays : List (List Char) :=
  ["Thu", "Fri", "Sat", "Sun", "Mon", "Tue", "Wed"].map String.toList

def months : List (List Char) :=
  ["Jan", "Feb", "Mar", "Apr", "May", "Jun", "Jul", "Aug", "Sep", "Oct", "Nov", "Dec"].map
    String.toList

/-- A number with at least so many digits. -/
def padded (width n : Nat) : List Char :=
  let digits := Nat.toDigits 10 n
  List.replicate (width - digits.length) '0' ++ digits

/-- `time.RFC1123` of a time in UTC, or `time.RFC1123Z` with the offset for the zone. -/
def formatRFC1123
    (zone : List Char)
    (unix : Nat) : List Char :=
  let d := date (unix / 86400)
  let second := unix % 86400
  weekdays.getD (unix / 86400 % 7) [] ++ ", ".toList ++ padded 2 d.day ++ ' ' ::
    (months.getD (d.month - 1) [] ++ ' ' :: (padded 4 d.year ++ ' ' ::
      (padded 2 (second / 3600) ++ ':' :: (padded 2 (second / 60 % 60) ++ ':' ::
        (padded 2 (second % 60) ++ ' ' :: zone)))))

example : String.ofList (formatRFC1123 "+0000".toList 1640382204) =
    "Fri, 24 Dec 2021 21:43:24 +0000" := by
  decide +kernel

end Model

section Characters

/-- Neither a line break nor a brace. -/
def plain (c : Char) : Bool :=
  c ≠ '\n' && c ≠ '\x7b' && c ≠ '\x7d'

theorem plain_padded
    {width n : Nat} :
    ∀ c ∈ padded width n, plain c = true := by
  intro c hc
  rcases List.mem_append.mp hc with hc | hc
  · rw [(List.mem_replicate.mp hc).2]
    decide
  · have hdigit := Nat.isDigit_of_mem_toDigits (by decide) (by decide) hc
    simp only [plain, Bool.and_eq_true, decide_eq_true_eq]
    refine ⟨⟨?_, ?_⟩, ?_⟩ <;> rintro rfl <;> exact absurd hdigit (by decide)

theorem plain_getD
    {names : List (List Char)}
    (hnames : names.all (fun name => name.all plain) = true)
    (i : Nat) :
    ∀ c ∈ names.getD i [], plain c = true := by
  intro c hc
  rw [List.getD_eq_getElem?_getD] at hc
  cases hget : names[i]? with
  | none =>
      rw [hget] at hc
      cases hc
  | some name =>
      rw [hget] at hc
      exact List.all_eq_true.mp (List.all_eq_true.mp hnames name (List.mem_of_getElem? hget)) c hc

/-- A date is one line and has no braces. -/
theorem plain_formatRFC1123
    {zone : List Char} {unix : Nat}
    (hzone : ∀ c ∈ zone, plain c = true) :
    ∀ c ∈ formatRFC1123 zone unix, plain c = true := by
  have hweekdays := @plain_getD weekdays (by decide)
  have hmonths := @plain_getD months (by decide)
  have hcomma : ∀ c ∈ ", ".toList, plain c = true := List.all_eq_true.mp (by decide)
  intro c hc
  simp only [formatRFC1123, List.mem_append, List.mem_cons] at hc
  rcases hc with ((hc | hc) | hc) | rfl | hc | rfl | hc | rfl | hc | rfl | hc | rfl | hc |
    rfl | hc
  · exact hweekdays _ c hc
  · exact hcomma c hc
  · exact plain_padded c hc
  · decide
  · exact hmonths _ c hc
  · decide
  · exact plain_padded c hc
  · decide
  · exact plain_padded c hc
  · decide
  · exact plain_padded c hc
  · decide
  · exact plain_padded c hc
  · decide
  · exact hzone c hc

end Characters

end Dates

end Util
end CoopMessenger
