import CoopMessenger.Util.FutureTime
import Mathlib.Data.Nat.Log

/-!
# Sizes

`util/util.go`: a size is a number of bytes with a unit, such as `10K`.  The printer takes
the largest unit that is not above the size, and knows more units than the parser.

**Results.**
* `scale_eq`: where the loop of the printer ends.
* `parseSize_text`: what a number with a unit stands for.
* `sizes_iff`: which sizes are read back as they are printed, and which texts are read as
  the product of number and unit.
-/

namespace CoopMessenger
namespace Util

open FutureTime

namespace Sizes

section Model

/-- The letters of `[gmkb]` without their case; the Kelvin sign is a K. -/
def isSizeUnit (c : Char) : Bool :=
  c ∈ ['g', 'G', 'm', 'M', 'k', 'K', '\u212a', 'b', 'B']

/-- `sizeStrRegex`, with what it captures. -/
def sizeStr (s : List Char) : Option (List Char × Option Char) :=
  let digits := s.takeWhile Char.isDigit
  if digits = [] then
    none
  else
    match s.dropWhile Char.isDigit with
    | [] => some (digits, none)
    | [c] => if isSizeUnit c then some (digits, some c) else none
    | _ => none

/-- `ParseSize`; the Kelvin sign is in upper case already, but is no K. -/
def parseSize (s : String) : Except String Int :=
  match sizeStr s.toList with
  | none => .error ("invalid size " ++ s)
  | some (digits, unit) =>
      match parseInt (String.ofList digits) with
      | none => .error ("cannot convert number " ++ String.ofList digits)
      | some value =>
          match unit.map Char.toUpper with
          | some 'T' => .ok (mul64 (mul64 (mul64 (mul64 value 1024) 1024) 1024) 1024)
          | some 'G' => .ok (mul64 (mul64 (mul64 value 1024) 1024) 1024)
          | some 'M' => .ok (mul64 (mul64 value 1024) 1024)
          | some 'K' => .ok (mul64 value 1024)
          | _ => .ok value

/-- The `float64` next to a whole number, which is a whole number; halves go to even. -/
def float64 (n : Nat) : Nat :=
  let ulp := 2 ^ (n.log2 - 52)
  if 2 * (n % ulp) < ulp ∨ (2 * (n % ulp) = ulp ∧ n / ulp % 2 = 0) then
    n / ulp * ulp
  else
    (n / ulp + 1) * ulp

/-- The loop of `FormatSize`; the divisor is never above the size. -/
def scale (n div exp : Nat) : Nat × Nat :=
  if n < 1024 then
    (div, exp)
  else
    scale (n / 1024) (div * 1024) (exp + 1)
termination_by n
decreasing_by omega

/-- `FormatSize`, unless it panics. -/
def formatSize (b : Int) : Option String :=
  if b < 1024 then
    some (toString b)
  else
    let (div, exp) := scale (b.toNat / 1024) 1024 0
    ['K', 'M', 'G', 'T'][exp]?.map fun letter =>
      toString (float64 b.toNat / div) ++ String.singleton letter

end Model

section Texts

/-- A number with a unit. -/
structure SizeText where
  digits : List Char
  unit : Option Char
  digits_ne_nil : digits ≠ []
  all_digits : ∀ c ∈ digits, c.isDigit = true
  known : unit.all isSizeUnit = true

namespace SizeText

def chars (t : SizeText) : List Char :=
  t.digits ++ t.unit.toList

def text (t : SizeText) : String :=
  String.ofList t.chars

def number (t : SizeText) : Nat :=
  decimal t.digits

/-- The bytes of the unit, whatever its case. -/
def size (t : SizeText) : Nat :=
  match t.unit with
  | some 'k' | some 'K' | some '\u212a' => 1024
  | some 'm' | some 'M' => 1024 ^ 2
  | some 'g' | some 'G' => 1024 ^ 3
  | _ => 1

/-- The unit is written with the Kelvin sign. -/
def IsKelvin (t : SizeText) : Prop :=
  t.unit = some '\u212a'

instance (t : SizeText) : Decidable t.IsKelvin :=
  inferInstanceAs (Decidable (t.unit = some '\u212a'))

/-- What the number is multiplied with. -/
def factor (t : SizeText) : Nat :=
  if t.IsKelvin then 1 else t.size

end SizeText

theorem not_isDigit_of_isSizeUnit
    {c : Char}
    (hc : isSizeUnit c = true) :
    c.isDigit = false := by
  rw [isSizeUnit, decide_eq_true_eq] at hc
  simp only [List.mem_cons, List.not_mem_nil, or_false] at hc
  rcases hc with rfl | rfl | rfl | rfl | rfl | rfl | rfl | rfl | rfl <;> rfl

theorem takeWhile_digits
    {digits rest : List Char}
    (hdigits : ∀ c ∈ digits, c.isDigit = true)
    (hrest : ∀ c, rest.head? = some c → c.isDigit = false) :
    (digits ++ rest).takeWhile Char.isDigit = digits ∧
      (digits ++ rest).dropWhile Char.isDigit = rest := by
  rw [List.takeWhile_append_of_pos hdigits, List.dropWhile_append_of_pos hdigits]
  cases rest with
  | nil =>
      simp
  | cons c rest =>
      have hc : ¬c.isDigit = true := by
        rw [hrest c rfl]
        exact Bool.false_ne_true
      rw [List.takeWhile_cons_of_neg hc, List.dropWhile_cons_of_neg hc, List.append_nil]
      exact ⟨rfl, rfl⟩

/-- What the regular expression captures. -/
theorem sizeStr_chars
    (t : SizeText) :
    sizeStr t.chars = some (t.digits, t.unit) := by
  obtain ⟨digits, unit, hne, hdigits, hknown⟩ := t
  have hhead : ∀ c, unit.toList.head? = some c → c.isDigit = false := by
    intro c hc
    cases unit with
    | none =>
        cases hc
    | some d =>
        rw [Option.toList_some, List.head?_cons, Option.some.injEq] at hc
        rw [← hc]
        exact not_isDigit_of_isSizeUnit hknown
  have hsplit := takeWhile_digits hdigits hhead
  rw [sizeStr]
  simp only [SizeText.chars, hsplit.1, hsplit.2, if_neg hne]
  cases unit with
  | none =>
      rfl
  | some c =>
      rw [Option.all_some] at hknown
      simp [hknown]

/-- Whatever the regular expression captures is a number with a unit. -/
theorem exists_chars_of_sizeStr
    {s digits : List Char} {unit : Option Char}
    (h : sizeStr s = some (digits, unit)) :
    ∃ t : SizeText, t.chars = s ∧ t.digits = digits ∧ t.unit = unit := by
  have hall : ∀ c ∈ s.takeWhile Char.isDigit, c.isDigit = true :=
    fun c hc => List.mem_takeWhile_imp hc
  have hsplit := List.takeWhile_append_dropWhile (p := Char.isDigit) (l := s)
  rw [sizeStr] at h
  split at h
  · cases h
  · next hne =>
      split at h
      · next hdrop =>
          cases h
          refine ⟨⟨_, none, hne, hall, rfl⟩, ?_, rfl, rfl⟩
          rw [hdrop] at hsplit
          exact hsplit
      · next c hdrop =>
          split at h
          · next hc =>
              cases h
              refine ⟨⟨_, some c, hne, hall, hc⟩, ?_, rfl, rfl⟩
              rw [hdrop] at hsplit
              exact hsplit
          · cases h
      · cases h

end Texts

section Parsing

variable (t : SizeText)

/-- The code multiplies by the unit in steps. -/
theorem multiply_unit
    (value : Int)
    (hvalue : mul64 value 1 = value) :
    (match t.unit.map Char.toUpper with
      | some 'T' => .ok (mul64 (mul64 (mul64 (mul64 value 1024) 1024) 1024) 1024)
      | some 'G' => .ok (mul64 (mul64 (mul64 value 1024) 1024) 1024)
      | some 'M' => .ok (mul64 (mul64 value 1024) 1024)
      | some 'K' => .ok (mul64 value 1024)
      | _ => .ok value) = (.ok (mul64 value t.factor) : Except String Int) := by
  simp only [mul64_mul64]
  obtain ⟨digits, unit, hne, hdigits, hknown⟩ := t
  cases unit with
  | none =>
      exact congrArg Except.ok hvalue.symm
  | some c =>
      have hc : isSizeUnit c = true := hknown
      rw [isSizeUnit, decide_eq_true_eq] at hc
      simp only [List.mem_cons, List.not_mem_nil, or_false] at hc
      rcases hc with rfl | rfl | rfl | rfl | rfl | rfl | rfl | rfl | rfl
      iterate 6 rfl
      all_goals exact congrArg Except.ok hvalue.symm

theorem parseSize_text :
    parseSize t.text =
      if t.number < 2 ^ 63 then
        .ok (mul64 t.number t.factor)
      else
        .error ("cannot convert number " ++ String.ofList t.digits) := by
  obtain ⟨c, cs, hcons⟩ := List.exists_cons_of_ne_nil t.digits_ne_nil
  have hnumber : parseInt (String.ofList t.digits) =
      if t.number < 2 ^ 63 then some (t.number : Int) else none := by
    rw [parseInt_of_isDigit hcons (t.all_digits c (hcons ▸ List.mem_cons_self)),
      if_pos (List.all_eq_true.mpr t.all_digits)]
    rfl
  rw [parseSize, SizeText.text, String.toList_ofList, sizeStr_chars]
  simp only [hnumber]
  by_cases hfits : t.number < 2 ^ 63
  · simp only [if_pos hfits]
    refine multiply_unit t t.number ?_
    have hone := mul64_of_fits (a := t.number) (b := 1) (by omega)
    rwa [Nat.mul_one] at hone
  · simp only [if_neg hfits]

/-- A text that is read at all is a number with a unit. -/
theorem exists_text_of_parseSize
    {s : String} {size : Int}
    (h : parseSize s = .ok size) :
    ∃ t : SizeText, t.text = s := by
  rw [parseSize] at h
  split at h
  · cases h
  · next digits unit hsize =>
      obtain ⟨t, ht, -⟩ := exists_chars_of_sizeStr hsize
      exact ⟨t, by rw [SizeText.text, ht, String.ofList_toList]⟩

end Parsing

section Printing

theorem float64_of_lt
    {n : Nat}
    (h : n < 2 ^ 53) :
    float64 n = n := by
  have hulp : n.log2 - 52 = 0 := by
    by_cases hn : n = 0
    · rw [hn]
      rfl
    · have := (Nat.log2_lt hn).mpr h
      omega
  rw [float64, hulp]
  simp only [pow_zero, Nat.mod_one, Nat.div_one, Nat.mul_one]
  exact if_pos (Or.inl (by decide))

/-- The loop divides as often as the number can be divided. -/
theorem scale_eq
    (n div exp : Nat) :
    scale n div exp = (div * 1024 ^ Nat.log 1024 n, exp + Nat.log 1024 n) := by
  induction n, div, exp using scale.induct with
  | case1 n div exp hsmall =>
      rw [scale, if_pos hsmall, Nat.log_of_lt hsmall, pow_zero, Nat.mul_one, Nat.add_zero]
  | case2 n div exp hlarge ih =>
      rw [scale, if_neg hlarge, ih, Nat.log_of_one_lt_of_le (by decide) (not_lt.mp hlarge),
        pow_succ']
      refine Prod.ext ?_ ?_
      · exact Nat.mul_assoc _ _ _
      · omega

/-- What is printed for a size that has a unit. -/
theorem formatSize_of_log
    {n k : Nat}
    (hlow : 1024 ^ (k + 1) ≤ n)
    (hhigh : n < 1024 ^ (k + 2)) :
    formatSize n = ['K', 'M', 'G', 'T'][k]?.map fun letter =>
      toString (float64 n / 1024 ^ (k + 1)) ++ String.singleton letter := by
  have hunit : 1024 ≤ n := le_trans (Nat.le_self_pow (Nat.succ_ne_zero k) 1024) hlow
  have hlog : Nat.log 1024 (n / 1024) = k := by
    rw [Nat.log_div_base]
    have := Nat.log_eq_of_pow_le_of_lt_pow hlow hhigh
    omega
  have hscale : scale (n / 1024) 1024 0 = (1024 ^ (k + 1), k) := by
    rw [scale_eq, hlog, pow_succ', Nat.zero_add]
  have hint : ¬(n : Int) < 1024 := by omega
  rw [formatSize, if_neg hint]
  simp only [Int.toNat_natCast, hscale]

/-- Digits with a unit that the printer takes. -/
def printed
    (n : Nat)
    (unit : Option Char)
    (hunit : unit.all isSizeUnit = true) : SizeText where
  digits := Nat.toDigits 10 n
  unit := unit
  digits_ne_nil := toDigits_ne_nil n
  all_digits := isDigit_of_mem_toDigits n
  known := hunit

/-- The number is a multiple of its unit as it is printed. -/
theorem parseSize_printed
    {n u : Nat} {unit : Option Char} {hunit : unit.all isSizeUnit = true}
    (hn : n < 2 ^ 63)
    (hfactor : (printed (n / u) unit hunit).factor = u) :
    parseSize (printed (n / u) unit hunit).text = .ok ((n / u * u : Nat) : Int) := by
  have hnumber : (printed (n / u) unit hunit).number = n / u :=
    Nat.ofDigitChars_ten_toDigits
  have hdiv : n / u ≤ n := Nat.div_le_self n u
  have hmul : n / u * u ≤ n := Nat.div_mul_le_self n u
  rw [parseSize_text, hnumber, hfactor, if_pos (by omega), mul64_of_fits (by omega)]

theorem text_printed
    (n : Nat)
    (letter : Char)
    (hunit : isSizeUnit letter = true) :
    (printed n (some letter) hunit).text = toString n ++ String.singleton letter := by
  rw [← String.toList_inj]
  simp [SizeText.text, SizeText.chars, printed]

end Printing

section Claim

/-- The largest unit that is not above a size. -/
def largestUnit (b : Int) : Int :=
  if 1024 ^ 4 ≤ b then 1024 ^ 4
  else if 1024 ^ 3 ≤ b then 1024 ^ 3
  else if 1024 ^ 2 ≤ b then 1024 ^ 2
  else if 1024 ≤ b then 1024
  else 1

/-- The size is printed, and read back rounded down to its unit. -/
def RoundTrips (b : Int) : Prop :=
  ∃ text, formatSize b = some text ∧
    parseSize text = .ok (b / largestUnit b * largestUnit b)

theorem roundTrips_bytes
    {n : Nat}
    (h : n < 1024) :
    RoundTrips n := by
  have hunit : largestUnit n = 1 := by
    rw [largestUnit]
    repeat rw [if_neg (by omega)]
  have htext : (printed (n / 1) none rfl).text = toString (n : Int) := by
    have hint : toString (n : Int) = toString n := rfl
    rw [hint, Nat.div_one, ← String.toList_inj]
    simp [SizeText.text, SizeText.chars, printed]
  refine ⟨toString (n : Int), ?_, ?_⟩
  · rw [formatSize, if_pos (by omega)]
  · rw [← htext, parseSize_printed (by omega) rfl, hunit]
    simp

theorem roundTrips_unit
    {n k : Nat} {letter : Char}
    (hunit : isSizeUnit letter = true)
    (hletter : ['K', 'M', 'G', 'T'][k]? = some letter)
    (hfactor : ∀ m, (printed m (some letter) hunit).factor = 1024 ^ (k + 1))
    (hlow : 1024 ^ (k + 1) ≤ n)
    (hhigh : n < 1024 ^ (k + 2))
    (hexact : n < 2 ^ 53)
    (hlargest : largestUnit n = ((1024 ^ (k + 1) : Nat) : Int)) :
    RoundTrips n := by
  refine ⟨toString (n / 1024 ^ (k + 1)) ++ String.singleton letter, ?_, ?_⟩
  · rw [formatSize_of_log hlow hhigh, hletter, float64_of_lt hexact, Option.map_some]
  · rw [← text_printed _ _ hunit, parseSize_printed (by omega) (hfactor _), hlargest,
      Int.natCast_mul, Int.natCast_ediv]

/-- The units of the printer end at T, which is none for the parser. -/
theorem not_roundTrips
    {n : Nat}
    (h : 2 ^ 40 ≤ n) :
    ¬RoundTrips n := by
  rintro ⟨text, htext, hparse⟩
  have hne : n ≠ 0 := by omega
  have hlog : 4 ≤ Nat.log 1024 n := Nat.le_log_of_pow_le (by decide) (by omega)
  obtain ⟨k, hk⟩ := Nat.exists_eq_add_of_le' hlog
  have hlow : 1024 ^ (k + 3 + 1) ≤ n := by
    have := Nat.pow_log_le_self 1024 hne
    rwa [hk] at this
  have hhigh : n < 1024 ^ (k + 3 + 2) := by
    have := Nat.lt_pow_succ_log_self (b := 1024) (by decide) n
    rwa [hk] at this
  rw [formatSize_of_log hlow hhigh] at htext
  cases k with
  | zero =>
      rw [Nat.zero_add] at htext
      obtain ⟨t, ht⟩ := exists_text_of_parseSize hparse
      have hlast : t.text.toList.getLast? = some 'T' := by
        rw [ht, ← Option.some.inj htext]
        simp
      rw [SizeText.text, String.toList_ofList, SizeText.chars] at hlast
      cases hunit : t.unit with
      | none =>
          rw [hunit, Option.toList_none, List.append_nil] at hlast
          exact absurd (t.all_digits _ (List.mem_of_getLast? hlast)) (by decide)
      | some c =>
          rw [hunit, Option.toList_some, List.getLast?_append, List.getLast?_singleton,
            Option.some_or, Option.some.injEq] at hlast
          have hknown := t.known
          rw [hunit, hlast] at hknown
          exact absurd hknown (by decide)
  | succ k =>
      rw [List.getElem?_eq_none (by simp)] at htext
      cases htext

theorem roundTrips_iff
    {b : Int}
    (hnonneg : 0 ≤ b) :
    RoundTrips b ↔ b < 2 ^ 40 := by
  obtain ⟨n, rfl⟩ := Int.eq_ofNat_of_zero_le hnonneg
  by_cases hsmall : n < 2 ^ 40
  · refine iff_of_true ?_ (by omega)
    by_cases hbytes : n < 1024
    · exact roundTrips_bytes hbytes
    by_cases hkilo : n < 1024 ^ 2
    · refine roundTrips_unit (k := 0) rfl rfl (fun _ => rfl) (by omega) hkilo (by omega) ?_
      rw [largestUnit]
      split_ifs <;> omega
    by_cases hmega : n < 1024 ^ 3
    · refine roundTrips_unit (k := 1) rfl rfl (fun _ => rfl) (by omega) hmega (by omega) ?_
      rw [largestUnit]
      split_ifs <;> omega
    · refine roundTrips_unit (k := 2) rfl rfl (fun _ => rfl) (by omega) (by omega) (by omega) ?_
      rw [largestUnit]
      split_ifs <;> omega
  · exact iff_of_false (not_roundTrips (not_lt.mp hsmall)) (by omega)

theorem readsProduct_iff
    {t : SizeText} {size : Int}
    (h : parseSize t.text = .ok size) :
    size = ((t.number * t.size : Nat) : Int) ↔
      t.number * t.size < 2 ^ 63 ∧ (t.IsKelvin → t.number = 0) := by
  rw [parseSize_text] at h
  split at h
  · next hfits =>
      rw [← Except.ok.inj h, SizeText.factor]
      by_cases hkelvin : t.IsKelvin
      · have hunit : t.unit = some '\u212a' := hkelvin
        have hsize : t.size = 1024 := by
          rw [SizeText.size, hunit]
          rfl
        have hone : mul64 t.number (1 : Nat) = ((t.number * 1 : Nat) : Int) :=
          mul64_of_fits (by omega)
        rw [if_pos hkelvin, hone, hsize, forall_prop_of_true hkelvin]
        omega
      · have hnonneg : (0 : Int) ≤ t.number * t.size := by
          rw [← Int.natCast_mul]
          omega
        rw [if_neg hkelvin, forall_prop_of_false hkelvin, and_true, Int.natCast_mul,
          mul64_eq_self_iff hnonneg, ← Int.natCast_mul]
        omega
  · cases h

/--
A size is read back as it is printed unless its unit is T or larger, and a text is read as
the product of number and unit unless that does not fit, or the unit is a Kelvin sign.
-/
theorem sizes_iff
    {b : Int} {s : String} {size : Int}
    (hnonneg : 0 ≤ b)
    (hread : parseSize s = .ok size) :
    (RoundTrips b ↔ b < 2 ^ 40) ∧
      (∃ t : SizeText, t.text = s) ∧
      ∀ t : SizeText, t.text = s →
        (size = ((t.number * t.size : Nat) : Int) ↔
          t.number * t.size < 2 ^ 63 ∧ (t.IsKelvin → t.number = 0)) := by
  refine ⟨roundTrips_iff hnonneg, exists_text_of_parseSize hread, ?_⟩
  rintro t rfl
  exact readsProduct_iff hread

def nineKilobytes : SizeText :=
  printed 9 (some 'K') (by decide)

/-- Ten thousand bytes are printed as nine times 1024. -/
theorem tenThousand_roundTrips :
    RoundTrips 10000 ∧ parseSize "9K" = .ok 9216 ∧ nineKilobytes.text = "9K" ∧
      (9216 : Int) = ((nineKilobytes.number * nineKilobytes.size : Nat) : Int) := by
  have hread : parseSize "9K" = .ok 9216 := by
    decide +kernel
  have htext : nineKilobytes.text = "9K" := by
    decide +kernel
  have hsizes := sizes_iff (b := 10000) (by decide) hread
  exact ⟨hsizes.1.mpr (by decide), hread, htext,
    (hsizes.2.2 nineKilobytes htext).mpr ⟨by decide +kernel, by decide⟩⟩

/-- A size that is not read back, one that is not printed, and a product that is negative. -/
theorem terabytes_lost :
    ¬RoundTrips (2 ^ 40) ∧ formatSize (2 ^ 50) = none ∧
      parseSize "8589934592G" = .ok (-2 ^ 63) := by
  refine ⟨?_, ?_, ?_⟩
  · exact not_roundTrips (n := 2 ^ 40) le_rfl
  · exact formatSize_of_log (n := 2 ^ 50) (k := 4) (by decide) (by decide)
  · decide +kernel

end Claim

end Sizes

end Util
end CoopMessenger
