import CoopMessenger.Server.Publish
import CoopMessenger.Util.FutureTime

/-!
# Delays

The delay of a publish, from the text of the parameter to the time of the message, in
nanoseconds and with each reading of the clock of its own.  A number that is multiplied
out in 64 bits wraps around before it is compared with the bounds.

**Results.**
* `parseDelay_text`: what becomes of a number with a unit.
* `parseDelay_agrees`: with one reading, in seconds, it is the delay of `Publish`.
* `delay_exact_iff`: which numbers are delayed by what they say.
-/

namespace CoopMessenger
namespace Server

open Util Util.FutureTime

namespace Delays

section Model

/-- The bounds of the configuration. -/
structure Bounds where
  messageDelayMin : Int
  messageDelayMax : Int

/-- The clock, as it is read to parse a delay and to check it. -/
structure Clock where
  parsed : Int
  checkedMin : Int
  checkedMax : Int

/-- What `parsePublishParams` makes of a delay that is not empty. -/
def parseDelay
    (parse : String → Int → Option Int)
    (bounds : Bounds)
    (clock : Clock)
    (cache : Bool)
    (email call delayStr : String) : Except ErrHTTP Int :=
  if !cache then
    .error errHTTPBadRequestDelayNoCache
  else if email ≠ "" then
    .error errHTTPBadRequestDelayNoEmail
  else if call ≠ "" then
    .error errHTTPBadRequestDelayNoCall
  else
    match parseFutureTime parse delayStr clock.parsed with
    | none => .error errHTTPBadRequestDelayCannotParse
    | some delay =>
        if unix delay < unix (clock.checkedMin + bounds.messageDelayMin) then
          .error errHTTPBadRequestDelayTooSmall
        else if unix (clock.checkedMax + bounds.messageDelayMax) < unix delay then
          .error errHTTPBadRequestDelayTooLarge
        else
          .ok (unix delay)

end Model

section Agreement

variable {P : Publish.Parsers}
variable {cfg : Publish.Config}
variable {req : Publish.Request}
variable {parse : String → Int → Option Int}

/-- The parameter with the delay. -/
def delayParam
    (P : Publish.Parsers)
    (req : Publish.Request) : String :=
  Publish.readParam P req ["x-delay", "delay", "x-at", "at", "x-in", "in"]

/-- Bounds that are given in seconds. -/
def boundsOf (cfg : Publish.Config) : Bounds :=
  ⟨cfg.messageDelayMin * second, cfg.messageDelayMax * second⟩

theorem unix_add_seconds
    (t n : Int) :
    unix (t + n * second) = unix t + n :=
  Int.add_mul_ediv_right t n (by decide)

/-- With one reading of the clock the delay is that of `Publish`. -/
theorem parseDelay_agrees
    {t : Int} {now : Nat} {cache : Bool} {email call : String} {m : Message}
    (hgiven : delayParam P req ≠ "")
    (hnow : unix t = now)
    (hparse : P.parseFutureTime (delayParam P req) now =
      (parseFutureTime parse (delayParam P req) t).map unix) :
    Publish.parseDelay P req cfg now cache email call m =
      (parseDelay parse (boundsOf cfg) ⟨t, t, t⟩ cache email call (delayParam P req)).map
        fun time => { m with time := time.toNat } := by
  unfold Publish.parseDelay parseDelay boundsOf
  rw [delayParam] at hgiven hparse
  simp only [if_neg hgiven, hparse, unix_add_seconds, hnow, delayParam]
  cases cache with
  | false =>
      rfl
  | true =>
      simp only [Bool.not_true, Bool.false_eq_true, if_false]
      by_cases hemail : email ≠ ""
      · simp only [if_pos hemail]
        rfl
      · by_cases hcall : call ≠ ""
        · simp only [if_neg hemail, if_pos hcall]
          rfl
        · simp only [if_neg hemail, if_neg hcall]
          cases parseFutureTime parse
              (Publish.readParam P req ["x-delay", "delay", "x-at", "at", "x-in", "in"]) t with
          | none =>
              rfl
          | some delay =>
              simp only [Option.map_some]
              split
              · rfl
              · split <;> rfl

end Agreement

section Claim

variable {parse : String → Int → Option Int}
variable {bounds : Bounds}
variable {clock : Clock}
variable {cache : Bool}
variable {email call : String}
variable {t : DelayText}

/-- The delay is what the text says, without wrapping around, and within the bounds. -/
structure ExactDelay
    (bounds : Bounds)
    (clock : Clock)
    (t : DelayText)
    (time : Int) : Prop where
  exact : time = unix (clock.parsed + t.number * t.size)
  fits : t.number * t.size < 2 ^ 63
  notBefore : unix (clock.checkedMin + bounds.messageDelayMin) ≤ time
  notAfter : time ≤ unix (clock.checkedMax + bounds.messageDelayMax)

/-- The time is within the bounds. -/
def InBounds
    (bounds : Bounds)
    (clock : Clock)
    (delay : Int) : Prop :=
  unix (clock.checkedMin + bounds.messageDelayMin) ≤ unix delay ∧
    unix delay ≤ unix (clock.checkedMax + bounds.messageDelayMax)

/-- A delay is accepted if it is parsed and within the bounds. -/
theorem parseDelay_text
    (hparse : parse t.text clock.parsed = none)
    (time : Int) :
    parseDelay parse bounds clock cache email call t.text = .ok time ↔
      cache = true ∧ email = "" ∧ call = "" ∧
        ∃ d, FutureTime.parseDuration t.text = some d ∧
          InBounds bounds clock (clock.parsed + d) ∧ time = unix (clock.parsed + d) := by
  rw [parseDelay, DelayText.parseFutureTime_text hparse]
  cases cache with
  | false =>
      simp
  | true =>
      by_cases hemail : email ≠ ""
      · simp [hemail]
      · by_cases hcall : call ≠ ""
        · simp [hcall, hemail]
        · rw [not_not] at hemail hcall
          subst hemail
          subst hcall
          cases FutureTime.parseDuration t.text with
          | none =>
              simp
          | some d =>
              simp only [Bool.not_true, Bool.false_eq_true, if_false, ne_eq, not_true_eq_false,
                Option.map_some, true_and, Option.some.injEq, exists_eq_left', InBounds]
              split
              · next hsmall =>
                  exact iff_of_false (by simp) fun h => absurd h.1.1 (not_le.mpr hsmall)
              · next hsmall =>
                  split
                  · next hlarge =>
                      exact iff_of_false (by simp) fun h => absurd h.1.2 (not_le.mpr hlarge)
                  · next hlarge =>
                      rw [Except.ok.injEq]
                      exact ⟨fun h => ⟨⟨not_lt.mp hsmall, not_lt.mp hlarge⟩, h.symm⟩,
                        fun h => h.2.symm⟩

/--
Every delay that is accepted is exact, unless the number has a unit of the regular
expression and its product wraps around into the bounds.
-/
theorem delay_exact_iff
    (hparse : parse t.text clock.parsed = none) :
    (∀ time, parseDelay parse bounds clock cache email call t.text = .ok time →
        ExactDelay bounds clock t time) ↔
      (cache = true → email = "" → call = "" → t.IsWord → t.StartsLower →
        t.number < 2 ^ 63 → 2 ^ 63 ≤ t.number * t.size →
          ¬InBounds bounds clock (clock.parsed + mul64 t.number t.size)) := by
  constructor
  · intro h hcache hemail hcall hword hlower hnumber hwraps hbounds
    have hduration : FutureTime.parseDuration t.text = some (mul64 t.number t.size) := by
      rw [DelayText.parseDuration_text, if_pos hword, if_pos ⟨hlower, hnumber⟩]
    have haccepted : parseDelay parse bounds clock cache email call t.text =
        .ok (unix (clock.parsed + mul64 t.number t.size)) :=
      (parseDelay_text hparse _).mpr ⟨hcache, hemail, hcall, _, hduration, hbounds, rfl⟩
    exact absurd (h _ haccepted).fits (not_lt.mpr hwraps)
  · intro h time htime
    obtain ⟨hcache, hemail, hcall, d, hduration, hbounds, rfl⟩ :=
      (parseDelay_text hparse time).mp htime
    rw [DelayText.parseDuration_text] at hduration
    have hexact : t.number * t.size < 2 ^ 63 ∧ d = ((t.number * t.size : Nat) : Int) := by
      split at hduration
      · next hword =>
          split at hduration
          · next hlower =>
              have hd := Option.some.inj hduration
              by_cases hfits : t.number * t.size < 2 ^ 63
              · exact ⟨hfits, hd.symm.trans (mul64_of_fits hfits)⟩
              · rw [← hd] at hbounds
                exact absurd hbounds
                  (h hcache hemail hcall hword hlower.1 hlower.2 (not_lt.mp hfits))
          · cases hduration
      · split at hduration
        · next hfits =>
            exact ⟨hfits, (Option.some.inj hduration).symm⟩
        · cases hduration
    obtain ⟨hfits, rfl⟩ := hexact
    rw [Int.natCast_mul] at hbounds ⊢
    exact ⟨rfl, hfits, hbounds.1, hbounds.2⟩

end Claim

section Example

/-- A number of hours or minutes. -/
def hours : DelayText where
  digits := "5124096".toList
  space := []
  unit := ['h']
  digits_ne_nil := by decide
  all_digits := List.all_eq_true.mp (by decide)
  all_space := List.all_eq_true.mp (by decide)
  known := by decide

def minutes : DelayText where
  digits := "30".toList
  space := []
  unit := ['m']
  digits_ne_nil := by decide
  all_digits := List.all_eq_true.mp (by decide)
  all_space := List.all_eq_true.mp (by decide)
  known := by decide

/-- Ten seconds to three days. -/
def defaultBounds : Bounds :=
  ⟨10 * second, 259200 * second⟩

def clockAt (t : Int) : Clock :=
  ⟨t * second, t * second, t * second⟩

/-- Thirty minutes are thirty minutes. -/
theorem minutes_exact :
    ExactDelay defaultBounds (clockAt 1700000000) minutes 1700001800 :=
  (@delay_exact_iff (fun _ _ => none) defaultBounds (clockAt 1700000000) true "" ""
    minutes rfl).mpr (fun _ _ _ _ _ _ hwraps => absurd hwraps (by decide)) 1700001800
    (by decide +kernel)

/-- More than five million hours are less than half an hour. -/
theorem hours_wrap :
    parseDelay (fun _ _ => none) defaultBounds (clockAt 1700000000) true "" ""
        "5124096h" = .ok 1700001526 ∧
      ¬ExactDelay defaultBounds (clockAt 1700000000) hours 1700001526 := by
  refine ⟨by decide +kernel, fun h => ?_⟩
  exact absurd h.fits (by decide)

end Example

end Delays
end Server
end CoopMessenger
