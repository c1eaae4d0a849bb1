import CoopMessenger.Library.Runs
import Mathlib.Algebra.Group.Int.Defs
import Mathlib.Algebra.GroupWithZero.Nat
import Mathlib.Data.Int.Init
import Mathlib.Logic.Function.Basic
import Mathlib.Tactic.Ring

/-!
# Writers with limits

`util/limit.go`: every write is charged to a list of limiters, one after the other, and if
one of them refuses it, those before are to take it back.  A limiter with a fixed value
does, but one that is based on time does not.

**Results.**
* `revert_fixed`, `revert_rate`: what is taken back.
* `charge_spec`: what the limiters are charged.
* `writes_charge`: the same along every sequence of writes.
-/

namespace CoopMessenger
namespace Util

open Library

namespace LimitWriters

universe u v w x

section Limiters

/-- A sum of signed 64-bit numbers. -/
def add64 (a b : Int) : Int :=
  Int.bmod (a + b) (2 ^ 64)

theorem add64_of_fits
    {a b : Int}
    (hlow : -2 ^ 63 ≤ a + b)
    (hhigh : a + b < 2 ^ 63) :
    add64 a b = a + b := by
  rw [add64]
  exact Int.bmod_eq_of_le (by omega) (by omega)

structure FixedLimiter where
  value : Int
  limit : Int
deriving DecidableEq, Repr

def FixedLimiter.allowN
    (n : Int)
    (l : FixedLimiter) : Bool × FixedLimiter :=
  if l.limit < add64 l.value n then
    (false, l)
  else
    (true, { l with value := add64 l.value n })

/-- The `rate.Limiter` inside is one of another package. -/
structure RateLimiter (σ : Type u) where
  value : Int
  limiter : σ
deriving DecidableEq, Repr

variable {σ : Type u}
variable (allow : σ → Int → Int → Bool × σ)

/-- Nothing is taken back: the bytes are written. -/
def RateLimiter.allowN
    (now n : Int)
    (l : RateLimiter σ) : Bool × RateLimiter σ :=
  if n ≤ 0 then
    (false, l)
  else
    match allow l.limiter now n with
    | (false, limiter) => (false, { l with limiter := limiter })
    | (true, limiter) => (true, ⟨add64 l.value n, limiter⟩)

inductive Limiter (σ : Type u)
  | fixed (l : FixedLimiter)
  | rate (l : RateLimiter σ)
deriving DecidableEq, Repr

namespace Limiter

def value : Limiter σ → Int
  | .fixed l => l.value
  | .rate l => l.value

/-- The limit, if it is a fixed one. -/
def limit? : Limiter σ → Option Int
  | .fixed l => some l.limit
  | .rate _ => none

def allowN
    (now n : Int) :
    Limiter σ → Bool × Limiter σ
  | .fixed l => ((l.allowN n).1, .fixed (l.allowN n).2)
  | .rate l => ((l.allowN allow now n).1, .rate (l.allowN allow now n).2)

variable {allow}
variable {now n : Int}
variable {l : Limiter σ}

@[simp] theorem limit?_allowN :
    (l.allowN allow now n).2.limit? = l.limit? := by
  cases l with
  | fixed l =>
      simp only [allowN, FixedLimiter.allowN]
      split <;> rfl
  | rate l =>
      rfl

/-- What is allowed is added, and does not exceed the limit. -/
theorem value_of_allowed
    (h : (l.allowN allow now n).1 = true) :
    (l.allowN allow now n).2.value = add64 l.value n ∧
      ∀ limit ∈ l.limit?, add64 l.value n ≤ limit := by
  cases l with
  | fixed l =>
      simp only [allowN, FixedLimiter.allowN] at h ⊢
      split at h
      · cases h
      · next hfits =>
          rw [if_neg hfits]
          refine ⟨rfl, ?_⟩
          rintro limit ⟨⟩
          exact not_lt.mp hfits
  | rate l =>
      simp only [allowN, RateLimiter.allowN] at h ⊢
      split at h
      · cases h
      · next hpos =>
          rw [if_neg hpos]
          split at h
          · cases h
          · exact ⟨rfl, fun limit hlimit => by cases hlimit⟩

/-- What is refused is not added. -/
theorem value_of_refused
    (h : (l.allowN allow now n).1 = false) :
    (l.allowN allow now n).2.value = l.value := by
  cases l with
  | fixed l =>
      simp only [allowN, FixedLimiter.allowN] at h ⊢
      split at h
      · next hfull =>
          rw [if_pos hfull]
      · cases h
  | rate l =>
      simp only [allowN, RateLimiter.allowN] at h ⊢
      split at h
      · next hneg =>
          rw [if_pos hneg]
      · next hpos =>
          rw [if_neg hpos]
          split at h
          · rfl
          · cases h

/-- A limiter that is based on time takes nothing back. -/
theorem allowN_neg_rate
    (hn : 0 < n)
    (hrate : l.limit? = none) :
    (l.allowN allow now (-n)).2 = l := by
  cases l with
  | fixed l =>
      cases hrate
  | rate l =>
      simp only [allowN, RateLimiter.allowN, if_pos (show -n ≤ 0 by omega)]

/-- A fixed limiter takes back what it has been charged. -/
theorem value_allowN_neg_fixed
    {limit : Int}
    (hn : 0 < n)
    (hlimit : l.limit? = some limit)
    (hwithin : l.value ≤ limit)
    (hlow : -2 ^ 63 ≤ l.value - n)
    (hhigh : l.value < 2 ^ 63) :
    (l.allowN allow now (-n)).2.value = l.value - n := by
  cases l with
  | fixed l =>
      have hvalue : add64 l.value (-n) = l.value - n := by
        rw [value] at hlow hhigh
        exact add64_of_fits (by omega) (by omega)
      rw [limit?, Option.some.injEq] at hlimit
      rw [value] at hwithin
      simp only [allowN, FixedLimiter.allowN, hvalue, if_neg (show ¬l.limit < l.value - n by omega),
        value]
  | rate l =>
      cases hlimit

end Limiter

end Limiters

section Writers

variable {ι : Type u} [DecidableEq ι]
variable {σ : Type v}
variable (allow : σ → Int → Int → Bool × σ)
variable (clock : Nat → Int)
variable (n : Int)

/-- Takes the charge back, from the last limiter to the first. -/
def revert :
    List ι → (ι → Limiter σ) → ι → Limiter σ
  | [], limiter => limiter
  | i :: charged, limiter =>
      revert charged
        (Function.update limiter i
          ((limiter i).allowN allow (clock charged.length) (-n)).2)

/-- The loop of `Write`; those that are charged already come last first. -/
def charge :
    List ι → List ι → (ι → Limiter σ) → Bool × (ι → Limiter σ)
  | _, [], limiter => (true, limiter)
  | charged, i :: rest, limiter =>
      match (limiter i).allowN allow (clock charged.length) n with
      | (true, l) => charge (i :: charged) rest (Function.update limiter i l)
      | (false, l) => (false, revert allow clock n charged (Function.update limiter i l))

/-- A writer, the limiters it refers to, and how far it has written. -/
structure LimitWriter (ι : Type u) (σ : Type v) (ω : Type w) where
  w : ω
  written : Int
  limiters : List ι
  limiter : ι → Limiter σ

/-- What `Write` returns: `ErrLimitReached`, or else what the writer below returns. -/
inductive Outcome (ε : Type x)
  | limitReached
  | passed (n : Nat) (err : Option ε)
deriving DecidableEq

variable {ω : Type w}
variable {ε : Type x}
variable (pass : ω → List UInt8 → (Nat × Option ε) × ω)

def LimitWriter.write
    (p : List UInt8)
    (lw : LimitWriter ι σ ω) : Outcome ε × LimitWriter ι σ ω :=
  match charge allow clock p.length [] lw.limiters lw.limiter with
  | (false, limiter) => (.limitReached, { lw with limiter := limiter })
  | (true, limiter) =>
      let ((n, err), w) := pass lw.w p
      (.passed n err, { lw with w := w, written := lw.written + n, limiter := limiter })

end Writers

section Charges

variable {ι : Type u} [DecidableEq ι]
variable {σ : Type v}
variable {allow : σ → Int → Int → Bool × σ}
variable {clock : Nat → Int}
variable {n : Int}
variable {limiter before after : ι → Limiter σ}
variable {charged : List ι}
variable {i : ι}

/-- Each limiter has been charged as often as it is listed. -/
structure Charged
    (n : Int)
    (before : ι → Limiter σ)
    (charged : List ι)
    (after : ι → Limiter σ) : Prop where
  limits : ∀ i, (after i).limit? = (before i).limit?
  values : ∀ i, (after i).value = (before i).value + n * charged.count i
  within : ∀ i ∈ charged, ∀ limit ∈ (before i).limit?, (after i).value ≤ limit

theorem Charged.step
    {now : Int}
    (h : Charged n before charged after)
    (hallowed : ((after i).allowN allow now n).1 = true)
    (hlow : -2 ^ 63 ≤ (before i).value + n * (charged.count i + 1))
    (hhigh : (before i).value + n * (charged.count i + 1) < 2 ^ 63) :
    Charged n before (i :: charged)
      (Function.update after i ((after i).allowN allow now n).2) := by
  obtain ⟨hvalue, hwithin⟩ := Limiter.value_of_allowed hallowed
  have hsum : (after i).value + n = (before i).value + n * (charged.count i + 1) := by
    rw [h.values i]
    ring
  rw [add64_of_fits (by omega) (by omega), hsum] at hvalue hwithin
  refine ⟨?_, ?_, ?_⟩
  · intro j
    by_cases hj : j = i
    · subst j
      rw [Function.update_self, Limiter.limit?_allowN, h.limits]
    · rw [Function.update_of_ne hj, h.limits]
  · intro j
    by_cases hj : j = i
    · subst j
      rw [Function.update_self, hvalue, List.count_cons_self, Int.natCast_add]
      rfl
    · rw [Function.update_of_ne hj, h.values, List.count_cons_of_ne (Ne.symm hj)]
  · intro j hmem limit hlimit
    by_cases hj : j = i
    · subst j
      rw [Function.update_self, hvalue]
      exact hwithin limit (by rw [h.limits]; exact hlimit)
    · rw [Function.update_of_ne hj]
      exact h.within j ((List.mem_cons.mp hmem).resolve_left hj) limit hlimit

@[simp] theorem limit?_revert
    (i : ι) :
    (revert allow clock n charged limiter i).limit? = (limiter i).limit? := by
  induction charged generalizing limiter with
  | nil =>
      rfl
  | cons j charged ih =>
      rw [revert, ih]
      by_cases hj : i = j
      · subst i
        rw [Function.update_self, Limiter.limit?_allowN]
      · rw [Function.update_of_ne hj]

/-- A limiter that is based on time keeps its charge. -/
theorem revert_rate
    (hn : 0 < n)
    (hrate : (limiter i).limit? = none) :
    revert allow clock n charged limiter i = limiter i := by
  induction charged generalizing limiter with
  | nil =>
      rfl
  | cons j charged ih =>
      have hhead : Function.update limiter j
          ((limiter j).allowN allow (clock charged.length) (-n)).2 i = limiter i := by
        by_cases hj : i = j
        · subst i
          rw [Function.update_self, Limiter.allowN_neg_rate hn hrate]
        · rw [Function.update_of_ne hj]
      rw [revert, ih (by rw [hhead]; exact hrate), hhead]

/-- A fixed limiter takes back every charge. -/
theorem revert_fixed
    {limit : Int}
    (hn : 0 < n)
    (hlimit : (limiter i).limit? = some limit)
    (hwithin : i ∈ charged → (limiter i).value ≤ limit)
    (hlow : -2 ^ 63 ≤ (limiter i).value - n * charged.count i)
    (hhigh : (limiter i).value < 2 ^ 63) :
    (revert allow clock n charged limiter i).value =
      (limiter i).value - n * charged.count i := by
  induction charged generalizing limiter with
  | nil =>
      simp [revert]
  | cons j charged ih =>
      rw [revert]
      by_cases hj : i = j
      · subst i
        have hcount : n * ((j :: charged).count j : Int) = n * charged.count j + n := by
          rw [List.count_cons_self, Int.natCast_add]
          ring
        have hpos : 0 ≤ n * (charged.count j : Int) :=
          Int.mul_nonneg hn.le (Int.natCast_nonneg _)
        have hcharged := hwithin List.mem_cons_self
        rw [hcount] at hlow ⊢
        have hhead : (Function.update limiter j
            ((limiter j).allowN allow (clock charged.length) (-n)).2 j).value =
              (limiter j).value - n := by
          rw [Function.update_self]
          exact Limiter.value_allowN_neg_fixed hn hlimit hcharged (by omega) hhigh
        rw [ih, hhead]
        · omega
        · rw [Function.update_self, Limiter.limit?_allowN]
          exact hlimit
        · rw [hhead]
          omega
        · rw [hhead]
          omega
        · rw [hhead]
          omega
      · have hhead : Function.update limiter j
            ((limiter j).allowN allow (clock charged.length) (-n)).2 i = limiter i :=
          Function.update_of_ne hj _ _
        rw [List.count_cons_of_ne (Ne.symm hj)] at hlow ⊢
        rw [ih, hhead]
        · rwa [hhead]
        · rw [hhead]
          exact fun hmem => hwithin (List.mem_cons_of_mem _ hmem)
        · rwa [hhead]
        · rwa [hhead]

/-- The limiters after a refusal: fixed ones are as before. -/
structure Reverted
    (n : Int)
    (before : ι → Limiter σ)
    (charged : List ι)
    (after : ι → Limiter σ) : Prop where
  limits : ∀ i, (after i).limit? = (before i).limit?
  fixed : ∀ i, (before i).limit? ≠ none → (after i).value = (before i).value
  rate : ∀ i, (before i).limit? = none →
    (after i).value = (before i).value + n * charged.count i

theorem Charged.reverted
    {now : Int}
    (h : Charged n before charged after)
    (hn : 0 < n)
    (hlow : ∀ i, -2 ^ 63 ≤ (before i).value)
    (hhigh : ∀ i, (before i).value + n * charged.count i < 2 ^ 63)
    (hrefused : ((after i).allowN allow now n).1 = false) :
    Reverted n before charged
      (revert allow clock n charged
        (Function.update after i ((after i).allowN allow now n).2)) := by
  have hvalue : ∀ j, (Function.update after i ((after i).allowN allow now n).2 j).value =
      (before j).value + n * charged.count j := by
    intro j
    by_cases hj : j = i
    · subst j
      rw [Function.update_self, Limiter.value_of_refused hrefused, h.values]
    · rw [Function.update_of_ne hj, h.values]
  have hlimit : ∀ j, (Function.update after i ((after i).allowN allow now n).2 j).limit? =
      (before j).limit? := by
    intro j
    by_cases hj : j = i
    · subst j
      rw [Function.update_self, Limiter.limit?_allowN, h.limits]
    · rw [Function.update_of_ne hj, h.limits]
  refine ⟨?_, ?_, ?_⟩
  · intro j
    rw [limit?_revert, hlimit]
  · intro j hfixed
    obtain ⟨limit, hsome⟩ := Option.ne_none_iff_exists'.mp hfixed
    have hlowj := hlow j
    rw [revert_fixed hn (by rw [hlimit, hsome]), hvalue]
    · omega
    · intro hmem
      have hwithin := h.within j hmem limit hsome
      rwa [h.values, ← hvalue] at hwithin
    · rw [hvalue]
      omega
    · rw [hvalue]
      exact hhigh j
  · intro j hrate
    rw [revert_rate hn (by rw [hlimit, hrate]), hvalue]

/-- What the loop leaves behind. -/
theorem charge_spec
    {rest : List ι}
    (h : Charged n before charged limiter)
    (hn : 0 < n)
    (hlow : ∀ i, -2 ^ 63 ≤ (before i).value)
    (hhigh : ∀ i, (before i).value + n * (charged ++ rest).count i < 2 ^ 63) :
    match charge allow clock n charged rest limiter with
    | (true, after) => Charged n before (rest.reverse ++ charged) after
    | (false, after) =>
        ∃ allowed i refused, rest = allowed ++ i :: refused ∧
          Reverted n before (allowed.reverse ++ charged) after := by
  induction rest generalizing charged limiter with
  | nil =>
      exact h
  | cons i rest ih =>
      have hcount : ∀ j, (charged ++ i :: rest).count j = (i :: charged ++ rest).count j :=
        fun j => List.perm_middle.count_eq j
      have hsmaller : ∀ j, n * ((charged.count j : Nat) : Int) ≤
          n * ((charged ++ i :: rest).count j : Nat) := by
        intro j
        refine Int.mul_le_mul_of_nonneg_left ?_ hn.le
        rw [List.count_append]
        omega
      rw [charge]
      cases hallow : (limiter i).allowN allow (clock charged.length) n with
      | mk ok l =>
          cases ok with
          | false =>
              have hl : l = ((limiter i).allowN allow (clock charged.length) n).2 := by
                rw [hallow]
              refine ⟨[], i, rest, rfl, ?_⟩
              rw [hl]
              refine h.reverted hn hlow (fun j => ?_) (by rw [hallow])
              have hj := hhigh j
              have hle := hsmaller j
              omega
          | true =>
              have hl : l = ((limiter i).allowN allow (clock charged.length) n).2 := by
                rw [hallow]
              have hstep : Charged n before (i :: charged) (Function.update limiter i l) := by
                rw [hl]
                have hnext : n * ((charged.count i : Int) + 1) ≤
                    n * ((charged ++ i :: rest).count i : Nat) := by
                  refine Int.mul_le_mul_of_nonneg_left ?_ hn.le
                  rw [List.count_append, List.count_cons_self]
                  omega
                have hpos : 0 ≤ n * ((charged.count i : Int) + 1) :=
                  Int.mul_nonneg hn.le (by omega)
                have hi := hhigh i
                have hlowi := hlow i
                exact h.step (by rw [hallow]) (by omega) (by omega)
              have hrest := ih hstep (fun j => by rw [← hcount j]; exact hhigh j)
              simp only
              cases hcharge : charge allow clock n (i :: charged) rest
                  (Function.update limiter i l) with
              | mk ok after =>
                  rw [hcharge] at hrest
                  cases ok with
                  | false =>
                      obtain ⟨allowed, k, refused, hsplit, hreverted⟩ := hrest
                      refine ⟨i :: allowed, k, refused, by rw [hsplit]; rfl, ?_⟩
                      rw [List.reverse_cons, List.append_assoc]
                      exact hreverted
                  | true =>
                      rw [List.reverse_cons, List.append_assoc]
                      exact hrest

/-- The order does not matter. -/
theorem Charged.perm
    {others : List ι}
    (h : Charged n before charged after)
    (hperm : charged.Perm others) :
    Charged n before others after := by
  refine ⟨h.limits, fun i => ?_, fun i hi => h.within i (hperm.mem_iff.mpr hi)⟩
  rw [h.values, hperm.count_eq]

theorem Reverted.perm
    {others : List ι}
    (h : Reverted n before charged after)
    (hperm : charged.Perm others) :
    Reverted n before others after := by
  refine ⟨h.limits, h.fixed, fun i hi => ?_⟩
  rw [h.rate i hi, hperm.count_eq]

end Charges

section Claim

variable {ι : Type u} [DecidableEq ι]
variable {σ : Type v}
variable {ω : Type w}
variable {ε : Type x}
variable (allow : σ → Int → Int → Bool × σ)
variable (pass : ω → List UInt8 → (Nat × Option ε) × ω)

/-- A call of `Write`, with the clock as the limiters read it. -/
structure Call where
  clock : Nat → Int
  p : List UInt8

def step
    (lw : LimitWriter ι σ ω)
    (call : Call) : Option (LimitWriter ι σ ω) :=
  some (lw.write allow call.clock pass call.p).2

/-- There is something to write, and the values stay within 64 bits. -/
def Fits
    (lw : LimitWriter ι σ ω)
    (call : Call) : Prop :=
  call.p ≠ [] ∧
    ∀ i, -2 ^ 63 ≤ (lw.limiter i).value ∧
      (lw.limiter i).value + call.p.length * lw.limiters.count i < 2 ^ 63

/--
A write that is refused passes nothing on, and charges the limiters based on time that have
allowed it, and no others; a write that is accepted charges every limiter.
-/
def Charges
    (lw : LimitWriter ι σ ω)
    (call : Call) : Prop :=
  match lw.write allow call.clock pass call.p with
  | (.limitReached, lw') =>
      lw'.w = lw.w ∧ lw'.written = lw.written ∧
        ∃ allowed refusing rest, lw.limiters = allowed ++ refusing :: rest ∧
          Reverted call.p.length lw.limiter allowed lw'.limiter
  | (.passed n err, lw') =>
      ((n, err), lw'.w) = pass lw.w call.p ∧
        Charged call.p.length lw.limiter lw.limiters lw'.limiter

variable {allow} {pass}

theorem write_charges
    {lw : LimitWriter ι σ ω} {call : Call}
    (hfits : Fits lw call) :
    Charges allow pass lw call := by
  obtain ⟨hne, hvalues⟩ := hfits
  have hn : (0 : Int) < call.p.length := by
    have := List.length_pos_iff.mpr hne
    omega
  have hstart : Charged (call.p.length : Int) lw.limiter [] lw.limiter :=
    ⟨fun _ => rfl, fun _ => by simp, fun _ hmem => absurd hmem List.not_mem_nil⟩
  rw [Charges, LimitWriter.write]
  have hspec := @charge_spec ι _ σ allow call.clock _ _ _ _ lw.limiters hstart hn
    (fun i => (hvalues i).1) (fun i => (hvalues i).2)
  cases hcharge : charge allow call.clock call.p.length [] lw.limiters lw.limiter with
  | mk ok after =>
      rw [hcharge] at hspec
      cases ok with
      | false =>
          obtain ⟨allowed, refusing, rest, hsplit, hreverted⟩ := hspec
          rw [List.append_nil] at hreverted
          exact ⟨rfl, rfl, allowed, refusing, rest, hsplit,
            hreverted.perm (List.reverse_perm allowed)⟩
      | true =>
          rw [List.append_nil] at hspec
          exact ⟨rfl, Charged.perm hspec (List.reverse_perm lw.limiters)⟩

/-- Along every sequence of writes. -/
theorem writes_charge
    {lw : LimitWriter ι σ ω} {calls : List Call}
    (hfits : Along (step allow pass) Fits lw calls) :
    Along (step allow pass) (Charges allow pass) lw calls :=
  hfits.imp fun _ _ => write_charges

end Claim

section Example

/-- A bucket of tokens that is never filled again. -/
def takeTokens (tokens _now n : Int) : Bool × Int :=
  if n ≤ tokens then (true, tokens - n) else (false, tokens)

/-- A writer that keeps what it is passed. -/
def keep
    (kept p : List UInt8) : (Nat × Option Unit) × List UInt8 :=
  ((p.length, none), kept ++ p)

/-- A bandwidth of 100 bytes, and a size of 10 bytes. -/
def exampleWriter : LimitWriter Bool Int (List UInt8) where
  w := []
  written := 0
  limiters := [true, false]
  limiter := fun i => if i then .rate ⟨0, 100⟩ else .fixed ⟨0, 10⟩

def exampleCall : Call where
  clock := fun _ => 0
  p := List.replicate 8 1

/-- The second write is refused. -/
theorem second_write_charges :
    Along (step takeTokens keep) (Charges takeTokens keep) exampleWriter
      [exampleCall, exampleCall] := by
  refine writes_charge ⟨⟨by decide, by decide⟩, fun s hs => ⟨⟨by decide, ?_⟩, fun _ _ => trivial⟩⟩
  rw [← Option.some.inj hs]
  decide

/-- A refused write that is charged to the bandwidth. -/
theorem refused_write_charged :
    (exampleWriter.write takeTokens exampleCall.clock keep (List.replicate 12 1)).1 =
        .limitReached ∧
      (exampleWriter.limiter true).value = 0 ∧
      ((exampleWriter.write takeTokens exampleCall.clock keep
        (List.replicate 12 1)).2.limiter true).value = 12 := by
  decide

end Example

end LimitWriters

end Util
end CoopMessenger
