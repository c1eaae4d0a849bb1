import CoopMessenger.Util.FutureTime

/-!
# Limits of typing and nudge events

`socialRateLimiter` remembers for each event, user and topic the second of the
last event that was allowed, and refuses the next one until its interval, in whole
seconds, is over.  A cleanup pass forgets what is older than five minutes.

**Results.**
* `decisions_sim`: a limiter that has forgotten old seconds decides alike.
* `le_of_mem_allowed`: what is allowed keeps its distance from what is remembered.
* `cleanup_unobservable`: cleanup passes change no decision, and what is allowed under
  one key is as many seconds apart as the later interval has.
-/

namespace CoopMessenger
namespace Server
namespace SocialLimits

open Util

section Model

/-- The Unix time of the last event allowed under each key. -/
structure SocialRateLimiter where
  items : String → Option Int

/-- `newSocialRateLimiter` -/
def newSocialRateLimiter : SocialRateLimiter :=
  ⟨fun _ => none⟩

/-- A call of `Allow`, with the time of the clock; times and intervals are in nanoseconds. -/
structure Call where
  now : Int
  event : String
  username : String
  topic : String
  interval : Int
deriving DecidableEq, Repr

def Call.key (c : Call) : String :=
  c.event ++ ":" ++ c.username ++ ":" ++ c.topic

/-- `int64(interval.Seconds())` -/
def seconds (interval : Int) : Int :=
  interval.tdiv FutureTime.second

/-- The limiter that remembers the call. -/
def SocialRateLimiter.put
    (rl : SocialRateLimiter)
    (c : Call) : SocialRateLimiter :=
  ⟨fun k => if k = c.key then some (FutureTime.unix c.now) else rl.items k⟩

/-- `Allow` -/
def SocialRateLimiter.allow
    (rl : SocialRateLimiter)
    (c : Call) : Bool × SocialRateLimiter :=
  match rl.items c.key with
  | some last =>
      if FutureTime.unix c.now - last < seconds c.interval then
        (false, rl)
      else
        (true, rl.put c)
  | none => (true, rl.put c)

/-- One pass of `cleanupLoop`: what is older than five minutes is deleted. -/
def SocialRateLimiter.cleanup
    (rl : SocialRateLimiter)
    (now : Int) : SocialRateLimiter :=
  ⟨fun k => (rl.items k).filter (fun v => !decide (FutureTime.unix now - v > 300))⟩

/-- The limiter is used by calls of `Allow` and by its cleanup loop. -/
inductive Event where
  | allow (c : Call)
  | cleanup (now : Int)
deriving DecidableEq, Repr

def Event.now : Event → Int
  | .allow c => c.now
  | .cleanup now => now

def Event.isAllow : Event → Bool
  | .allow _ => true
  | .cleanup _ => false

/-- The calls with their decisions. -/
def decisions
    (rl : SocialRateLimiter) : List Event → List (Call × Bool)
  | [] => []
  | .allow c :: es => (c, (rl.allow c).1) :: decisions (rl.allow c).2 es
  | .cleanup now :: es => decisions (rl.cleanup now) es

/-- The calls that are allowed. -/
def allowed
    (rl : SocialRateLimiter)
    (es : List Event) : List Call :=
  ((decisions rl es).filter Prod.snd).map Prod.fst

/-- The clock does not run backwards. -/
def Clocked (es : List Event) : Prop :=
  es.Pairwise (fun d e => d.now ≤ e.now)

/-- No interval is longer than five minutes. -/
def Short (es : List Event) : Prop :=
  ∀ c, .allow c ∈ es → c.interval ≤ 300 * FutureTime.second

end Model

section Times

theorem unix_mono
    {t t' : Int}
    (h : t ≤ t') :
    FutureTime.unix t ≤ FutureTime.unix t' := by
  unfold FutureTime.unix FutureTime.second
  omega

/-- Whole seconds apart is less than one second short of that in time. -/
theorem lt_of_le_unix_sub
    {t t' n : Int}
    (h : n ≤ FutureTime.unix t' - FutureTime.unix t) :
    (n - 1) * FutureTime.second < t' - t := by
  unfold FutureTime.unix FutureTime.second at *
  omega

theorem seconds_le
    {interval : Int}
    (h : interval ≤ 300 * FutureTime.second) :
    seconds interval ≤ 300 :=
  Int.tdiv_le_tdiv (show 0 < FutureTime.second from by decide) h

end Times

section Steps

variable {rl : SocialRateLimiter} {c : Call}

@[simp] theorem put_items_self :
    (rl.put c).items c.key = some (FutureTime.unix c.now) :=
  if_pos rfl

theorem put_items_of_ne
    {k : String}
    (h : k ≠ c.key) :
    (rl.put c).items k = rl.items k :=
  if_neg h

/-- What `Allow` does. -/
theorem allow_cases
    (rl : SocialRateLimiter)
    (c : Call) :
    (∃ last, rl.items c.key = some last ∧
      FutureTime.unix c.now - last < seconds c.interval ∧ rl.allow c = (false, rl)) ∨
    ((∀ last, rl.items c.key = some last →
      seconds c.interval ≤ FutureTime.unix c.now - last) ∧ rl.allow c = (true, rl.put c)) := by
  unfold SocialRateLimiter.allow
  cases hlast : rl.items c.key with
  | none =>
      exact Or.inr ⟨fun last h => absurd h (Option.some_ne_none last).symm, rfl⟩
  | some last =>
      by_cases hlt : FutureTime.unix c.now - last < seconds c.interval
      · exact Or.inl ⟨last, rfl, hlt, if_pos hlt⟩
      · refine Or.inr ⟨fun last' h => ?_, if_neg hlt⟩
        rw [← Option.some.inj h]
        omega

/-- What a cleanup pass leaves is as it was, and what it takes is old. -/
theorem cleanup_items
    (rl : SocialRateLimiter)
    (now : Int) (k : String) :
    (rl.cleanup now).items k = rl.items k ∨
      ∃ v, rl.items k = some v ∧ (rl.cleanup now).items k = none ∧
        300 < FutureTime.unix now - v := by
  simp only [SocialRateLimiter.cleanup]
  cases hk : rl.items k with
  | none =>
      exact Or.inl rfl
  | some v =>
      by_cases hold : FutureTime.unix now - v > 300
      · refine Or.inr ⟨v, rfl, ?_, hold⟩
        rw [Option.filter_some, decide_eq_true hold]
        rfl
      · refine Or.inl ?_
        rw [Option.filter_some, decide_eq_false hold]
        rfl

end Steps

section Forgetting

/--
The first limiter remembers what the second one does, except for what was more than
five minutes old at some time before `t`.
-/
def Forgets
    (rl rl' : SocialRateLimiter)
    (t : Int) : Prop :=
  ∀ k, rl.items k = rl'.items k ∨
    ∃ v, rl'.items k = some v ∧ rl.items k = none ∧ 300 < FutureTime.unix t - v

theorem Forgets.mono
    {rl rl' : SocialRateLimiter} {t t' : Int}
    (h : Forgets rl rl' t)
    (hle : t ≤ t') :
    Forgets rl rl' t' := by
  intro k
  rcases h k with heq | ⟨v, hv, hnone, hold⟩
  · exact Or.inl heq
  · have hmono := unix_mono hle
    exact Or.inr ⟨v, hv, hnone, by omega⟩

theorem Forgets.cleanup
    {rl rl' : SocialRateLimiter} {now : Int}
    (h : Forgets rl rl' now) :
    Forgets (rl.cleanup now) rl' now := by
  intro k
  rcases cleanup_items rl now k with hkept | ⟨v, hv, hnone, hold⟩
  · rw [hkept]
    exact h k
  · rcases h k with heq | ⟨w, -, hnone', -⟩
    · exact Or.inr ⟨v, heq ▸ hv, hnone, hold⟩
    · exact absurd (hv.symm.trans hnone') (Option.some_ne_none v)

theorem Forgets.put
    {rl rl' : SocialRateLimiter} {t : Int}
    (h : Forgets rl rl' t)
    (c : Call) :
    Forgets (rl.put c) (rl'.put c) t := by
  intro k
  by_cases hk : k = c.key
  · subst hk
    exact Or.inl (put_items_self.trans put_items_self.symm)
  · rw [put_items_of_ne hk, put_items_of_ne hk]
    exact h k

/-- A limiter that has forgotten old seconds decides alike. -/
theorem Forgets.allow
    {rl rl' : SocialRateLimiter} {c : Call}
    (h : Forgets rl rl' c.now)
    (hshort : c.interval ≤ 300 * FutureTime.second) :
    (rl.allow c).1 = (rl'.allow c).1 ∧ Forgets (rl.allow c).2 (rl'.allow c).2 c.now := by
  have hseconds := seconds_le hshort
  rcases allow_cases rl' c with ⟨last, hlast, hlt, hrefused⟩ | ⟨hfar, hallowed⟩
  · rcases h c.key with heq | ⟨v, hv, -, hold⟩
    · rcases allow_cases rl c with ⟨-, -, -, hrefused'⟩ | ⟨hfar', -⟩
      · rw [hrefused, hrefused']
        exact ⟨rfl, h⟩
      · have hle := hfar' last (heq.trans hlast)
        omega
    · obtain rfl : v = last := Option.some.inj (hv.symm.trans hlast)
      omega
  · rcases allow_cases rl c with ⟨last, hlast, hlt, -⟩ | ⟨-, hallowed'⟩
    · rcases h c.key with heq | ⟨-, -, hnone, -⟩
      · have hle := hfar last (heq ▸ hlast)
        omega
      · exact absurd (hlast.symm.trans hnone) (Option.some_ne_none last)
    · rw [hallowed, hallowed']
      exact ⟨rfl, h.put c⟩

/-- Limiters that differ by old seconds only decide alike, with and without cleanup. -/
theorem decisions_sim
    {rl rl' : SocialRateLimiter} {t : Int} {es : List Event}
    (h : Forgets rl rl' t)
    (ht : ∀ e ∈ es, t ≤ e.now)
    (hclock : Clocked es)
    (hshort : Short es) :
    decisions rl es = decisions rl' (es.filter Event.isAllow) := by
  induction es generalizing rl rl' t with
  | nil =>
      rfl
  | cons e es ih =>
      obtain ⟨hnext, hclock'⟩ := List.pairwise_cons.mp hclock
      have hshort' : Short es := fun c hc => hshort c (List.mem_cons_of_mem e hc)
      have hnow := h.mono (ht e List.mem_cons_self)
      cases e with
      | allow c =>
          obtain ⟨hsame, hsim⟩ := hnow.allow (hshort c List.mem_cons_self)
          rw [List.filter_cons_of_pos rfl, decisions, decisions, hsame,
            ih hsim hnext hclock' hshort']
      | cleanup now =>
          rw [List.filter_cons_of_neg Bool.false_ne_true]
          exact ih hnow.cleanup hnext hclock' hshort'

end Forgetting

section Distances

/-- The calls that are allowed, first call first. -/
theorem allowed_allow
    (rl : SocialRateLimiter)
    (c : Call)
    (es : List Event) :
    allowed rl (.allow c :: es) =
      if (rl.allow c).1 then c :: allowed (rl.allow c).2 es
      else allowed (rl.allow c).2 es := by
  unfold allowed
  rw [decisions]
  cases h : (rl.allow c).1 with
  | true => rfl
  | false => rfl

theorem mem_of_mem_allowed
    {rl : SocialRateLimiter} {es : List Event} {c : Call}
    (h : c ∈ allowed rl es) :
    .allow c ∈ es := by
  induction es generalizing rl with
  | nil =>
      exact absurd h List.not_mem_nil
  | cons e es ih =>
      cases e with
      | allow d =>
          rw [allowed_allow] at h
          split at h
          · rcases List.mem_cons.mp h with rfl | h
            · exact List.mem_cons_self
            · exact List.mem_cons_of_mem _ (ih h)
          · exact List.mem_cons_of_mem _ (ih h)
      | cleanup now =>
          have hrest : c ∈ allowed (rl.cleanup now) es := h
          exact List.mem_cons_of_mem _ (ih hrest)

/-- What is allowed keeps its distance from what is remembered under its key. -/
theorem le_of_mem_allowed
    {rl : SocialRateLimiter} {es : List Event} {c : Call} {v : Int}
    (hclock : Clocked es)
    (hshort : Short es)
    (hv : rl.items c.key = some v)
    (hpast : ∀ e ∈ es, v ≤ FutureTime.unix e.now)
    (hc : c ∈ allowed rl es) :
    seconds c.interval ≤ FutureTime.unix c.now - v := by
  induction es generalizing rl v with
  | nil =>
      exact absurd hc List.not_mem_nil
  | cons e es ih =>
      obtain ⟨hnext, hclock'⟩ := List.pairwise_cons.mp hclock
      have hshort' : Short es := fun d hd => hshort d (List.mem_cons_of_mem e hd)
      have hpast' : ∀ d ∈ es, v ≤ FutureTime.unix d.now :=
        fun d hd => hpast d (List.mem_cons_of_mem e hd)
      cases e with
      | allow d =>
          rw [allowed_allow] at hc
          rcases allow_cases rl d with ⟨last, hlast, hlt, hrefused⟩ | ⟨hfar, hallowed⟩
          · rw [hrefused, if_neg Bool.false_ne_true] at hc
            exact ih hclock' hshort' hv hpast' hc
          · rw [hallowed, if_pos rfl] at hc
            rcases List.mem_cons.mp hc with rfl | hc
            · exact hfar v hv
            · by_cases hkey : c.key = d.key
              · have hput : (rl.put d).items c.key = some (FutureTime.unix d.now) :=
                  hkey ▸ put_items_self
                have hle := ih hclock' hshort' hput (fun e he => unix_mono (hnext e he)) hc
                have hold := hpast (.allow d) List.mem_cons_self
                simp only [Event.now] at hold
                omega
              · exact ih hclock' hshort' ((put_items_of_ne hkey).trans hv) hpast' hc
      | cleanup now =>
          rcases cleanup_items rl now c.key with hkept | ⟨w, hw, hnone, hold⟩
          · exact ih hclock' hshort' (hkept.trans hv) hpast' hc
          · obtain rfl : v = w := Option.some.inj (hv.symm.trans hw)
            have hrest : c ∈ allowed (rl.cleanup now) es := hc
            have hmem : .allow c ∈ es := mem_of_mem_allowed hrest
            have hmono := unix_mono (hnext _ hmem)
            have hseconds := seconds_le (hshort' c hmem)
            simp only [Event.now] at hmono
            omega

/-- What is allowed under one key is as many seconds apart as the later interval has. -/
theorem pairwise_allowed
    {es : List Event}
    (hclock : Clocked es)
    (hshort : Short es)
    (rl : SocialRateLimiter) :
    (allowed rl es).Pairwise (fun c d => c.key = d.key →
      seconds d.interval ≤ FutureTime.unix d.now - FutureTime.unix c.now) := by
  induction es generalizing rl with
  | nil =>
      exact List.Pairwise.nil
  | cons e es ih =>
      obtain ⟨hnext, hclock'⟩ := List.pairwise_cons.mp hclock
      have hshort' : Short es := fun d hd => hshort d (List.mem_cons_of_mem e hd)
      cases e with
      | allow c =>
          rw [allowed_allow]
          rcases allow_cases rl c with ⟨-, -, -, hrefused⟩ | ⟨-, hallowed⟩
          · rw [hrefused, if_neg Bool.false_ne_true]
            exact ih hclock' hshort' rl
          · rw [hallowed, if_pos rfl]
            refine List.pairwise_cons.mpr ⟨fun d hd hkey => ?_, ih hclock' hshort' _⟩
            have hput : (rl.put c).items d.key = some (FutureTime.unix c.now) :=
              hkey ▸ put_items_self
            exact le_of_mem_allowed hclock' hshort' hput
              (fun e he => unix_mono (hnext e he)) hd
      | cleanup now =>
          exact ih hclock' hshort' (rl.cleanup now)

end Distances

section Results

/--
Cleanup passes change no decision, and any two calls allowed under one key are as many
seconds of the clock apart as the later interval has, less than a second short of that
in time.
-/
theorem cleanup_unobservable
    {es : List Event}
    (hclock : Clocked es)
    (hshort : Short es) :
    decisions newSocialRateLimiter es =
        decisions newSocialRateLimiter (es.filter Event.isAllow) ∧
      (allowed newSocialRateLimiter es).Pairwise (fun c d => c.key = d.key →
        seconds d.interval ≤ FutureTime.unix d.now - FutureTime.unix c.now ∧
          (seconds d.interval - 1) * FutureTime.second < d.now - c.now) := by
  constructor
  · cases es with
    | nil =>
        rfl
    | cons e es =>
        have hsim : Forgets newSocialRateLimiter newSocialRateLimiter e.now :=
          fun _ => Or.inl rfl
        refine decisions_sim hsim (fun d hd => ?_) hclock hshort
        rcases List.mem_cons.mp hd with rfl | hd
        · exact Int.le_refl _
        · exact (List.pairwise_cons.mp hclock).1 d hd
  · refine (pairwise_allowed hclock hshort newSocialRateLimiter).imp ?_
    intro c d h hkey
    exact ⟨h hkey, lt_of_le_unix_sub (h hkey)⟩

/-- Two typing events at exact seconds, the first one with nothing before it. -/
def twoTypings (interval : Int) : List Event :=
  [.allow ⟨0, "coop_typing", "phil", "news", interval⟩,
    .allow ⟨2 * FutureTime.second, "coop_typing", "phil", "news", interval⟩]

/-- With an interval of two and a half seconds, two seconds are enough. -/
theorem half_second_lost :
    Clocked (twoTypings 2500000000) ∧ Short (twoTypings 2500000000) ∧
      ¬ (allowed newSocialRateLimiter (twoTypings 2500000000)).Pairwise
        (fun c d => c.key = d.key → d.interval ≤ d.now - c.now) := by
  refine ⟨by unfold Clocked twoTypings; decide, ?_, by decide +kernel⟩
  intro c hc
  simp only [twoTypings, List.mem_cons, Event.allow.injEq, List.not_mem_nil, or_false] at hc
  rcases hc with rfl | rfl <;> decide

/-- Three typing events with a cleanup pass among them. -/
def typings : List Event :=
  [.allow ⟨0, "coop_typing", "phil", "news", 3 * FutureTime.second⟩,
    .allow ⟨2 * FutureTime.second, "coop_typing", "phil", "news", 3 * FutureTime.second⟩,
    .cleanup (2 * FutureTime.second),
    .allow ⟨3 * FutureTime.second, "coop_typing", "phil", "news", 3 * FutureTime.second⟩]

theorem clocked_typings :
    Clocked typings := by
  unfold Clocked typings
  decide

theorem short_typings :
    Short typings := by
  intro c hc
  simp only [typings, List.mem_cons, Event.allow.injEq, List.not_mem_nil, or_false,
    reduceCtorEq, false_or] at hc
  rcases hc with rfl | rfl | rfl <;> decide

example :
    (decisions newSocialRateLimiter typings).map Prod.snd = [true, false, true] := by
  decide +kernel

/-- The limit of typing events with a cleanup pass. -/
theorem cleanup_unobservable_typings :
    decisions newSocialRateLimiter typings =
        decisions newSocialRateLimiter (typings.filter Event.isAllow) ∧
      (allowed newSocialRateLimiter typings).Pairwise (fun c d => c.key = d.key →
        seconds d.interval ≤ FutureTime.unix d.now - FutureTime.unix c.now ∧
          (seconds d.interval - 1) * FutureTime.second < d.now - c.now) :=
  cleanup_unobservable clocked_typings short_typings

end Results

end SocialLimits
end Server
end CoopMessenger
