import CoopMessenger.Server.Visitors

/-!
# Throttling of logins and sign-ups

`AuthAllowed`, `AuthFailed` and `AccountCreationAllowed` of `server/visitor.go` look at
limiters that a visitor has or has not.  The visitor of an address should always have
them: they are what counts the failed logins and the sign-ups from there.

**Results.**
* `throttled_step_iff`: one step keeps the limiters of all addresses exactly when it
  neither creates a visitor for an address with a user, nor gives the visitor of an
  address a user with another tier.
* `throttling_stays_iff`: the same along runs.
-/

namespace CoopMessenger
namespace Server

open Library Manager

namespace Visitors

section Lookups

variable {cfg : Config}
variable {R : Registry Visitor.key}

/-- The visitor that the map has under an identifier. -/
def current
    (R : Registry Visitor.key)
    (id : VisitorID) : Option Visitor :=
  (R.lookup id).bind R.get

theorem current_create
    {v : Visitor}
    (hfree : R.lookup v.key = none)
    (id : VisitorID) :
    current (R.create v) id = if id = v.key then some v else current R id := by
  rw [current, Registry.lookup_create hfree]
  split
  case isTrue =>
    simp [Registry.get_create hfree]
  case isFalse =>
    cases hlookup : R.lookup id with
    | none =>
        simp [current, hlookup]
    | some o =>
        have hne : o ≠ R.heap.length := Nat.ne_of_lt (Registry.lookup_lt hlookup)
        simp [current, hlookup, Registry.get_create hfree, hne]

/-- An object is current for one identifier at most. -/
theorem current_update
    {o : Nat} {k : VisitorID}
    (hlookup : R.lookup k = some o)
    (f : Visitor → Visitor)
    (hf : ∀ v, (f v).key = v.key)
    (id : VisitorID) :
    current (R.update o f hf) id =
      if id = k then (current R id).map f else current R id := by
  rw [current, Registry.lookup_update]
  cases hid : R.lookup id with
  | none =>
      simp [current, hid]
  | some p =>
      have hiff : o = p ↔ id = k := by
        obtain ⟨v, hv, hkey⟩ := Registry.get_of_lookup hlookup
        constructor
        · rintro rfl
          exact (Registry.key_eq_of_lookup hid hv).symm.trans hkey
        · rintro rfl
          exact Option.some.inj (hlookup.symm.trans hid)
      simp [current, hid, Registry.get_update, hiff]

theorem current_remove
    (R : Registry Visitor.key) (k id : VisitorID) :
    current (R.remove k) id = if id = k then none else current R id := by
  rw [current, Registry.lookup_remove]
  split
  · rfl
  · cases hid : R.lookup id <;> simp [current, hid]

/-- The visitors after a lookup. -/
theorem current_visitor
    (cfg : Config) (s : State) (ip : Addr) (u : Option User) (id : VisitorID) :
    current (visitor cfg s ip u).1 id =
      if id = visitorID cfg ip u then
        some (((current s.visitors id).map (Visitor.found s.now u)).getD
          (newVisitor cfg s.now ip u))
      else
        current s.visitors id := by
  unfold visitor
  cases hlookup : s.visitors.lookup (visitorID cfg ip u) with
  | none =>
      have hfree : s.visitors.lookup (newVisitor cfg s.now ip u).key = none :=
        hlookup
      have hkey : (newVisitor cfg s.now ip u).key = visitorID cfg ip u := rfl
      dsimp only
      rw [current_create hfree, hkey]
      split
      case isTrue heq =>
        simp [current, heq, hlookup]
      case isFalse =>
        rfl
  | some o =>
      dsimp only
      rw [current_update hlookup]
      split
      case isTrue heq =>
        obtain ⟨v, hv, -⟩ := Registry.get_of_lookup hlookup
        simp [current, heq, hlookup, hv]
      case isFalse =>
        rfl

end Lookups

section Throttling

variable {cfg : Config}
variable {s : State}

/-- Does the visitor count failed logins and sign-ups? -/
def Visitor.counts (v : Visitor) : Prop :=
  v.limiters.auth = true ∧ v.limiters.account = true

/-- The visitor of every address counts failed logins and sign-ups. -/
def Throttled
    (R : Registry Visitor.key) : Prop :=
  ∀ addr v, current R (.ip addr) = some v → v.counts

/-- A user without a tier is looked up, if there is a visitor that has none either. -/
def LookupCounted
    (cfg : Config)
    (s : State)
    (ip : Addr) : Option User → Prop
  | none => True
  | some u =>
      u.tier.isSome = true ∨
        (current s.visitors (visitorID cfg ip (some u))).any
          (fun v => decide (tierID v.user = "")) = true

/--
The step neither creates the visitor of an address with a user, nor gives it a user
with another tier.
-/
def Counted
    (cfg : Config)
    (s : State) : Label → Prop
  | .succeed conn u =>
      ∀ r, s.requests.find? conn = some r → r.active = false →
        LookupCounted cfg s r.ip (some u)
  | .download conn sender owner =>
      ∀ r, s.requests.find? conn = some r → r.active = true →
        LookupCounted cfg s (downloadVisitor s r sender owner).1
          (downloadVisitor s r sender owner).2
  | .stripe conn u =>
      ∀ r, s.requests.find? conn = some r → r.active = true →
        ∀ addr v, s.visitors.lookup (.ip addr) = some r.object →
          s.visitors.get r.object = some v → tierID v.user = tierID (some u)
  | .lookup ip u => LookupCounted cfg s ip u
  | .tick _ | .anonymous _ _ | .credentials _ _ | .fail _ | .done _ | .prune _ => True

theorem counts_resetLimiters_iff
    {v : Visitor} {u : Option User}
    (h : v.limiters = resetLimiters u) :
    v.counts ↔ u = none := by
  rw [Visitor.counts, h]
  simp [resetLimiters]

/-- A visitor whose user is set counts, unless its limiters are reset for a user. -/
theorem counts_setUser_iff
    {v : Visitor}
    (hv : v.counts)
    (u : Option User) :
    (v.setUser u).counts ↔ (tierID v.user ≠ tierID u → u = none) := by
  by_cases h : tierID v.user = tierID u
  · have hsame : (v.setUser u).limiters = v.limiters := by
      simp [Visitor.setUser, h]
    rw [Visitor.counts, hsame]
    exact iff_of_true hv fun hne => absurd h hne
  · have hreset : (v.setUser u).limiters = resetLimiters u := by
      simp [Visitor.setUser, h]
    rw [counts_resetLimiters_iff hreset]
    simp [h]

theorem visitorID_of_tier
    (cfg : Config) (ip : Addr) {u : User}
    (hu : u.tier.isSome = true) :
    visitorID cfg ip (some u) = .user u.id := by
  obtain ⟨id, name, role, tier, stats, provisioned⟩ := u
  cases tier with
  | none => cases hu
  | some tier => rfl

theorem visitorID_of_tier_none
    (cfg : Config) (ip : Addr) {u : User}
    (hu : u.tier = none) :
    ∃ addr, visitorID cfg ip (some u) = .ip addr := by
  obtain ⟨id, name, role, tier, stats, provisioned⟩ := u
  cases hu
  cases ip <;> exact ⟨_, rfl⟩

/-- Which lookups keep the limiters of all addresses. -/
theorem throttled_visitor_iff
    (h : Throttled s.visitors) (ip : Addr) (u : Option User) :
    Throttled (visitor cfg s ip u).1 ↔ LookupCounted cfg s ip u := by
  -- the visitor that the lookup returns
  have hlookup : ∀ addr v, current s.visitors (.ip addr) = some v →
      ((v.found s.now u).counts ↔ (tierID v.user ≠ tierID u → u = none)) :=
    fun addr v hv => counts_setUser_iff (h addr v hv : (v.keepalive s.now).counts) u
  constructor
  · intro hall
    cases u with
    | none =>
        exact trivial
    | some u =>
        cases htier : u.tier with
        | some tier =>
            exact Or.inl (by rw [htier]; rfl)
        | none =>
            obtain ⟨addr, haddr⟩ := visitorID_of_tier_none cfg ip htier
            have hnew := hall addr
            simp only [current_visitor, haddr, if_true, Option.some.injEq,
              forall_eq'] at hnew
            right
            rw [haddr]
            cases hcurrent : current s.visitors (.ip addr) with
            | none =>
                rw [hcurrent] at hnew
                have hcounts := (counts_resetLimiters_iff (u := some u) rfl).mp hnew
                cases hcounts
            | some v =>
                rw [hcurrent] at hnew
                have hsame := (hlookup addr v hcurrent).mp hnew
                have htierID : tierID (some u) = "" := by simp [tierID, htier]
                rw [htierID] at hsame
                simp only [Option.any_some, decide_eq_true_eq]
                by_contra hne
                cases hsame hne
  · intro hcounted addr v hv
    rw [current_visitor] at hv
    split at hv
    case isFalse =>
      exact h addr v hv
    case isTrue heq =>
      rw [← Option.some.inj hv]
      cases u with
      | none =>
          cases hcurrent : current s.visitors (.ip addr) with
          | none =>
              exact (counts_resetLimiters_iff (u := none) rfl).mpr rfl
          | some v =>
              exact (hlookup addr v hcurrent).mpr fun _ => rfl
      | some u =>
          rcases hcounted with htier | hany
          · rw [visitorID_of_tier cfg ip htier] at heq
            cases heq
          · rw [← heq] at hany
            have htier : u.tier = none := by
              cases htier : u.tier with
              | none => rfl
              | some tier =>
                  rw [visitorID_of_tier cfg ip (by rw [htier]; rfl)] at heq
                  cases heq
            have htierID : tierID (some u) = "" := by simp [tierID, htier]
            cases hcurrent : current s.visitors (.ip addr) with
            | none =>
                rw [hcurrent] at hany
                cases hany
            | some v =>
                rw [hcurrent, Option.any_some, decide_eq_true_eq] at hany
                refine (hlookup addr v hcurrent).mpr fun hne => ?_
                rw [htierID] at hne
                exact absurd hany hne

/-- A Stripe callback keeps them if the user has the tier of the one before. -/
theorem throttled_setUser_iff
    (h : Throttled s.visitors) (o : Nat) (u : User) :
    Throttled (s.visitors.update o (Visitor.setUser (some u))
        (Visitor.setUser_key (some u)))
      ↔
    ∀ addr v, s.visitors.lookup (.ip addr) = some o →
      s.visitors.get o = some v → tierID v.user = tierID (some u) := by
  constructor
  · intro hall addr v hlookup hv
    have hcurrent : current s.visitors (.ip addr) = some v := by
      simp [current, hlookup, hv]
    have hnew := hall addr (v.setUser (some u))
    rw [current_update hlookup, if_pos rfl, hcurrent] at hnew
    by_contra hne
    have hnone := (counts_setUser_iff (h addr v hcurrent) (some u)).mp (hnew rfl) hne
    cases hnone
  · intro hsame addr v hv
    cases hlookup : s.visitors.lookup (.ip addr) with
    | none =>
        rw [current, Registry.lookup_update, hlookup] at hv
        cases hv
    | some p =>
        by_cases hp : p = o
        · subst hp
          rw [current_update hlookup, if_pos rfl] at hv
          obtain ⟨w, hw, rfl⟩ := Option.map_eq_some_iff.mp hv
          have hget : s.visitors.get p = some w := by
            simpa [current, hlookup] using hw
          refine (counts_setUser_iff (h addr w hw) (some u)).mpr fun hne => ?_
          exact absurd (hsame addr w hlookup hget) hne
        · refine h addr v ?_
          rw [← hv, current, current, Registry.lookup_update, hlookup]
          simp [Registry.get_update, Ne.symm hp]

theorem throttled_remove
    (h : Throttled s.visitors) (key : VisitorID) :
    Throttled (s.visitors.remove key) := by
  intro addr v hv
  rw [current_remove] at hv
  split at hv
  · cases hv
  · exact h addr v hv

/-- The first lookup of a request is one without a user. -/
theorem throttled_start
    (h : Throttled s.visitors) (conn : Nat) (ip : Addr) (active : Bool) :
    ∀ s', ((s.requests.insert?
          ⟨conn, ip, (visitor cfg s ip none).2, none, active⟩).map
        (fun requests =>
          { s with visitors := (visitor cfg s ip none).1, requests })) =
        some s' → Throttled s'.visitors := by
  intro s' hs'
  obtain ⟨requests, -, rfl⟩ := Option.map_eq_some_iff.mp hs'
  exact (throttled_visitor_iff h ip none).mpr trivial

/--
One step keeps the limiters of all addresses exactly when it neither creates the
visitor of an address with a user, nor gives it a user with another tier.
-/
theorem throttled_step_iff
    {l : Label}
    (h : Throttled s.visitors) :
    (∀ s', step cfg s l = some s' → Throttled s'.visitors) ↔ Counted cfg s l := by
  cases l with
  | tick seconds =>
      refine iff_of_true ?_ trivial
      intro s' hstep
      cases hstep
      exact h
  | anonymous conn ip =>
      exact iff_of_true (throttled_start h conn ip true) trivial
  | credentials conn ip =>
      exact iff_of_true (throttled_start h conn ip false) trivial
  | succeed conn u =>
      simp only [step_succeed_iff, Counted, forall_exists_index, and_imp]
      constructor
      · intro hall r₀ hfind hinactive
        exact (throttled_visitor_iff h r₀.ip (some u)).mp (hall _ r₀ hfind hinactive rfl)
      · rintro hcounted _ r₀ hfind hinactive rfl
        exact (throttled_visitor_iff h r₀.ip (some u)).mpr (hcounted r₀ hfind hinactive)
  | fail conn =>
      refine iff_of_true (fun s' hstep => ?_) trivial
      rw [step_fail_eq hstep]
      exact h
  | done conn =>
      refine iff_of_true (fun s' hstep => ?_) trivial
      rw [step_done_eq hstep]
      exact h
  | download conn sender owner =>
      simp only [step_download_iff, Counted, forall_exists_index, and_imp]
      constructor
      · intro hall r₀ hfind hactive
        exact (throttled_visitor_iff h _ _).mp (hall _ r₀ hfind hactive rfl)
      · rintro hcounted _ r₀ hfind hactive rfl
        exact (throttled_visitor_iff h _ _).mpr (hcounted r₀ hfind hactive)
  | stripe conn u =>
      simp only [step_stripe_iff, Counted, forall_exists_index, and_imp]
      constructor
      · intro hall r₀ hfind hactive
        exact (throttled_setUser_iff h r₀.object u).mp (hall _ r₀ hfind hactive rfl)
      · rintro hcounted _ r₀ hfind hactive rfl
        exact (throttled_setUser_iff h r₀.object u).mpr (hcounted r₀ hfind hactive)
  | lookup ip u =>
      simp only [step, Counted, Option.some.injEq, forall_eq']
      exact throttled_visitor_iff h ip u
  | prune key =>
      refine iff_of_true (fun s' hstep => ?_) trivial
      rw [step_prune_eq hstep]
      exact throttled_remove h key

/--
The visitor of every address has its limiters in all states that a run reaches exactly
when no step of the run creates the visitor of an address with a user, or gives it a
user with another tier.
-/
theorem throttling_stays_iff
    (cfg : Config) (now : Nat) (ls : List Label) :
    Along (step cfg) (fun s l => ∀ s', step cfg s l = some s' →
        Throttled s'.visitors)
      (initial now) ls
      ↔
    Along (step cfg) (Counted cfg) (initial now) ls := by
  have hstart : Throttled (initial now).visitors := by
    intro addr v hv
    cases hv
  have hiff : ∀ s l, Throttled s.visitors →
      ((∀ s', step cfg s l = some s' → Throttled s'.visitors) ↔ Counted cfg s l) :=
    fun s l hs => throttled_step_iff hs
  exact Along.congr_of_invariant hiff
    (fun s l s' _ hcounts hstep => hcounts s' hstep) hstart

/--
A delayed message of a user without a tier is sent from an address that no visitor is
known for.  Its visitor has no limiters, and a login from there does not add them.
-/
theorem delayed_sender_unthrottles :
    ∃ s v, run (step exampleConfig) (initial 0)
        [.lookup exampleAddr (some exampleAdmin), .credentials 1 exampleAddr] = some s ∧
      current s.visitors (.ip exampleAddr) = some v ∧
      v.limiters.auth = false ∧ v.limiters.account = false ∧
      ¬ Throttled s.visitors := by
  refine ⟨_, ⟨.ip exampleAddr, exampleAddr, none, resetLimiters (some exampleAdmin), 0⟩,
    rfl, by decide, rfl, rfl, fun h => ?_⟩
  have hcounts := h exampleAddr
    ⟨.ip exampleAddr, exampleAddr, none, resetLimiters (some exampleAdmin), 0⟩
    (by decide)
  cases hcounts.1

end Throttling

end Visitors
end Server
end CoopMessenger
