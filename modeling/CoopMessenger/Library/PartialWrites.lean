import Mathlib.Tactic.Common

/-!
# Partial writes

A request that makes several writes, each of which stays when a later one fails.  Checks
and writes are put together by two combinators; whether a failing request leaves the state
as it was is computed along them.

**Results.**
* `allOrNothing_check_iff`, `allOrNothing_commit_iff`: the rules of the combinators.
* `allOrNothing_commit_last`: a last write cannot be half of a request.
-/

namespace CoopMessenger
namespace Library

universe u v w

section PartialWrites

variable {σ : Type u} {ε : Type v} {α : Type w}

/-- The state after a request, and its answer. -/
abbrev Attempt (σ : Type u) (ε : Type v) (α : Type w) : Type (max u v w) :=
  σ × Except ε α

/-- Goes on with what was read or checked. -/
def check
    {β : Type*}
    (s : σ)
    (c : Except ε β)
    (next : β → Attempt σ ε α) : Attempt σ ε α :=
  match c with
  | .error e => (s, .error e)
  | .ok b => next b

/-- Goes on in the state after a write, which a later failure does not undo. -/
def commit
    (s : σ)
    (w : Except ε σ)
    (next : σ → Attempt σ ε α) : Attempt σ ε α :=
  check s w next

/-- The request succeeds, or the state is the same as at its start. -/
def AllOrNothing
    (same : σ → σ → Prop)
    (s : σ)
    (r : Attempt σ ε α) : Prop :=
  ∀ e, r.2 = .error e → same s r.1

/-- Is the outcome an error? -/
def Refuses
    {β : Type*}
    (c : Except ε β) : Prop :=
  ∃ e, c = .error e

@[simp] theorem refuses_error
    {β : Type*}
    (e : ε) :
    Refuses (.error e : Except ε β) :=
  ⟨e, rfl⟩

@[simp] theorem not_refuses_ok
    {β : Type*}
    (b : β) :
    ¬ Refuses (.ok b : Except ε β) :=
  fun ⟨_, h⟩ => by cases h

theorem not_refuses_iff
    {β : Type*}
    {c : Except ε β} :
    ¬ Refuses c ↔ ∃ b, c = .ok b := by
  cases c with
  | error e =>
      simp
  | ok b =>
      simp

variable {same : σ → σ → Prop} {s s' : σ}

@[simp] theorem allOrNothing_ok
    (a : α) :
    AllOrNothing same s (s', (.ok a : Except ε α)) :=
  fun _ h => by cases h

@[simp] theorem allOrNothing_error_iff
    (e : ε) :
    AllOrNothing same s (s', (.error e : Except ε α)) ↔ same s s' :=
  ⟨fun h => h e rfl, fun h _ _ => h⟩

theorem allOrNothing_check_iff
    {β : Type*}
    (c : Except ε β)
    (next : β → Attempt σ ε α) :
    AllOrNothing same s (check s' c next)
      ↔
    (Refuses c → same s s') ∧ ∀ b, c = .ok b → AllOrNothing same s (next b) := by
  cases c with
  | error e =>
      simp [check, Refuses]
  | ok b =>
      simp [check, Refuses]

theorem allOrNothing_commit_iff
    (w : Except ε σ)
    (next : σ → Attempt σ ε α) :
    AllOrNothing same s (commit s' w next)
      ↔
    (Refuses w → same s s') ∧ ∀ t, w = .ok t → AllOrNothing same s (next t) :=
  allOrNothing_check_iff w next

/-- As long as nothing is written, checks may fail. -/
theorem allOrNothing_check_first
    {β : Type*}
    (hrefl : same s s)
    (c : Except ε β)
    (next : β → Attempt σ ε α) :
    AllOrNothing same s (check s c next)
      ↔
    ∀ b, c = .ok b → AllOrNothing same s (next b) := by
  rw [allOrNothing_check_iff]
  exact and_iff_right fun _ => hrefl

theorem allOrNothing_commit_first
    (hrefl : same s s)
    (w : Except ε σ)
    (next : σ → Attempt σ ε α) :
    AllOrNothing same s (commit s w next)
      ↔
    ∀ t, w = .ok t → AllOrNothing same s (next t) :=
  allOrNothing_check_first hrefl w next

/-- A last write matters only if it fails after others. -/
theorem allOrNothing_commit_last
    (w : Except ε σ)
    (a : α) :
    AllOrNothing same s (commit s' w fun t => (t, .ok a)) ↔ (Refuses w → same s s') := by
  rw [allOrNothing_commit_iff]
  exact and_iff_left fun _ _ => allOrNothing_ok a

end PartialWrites

end Library
end CoopMessenger
