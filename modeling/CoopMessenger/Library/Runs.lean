import Mathlib.Logic.Basic

/-!
# Runs of a partial step function

A system is given by a step function `step : S → L → Option S`.  A label names
the party that moves and every choice the environment makes, so the step itself
is a function; it is `none` when the label is not enabled.  An interleaving is
a list of labels, and a run performs the labels from left to right.

**Results.**
* `run_invariant`: what every step preserves holds at the end of every run.
* `run_invariant_along`: the same for runs all of whose steps are taken in a
  state that meets a side condition.
* `step_property_along`: what holds of every single step of such a run.
-/

namespace CoopMessenger
namespace Library

universe u v

variable {S : Type u}
variable {L : Type v}

/-- Perform the labels from left to right; `none` if one of them is not enabled. -/
def run
    (step : S → L → Option S) :
    S → List L → Option S
  | s, [] => some s
  | s, l :: ls =>
      (step s l).bind (fun s' => run step s' ls)

/-- Every label of the list is performed in a state that meets `cond`. -/
def Along
    (step : S → L → Option S)
    (cond : S → L → Prop) :
    S → List L → Prop
  | _, [] => True
  | s, l :: ls =>
      cond s l ∧
        ∀ s', step s l = some s' → Along step cond s' ls

instance Along.decidable
    (step : S → L → Option S)
    (cond : S → L → Prop)
    [∀ s l, Decidable (cond s l)] :
    ∀ s ls, Decidable (Along step cond s ls)
  | _, [] => isTrue trivial
  | s, l :: ls =>
      letI : Decidable (∀ s', step s l = some s' →
          Along step cond s' ls) :=
        match step s l with
        | none => isTrue nofun
        | some s₁ =>
            match Along.decidable step cond s₁ ls with
            | isTrue h => isTrue (fun _ heq => Option.some.inj heq ▸ h)
            | isFalse h => isFalse (fun hall => h (hall s₁ rfl))
      inferInstanceAs (Decidable (cond s l ∧ _))

section Basics

variable {step : S → L → Option S}

@[simp] theorem run_nil
    (s : S) :
    run step s [] = some s := by
  rfl

/-- Peel the first step off a run. -/
theorem run_cons_eq_some
    {s t : S} {l : L} {ls : List L} :
    run step s (l :: ls) = some t
      ↔
    ∃ s', step s l = some s' ∧ run step s' ls = some t := by
  simp [run, Option.bind_eq_some_iff]

/-- The side condition of a concatenation, seen from the middle state. -/
theorem Along.of_append
    {cond : S → L → Prop}
    {s s' : S} {ls ms : List L}
    (h : Along step cond s (ls ++ ms))
    (hrun : run step s ls = some s') :
    Along step cond s' ms := by
  induction ls generalizing s with
  | nil =>
      simp at hrun
      subst s'
      exact h
  | cons l ls ih =>
      obtain ⟨s₁, hstep, hrest⟩ := run_cons_eq_some.mp hrun
      exact ih (h.2 s₁ hstep) hrest

/-- A side condition on the labels alone. -/
theorem Along.of_forall
    {p : L → Prop}
    {ls : List L}
    (h : ∀ l ∈ ls, p l)
    (s : S) :
    Along step (fun _ l => p l) s ls := by
  induction ls generalizing s with
  | nil =>
      exact trivial
  | cons l ls ih =>
      refine ⟨h l List.mem_cons_self, fun s' _ => ?_⟩
      exact ih (fun m hm => h m (List.mem_cons_of_mem l hm)) s'

/-- What follows from the side condition holds along the run, too. -/
theorem Along.imp
    {P Q : S → L → Prop}
    (h : ∀ s l, P s l → Q s l)
    {s : S} {ls : List L}
    (hP : Along step P s ls) :
    Along step Q s ls := by
  induction ls generalizing s with
  | nil =>
      exact trivial
  | cons l ls ih =>
      exact ⟨h s l hP.1, fun s' hstep => ih (hP.2 s' hstep)⟩

/-- Conditions that agree on the labels of a run wherever the invariant holds. -/
theorem Along.congr_of_mem
    {P Q : S → L → Prop} {Inv : S → Prop}
    {s : S} {ls : List L}
    (hiff : ∀ s, ∀ l ∈ ls, Inv s → (P s l ↔ Q s l))
    (hpres : ∀ s, ∀ l ∈ ls, ∀ s', Inv s → P s l → step s l = some s' → Inv s')
    (hs : Inv s) :
    Along step P s ls ↔ Along step Q s ls := by
  induction ls generalizing s with
  | nil =>
      exact Iff.rfl
  | cons l ls ih =>
      have hiff' : ∀ s, ∀ m ∈ ls, Inv s → (P s m ↔ Q s m) :=
        fun s m hm => hiff s m (List.mem_cons_of_mem l hm)
      have hpres' : ∀ s, ∀ m ∈ ls, ∀ s', Inv s → P s m → step s m = some s' → Inv s' :=
        fun s m hm => hpres s m (List.mem_cons_of_mem l hm)
      constructor
      · rintro ⟨hP, hrest⟩
        refine ⟨(hiff s l List.mem_cons_self hs).mp hP, fun s' hstep => ?_⟩
        have hs' := hpres s l List.mem_cons_self s' hs hP hstep
        exact (ih hiff' hpres' hs').mp (hrest s' hstep)
      · rintro ⟨hQ, hrest⟩
        have hP := (hiff s l List.mem_cons_self hs).mpr hQ
        refine ⟨hP, fun s' hstep => ?_⟩
        have hs' := hpres s l List.mem_cons_self s' hs hP hstep
        exact (ih hiff' hpres' hs').mpr (hrest s' hstep)

/-- Conditions that agree wherever the invariant holds agree along runs. -/
theorem Along.congr_of_invariant
    {P Q : S → L → Prop} {Inv : S → Prop}
    (hiff : ∀ s l, Inv s → (P s l ↔ Q s l))
    (hpres : ∀ s l s', Inv s → P s l → step s l = some s' → Inv s')
    {s : S} {ls : List L}
    (hs : Inv s) :
    Along step P s ls ↔ Along step Q s ls :=
  Along.congr_of_mem (fun s l _ => hiff s l) (fun s l _ => hpres s l) hs

/-- A prefix of a run that meets the side condition meets it too. -/
theorem Along.left
    {cond : S → L → Prop}
    {s : S} {ls ms : List L}
    (h : Along step cond s (ls ++ ms)) :
    Along step cond s ls := by
  induction ls generalizing s with
  | nil =>
      exact trivial
  | cons l ls ih =>
      exact ⟨h.1, fun s' hstep => ih (h.2 s' hstep)⟩

end Basics

section Invariants

variable {step : S → L → Option S}
variable {cond : S → L → Prop}
variable {Inv : S → Prop}

/-- What every step taken under `cond` preserves holds in every state reached. -/
theorem run_invariant_along
    (hpres : ∀ s l s', Inv s → cond s l →
      step s l = some s' → Inv s')
    {s t : S} {ls : List L}
    (hs : Inv s)
    (hcond : Along step cond s ls)
    (hrun : run step s ls = some t) :
    Inv t := by
  induction ls generalizing s with
  | nil =>
      simp at hrun
      subst t
      exact hs
  | cons l ls ih =>
      obtain ⟨s', hstep, hrest⟩ := run_cons_eq_some.mp hrun
      exact ih (hpres s l s' hs hcond.1 hstep)
        (hcond.2 s' hstep) hrest

/-- What every step preserves holds in every state reached. -/
theorem run_invariant
    (hpres : ∀ s l s', Inv s → step s l = some s' → Inv s')
    {s t : S} {ls : List L}
    (hs : Inv s)
    (hrun : run step s ls = some t) :
    Inv t := by
  exact run_invariant_along
    (fun s l s' hinv _ => hpres s l s' hinv) hs
    (Along.of_forall (fun _ _ => trivial) s) hrun

/--
A property of single steps that follows from the invariant and the side
condition holds of every step of the run.
-/
theorem step_property_along
    {P : S → L → S → Prop}
    (hpres : ∀ s l s', Inv s → cond s l →
      step s l = some s' → Inv s')
    (hprop : ∀ s l s', Inv s → cond s l →
      step s l = some s' → P s l s')
    {s s₁ s₂ : S} {ls ms : List L} {l : L}
    (hs : Inv s)
    (hcond : Along step cond s (ls ++ l :: ms))
    (hrun : run step s ls = some s₁)
    (hstep : step s₁ l = some s₂) :
    P s₁ l s₂ := by
  have hinv : Inv s₁ :=
    run_invariant_along hpres hs hcond.left hrun
  exact hprop s₁ l s₂ hinv (hcond.of_append hrun).1 hstep

end Invariants

end Library
end CoopMessenger
