import CoopMessenger.Library.Runs
import Mathlib.Data.List.Induction

/-!
# Histories

What holds after a run may speak of the steps that were taken.  A field of the state that
some steps write has the value of the last of them.

**Results.**
* `run_history`: an invariant of the steps so far and the state.
* `lastWritten_eq_some_iff`: a value is the last one written by a step of the history.
-/

namespace CoopMessenger
namespace Library

universe u v w

variable {S : Type u}
variable {L : Type v}
variable {α : Type w}

section Runs

variable {step : S → L → Option S}
variable {Inv : List L → S → Prop}

/-- What holds of the empty history and is kept by every step holds after every run. -/
theorem run_history
    (hpres : ∀ ls s l s', Inv ls s → step s l = some s' → Inv (ls ++ [l]) s')
    {s t : S} {before ls : List L}
    (hs : Inv before s)
    (hrun : run step s ls = some t) :
    Inv (before ++ ls) t := by
  induction ls generalizing s before with
  | nil =>
      rw [run_nil, Option.some.injEq] at hrun
      rw [← hrun, List.append_nil]
      exact hs
  | cons l ls ih =>
      obtain ⟨s', hstep, hrest⟩ := run_cons_eq_some.mp hrun
      have hnext := ih (hpres before s l s' hs hstep) hrest
      rwa [List.append_assoc] at hnext

end Runs

section Registers

/-- The value that the last writing step of the history has written. -/
def lastWritten
    (write : L → Option α)
    (ls : List L) : Option α :=
  (ls.filterMap write).getLast?

variable {write : L → Option α}
variable {ls : List L}
variable {l : L}

@[simp] theorem lastWritten_nil :
    lastWritten write [] = none := by
  rfl

theorem lastWritten_concat
    (write : L → Option α)
    (ls : List L)
    (l : L) :
    lastWritten write (ls ++ [l]) = (write l).or (lastWritten write ls) := by
  unfold lastWritten
  rw [List.filterMap_append]
  cases hwrite : write l with
  | none =>
      simp [hwrite]
  | some a =>
      simp [hwrite]

theorem lastWritten_of_write
    {a : α}
    (h : write l = some a) :
    lastWritten write (ls ++ [l]) = some a := by
  rw [lastWritten_concat, h, Option.some_or]

theorem lastWritten_of_not_write
    (h : write l = none) :
    lastWritten write (ls ++ [l]) = lastWritten write ls := by
  rw [lastWritten_concat, h, Option.none_or]

/-- A value is the last one if a step has written it and none has written after it. -/
theorem lastWritten_eq_some_iff
    {a : α} :
    lastWritten write ls = some a ↔
      ∃ before l after, ls = before ++ l :: after ∧ write l = some a ∧
        ∀ m ∈ after, write m = none := by
  induction ls using List.reverseRecOn with
  | nil =>
      simp
  | append_singleton ls l ih =>
      constructor
      · intro h
        cases hwrite : write l with
        | some b =>
            rw [lastWritten_of_write hwrite] at h
            exact ⟨ls, l, [], rfl, hwrite.trans h, by simp⟩
        | none =>
            rw [lastWritten_of_not_write hwrite] at h
            obtain ⟨before, m, after, rfl, hm, hafter⟩ := ih.mp h
            refine ⟨before, m, after ++ [l], by simp, hm, fun k hk => ?_⟩
            rcases List.mem_append.mp hk with hk | hk
            · exact hafter k hk
            · rw [List.mem_singleton.mp hk]
              exact hwrite
      · rintro ⟨before, m, after, hsplit, hm, hafter⟩
        rw [hsplit, lastWritten, List.filterMap_append, List.filterMap_cons_some hm,
          List.filterMap_eq_nil_iff.mpr hafter, List.getLast?_concat]

end Registers

end Library
end CoopMessenger
