import CoopMessenger.Library.Ranking
import Mathlib.Data.List.Pairwise

/-!
# Sorting without stability

A sort by a key that promises nothing about elements with the same key.  Elements that are
in order already stay in order under every such sort when they have different keys, and
only then.

**Results.**
* `filter_sort_eq_iff`: what every sort leaves as it is.
* `filter_not_mem_drop`: what is left of a list when all but its first elements are taken
  away.
-/

namespace CoopMessenger
namespace Library

universe u v

section Sorting

variable {α : Type u}
variable {β : Type v}
variable [LinearOrder β]

/-- A way to sort by a key. -/
structure AscOrder (key : α → β) where
  sort : List α → List α
  perm : ∀ l, (sort l).Perm l
  sorted : ∀ l, (sort l).Pairwise (fun x y => key x ≤ key y)

/-- Elements with the same key keep their order. -/
def AscOrder.stable (key : α → β) : AscOrder key where
  sort := orderBy key
  perm := fun _ => perm_orderBy
  sorted := fun _ => pairwise_orderBy

/-- Among elements with the same key, the one given comes last. -/
def AscOrder.last
    [DecidableEq α]
    (key : α → β)
    (x : α) : AscOrder key where
  sort := orderBy (fun y => toLex (key y, decide (y = x)))
  perm := fun _ => perm_orderBy
  sorted := fun _ => pairwise_orderBy.imp fun h => by
    rcases Prod.Lex.le_iff.mp h with h | h
    · exact h.le
    · exact h.1.le

variable {key : α → β} {l : List α} {x y : α}

/-- No other element with the same key follows. -/
theorem AscOrder.not_last_lt
    [DecidableEq α]
    (hkey : key x = key y)
    (hne : y ≠ x) :
    ((AscOrder.last key x).sort l).Pairwise (fun z z' => ¬ (z = x ∧ z' = y)) := by
  have hsorted : ((AscOrder.last key x).sort l).Pairwise (fun z z' =>
      toLex (key z, decide (z = x)) ≤ toLex (key z', decide (z' = x))) :=
    pairwise_orderBy
  refine hsorted.imp ?_
  rintro z z' hle ⟨rfl, rfl⟩
  rcases Prod.Lex.le_iff.mp hle with h | ⟨-, h⟩
  · exact absurd hkey h.ne
  · exact absurd h (by simp [hne])

/-- Elements with different keys have one order only. -/
theorem AscOrder.filter_sort
    (o : AscOrder key)
    (p : α → Bool)
    (hsorted : (l.filter p).Pairwise (fun x y => key x ≤ key y))
    (hkeys : ∀ x ∈ l.filter p, ∀ y ∈ l.filter p, key x = key y → x = y) :
    (o.sort l).filter p = l.filter p := by
  have hperm : ((o.sort l).filter p).Perm (l.filter p) := (o.perm l).filter p
  refine List.Perm.eq_of_pairwise ?_ ((o.sorted l).filter p) hsorted hperm
  intro x y hx hy hxy hyx
  exact hkeys x (hperm.mem_iff.mp hx) y hy (le_antisymm hxy hyx)

/-- Ordered elements are left as they are by every sort when their keys are different. -/
theorem filter_sort_eq_iff
    [DecidableEq α]
    (p : α → Bool)
    (hsorted : (l.filter p).Pairwise (fun x y => key x ≤ key y)) :
    (∀ o : AscOrder key, (o.sort l).filter p = l.filter p)
      ↔
    ∀ x ∈ l.filter p, ∀ y ∈ l.filter p, key x = key y → x = y := by
  constructor
  · intro h x hx y hy hkey
    by_contra hne
    -- whichever of the two comes first, one of two sorts moves it behind the other
    have hxy : (l.filter p).Pairwise (fun z z' => ¬ (z = x ∧ z' = y)) := by
      rw [← h (AscOrder.last key x)]
      exact (AscOrder.not_last_lt hkey (Ne.symm hne)).filter p
    have hyx : (l.filter p).Pairwise (fun z z' => ¬ (z = y ∧ z' = x)) := by
      rw [← h (AscOrder.last key y)]
      exact (AscOrder.not_last_lt hkey.symm hne).filter p
    have hsymm : Std.Symm fun z z' => ¬ (z = x ∧ z' = y) ∧ ¬ (z = y ∧ z' = x) :=
      ⟨fun z z' h => ⟨fun hc => h.2 ⟨hc.2, hc.1⟩, fun hc => h.1 ⟨hc.2, hc.1⟩⟩⟩
    exact ((hxy.and hyx).forall hx hy hne).1 ⟨rfl, rfl⟩
  · intro hkeys o
    exact o.filter_sort p hsorted hkeys

/-- Without the later elements the first ones are left. -/
theorem filter_not_mem_drop
    [DecidableEq α]
    (hl : l.Nodup)
    (n : Nat) :
    l.filter (fun x => decide (x ∉ l.drop n)) = l.take n := by
  have hdisjoint : ∀ x ∈ l.take n, x ∉ l.drop n := by
    rw [← List.take_append_drop n l] at hl
    exact fun x hx hx' => (List.nodup_append.mp hl).2.2 x hx x hx' rfl
  calc l.filter (fun x => decide (x ∉ l.drop n))
      = (l.take n).filter (fun x => decide (x ∉ l.drop n)) ++
          (l.drop n).filter (fun x => decide (x ∉ l.drop n)) := by
        rw [← List.filter_append, List.take_append_drop]
    _ = l.take n ++ [] := by
        congr 1
        · exact List.filter_eq_self.mpr fun x hx => decide_eq_true (hdisjoint x hx)
        · exact List.filter_eq_nil_iff.mpr fun x hx => by simp [hx]
    _ = l.take n :=
        List.append_nil _

end Sorting

end Library
end CoopMessenger
