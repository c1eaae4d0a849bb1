import CoopMessenger.Library.Table
import Mathlib.Data.List.Induction

/-!
# Tables with slots

Rows are stored under keys, and each row is in a slot, like the versions of a document
under the ID of the document.  Writers empty slots, and add or replace rows.

**Results.**
* `lastWhere_append_singleton`: the last element with a property, after one more.
* `mem_foldl_put_iff`: the rows after some were put, no two of them under one key.
-/

namespace CoopMessenger
namespace Library

universe u v w

section Last

variable {α : Type u}

/-- The last element with the property. -/
def lastWhere
    (p : α → Bool)
    (l : List α) : Option α :=
  l.reverse.find? p

@[simp] theorem lastWhere_nil
    (p : α → Bool) :
    lastWhere p [] = none :=
  rfl

theorem lastWhere_append_singleton
    (p : α → Bool)
    (l : List α)
    (a : α) :
    lastWhere p (l ++ [a]) = if p a then some a else lastWhere p l := by
  unfold lastWhere
  rw [List.reverse_append, List.reverse_singleton, List.singleton_append, List.find?_cons]
  cases p a <;> rfl

theorem lastWhere_spec
    {p : α → Bool} {l : List α} {a : α}
    (h : lastWhere p l = some a) :
    a ∈ l ∧ p a = true :=
  ⟨List.mem_reverse.mp (List.mem_of_find?_eq_some h), List.find?_some h⟩

end Last

namespace Table

variable {ρ : Type u} {κ : Type v} {σ : Type w}
variable {key : ρ → κ}

/-- Empties a slot. -/
def deleteSlot
    [DecidableEq σ]
    (slot : ρ → σ)
    (T : Table key)
    (s : σ) : Table key :=
  T.delete fun r => slot r = s

theorem mem_deleteSlot_iff
    [DecidableEq σ]
    {slot : ρ → σ} {T : Table key} {s : σ} {r : ρ} :
    r ∈ T.deleteSlot slot s ↔ r ∈ T ∧ slot r ≠ s := by
  simp [deleteSlot]

theorem mem_foldl_deleteSlot_iff
    [DecidableEq σ]
    {slot : ρ → σ} {T : Table key} {ss : List σ} {r : ρ} :
    r ∈ ss.foldl (deleteSlot slot) T ↔ r ∈ T ∧ slot r ∉ ss := by
  induction ss generalizing T with
  | nil =>
      simp
  | cons s ss ih =>
      rw [List.foldl_cons, ih, mem_deleteSlot_iff, List.mem_cons, not_or, and_assoc]

variable [DecidableEq κ]

/-- Adds a row, or replaces the one under its key. -/
def put
    (T : Table key)
    (r : ρ) : Table key :=
  T.upsert r (fun s => if key s = key r then r else s)
    (by intro _; split <;> simp_all)

theorem mem_put_iff
    {T : Table key} {r s : ρ} :
    s ∈ T.put r ↔ s = r ∨ (s ∈ T ∧ key s ≠ key r) :=
  mem_upsert_iff _ fun _ hs => if_pos hs

/-- A row that is replaced stays at its place. -/
theorem keys_put_of_mem
    {T : Table key} {r : ρ}
    (h : key r ∈ T.rows.map key) :
    (T.put r).rows.map key = T.rows.map key := by
  obtain ⟨s, hs, hkey⟩ := List.mem_map.mp h
  have hnone : T.insert? r = none := insert?_eq_none_iff.mpr ⟨s, hs, hkey⟩
  rw [put, upsert, hnone]
  show (T.rows.map _).map key = T.rows.map key
  rw [List.map_map]
  refine List.map_congr_left fun t _ => ?_
  show key (if key t = key r then if key t = key r then r else t else t) = key t
  split
  · next hkey' =>
      exact hkey'.symm
  · rfl

/-- A new row comes last. -/
theorem keys_put_of_not_mem
    {T : Table key} {r : ρ}
    (h : key r ∉ T.rows.map key) :
    (T.put r).rows.map key = T.rows.map key ++ [key r] := by
  unfold put upsert
  split
  case h_1 U hU =>
    obtain ⟨-, hrows⟩ := insert?_eq_some_iff.mp hU
    rw [hrows, List.map_append, List.map_singleton]
  case h_2 hnone =>
    obtain ⟨s, hs, hkey⟩ := insert?_eq_none_iff.mp hnone
    exact absurd (List.mem_map.mpr ⟨s, hs, hkey⟩) h

theorem mem_foldl_put_iff
    {T : Table key} {rs : List ρ} {s : ρ}
    (hrs : (rs.map key).Nodup) :
    s ∈ rs.foldl put T ↔ s ∈ rs ∨ (s ∈ T ∧ key s ∉ rs.map key) := by
  induction rs generalizing T with
  | nil =>
      simp
  | cons r rs ih =>
      obtain ⟨hr, hrs⟩ := List.nodup_cons.mp hrs
      rw [List.foldl_cons, ih hrs, mem_put_iff, List.mem_cons, List.map_cons, List.mem_cons,
        not_or]
      constructor
      · rintro (hs | ⟨rfl | ⟨hs, hne⟩, hnot⟩)
        · exact Or.inl (Or.inr hs)
        · exact Or.inl (Or.inl rfl)
        · exact Or.inr ⟨hs, hne, hnot⟩
      · rintro ((rfl | hs) | ⟨hs, hne, hnot⟩)
        · exact Or.inr ⟨Or.inl rfl, hr⟩
        · exact Or.inl hs
        · exact Or.inr ⟨Or.inr ⟨hs, hne⟩, hnot⟩

end Table

end Library
end CoopMessenger
