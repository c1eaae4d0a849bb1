import CoopMessenger.Library.Grouping
import Mathlib.Data.List.Forall2
import Mathlib.Data.List.Perm.Basic

/-!
# Settings that are read line by line

Every line is read on its own, the first one that cannot be read ends the loop, and what
the lines say is collected in a map of lists.

**Results.**
* `mapM_eq_ok_iff`, `mapM_eq_error_iff`: what a loop over the lines returns.
* `perm_entries_collectLists`: the map holds what the lines say, and nothing else.
-/

namespace CoopMessenger
namespace Library

universe u v w

section Loops

variable {α : Type u} {β ε : Type v}
variable {f : α → Except ε β}
variable {lines : List α}

/-- All lines are read. -/
theorem mapM_eq_ok_iff
    {values : List β} :
    lines.mapM f = .ok values ↔
      List.Forall₂ (fun line value => f line = .ok value) lines values := by
  induction lines generalizing values with
  | nil =>
      rw [List.mapM_nil, List.forall₂_nil_left_iff]
      exact ⟨fun h => (Except.ok.inj h).symm, fun h => by rw [h]; rfl⟩
  | cons line lines ih =>
      rw [List.mapM_cons, List.forall₂_cons_left_iff]
      cases hline : f line with
      | error e =>
          refine ⟨nofun, ?_⟩
          rintro ⟨value, rest, hvalue, -⟩
          cases hvalue
      | ok value =>
          change (lines.mapM f).bind (fun rest => Except.ok (value :: rest)) = _ ↔ _
          cases hlines : lines.mapM f with
          | error e =>
              refine ⟨nofun, ?_⟩
              rintro ⟨value', rest, -, hrest, -⟩
              rw [ih.mpr hrest] at hlines
              cases hlines
          | ok rest =>
              constructor
              · intro h
                exact ⟨value, rest, rfl, ih.mp hlines, (Except.ok.inj h).symm⟩
              · rintro ⟨value', rest', hvalue, hrest, rfl⟩
                cases hvalue
                rw [ih.mpr hrest] at hlines
                cases hlines
                rfl

/-- The loop ends with the first line that cannot be read. -/
theorem mapM_eq_error_iff
    {e : ε} :
    lines.mapM f = .error e ↔
      ∃ before line after, lines = before ++ line :: after ∧
        (∃ values, before.mapM f = .ok values) ∧ f line = .error e := by
  constructor
  · induction lines with
    | nil =>
        exact nofun
    | cons line lines ih =>
        intro h
        rw [List.mapM_cons] at h
        cases hline : f line with
        | error e' =>
            rw [hline] at h
            cases h
            exact ⟨[], line, lines, rfl, ⟨[], rfl⟩, hline⟩
        | ok value =>
            rw [hline] at h
            change (lines.mapM f).bind (fun rest => Except.ok (value :: rest)) = _ at h
            cases hlines : lines.mapM f with
            | ok rest =>
                rw [hlines] at h
                cases h
            | error e' =>
                rw [hlines] at h
                cases h
                obtain ⟨before, bad, after, rfl, ⟨values, hvalues⟩, hbad⟩ := ih hlines
                refine ⟨line :: before, bad, after, rfl, ⟨value :: values, ?_⟩, hbad⟩
                exact mapM_eq_ok_iff.mpr (.cons hline (mapM_eq_ok_iff.mp hvalues))
  · rintro ⟨before, line, after, rfl, ⟨values, hvalues⟩, hline⟩
    rw [List.mapM_append, hvalues, List.mapM_cons, hline]
    rfl

/-- What was read of the lines, in a way that does not need the loop. -/
theorem map_eq_of_mapM
    {γ : Type w} {values : List β} {g : β → γ} {g' : α → γ}
    (h : lines.mapM f = .ok values)
    (hg : ∀ line value, f line = .ok value → g value = g' line) :
    values.map g = lines.map g' := by
  have hall := mapM_eq_ok_iff.mp h
  clear h
  induction hall with
  | nil =>
      rfl
  | cons hline _ ih =>
      rw [List.map_cons, List.map_cons, ih, hg _ _ hline]

theorem forall_of_mapM
    {values : List β} {p : β → Prop}
    (h : lines.mapM f = .ok values)
    (hp : ∀ line value, f line = .ok value → p value) :
    ∀ value ∈ values, p value := by
  have hall := mapM_eq_ok_iff.mp h
  clear h
  induction hall with
  | nil =>
      exact nofun
  | cons hline _ ih =>
      exact List.forall_mem_cons.mpr ⟨hp _ _ hline, ih⟩

end Loops

section Maps

variable {κ : Type u} {β : Type v}
variable [DecidableEq κ]

/-- `m[key] = append(m[key], value)` for all entries. -/
def collectLists (entries : List (κ × β)) : List (κ × List β) :=
  collect Prod.fst (fun entry values => values.getD [] ++ [entry.2]) entries

/-- The entries of a map of lists. -/
def listEntries (m : List (κ × List β)) : List (κ × β) :=
  m.flatMap fun p => p.2.map fun value => (p.1, value)

theorem perm_listEntries_alter
    {m : List (κ × List β)} {k : κ} {value : β} :
    (listEntries (alter k (fun values => values.getD [] ++ [value]) m)).Perm
      (listEntries m ++ [(k, value)]) := by
  induction m with
  | nil =>
      exact List.Perm.refl _
  | cons p m ih =>
      rw [alter]
      split
      · next hp =>
          subst hp
          simp only [listEntries, List.flatMap_cons, Option.getD_some, List.map_append,
            List.map_cons, List.map_nil, List.append_assoc]
          exact List.Perm.append_left _ List.perm_append_comm
      · simp only [listEntries, List.flatMap_cons, List.append_assoc]
        exact List.Perm.append_left _ ih

/-- The map holds what the lines say, and nothing else. -/
theorem perm_entries_collectLists
    (entries : List (κ × β)) :
    (listEntries (collectLists entries)).Perm entries := by
  induction entries using List.reverseRecOn with
  | nil =>
      exact List.Perm.refl _
  | append_singleton entries entry ih =>
      rw [collectLists, collect_append_singleton]
      exact perm_listEntries_alter.trans (ih.append_right _)

theorem mem_keys_collectLists
    {entries : List (κ × β)} {p : κ × List β}
    (hp : p ∈ collectLists entries) :
    ∃ entry ∈ entries, entry.1 = p.1 :=
  (mem_keys_collect p.1).mp (List.mem_map_of_mem hp)

end Maps

end Library
end CoopMessenger
