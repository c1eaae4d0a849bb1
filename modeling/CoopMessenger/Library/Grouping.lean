import CoopMessenger.Library.Ranking
import Mathlib.Data.List.Induction

/-!
# Grouping rows in a map

A loop that collects rows in a map: the row is added to what is under its key, or starts a
new entry.  The entries stand in the order in which their keys first occur.

**Results.**
* `valueAt_collect`: under a key is what the rows with this key add up to.
* `mem_keys_collect`, `nodup_collect`: the keys of the map.
* `total_alter`: the loop in a loop.
-/

namespace CoopMessenger
namespace Library

universe u v w

section Maps

variable {κ : Type u} {β : Type v} {α : Type w}
variable [DecidableEq κ]

/-- What is under a key. -/
def valueAt
    (k : κ)
    (d : List (κ × β)) : Option β :=
  (d.find? (fun p => decide (p.1 = k))).map Prod.snd

/-- The entry of a key is replaced, or a first one is appended. -/
def alter
    (k : κ)
    (f : Option β → β) : List (κ × β) → List (κ × β)
  | [] => [(k, f none)]
  | p :: d => if p.1 = k then (k, f (some p.2)) :: d else p :: alter k f d

/-- A loop over rows that collects them in a map. -/
def collect
    (key : α → κ)
    (add : α → Option β → β)
    (rows : List α) : List (κ × β) :=
  rows.foldl (fun d x => alter (key x) (add x) d) []

/-- What rows with one key add up to. -/
def total
    (add : α → Option β → β)
    (rows : List α) : Option β :=
  rows.foldl (fun o x => some (add x o)) none

variable {k : κ} {f : Option β → β} {d : List (κ × β)}

@[simp] theorem valueAt_nil :
    valueAt k ([] : List (κ × β)) = none := by
  rfl

@[simp] theorem valueAt_cons
    (p : κ × β) :
    valueAt k (p :: d) = if p.1 = k then some p.2 else valueAt k d := by
  rw [valueAt, List.find?_cons]
  split
  case h_1 h =>
    rw [if_pos (of_decide_eq_true h)]
    rfl
  case h_2 h =>
    rw [if_neg (of_decide_eq_false h), valueAt]

/-- What is under a key after a change of one entry. -/
theorem valueAt_alter
    (j : κ) :
    valueAt j (alter k f d) = if j = k then some (f (valueAt k d)) else valueAt j d := by
  induction d with
  | nil =>
      simp [alter, eq_comm]
  | cons p d ih =>
      rw [alter]
      by_cases hp : p.1 = k
      · by_cases hj : j = k
        · simp [hp, hj]
        · simp [hp, hj, Ne.symm hj]
      · rw [if_neg hp, valueAt_cons, ih]
        by_cases hj : j = k
        · subst hj
          rw [if_neg hp, if_pos rfl, if_pos rfl, valueAt_cons, if_neg hp]
        · rw [if_neg hj, if_neg hj, valueAt_cons]

theorem mem_keys_alter
    {j : κ} :
    j ∈ (alter k f d).map Prod.fst ↔ j = k ∨ j ∈ d.map Prod.fst := by
  induction d with
  | nil =>
      simp [alter]
  | cons p d ih =>
      rw [alter]
      split
      case isTrue hp =>
        simp [hp]
      case isFalse hp =>
        rw [List.map_cons, List.mem_cons, ih, List.map_cons, List.mem_cons]
        tauto

theorem nodup_alter
    (h : (d.map Prod.fst).Nodup) :
    ((alter k f d).map Prod.fst).Nodup := by
  induction d with
  | nil =>
      exact List.nodup_singleton k
  | cons p d ih =>
      rw [List.map_cons, List.nodup_cons] at h
      rw [alter]
      split
      case isTrue hp =>
        rw [List.map_cons, List.nodup_cons]
        exact hp ▸ h
      case isFalse hp =>
        rw [List.map_cons, List.nodup_cons, mem_keys_alter]
        exact ⟨fun hor => hor.elim hp h.1, ih h.2⟩

/-- In a map, an entry is what is under its key. -/
theorem mem_iff_valueAt
    (h : (d.map Prod.fst).Nodup)
    {b : β} :
    (k, b) ∈ d ↔ valueAt k d = some b := by
  induction d with
  | nil =>
      simp
  | cons p d ih =>
      obtain ⟨j, c⟩ := p
      rw [List.map_cons, List.nodup_cons] at h
      rw [List.mem_cons, ih h.2, valueAt_cons]
      split
      case isTrue hj =>
        subst hj
        have hnone : valueAt j d ≠ some b := fun hsome =>
          h.1 (List.mem_map.mpr ⟨(j, b), (ih h.2).mpr hsome, rfl⟩)
        simp [hnone, eq_comm]
      case isFalse hj =>
        simp [Ne.symm hj]

variable {key : α → κ} {add : α → Option β → β} {rows : List α}

theorem collect_append_singleton
    (x : α) :
    collect key add (rows ++ [x]) = alter (key x) (add x) (collect key add rows) := by
  rw [collect, List.foldl_append]
  rfl

theorem total_append_singleton
    (x : α) :
    total add (rows ++ [x]) = some (add x (total add rows)) := by
  rw [total, List.foldl_append]
  rfl

@[simp] theorem total_eq_none_iff :
    total add rows = none ↔ rows = [] := by
  induction rows using List.reverseRecOn with
  | nil =>
      simp [total]
  | append_singleton rows x _ =>
      simp [total_append_singleton]

/-- Under a key is what the rows with this key add up to. -/
theorem valueAt_collect
    (k : κ) :
    valueAt k (collect key add rows) =
      total add (rows.filter (fun x => decide (key x = k))) := by
  induction rows using List.reverseRecOn with
  | nil =>
      rfl
  | append_singleton rows x ih =>
      rw [collect_append_singleton, valueAt_alter, List.filter_append]
      by_cases hk : key x = k
      · subst hk
        rw [if_pos rfl, List.filter_singleton, decide_eq_true rfl, cond_true,
          total_append_singleton, ih]
      · rw [if_neg (Ne.symm hk), List.filter_singleton, decide_eq_false hk, cond_false,
          List.append_nil, ih]

theorem nodup_collect :
    ((collect key add rows).map Prod.fst).Nodup := by
  induction rows using List.reverseRecOn with
  | nil =>
      exact List.nodup_nil
  | append_singleton rows x ih =>
      rw [collect_append_singleton]
      exact nodup_alter ih

/-- The entries of the map. -/
theorem mem_collect_iff
    {b : β} :
    (k, b) ∈ collect key add rows ↔
      total add (rows.filter (fun x => decide (key x = k))) = some b := by
  rw [mem_iff_valueAt nodup_collect, valueAt_collect]

theorem mem_keys_collect
    (k : κ) :
    k ∈ (collect key add rows).map Prod.fst ↔ ∃ x ∈ rows, key x = k := by
  induction rows using List.reverseRecOn with
  | nil =>
      simp [collect]
  | append_singleton rows x ih =>
      rw [collect_append_singleton, mem_keys_alter, ih]
      simp only [List.mem_append, List.mem_singleton, or_and_right, exists_or,
        exists_eq_left]
      rw [or_comm, eq_comm]

/-- Rows that are collected in a map that is itself under a key. -/
theorem total_alter
    (hrows : rows ≠ []) :
    total (fun x o => alter (key x) (add x) (o.getD [])) rows =
      some (collect key add rows) := by
  induction rows using List.reverseRecOn with
  | nil =>
      exact absurd rfl hrows
  | append_singleton rows x ih =>
      rw [total_append_singleton, collect_append_singleton]
      by_cases hnil : rows = []
      · subst hnil
        rfl
      · rw [ih hnil]
        rfl

end Maps

section Orders

variable {α : Type u} {β : Type v}
variable [LinearOrder β]
variable {key : α → β}

/-- A key that is the same for all rows does not matter. -/
theorem orderBy_prod
    {γ : Type v} [LinearOrder γ]
    {first : α → γ} {rows : List α}
    (h : ∀ x ∈ rows, ∀ y ∈ rows, first x = first y) :
    orderBy (fun x => toLex (first x, key x)) rows = orderBy key rows := by
  have hle : ∀ x ∈ rows, ∀ y ∈ rows,
      (toLex (first x, key x) ≤ toLex (first y, key y) ↔ key x ≤ key y) := by
    intro x hx y hy
    rw [Prod.Lex.toLex_le_toLex, h x hx y hy]
    simp
  have hmap := List.map_insertionSort
    (fun x y => toLex (first x, key x) ≤ toLex (first y, key y))
    (fun x y => key x ≤ key y) id rows hle
  rwa [List.map_id, List.map_id] at hmap

/-- Different elements are at most one just if they are all the same. -/
theorem length_le_one_iff
    {l : List α}
    (hl : l.Nodup) :
    l.length ≤ 1 ↔ ∀ a ∈ l, ∀ b ∈ l, a = b := by
  cases l with
  | nil =>
      simp
  | cons a l =>
      cases l with
      | nil =>
          simp
      | cons b l =>
          rw [List.nodup_cons] at hl
          refine iff_of_false (by simp) fun hsame => hl.1 ?_
          rw [hsame a List.mem_cons_self b (List.mem_cons_of_mem a List.mem_cons_self)]
          exact List.mem_cons_self

/-- At most one element has the same order from both ends. -/
theorem length_le_one_of_reverse
    {l : List α}
    (hl : l.Nodup)
    (h : l.reverse = l) :
    l.length ≤ 1 := by
  cases l with
  | nil =>
      exact Nat.zero_le 1
  | cons a l =>
      cases hlast : l.getLast? with
      | none =>
          rw [List.getLast?_eq_none_iff.mp hlast]
          exact le_rfl
      | some b =>
          have hhead : (a :: l).reverse.head? = some b := by
            rw [List.head?_reverse, List.getLast?_cons, hlast, Option.getD_some]
          rw [h, List.head?_cons, Option.some.injEq] at hhead
          subst hhead
          exact absurd (List.mem_of_getLast? hlast) (List.nodup_cons.mp hl).1

/-- At most one element has one order only. -/
theorem eq_of_perm_of_length_le_one
    {l l' : List α}
    (h : l'.Perm l)
    (hl : l.length ≤ 1) :
    l' = l := by
  cases l with
  | nil =>
      exact h.eq_nil
  | cons a l =>
      cases l with
      | nil =>
          exact List.perm_singleton.mp h
      | cons b l =>
          simp at hl

end Orders

end Library
end CoopMessenger
