import Mathlib.Algebra.GroupWithZero.Nat
import Mathlib.Data.List.Nodup
import Mathlib.Data.List.Dedup

/-!
# Tables with a primary key

A table is the list of its rows in physical order, together with the proof that
no two rows share a key.  The statements a program issues against it become
operations that keep this proof: lookup by key, insert, insert-or-update,
update and delete.

**Results.**
* `find?_eq_some_iff`: a lookup returns exactly the row stored under the key.
* `mem_upsert_iff`, `mem_modify_iff`, `mem_delete_iff`: the rows after each write.
* `find?_insert?`, `find?_modify`, `find?_delete`: the lookups after each write.
* `insert?_eq_some_iff`: an insert succeeds exactly when the key is free.
-/

namespace CoopMessenger
namespace Library

universe u v

/-- A table: its rows, no two of them under one key. -/
@[ext] structure Table
    {ρ : Type u} {κ : Type v}
    (key : ρ → κ) where
  rows : List ρ
  nodup : (rows.map key).Nodup

namespace Table

variable {ρ : Type u}
variable {κ : Type v}
variable {key : ρ → κ}

instance : Membership ρ (Table key) where
  mem T r := r ∈ T.rows

theorem mem_def
    {T : Table key} {r : ρ} :
    r ∈ T ↔ r ∈ T.rows :=
  Iff.rfl

instance decidableMem
    {T : Table key} {r : ρ} [DecidableEq ρ] :
    Decidable (r ∈ T) :=
  inferInstanceAs (Decidable (r ∈ T.rows))

instance decidableForallMem
    {T : Table key} {p : ρ → Prop} [DecidablePred p] :
    Decidable (∀ r ∈ T, p r) :=
  inferInstanceAs (Decidable (∀ r ∈ T.rows, p r))

instance decidableExistsMem
    {T : Table key} {p : ρ → Prop} [DecidablePred p] :
    Decidable (∃ r ∈ T, p r) :=
  inferInstanceAs (Decidable (∃ r ∈ T.rows, p r))

/-- The table without rows. -/
def empty : Table key where
  rows := []
  nodup := List.nodup_nil

@[simp] theorem not_mem_empty
    (r : ρ) :
    r ∉ (empty : Table key) := by
  simp [mem_def, empty]

/-- Two rows under one key are the same row. -/
theorem eq_of_key_eq
    {T : Table key} {r s : ρ}
    (hr : r ∈ T) (hs : s ∈ T)
    (h : key r = key s) :
    r = s :=
  List.inj_on_of_nodup_map T.nodup hr hs h

/-- `DELETE`: drop the rows that satisfy `p`. -/
def delete
    (T : Table key)
    (p : ρ → Bool) :
    Table key where
  rows := T.rows.filter (fun r => !p r)
  nodup := T.nodup.sublist (List.filter_sublist.map key)

@[simp] theorem mem_delete_iff
    {T : Table key} {p : ρ → Bool} {r : ρ} :
    r ∈ T.delete p ↔ r ∈ T ∧ p r = false := by
  simp [mem_def, delete]

/-- `UPDATE`: rewrite every row by a function that keeps its key. -/
def modify
    (T : Table key)
    (f : ρ → ρ)
    (hf : ∀ r, key (f r) = key r) :
    Table key where
  rows := T.rows.map f
  nodup := by
    have hkey : key ∘ f = key := funext hf
    rw [List.map_map, hkey]
    exact T.nodup

@[simp] theorem mem_modify_iff
    {T : Table key} {f : ρ → ρ}
    (hf : ∀ r, key (f r) = key r)
    {r : ρ} :
    r ∈ T.modify f hf ↔ ∃ s ∈ T, f s = r := by
  simp [mem_def, modify]

section Keyed

variable [DecidableEq κ]

/-- `SELECT ... WHERE key = ?`. -/
def find?
    (T : Table key)
    (k : κ) : Option ρ :=
  T.rows.find? (fun r => decide (key r = k))

theorem find?_eq_some_iff
    {T : Table key} {k : κ} {r : ρ} :
    T.find? k = some r ↔ r ∈ T ∧ key r = k := by
  constructor
  · intro h
    exact ⟨List.mem_of_find?_eq_some h,
      by simpa using List.find?_some h⟩
  · rintro ⟨hr, rfl⟩
    cases h : T.find? (key r) with
    | none =>
        have := List.find?_eq_none.mp h r hr
        simp at this
    | some s =>
        have hs : s ∈ T := List.mem_of_find?_eq_some h
        have hkey : key s = key r := by
          simpa using List.find?_some h
        rw [eq_of_key_eq hs hr hkey]

theorem find?_eq_none_iff
    {T : Table key} {k : κ} :
    T.find? k = none ↔ ∀ r ∈ T, key r ≠ k := by
  simp [find?, mem_def]

/-- A key is stored exactly when its lookup succeeds. -/
theorem find?_isSome_iff
    {T : Table key} {k : κ} :
    (T.find? k).isSome ↔ ∃ r ∈ T, key r = k := by
  simp [Option.isSome_iff_exists, find?_eq_some_iff]

/-- `INSERT`: append the row, or `none` when its key is taken. -/
def insert?
    (T : Table key)
    (r : ρ) : Option (Table key) :=
  if h : key r ∈ T.rows.map key then
    none
  else
    some
      { rows := T.rows ++ [r]
        nodup := by
          rw [List.map_append, List.map_singleton]
          exact T.nodup.append (List.nodup_singleton _)
            (by simpa [List.Disjoint] using h) }

theorem insert?_eq_some_iff
    {T U : Table key} {r : ρ} :
    T.insert? r = some U
      ↔
    T.find? (key r) = none ∧ U.rows = T.rows ++ [r] := by
  rw [find?_eq_none_iff]
  unfold insert?
  split
  case isTrue h =>
    obtain ⟨s, hs, hkey⟩ := List.mem_map.mp h
    simp only [false_iff, not_and, reduceCtorEq]
    exact fun hfree => absurd hkey (hfree s hs)
  case isFalse h =>
    constructor
    · rintro ⟨⟩
      exact ⟨fun s hs hkey => h (List.mem_map.mpr ⟨s, hs, hkey⟩), rfl⟩
    · rintro ⟨-, hrows⟩
      exact congrArg some (Table.ext hrows.symm)

theorem insert?_eq_none_iff
    {T : Table key} {r : ρ} :
    T.insert? r = none ↔ ∃ s ∈ T, key s = key r := by
  simp [insert?, mem_def]

/-- The rows after an insert. -/
theorem mem_insert?_iff
    {T U : Table key} {r s : ρ}
    (h : T.insert? r = some U) :
    s ∈ U ↔ s ∈ T ∨ s = r := by
  rw [mem_def, (insert?_eq_some_iff.mp h).2, List.mem_append,
    List.mem_singleton, mem_def]

/-- The rows after an update of the row under one key. -/
theorem mem_modify_key_iff
    {T : Table key} {f : ρ → ρ} {r s : ρ} {k : κ}
    (hf : ∀ r, key (if key r = k then f r else r) = key r)
    (hr : r ∈ T)
    (hk : key r = k) :
    s ∈ T.modify (fun r => if key r = k then f r else r) hf
      ↔
    s = f r ∨ (s ∈ T ∧ key s ≠ k) := by
  rw [mem_modify_iff]
  constructor
  · rintro ⟨s, hs, rfl⟩
    by_cases hsk : key s = k
    · left
      rw [if_pos hsk, eq_of_key_eq hs hr (hsk.trans hk.symm)]
    · right
      rw [if_neg hsk]
      exact ⟨hs, hsk⟩
  · rintro (rfl | ⟨hs, hne⟩)
    · exact ⟨r, hr, if_pos hk⟩
    · exact ⟨s, hs, if_neg hne⟩

section Lookups

/-- A lookup after a delete that looks at the key alone. -/
theorem find?_delete
    {T : Table key} {p : ρ → Bool} {q : κ → Bool}
    (hp : ∀ r, p r = q (key r))
    (k : κ) :
    (T.delete p).find? k = if q k then none else T.find? k := by
  split
  case isTrue h =>
    rw [find?_eq_none_iff]
    rintro r hr rfl
    rw [mem_delete_iff, hp, h] at hr
    exact absurd hr.2 (by decide)
  case isFalse h =>
    apply Option.ext
    intro r
    rw [find?_eq_some_iff, find?_eq_some_iff, mem_delete_iff, hp]
    constructor
    · rintro ⟨⟨hr, -⟩, hkey⟩
      exact ⟨hr, hkey⟩
    · rintro ⟨hr, rfl⟩
      exact ⟨⟨hr, by simpa using h⟩, rfl⟩

/-- A lookup after an update. -/
theorem find?_modify
    {T : Table key} {f : ρ → ρ}
    (hf : ∀ r, key (f r) = key r)
    (k : κ) :
    (T.modify f hf).find? k = (T.find? k).map f := by
  apply Option.ext
  intro r
  simp only [find?_eq_some_iff, Option.map_eq_some_iff, mem_modify_iff]
  constructor
  · rintro ⟨⟨s, hs, rfl⟩, hkey⟩
    exact ⟨s, ⟨hs, (hf s).symm.trans hkey⟩, rfl⟩
  · rintro ⟨s, ⟨hs, hkey⟩, rfl⟩
    exact ⟨⟨s, hs, rfl⟩, (hf s).trans hkey⟩

/-- A lookup after an insert. -/
theorem find?_insert?
    {T U : Table key} {r : ρ}
    (h : T.insert? r = some U)
    (k : κ) :
    U.find? k = if k = key r then some r else T.find? k := by
  have hmem : ∀ s, s ∈ U ↔ s ∈ T ∨ s = r := fun s => mem_insert?_iff h
  split
  case isTrue hk =>
    rw [find?_eq_some_iff, hmem]
    exact ⟨Or.inr rfl, hk.symm⟩
  case isFalse hk =>
    apply Option.ext
    intro s
    rw [find?_eq_some_iff, find?_eq_some_iff, hmem]
    constructor
    · rintro ⟨hs | rfl, hkey⟩
      · exact ⟨hs, hkey⟩
      · exact absurd hkey.symm hk
    · rintro ⟨hs, hkey⟩
      exact ⟨Or.inl hs, hkey⟩

end Lookups

/-- `INSERT ... ON CONFLICT DO UPDATE`: the row under this key becomes
`merge` of the old one, and `r` is appended if there is none. -/
def upsert
    (T : Table key)
    (r : ρ)
    (merge : ρ → ρ)
    (hmerge : ∀ s, key (merge s) = key s) :
    Table key :=
  match T.insert? r with
  | some U => U
  | none =>
      T.modify (fun s => if key s = key r then merge s else s)
        (by intro s; split <;> simp [hmerge])

/-- The rows after an insert-or-update that overwrites every other column. -/
theorem mem_upsert_iff
    {T : Table key} {r s : ρ} {merge : ρ → ρ}
    (hmerge : ∀ s, key (merge s) = key s)
    (hall : ∀ s, key s = key r → merge s = r) :
    s ∈ T.upsert r merge hmerge
      ↔
    s = r ∨ (s ∈ T ∧ key s ≠ key r) := by
  unfold upsert
  split
  case h_1 U hU =>
    obtain ⟨hfree, hrows⟩ := insert?_eq_some_iff.mp hU
    rw [find?_eq_none_iff] at hfree
    rw [mem_def, hrows, List.mem_append, List.mem_singleton]
    constructor
    · rintro (hs | rfl)
      · exact Or.inr ⟨hs, hfree s hs⟩
      · exact Or.inl rfl
    · rintro (rfl | ⟨hs, -⟩)
      · exact Or.inr rfl
      · exact Or.inl hs
  case h_2 hnone =>
    obtain ⟨old, hold, hkey⟩ := insert?_eq_none_iff.mp hnone
    rw [mem_modify_iff]
    constructor
    · rintro ⟨s', hs', rfl⟩
      by_cases h : key s' = key r
      · left
        simp [h, hall s' h]
      · right
        simpa [h] using hs'
    · rintro (rfl | ⟨hs, hne⟩)
      · exact ⟨old, hold, by simp [hkey, hall old hkey]⟩
      · exact ⟨s, hs, by simp [hne]⟩

/-- The rows after such a write, up to their order. -/
theorem perm_upsert
    {T : Table key} {r : ρ} {merge : ρ → ρ}
    (hmerge : ∀ s, key (merge s) = key s)
    (hall : ∀ s, key s = key r → merge s = r) :
    (T.upsert r merge hmerge).rows.Perm
      (r :: T.rows.filter (fun s => decide (key s ≠ key r))) := by
  refine (List.perm_ext_iff_of_nodup ?_ ?_).mpr fun s => ?_
  · exact (T.upsert r merge hmerge).nodup.of_map
  · rw [List.nodup_cons]
    exact ⟨by simp, T.nodup.of_map.filter _⟩
  · rw [← mem_def, mem_upsert_iff hmerge hall]
    simp [mem_def]

/-- One row and the others. -/
theorem perm_of_mem
    {T : Table key} {r : ρ}
    (hr : r ∈ T) :
    T.rows.Perm (r :: T.rows.filter (fun s => decide (key s ≠ key r))) := by
  refine (List.perm_ext_iff_of_nodup ?_ ?_).mpr fun s => ?_
  · exact T.nodup.of_map
  · rw [List.nodup_cons]
    exact ⟨by simp, T.nodup.of_map.filter _⟩
  · rw [List.mem_cons, List.mem_filter, decide_eq_true_eq]
    constructor
    · intro hs
      by_cases hkey : key s = key r
      · exact Or.inl (eq_of_key_eq hs hr hkey)
      · exact Or.inr ⟨hs, hkey⟩
    · rintro (rfl | ⟨hs, -⟩)
      · exact hr
      · exact hs

/-- An update of one row leaves the others. -/
theorem others_modify_key
    {T : Table key} {f : ρ → ρ} {r : ρ} {k : κ}
    (hf : ∀ r, key (if key r = k then f r else r) = key r)
    (hk : key r = k) :
    (T.modify (fun r => if key r = k then f r else r) hf).rows.filter
        (fun s => decide (key s ≠ key (f r))) =
      T.rows.filter (fun s => decide (key s ≠ key r)) := by
  have hkey : key (f r) = key r := by
    have h := hf r
    rwa [if_pos hk] at h
  have hcond : (fun s => decide (key s ≠ k)) ∘
      (fun r => if key r = k then f r else r) =
        fun s => decide (key s ≠ k) := by
    funext s
    rw [Function.comp_apply, hf s]
  rw [hkey, hk, modify, List.filter_map, hcond]
  refine (List.map_congr_left fun s hs => ?_).trans (List.map_id _)
  rw [List.mem_filter, decide_eq_true_eq] at hs
  exact if_neg hs.2

/-- An update of one row changes a count by what it does to that row. -/
theorem countP_modify_key
    {T : Table key} {f : ρ → ρ} {r : ρ} {k : κ}
    (hf : ∀ r, key (if key r = k then f r else r) = key r)
    (hr : r ∈ T)
    (hk : key r = k)
    (p : ρ → Bool) :
    (T.modify (fun r => if key r = k then f r else r) hf).rows.countP p +
        (if p r then 1 else 0) =
      T.rows.countP p + (if p (f r) then 1 else 0) := by
  have hsame : f r ∈ T.modify (fun r => if key r = k then f r else r) hf :=
    (mem_modify_key_iff hf hr hk).mpr (Or.inl rfl)
  rw [(perm_of_mem hsame).countP_eq, (perm_of_mem hr).countP_eq,
    others_modify_key hf hk, List.countP_cons, List.countP_cons]
  omega

/-- An update of one row changes a sum by what it does to that row. -/
theorem sum_modify_key
    {T : Table key} {f : ρ → ρ} {r : ρ} {k : κ}
    (hf : ∀ r, key (if key r = k then f r else r) = key r)
    (hr : r ∈ T)
    (hk : key r = k)
    (g : ρ → Nat) :
    ((T.modify (fun r => if key r = k then f r else r) hf).rows.map g).sum + g r =
      (T.rows.map g).sum + g (f r) := by
  have hsame : f r ∈ T.modify (fun r => if key r = k then f r else r) hf :=
    (mem_modify_key_iff hf hr hk).mpr (Or.inl rfl)
  rw [((perm_of_mem hsame).map g).sum_nat, ((perm_of_mem hr).map g).sum_nat,
    others_modify_key hf hk, List.map_cons, List.map_cons, List.sum_cons,
    List.sum_cons]
  omega

/-- A deletion of one row takes its part from a sum. -/
theorem sum_delete_key
    {T : Table key} {r : ρ}
    (hr : r ∈ T)
    (g : ρ → Nat) :
    ((T.delete (fun s => decide (key s = key r))).rows.map g).sum + g r =
      (T.rows.map g).sum := by
  have hothers : (T.delete (fun s => decide (key s = key r))).rows =
      T.rows.filter (fun s => decide (key s ≠ key r)) := by
    refine List.filter_congr fun s _ => ?_
    by_cases h : key s = key r <;> simp [h]
  rw [((perm_of_mem hr).map g).sum_nat, hothers, List.map_cons, List.sum_cons]
  omega

/-- At most one row has a key. -/
theorem filter_key_eq
    {T : Table key}
    (k : κ) :
    T.rows.filter (fun r => decide (key r = k)) = (T.find? k).toList := by
  have hlist : ∀ l : List ρ, (l.map key).Nodup →
      l.filter (fun r => decide (key r = k)) =
        (l.find? (fun r => decide (key r = k))).toList := by
    intro l hl
    induction l with
    | nil =>
        rfl
    | cons r l ih =>
        rw [List.map_cons, List.nodup_cons] at hl
        by_cases hr : key r = k
        · have hrest : l.filter (fun r => decide (key r = k)) = [] := by
            rw [List.filter_eq_nil_iff]
            intro s hs
            rw [decide_eq_true_eq]
            intro hsk
            exact hl.1 (List.mem_map.mpr ⟨s, hs, hsk.trans hr.symm⟩)
          simp [hr, hrest]
        · simp [hr, ih hl.2]
  exact hlist T.rows T.nodup

/-- An insert-or-update under a free key is an insert. -/
theorem rows_upsert_of_free
    {T : Table key} {r : ρ} {merge : ρ → ρ}
    (hmerge : ∀ s, key (merge s) = key s)
    (hfree : T.find? (key r) = none) :
    (T.upsert r merge hmerge).rows = T.rows ++ [r] := by
  unfold upsert
  split
  case h_1 U hU =>
    exact (insert?_eq_some_iff.mp hU).2
  case h_2 hnone =>
    obtain ⟨s, hs, hkey⟩ := insert?_eq_none_iff.mp hnone
    exact absurd hkey (find?_eq_none_iff.mp hfree s hs)

/-- The keys stored after an insert-or-update. -/
theorem find?_upsert_isSome
    {T : Table key} {r : ρ} {merge : ρ → ρ}
    (hmerge : ∀ s, key (merge s) = key s)
    {k : κ} :
    ((T.upsert r merge hmerge).find? k).isSome
      ↔
    k = key r ∨ (T.find? k).isSome := by
  simp only [find?_isSome_iff]
  unfold upsert
  split
  case h_1 U hU =>
    obtain ⟨-, hrows⟩ := insert?_eq_some_iff.mp hU
    simp only [mem_def, hrows, List.mem_append, List.mem_singleton]
    constructor
    · rintro ⟨s, hs | rfl, rfl⟩
      · exact Or.inr ⟨s, hs, rfl⟩
      · exact Or.inl rfl
    · rintro (rfl | ⟨s, hs, rfl⟩)
      · exact ⟨r, Or.inr rfl, rfl⟩
      · exact ⟨s, Or.inl hs, rfl⟩
  case h_2 hnone =>
    obtain ⟨old, hold, hkey⟩ := insert?_eq_none_iff.mp hnone
    simp only [mem_modify_iff]
    constructor
    · rintro ⟨s, ⟨s', hs', rfl⟩, rfl⟩
      refine Or.inr ⟨s', hs', ?_⟩
      split <;> simp [hmerge]
    · rintro (rfl | ⟨s, hs, rfl⟩)
      · exact ⟨_, ⟨old, hold, rfl⟩, by split <;> simp [hmerge, hkey]⟩
      · exact ⟨_, ⟨s, hs, rfl⟩, by split <;> simp [hmerge]⟩

end Keyed

end Table

end Library
end CoopMessenger
