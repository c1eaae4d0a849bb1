import CoopMessenger.Library.Table

/-!
# Registries of shared objects

A registry maps keys to objects that are handed out by reference.  An object
lives on at its address when its key is removed, and a later creation under the
same key makes a new object at a new address.  The structure carries the proof
that a mapped address holds an object of that key.

**Results.**
* `get_of_lookup`: what a lookup returns.
* `lookup_create`, `lookup_remove`, `lookup_update`: the map after each operation.
* `get_create`, `get_remove`, `get_update`: the objects after each operation.
-/

namespace CoopMessenger
namespace Library

universe u v

/-- Objects at their addresses, and the addresses that are current for a key. -/
structure Registry
    {ρ : Type u} {κ : Type v}
    (key : ρ → κ) where
  heap : List ρ
  addresses : Table (Prod.fst : κ × Nat → κ)
  valid : ∀ p ∈ addresses.rows, (heap[p.2]?).map key = some p.1

namespace Registry

variable {ρ : Type u}
variable {κ : Type v}
variable {key : ρ → κ}

/-- The registry without objects. -/
def empty : Registry key where
  heap := []
  addresses := .empty
  valid := by simp [Table.empty]

/-- The object at an address. -/
def get
    (R : Registry key)
    (o : Nat) : Option ρ :=
  R.heap[o]?

/-- Change the object at an address, but not its key. -/
def update
    (R : Registry key)
    (o : Nat)
    (f : ρ → ρ)
    (hf : ∀ r, key (f r) = key r) : Registry key where
  heap := R.heap.modify o f
  addresses := R.addresses
  valid := by
    intro p hp
    have h := R.valid p hp
    rw [List.getElem?_modify]
    cases hget : R.heap[p.2]? with
    | none =>
        simp [hget] at h
    | some r =>
        rw [hget] at h
        by_cases hop : o = p.2
        · simpa [hop, hf r] using h
        · simpa [hop] using h

@[simp] theorem get_update
    (R : Registry key) (o : Nat) (f : ρ → ρ)
    (hf : ∀ r, key (f r) = key r) (p : Nat) :
    (R.update o f hf).get p = if o = p then (R.get p).map f else R.get p := by
  simp only [get, update, List.getElem?_modify]
  cases R.heap[p]? with
  | none =>
      simp
  | some r =>
      split <;> simp

section Keyed

variable [DecidableEq κ]

/-- The address that is current for a key. -/
def lookup
    (R : Registry key)
    (k : κ) : Option Nat :=
  (R.addresses.find? k).map Prod.snd

/-- A current address holds an object of its key. -/
theorem get_of_lookup
    {R : Registry key} {k : κ} {o : Nat}
    (h : R.lookup k = some o) :
    ∃ r, R.get o = some r ∧ key r = k := by
  obtain ⟨⟨k', o'⟩, hfind, ho⟩ := Option.map_eq_some_iff.mp h
  obtain ⟨hmem, hkey⟩ := Table.find?_eq_some_iff.mp hfind
  dsimp only at ho hkey
  subst ho
  subst hkey
  exact Option.map_eq_some_iff.mp (R.valid _ hmem)

theorem lookup_lt
    {R : Registry key} {k : κ} {o : Nat}
    (h : R.lookup k = some o) :
    o < R.heap.length := by
  obtain ⟨r, hr, -⟩ := get_of_lookup h
  exact (List.getElem?_eq_some_iff.mp hr).1

/-- No address is current for two keys. -/
theorem key_eq_of_lookup
    {R : Registry key} {k : κ} {o : Nat} {r : ρ}
    (h : R.lookup k = some o)
    (hr : R.get o = some r) :
    key r = k := by
  obtain ⟨r', hr', hkey⟩ := get_of_lookup h
  rw [hr] at hr'
  rw [Option.some.inj hr', hkey]

@[simp] theorem lookup_update
    (R : Registry key) (o : Nat) (f : ρ → ρ)
    (hf : ∀ r, key (f r) = key r) (k : κ) :
    (R.update o f hf).lookup k = R.lookup k := by
  rfl

/-- Create an object and make it current, unless its key has one. -/
def create
    (R : Registry key)
    (r : ρ) : Registry key :=
  match h : R.addresses.insert? (key r, R.heap.length) with
  | none => R
  | some addresses =>
      { heap := R.heap ++ [r]
        addresses
        valid := by
          intro p hp
          rw [(Table.insert?_eq_some_iff.mp h).2, List.mem_append,
            List.mem_singleton] at hp
          rcases hp with hp | rfl
          · have hold := R.valid p hp
            cases hget : R.heap[p.2]? with
            | none =>
                simp [hget] at hold
            | some r' =>
                have hlt := (List.getElem?_eq_some_iff.mp hget).1
                rw [List.getElem?_append_left hlt]
                exact hold
          · simp }

/-- Creation under a free key. -/
theorem create_eq
    {R : Registry key} {r : ρ}
    (h : R.lookup (key r) = none) :
    ∃ addresses,
      R.addresses.insert? (key r, R.heap.length) = some addresses ∧
      (R.create r).heap = R.heap ++ [r] ∧
      (R.create r).addresses = addresses := by
  have hfree : R.addresses.find? (key r) = none := by
    simpa [lookup] using h
  cases hins : R.addresses.insert? (key r, R.heap.length) with
  | none =>
      obtain ⟨s, hs, hkey⟩ := Table.insert?_eq_none_iff.mp hins
      exact absurd hkey (Table.find?_eq_none_iff.mp hfree s hs)
  | some addresses =>
      refine ⟨addresses, rfl, ?_⟩
      unfold create
      split
      · rename_i hnone
        rw [hins] at hnone
        cases hnone
      · rename_i U hU
        rw [hins] at hU
        cases hU
        exact ⟨rfl, rfl⟩

theorem lookup_create
    {R : Registry key} {r : ρ}
    (h : R.lookup (key r) = none)
    (k : κ) :
    (R.create r).lookup k =
      if k = key r then some R.heap.length else R.lookup k := by
  obtain ⟨addresses, hins, -, haddr⟩ := create_eq h
  rw [lookup, haddr, Table.find?_insert? hins]
  split <;> rfl

theorem get_create
    {R : Registry key} {r : ρ}
    (h : R.lookup (key r) = none)
    (o : Nat) :
    (R.create r).get o = if o = R.heap.length then some r else R.get o := by
  obtain ⟨addresses, -, hheap, -⟩ := create_eq h
  rw [get, hheap]
  split
  case isTrue ho =>
    subst ho
    simp
  case isFalse ho =>
    rw [List.getElem?_append]
    split
    · rfl
    · rename_i hge
      have hlt : R.heap.length < o := by omega
      rw [get, List.getElem?_eq_none (by simp; omega),
        List.getElem?_eq_none (by omega)]

/-- Make no object current for the key. -/
def remove
    (R : Registry key)
    (k : κ) : Registry key where
  heap := R.heap
  addresses := R.addresses.delete (fun p => decide (p.1 = k))
  valid := by
    intro p hp
    exact R.valid p (List.mem_of_mem_filter hp)

theorem lookup_remove
    (R : Registry key) (k k' : κ) :
    (R.remove k).lookup k' = if k' = k then none else R.lookup k' := by
  rw [lookup, remove,
    Table.find?_delete (q := fun k' => decide (k' = k)) (fun _ => rfl)]
  by_cases h : k' = k <;> simp [h, lookup]

@[simp] theorem get_remove
    (R : Registry key) (k : κ) (o : Nat) :
    (R.remove k).get o = R.get o := by
  rfl

end Keyed

end Registry

end Library
end CoopMessenger
