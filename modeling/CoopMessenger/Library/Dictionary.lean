import Mathlib.Data.List.Sort
import Mathlib.Order.Basic

/-!
# Dictionaries

A dictionary is the list of its entries in the order of their keys, no two of
them under one key.  Writing an entry keeps the order and replaces the entry of
the key, so a dictionary is determined by its entries.

**Results.**
* `lookup_set_self`, `lookup_set_of_ne`: what is under a key after a write.
* `mem_set_iff`, `IsDict.set`: the entries after a write.
* `foldl_set_eq`: writing all entries of a dictionary, in any order and with
  repetitions, over some of them, gives the dictionary.
-/

namespace CoopMessenger
namespace Library

universe u v

variable {κ : Type u} {β : Type v}
variable [LinearOrder κ]

namespace Dictionary

/-- The keys are in order. -/
def IsDict (d : List (κ × β)) : Prop :=
  d.Pairwise (fun p q => p.1 < q.1)

instance decidableIsDict
    (d : List (κ × β)) :
    Decidable (IsDict d) :=
  inferInstanceAs (Decidable (d.Pairwise (fun p q => p.1 < q.1)))

/-- Writes one entry. -/
def set
    (k : κ)
    (b : β) :
    List (κ × β) → List (κ × β)
  | [] => [(k, b)]
  | p :: d =>
      if k < p.1 then
        (k, b) :: p :: d
      else if k = p.1 then
        (k, b) :: d
      else
        p :: set k b d

theorem lookup_set_self
    [BEq κ] [LawfulBEq κ]
    (k : κ)
    (b : β)
    (d : List (κ × β)) :
    (set k b d).lookup k = some b := by
  induction d with
  | nil =>
      exact List.lookup_cons_self
  | cons p d ih =>
      rw [set]
      split
      · exact List.lookup_cons_self
      · split
        · exact List.lookup_cons_self
        · next hne =>
            rw [List.lookup_cons, beq_false_of_ne hne]
            exact ih

theorem lookup_set_of_ne
    [BEq κ] [LawfulBEq κ]
    {j k : κ}
    (hne : j ≠ k)
    (b : β)
    (d : List (κ × β)) :
    (set k b d).lookup j = d.lookup j := by
  induction d with
  | nil =>
      rw [set, List.lookup_cons, beq_false_of_ne hne]
  | cons p d ih =>
      rw [set]
      split
      · rw [List.lookup_cons, beq_false_of_ne hne]
      · split
        · next heq =>
            rw [List.lookup_cons, List.lookup_cons, beq_false_of_ne hne,
              beq_false_of_ne (heq ▸ hne)]
        · rw [List.lookup_cons, List.lookup_cons, ih]

theorem mem_set_iff
    {d : List (κ × β)}
    (hd : IsDict d)
    {k : κ} {b : β} {p : κ × β} :
    p ∈ set k b d ↔ p = (k, b) ∨ (p ∈ d ∧ p.1 ≠ k) := by
  induction d with
  | nil =>
      simp [set]
  | cons q d ih =>
      obtain ⟨hq, hd⟩ := List.pairwise_cons.mp hd
      rw [set]
      split
      case isTrue hlt =>
        have hne : ∀ r ∈ q :: d, r.1 ≠ k := by
          intro r hr
          rcases List.mem_cons.mp hr with rfl | hr
          · exact hlt.ne'
          · exact (hlt.trans (hq r hr)).ne'
        rw [List.mem_cons]
        exact or_congr_right ⟨fun h => ⟨h, hne p h⟩, And.left⟩
      case isFalse hlt =>
        split
        case isTrue heq =>
          have hne : ∀ r ∈ d, r.1 ≠ k := fun r hr => heq ▸ (hq r hr).ne'
          rw [List.mem_cons, List.mem_cons]
          refine or_congr_right ⟨fun h => ⟨Or.inr h, hne p h⟩, ?_⟩
          rintro ⟨rfl | h, hk⟩
          · exact absurd heq.symm hk
          · exact h
        case isFalse hne =>
          rw [List.mem_cons, ih hd, List.mem_cons]
          constructor
          · rintro (rfl | h | ⟨h, hk⟩)
            · exact Or.inr ⟨Or.inl rfl, Ne.symm hne⟩
            · exact Or.inl h
            · exact Or.inr ⟨Or.inr h, hk⟩
          · rintro (h | ⟨h | h, hk⟩)
            · exact Or.inr (Or.inl h)
            · exact Or.inl h
            · exact Or.inr (Or.inr ⟨h, hk⟩)

theorem IsDict.set
    {d : List (κ × β)}
    (hd : IsDict d)
    (k : κ)
    (b : β) :
    IsDict (set k b d) := by
  induction d with
  | nil =>
      exact List.pairwise_singleton _ _
  | cons q d ih =>
      obtain ⟨hq, hd'⟩ := List.pairwise_cons.mp hd
      rw [Dictionary.set]
      split
      case isTrue hlt =>
        refine List.pairwise_cons.mpr ⟨fun r hr => ?_, hd⟩
        rcases List.mem_cons.mp hr with rfl | hr
        · exact hlt
        · exact hlt.trans (hq r hr)
      case isFalse hlt =>
        split
        case isTrue heq =>
          exact List.pairwise_cons.mpr ⟨fun r hr => heq ▸ hq r hr, hd'⟩
        case isFalse hne =>
          refine List.pairwise_cons.mpr ⟨fun r hr => ?_, ih hd'⟩
          rcases (mem_set_iff hd').mp hr with rfl | ⟨hr, -⟩
          · exact lt_of_le_of_ne (not_lt.mp hlt) (Ne.symm hne)
          · exact hq r hr

theorem IsDict.nodup_keys
    {d : List (κ × β)}
    (hd : IsDict d) :
    (d.map Prod.fst).Nodup :=
  List.pairwise_map.mpr (hd.imp fun hlt => hlt.ne)

/-- Two entries under one key are the same entry. -/
theorem IsDict.eq_of_key_eq
    {d : List (κ × β)}
    (hd : IsDict d)
    {p q : κ × β}
    (hp : p ∈ d) (hq : q ∈ d)
    (h : p.1 = q.1) :
    p = q :=
  List.inj_on_of_nodup_map hd.nodup_keys hp hq h

/-- A dictionary is determined by its entries. -/
theorem IsDict.ext
    {d d' : List (κ × β)}
    (hd : IsDict d)
    (hd' : IsDict d')
    (h : ∀ p, p ∈ d ↔ p ∈ d') :
    d = d' := by
  have hperm : d.Perm d' :=
    (List.perm_ext_iff_of_nodup hd.nodup_keys.of_map
      hd'.nodup_keys.of_map).mpr h
  exact hperm.eq_of_pairwise
    (fun p q _ _ hlt hgt => absurd hlt hgt.not_gt) hd hd'

/-- Writing all entries of a dictionary over some of them gives the dictionary. -/
theorem foldl_set_eq
    {d entries start : List (κ × β)}
    (hd : IsDict d)
    (hstart : IsDict start)
    (hsome : ∀ p ∈ start, p ∈ d)
    (hentries : ∀ p ∈ entries, p ∈ d)
    (hall : ∀ p ∈ d, p ∈ start ∨ p ∈ entries) :
    entries.foldl (fun e p => set p.1 p.2 e) start = d := by
  induction entries generalizing start with
  | nil =>
      exact hstart.ext hd fun p => ⟨hsome p, fun hp => by simpa using hall p hp⟩
  | cons q entries ih =>
      have hq : q ∈ d := hentries q List.mem_cons_self
      refine ih (hstart.set q.1 q.2) ?_
        (fun p hp => hentries p (List.mem_cons_of_mem q hp)) ?_
      · intro p hp
        rcases (mem_set_iff hstart).mp hp with rfl | ⟨hp, -⟩
        · exact hq
        · exact hsome p hp
      · intro p hp
        rw [mem_set_iff hstart]
        by_cases hk : p.1 = q.1
        · exact Or.inl (Or.inl (hd.eq_of_key_eq hp hq hk))
        · rcases hall p hp with hp | hp
          · exact Or.inl (Or.inr ⟨hp, hk⟩)
          · rcases List.mem_cons.mp hp with rfl | hp
            · exact absurd rfl hk
            · exact Or.inr hp

end Dictionary

end Library
end CoopMessenger
