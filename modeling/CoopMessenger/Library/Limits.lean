import CoopMessenger.Library.Ranking

/-!
# Limited results

`SELECT ... ORDER BY key DESC LIMIT n` with rows that share a key.  The database may
return such rows in any order, so what is among the first `n` is described for every
order, and for each possible outcome an order is given that leads to it.

**Results.**
* `above_lt_of_mem_take`: before a row within the limit stand fewer than `n` above it.
* `le_ahead_of_mem_drop`: a row beyond the limit has `n` others that may stand before.
* `exists_order_drop`, `exists_order_take_drop`: these bounds are attained.
-/

namespace CoopMessenger
namespace Library

universe u v

section Limits

variable {α : Type u}
variable {β : Type v}
variable [LinearOrder β]

/-- A way to return rows by descending keys. -/
structure DescOrder (key : α → β) where
  sort : List α → List α
  perm : ∀ rows, (sort rows).Perm rows
  sorted : ∀ rows, (sort rows).Pairwise (fun x y => key y ≤ key x)

/-- Rows with equal keys keep their order. -/
def DescOrder.stable (key : α → β) : DescOrder key where
  sort := orderByDesc key
  perm := fun rows => List.perm_insertionSort _ rows
  sorted := fun _ => pairwise_orderByDesc

/-- Rows with equal keys are ordered by a number. -/
def DescOrder.ofTies
    (key : α → β)
    (tie : α → Nat) : DescOrder key where
  sort := orderByDesc (fun x => toLex (key x, OrderDual.toDual (tie x)))
  perm := fun rows => List.perm_insertionSort _ rows
  sorted := fun _ => pairwise_orderByDesc.imp fun h => by
    rcases Prod.Lex.le_iff.mp h with h | h
    · exact h.le
    · exact h.1.le

/-- How many rows stand before a row in every order. -/
def above
    (key : α → β)
    (rows : List α)
    (x : α) : Nat :=
  rows.countP (fun y => decide (key x < key y))

variable {key : α → β} {rows : List α} {x y : α} {n : Nat}

/-- Before a row within the limit stand fewer rows above it. -/
theorem above_lt_of_mem_take
    (o : DescOrder key)
    (hx : x ∈ (o.sort rows).take n) :
    above key rows x < n := by
  obtain ⟨before, after, htake⟩ := List.append_of_mem hx
  have hlength : before.length < n := by
    have := congrArg List.length htake
    simp only [List.length_take, List.length_append, List.length_cons] at this
    omega
  have hsplit : o.sort rows = before ++ x :: (after ++ (o.sort rows).drop n) := by
    conv_lhs => rw [← List.take_append_drop n (o.sort rows), htake]
    simp
  have hsorted := o.sorted rows
  rw [hsplit] at hsorted
  have hafter : ∀ z ∈ x :: (after ++ (o.sort rows).drop n), key z ≤ key x := by
    intro z hz
    rcases List.mem_cons.mp hz with rfl | hz
    · exact le_rfl
    · exact (List.pairwise_cons.mp (List.pairwise_append.mp hsorted).2.1).1 z hz
  have hzero : (x :: (after ++ (o.sort rows).drop n)).countP
      (fun z => decide (key x < key z)) = 0 :=
    List.countP_eq_zero.mpr fun z hz => by simpa using hafter z hz
  have hcount : above key rows x = before.countP (fun z => decide (key x < key z)) := by
    rw [above, ← (o.perm rows).countP_eq, hsplit, List.countP_append, hzero,
      Nat.add_zero]
  rw [hcount]
  exact lt_of_le_of_lt List.countP_le_length hlength

/-- What is within the limit does not rank below what is beyond it. -/
theorem key_le_of_mem_drop
    (o : DescOrder key)
    (hx : x ∈ (o.sort rows).drop n)
    (hy : y ∈ (o.sort rows).take n) :
    key x ≤ key y := by
  have hsorted := o.sorted rows
  rw [← List.take_append_drop n (o.sort rows)] at hsorted
  exact (List.pairwise_append.mp hsorted).2.2 y hy x hx

/-- A row that comes first among its ties has only the rows above before it. -/
theorem mem_take_ofTies
    {tie : α → Nat}
    (hnodup : rows.Nodup)
    (hy : y ∈ rows)
    (hfirst : ∀ z, z ≠ y → tie y < tie z)
    (hn : above key rows y < n) :
    y ∈ ((DescOrder.ofTies key tie).sort rows).take n := by
  have hmem : y ∈ (DescOrder.ofTies key tie).sort rows :=
    ((DescOrder.ofTies key tie).perm rows).mem_iff.mpr hy
  obtain ⟨before, after, hsplit⟩ := List.append_of_mem hmem
  have hsorted : ((DescOrder.ofTies key tie).sort rows).Pairwise (fun z z' =>
      toLex (key z', OrderDual.toDual (tie z')) ≤ toLex (key z, OrderDual.toDual (tie z))) :=
    pairwise_orderByDesc
  have hnodup' := ((DescOrder.ofTies key tie).perm rows).nodup_iff.mpr hnodup
  rw [hsplit] at hsorted hnodup'
  have hbefore : ∀ z ∈ before, decide (key y < key z) = true := by
    intro z hz
    have hle := (List.pairwise_append.mp hsorted).2.2 z hz y List.mem_cons_self
    have hne : z ≠ y := fun heq =>
      List.disjoint_of_nodup_append hnodup' (heq ▸ hz) List.mem_cons_self
    rcases Prod.Lex.le_iff.mp hle with h | h
    · exact decide_eq_true h
    · have htie : tie z ≤ tie y := h.2
      have := hfirst z hne
      omega
  have hcount : before.length ≤ above key rows y := by
    rw [above, ← ((DescOrder.ofTies key tie).perm rows).countP_eq, hsplit,
      List.countP_append, List.countP_eq_length.mpr hbefore]
    exact Nat.le_add_right _ _
  rw [hsplit, List.take_append, List.take_of_length_le (by omega)]
  refine List.mem_append_right _ ?_
  obtain ⟨m, hm⟩ : ∃ m, n - before.length = m + 1 := ⟨n - before.length - 1, by omega⟩
  simp [hm]

variable [DecidableEq α]

/-- How many rows may stand before a row. -/
def ahead
    (key : α → β)
    (rows : List α)
    (x : α) : Nat :=
  rows.countP (fun y => decide (y ≠ x) && decide (key x ≤ key y))

/-- A row beyond the limit has so many others that may stand before it. -/
theorem le_ahead_of_mem_drop
    (o : DescOrder key)
    (hnodup : rows.Nodup)
    (hx : x ∈ (o.sort rows).drop n) :
    n ≤ ahead key rows x := by
  have hsorted := o.sorted rows
  have hnodup' := (o.perm rows).nodup_iff.mpr hnodup
  rw [← List.take_append_drop n (o.sort rows)] at hsorted hnodup'
  have hbefore : ∀ z ∈ (o.sort rows).take n,
      (decide (z ≠ x) && decide (key x ≤ key z)) = true := by
    intro z hz
    have hkey := (List.pairwise_append.mp hsorted).2.2 z hz x hx
    have hne : z ≠ x := fun heq => List.disjoint_of_nodup_append hnodup' (heq ▸ hz) hx
    simp [hkey, hne]
  have hlength : ((o.sort rows).take n).length = n := by
    have hpos := List.length_pos_of_mem hx
    rw [List.length_drop] at hpos
    rw [List.length_take]
    omega
  calc n = ((o.sort rows).take n).countP
        (fun z => decide (z ≠ x) && decide (key x ≤ key z)) := by
        rw [List.countP_eq_length.mpr hbefore, hlength]
    _ ≤ (o.sort rows).countP (fun z => decide (z ≠ x) && decide (key x ≤ key z)) :=
        (List.take_sublist n _).countP_le
    _ = ahead key rows x := (o.perm rows).countP_eq _

/-- A row that comes last among its ties has all rows before it that may stand there. -/
theorem mem_drop_ofTies
    {tie : α → Nat}
    (hx : x ∈ rows)
    (hlast : ∀ z, z ≠ x → tie z < tie x)
    (hn : n ≤ ahead key rows x) :
    x ∈ ((DescOrder.ofTies key tie).sort rows).drop n := by
  have hmem : x ∈ (DescOrder.ofTies key tie).sort rows :=
    ((DescOrder.ofTies key tie).perm rows).mem_iff.mpr hx
  obtain ⟨before, after, hsplit⟩ := List.append_of_mem hmem
  have hsorted : ((DescOrder.ofTies key tie).sort rows).Pairwise (fun z z' =>
      toLex (key z', OrderDual.toDual (tie z')) ≤ toLex (key z, OrderDual.toDual (tie z))) :=
    pairwise_orderByDesc
  rw [hsplit] at hsorted
  have hafter : ∀ z ∈ x :: after,
      ¬(decide (z ≠ x) && decide (key x ≤ key z)) = true := by
    intro z hz
    simp only [Bool.and_eq_true, decide_eq_true_eq, not_and, not_le]
    intro hne
    have hz' := (List.mem_cons.mp hz).resolve_left hne
    have hle := (List.pairwise_cons.mp (List.pairwise_append.mp hsorted).2.1).1 z hz'
    rcases Prod.Lex.le_iff.mp hle with h | h
    · exact h
    · have htie : tie x ≤ tie z := h.2
      have := hlast z hne
      omega
  have hcount : ahead key rows x ≤ before.length := by
    rw [ahead, ← ((DescOrder.ofTies key tie).perm rows).countP_eq, hsplit,
      List.countP_append, List.countP_eq_zero.mpr hafter]
    exact List.countP_le_length
  rw [hsplit, List.drop_append_of_le_length (hn.trans hcount)]
  simp

/-- A row that may have so many before it is beyond the limit in some order. -/
theorem exists_order_drop
    (hx : x ∈ rows)
    (hn : n ≤ ahead key rows x) :
    ∃ o : DescOrder key, x ∈ (o.sort rows).drop n :=
  ⟨.ofTies key (fun z => if z = x then 1 else 0),
    mem_drop_ofTies hx (fun z hz => by simp [hz]) hn⟩

/-- In some order one row is within the limit and another one beyond it. -/
theorem exists_order_take_drop
    (hnodup : rows.Nodup)
    (hx : x ∈ rows)
    (hy : y ∈ rows)
    (hne : x ≠ y)
    (habove : above key rows y < n)
    (hn : n ≤ ahead key rows x) :
    ∃ o : DescOrder key, y ∈ (o.sort rows).take n ∧ x ∈ (o.sort rows).drop n := by
  refine ⟨.ofTies key (fun z => if z = x then 2 else if z = y then 0 else 1), ?_, ?_⟩
  · refine mem_take_ofTies hnodup hy (fun z hz => ?_) habove
    by_cases hzx : z = x <;> simp [hne.symm, hz, hzx]
  · refine mem_drop_ofTies hx (fun z hz => ?_) hn
    by_cases hzy : z = y <;> simp [hne.symm, hz, hzy]

end Limits

end Library
end CoopMessenger
