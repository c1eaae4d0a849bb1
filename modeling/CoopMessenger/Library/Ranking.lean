import Mathlib.Data.List.Sort
import Mathlib.Data.Prod.Lex

/-!
# Ranked results

`SELECT ... ORDER BY key DESC` read as a sort of the selected rows.  Rows with
equal keys keep the order in which they were scanned; quantifying over the
scanned list therefore covers every order the database may leave them in.

`Best` is the abstract notion: a candidate of greatest rank.

**Results.**
* `top_best`, `last_orderBy_best`: the first row, or the last, is a best one.
* `exists_best`: a nonempty selection has a best row.
* `Best.eq_of_only`: under a final comparison by a flag that a single best
  candidate carries, this candidate is the only best one.
-/

namespace CoopMessenger
namespace Library

universe u v

section Ranking

variable {α : Type u}
variable {β : Type v}
variable [LinearOrder β]

/-- `ORDER BY key DESC`. -/
def orderByDesc
    (key : α → β)
    (rows : List α) : List α :=
  rows.insertionSort (fun x y => key y ≤ key x)

/-- `ORDER BY key`. -/
def orderBy
    (key : α → β)
    (rows : List α) : List α :=
  rows.insertionSort (fun x y => key x ≤ key y)

variable {key : α → β}
variable {rows : List α}

theorem pairwise_orderByDesc :
    (orderByDesc key rows).Pairwise (fun x y => key y ≤ key x) := by
  have htotal : Std.Total (fun x y : α => key y ≤ key x) :=
    ⟨fun x y => le_total (key y) (key x)⟩
  have htrans : IsTrans α (fun x y : α => key y ≤ key x) :=
    ⟨fun _ _ _ hxy hyz => hyz.trans hxy⟩
  exact List.pairwise_insertionSort _ rows

theorem pairwise_orderBy :
    (orderBy key rows).Pairwise (fun x y => key x ≤ key y) := by
  have htotal : Std.Total (fun x y : α => key x ≤ key y) :=
    ⟨fun x y => le_total (key x) (key y)⟩
  have htrans : IsTrans α (fun x y : α => key x ≤ key y) :=
    ⟨fun _ _ _ hxy hyz => hxy.trans hyz⟩
  exact List.pairwise_insertionSort _ rows

@[simp] theorem mem_orderBy
    {x : α} :
    x ∈ orderBy key rows ↔ x ∈ rows := by
  exact List.mem_insertionSort _

theorem perm_orderBy :
    (orderBy key rows).Perm rows := by
  exact List.perm_insertionSort _ rows

/-- Rows may be mapped before or after the order, if that does not change their keys. -/
theorem orderBy_map
    {γ : Type u}
    {f : γ → α} {key' : γ → β}
    (hkey : ∀ x, key (f x) = key' x)
    (rows : List γ) :
    orderBy key (rows.map f) = (orderBy key' rows).map f := by
  refine (List.map_insertionSort _ _ f rows fun x _ y _ => ?_).symm
  rw [hkey, hkey]

theorem orderByDesc_map
    {γ : Type u}
    {f : γ → α} {key' : γ → β}
    (hkey : ∀ x, key (f x) = key' x)
    (rows : List γ) :
    orderByDesc key (rows.map f) = (orderByDesc key' rows).map f := by
  refine (List.map_insertionSort _ _ f rows fun x _ y _ => ?_).symm
  rw [hkey, hkey]

/-- Ranking fewer rows leaves the ranked result in its order. -/
theorem sublist_orderByDesc
    {rows' : List α}
    (h : rows'.Sublist rows) :
    (orderByDesc key rows').Sublist (orderByDesc key rows) := by
  have htrans : IsTrans α (fun x y : α => key y ≤ key x) :=
    ⟨fun _ _ _ hxy hyz => hyz.trans hxy⟩
  induction h with
  | slnil =>
      exact List.Sublist.refl _
  | cons r _ ih =>
      exact ih.trans (List.sublist_orderedInsert r _)
  | cons_cons r _ ih =>
      exact ih.orderedInsert_sublist r pairwise_orderByDesc

/-- Rows may be selected before or after the ranking. -/
theorem orderByDesc_filter
    (p : α → Bool) :
    orderByDesc key (rows.filter p) = (orderByDesc key rows).filter p := by
  have hsub : (orderByDesc key (rows.filter p)).Sublist
      ((orderByDesc key rows).filter p) := by
    have hall : (orderByDesc key (rows.filter p)).filter p =
        orderByDesc key (rows.filter p) := by
      refine List.filter_eq_self.mpr fun x hx => ?_
      exact List.of_mem_filter ((List.mem_insertionSort _).mp hx)
    rw [← hall]
    exact (sublist_orderByDesc List.filter_sublist).filter p
  refine hsub.eq_of_length ?_
  have hperm : (orderByDesc key rows).Perm rows :=
    List.perm_insertionSort _ rows
  rw [(hperm.filter p).length_eq, orderByDesc, List.length_insertionSort]

/-- Rows may be selected before or after they are ordered. -/
theorem orderBy_filter
    (p : α → Bool) :
    orderBy key (rows.filter p) = (orderBy key rows).filter p := by
  have hdesc : orderByDesc (fun x => OrderDual.toDual (key x)) (rows.filter p) =
      (orderByDesc (fun x => OrderDual.toDual (key x)) rows).filter p :=
    orderByDesc_filter p
  exact hdesc

/-- The first row of the ranked result. -/
def top
    (key : α → β)
    (rows : List α) : Option α :=
  (orderByDesc key rows).head?

/-- A candidate whose rank no other candidate exceeds. -/
def Best
    (cand : α → Prop)
    (rank : α → β)
    (x : α) : Prop :=
  cand x ∧ ∀ y, cand y → rank y ≤ rank x

/-- The first row is one of the selected rows, and none has a greater key. -/
theorem top_best
    {x : α}
    (h : top key rows = some x) :
    Best (· ∈ rows) key x := by
  obtain ⟨rest, hrest⟩ := List.head?_eq_some_iff.mp h
  have hperm : (x :: rest).Perm rows := by
    rw [← hrest]
    exact List.perm_insertionSort _ rows
  have hsorted :
      (orderByDesc key rows).Pairwise (fun x y => key y ≤ key x) :=
    pairwise_orderByDesc
  rw [hrest, List.pairwise_cons] at hsorted
  refine ⟨hperm.mem_iff.mp List.mem_cons_self, ?_⟩
  intro y hy
  rcases List.mem_cons.mp (hperm.mem_iff.mpr hy) with rfl | hy'
  · exact le_refl _
  · exact hsorted.1 y hy'

/-- The first row of one more row and the others. -/
theorem top_cons
    (x : α) (rows : List α) :
    top key (x :: rows) =
      match top key rows with
      | none => some x
      | some y => if key y ≤ key x then some x else some y := by
  have hsort : orderByDesc key (x :: rows) =
      (orderByDesc key rows).orderedInsert (fun x y => key y ≤ key x) x := rfl
  rw [top, hsort, top]
  cases orderByDesc key rows with
  | nil =>
      rfl
  | cons y rest =>
      rw [List.orderedInsert_cons]
      split <;> simp_all

/-- A row that is scanned last comes first only if its key is the greatest. -/
theorem top_append_singleton
    (rows : List α) (x : α) :
    top key (rows ++ [x]) =
      match top key rows with
      | none => some x
      | some y => if key x ≤ key y then some y else some x := by
  induction rows with
  | nil =>
      rfl
  | cons z rows ih =>
      rw [List.cons_append, top_cons, top_cons, ih]
      cases top key rows with
      | none =>
          rfl
      | some y =>
          by_cases hyz : key y ≤ key z
          · by_cases hxy : key x ≤ key y
            · simp [hyz, hxy, hxy.trans hyz]
            · simp [hyz, hxy]
          · by_cases hxy : key x ≤ key y
            · simp [hyz, hxy]
            · have hxz : ¬ key x ≤ key z :=
                fun hxz => hxy (hxz.trans (le_of_not_ge hyz))
              simp [hyz, hxy, hxz]

/-- A row with a smaller key than another one never comes first. -/
theorem top_append_of_lt
    {x z : α}
    (h : key z < key x)
    (rows : List α) :
    top key (rows ++ [x, z]) = top key (rows ++ [x]) ∧
      top key (rows ++ [z, x]) = top key (rows ++ [x]) := by
  have hxz : rows ++ [x, z] = (rows ++ [x]) ++ [z] := by simp
  have hzx : rows ++ [z, x] = (rows ++ [z]) ++ [x] := by simp
  rw [hxz, hzx]
  simp only [top_append_singleton]
  cases top key rows with
  | none =>
      simp [h.le, not_le_of_gt h]
  | some y =>
      by_cases hxy : key x ≤ key y
      · simp [hxy, h.le.trans hxy]
      · by_cases hzy : key z ≤ key y
        · simp [hxy, hzy, h.le]
        · simp [hxy, hzy, h.le, not_le_of_gt h]

theorem top_eq_none_iff :
    top key rows = none ↔ rows = [] := by
  unfold top orderByDesc
  rw [List.head?_eq_none_iff, ← List.length_eq_zero_iff,
    List.length_insertionSort, List.length_eq_zero_iff]

/-- A nonempty selection has a row with a greatest key. -/
theorem exists_best
    (key : α → β)
    {x : α}
    (hx : x ∈ rows) :
    ∃ m, Best (· ∈ rows) key m := by
  cases h : top key rows with
  | none =>
      rw [top_eq_none_iff] at h
      simp [h] at hx
  | some m =>
      exact ⟨m, top_best h⟩

/-- The last row is the one with the greatest key where the keys ascend. -/
theorem getLast?_eq_some_iff_best
    {x : α}
    (h : rows.Pairwise fun x y => key x < key y) :
    rows.getLast? = some x ↔ Best (· ∈ rows) key x := by
  have hlast : ∀ y, rows.getLast? = some y →
      y ∈ rows ∧ ∀ z ∈ rows, z = y ∨ key z < key y := by
    intro y hy
    obtain ⟨init, rfl⟩ := List.getLast?_eq_some_iff.mp hy
    refine ⟨List.mem_append_right _ (List.mem_singleton.mpr rfl), fun z hz => ?_⟩
    rcases List.mem_append.mp hz with hz | hz
    · exact Or.inr ((List.pairwise_append.mp h).2.2 z hz y (List.mem_singleton.mpr rfl))
    · exact Or.inl (List.mem_singleton.mp hz)
  constructor
  · intro hx
    refine ⟨(hlast x hx).1, fun z hz => ?_⟩
    rcases (hlast x hx).2 z hz with rfl | hlt
    · exact le_refl _
    · exact hlt.le
  · rintro ⟨hx, hbest⟩
    cases hy : rows.getLast? with
    | none =>
        rw [List.getLast?_eq_none_iff.mp hy] at hx
        cases hx
    | some y =>
        obtain ⟨hmem, hall⟩ := hlast y hy
        rcases hall x hx with rfl | hlt
        · rfl
        · exact absurd (hbest y hmem) (not_le_of_gt hlt)

/-- The last row of an ascending result has a greatest key. -/
theorem last_orderBy_best
    {x : α}
    (h : (orderBy key rows).getLast? = some x) :
    Best (· ∈ rows) key x := by
  obtain ⟨front, hfront⟩ := List.getLast?_eq_some_iff.mp h
  have hsorted : (orderBy key rows).Pairwise (fun x y => key x ≤ key y) :=
    pairwise_orderBy
  have hmem : ∀ y, y ∈ rows ↔ y ∈ front ++ [x] := by
    intro y
    rw [← hfront, mem_orderBy]
  rw [hfront, List.pairwise_append] at hsorted
  refine ⟨(hmem x).mpr (by simp), ?_⟩
  intro y hy
  rcases List.mem_append.mp ((hmem y).mp hy) with hfr | hx
  · exact hsorted.2.2 y hfr x (List.mem_singleton_self x)
  · rw [List.mem_singleton.mp hx]

end Ranking

section Flags

variable {α : Type u}
variable {β : Type v}
variable [LinearOrder β]
variable {cand : α → Prop}
variable {rank : α → β}
variable {flag : α → Bool}
variable {x y : α}

/-- Best by rank and then by the flag is in particular best by rank. -/
theorem Best.of_lex
    (h : Best cand (fun z => toLex (rank z, flag z)) x) :
    Best cand rank x := by
  refine ⟨h.1, ?_⟩
  intro z hz
  rcases Prod.Lex.toLex_le_toLex.mp (h.2 z hz) with hlt | ⟨heq, -⟩
  · exact hlt.le
  · exact heq.le

/-- Among the best by rank, the best by the flag as well is the best overall. -/
theorem Best.lex
    (hx : Best cand rank x)
    (hflag : ∀ z, Best cand rank z → flag z ≤ flag x) :
    Best cand (fun z => toLex (rank z, flag z)) x := by
  refine ⟨hx.1, ?_⟩
  intro z hz
  rw [Prod.Lex.toLex_le_toLex]
  rcases (hx.2 z hz).lt_or_eq with hlt | heq
  · exact Or.inl hlt
  · refine Or.inr ⟨heq, hflag z ⟨hz, ?_⟩⟩
    intro w hw
    exact (hx.2 w hw).trans heq.ge

/-- If one of the best by rank is the only one with the flag, it decides. -/
theorem Best.eq_of_only
    (hy : Best cand (fun z => toLex (rank z, flag z)) y)
    (hx : Best cand rank x)
    (hflag : flag x = true)
    (honly : ∀ z, cand z → flag z = true → z = x) :
    y = x := by
  refine honly y hy.1 ?_
  rcases Prod.Lex.toLex_le_toLex.mp (hy.2 x hx.1) with hlt | ⟨-, hle⟩
  · exact absurd (hx.2 y hy.1) (not_le_of_gt hlt)
  · rw [hflag] at hle
    exact Bool.eq_true_of_true_le hle

/-- Ranks that order the candidates alike have the same best ones. -/
theorem Best.mono
    {γ : Type*} [LinearOrder γ]
    {rank' : α → γ}
    (h : Best cand rank x)
    (hmono : ∀ y z, cand y → cand z → rank y ≤ rank z → rank' y ≤ rank' z) :
    Best cand rank' x :=
  ⟨h.1, fun y hy => hmono y x hy h.1 (h.2 y hy)⟩

end Flags

end Library
end CoopMessenger
