import CoopMessenger.Util.Text

/-!
# Trimming and splitting

What `trimSpace` does to texts that are put together, and that the parts of a text
are, when trimmed, the parts of the trimmed text.

**Results.**
* `map_trimSpace_splitOn`: white space around a text does not change its parts.
* `map_trim_splitNoEmpty`: nor does it change the trimmed parts, if none is blank.
-/

namespace CoopMessenger
namespace Util

section Trimming

variable {s w : List Char}

theorem rdropWhile_append_of_pos
    (hw : ∀ c ∈ w, isSpace c = true) :
    (s ++ w).rdropWhile isSpace = s.rdropWhile isSpace := by
  have hreverse : ∀ c ∈ w.reverse, isSpace c = true :=
    fun c hc => hw c (List.mem_reverse.mp hc)
  rw [List.rdropWhile, List.reverse_append,
    List.dropWhile_append_of_pos hreverse, ← List.rdropWhile]

theorem trimSpace_append_left
    (hw : ∀ c ∈ w, isSpace c = true) :
    trimSpace (w ++ s) = trimSpace s := by
  rw [trimSpace, List.dropWhile_append_of_pos hw, ← trimSpace]

theorem trimSpace_append_right
    (hw : ∀ c ∈ w, isSpace c = true) :
    trimSpace (s ++ w) = trimSpace s := by
  unfold trimSpace
  rw [List.dropWhile_append]
  split
  · next hempty =>
      have hnil : w.dropWhile isSpace = [] := List.dropWhile_eq_nil_iff.mpr hw
      rw [hnil, List.isEmpty_iff.mp hempty]
  · exact rdropWhile_append_of_pos hw

/-- A text is its trimmed text between white space. -/
theorem exists_trimSpace
    (s : List Char) :
    ∃ before after, s = before ++ trimSpace s ++ after ∧
      (∀ c ∈ before, isSpace c = true) ∧ (∀ c ∈ after, isSpace c = true) := by
  refine ⟨s.takeWhile isSpace, (s.dropWhile isSpace).rtakeWhile isSpace, ?_,
    fun c hc => List.mem_takeWhile_imp hc, fun c hc => List.mem_rtakeWhile_imp hc⟩
  rw [trimSpace, List.append_assoc, List.rdropWhile_append_rtakeWhile,
    List.takeWhile_append_dropWhile]

/-- A text that neither starts nor ends with white space is trimmed. -/
theorem trimSpace_eq_self
    (hfirst : ∀ c, s.head? = some c → isSpace c = false)
    (hlast : ∀ c, s.getLast? = some c → isSpace c = false) :
    trimSpace s = s := by
  have hdrop : s.dropWhile isSpace = s := by
    cases s with
    | nil =>
        rfl
    | cons c s =>
        exact List.dropWhile_cons_of_neg (by simp [hfirst c rfl])
  rw [trimSpace, hdrop, List.rdropWhile_eq_self_iff]
  intro hs
  simp [hlast _ (List.getLast?_eq_some_getLast hs)]

theorem trimSpace_subset
    (s : List Char) :
    trimSpace s ⊆ s :=
  List.Subset.trans (List.rdropWhile_prefix _ _).subset
    (List.dropWhile_suffix _).subset

@[simp] theorem trim_empty :
    trim "" = "" := by
  rfl

end Trimming

section Splitting

variable {sep : Char}

theorem notMem_of_mem_splitOn
    {s part : List Char}
    (h : part ∈ s.splitOn sep) :
    sep ∉ part := by
  induction s generalizing part with
  | nil =>
      rw [List.splitOn_nil, List.mem_singleton] at h
      subst h
      simp
  | cons c s ih =>
      rw [List.splitOn_cons_eq_if_modifyHead] at h
      split at h
      · rcases List.mem_cons.mp h with rfl | h
        · simp
        · exact ih h
      · next hc =>
          cases hparts : s.splitOn sep with
          | nil =>
              exact absurd hparts (List.splitOn_ne_nil sep s)
          | cons first rest =>
              rw [hparts, List.modifyHead_cons] at h
              rcases List.mem_cons.mp h with rfl | h
              · have hfirst := ih (hparts ▸ List.mem_cons_self)
                simp only [beq_iff_eq] at hc
                simp [hfirst, Ne.symm hc]
              · exact ih (hparts ▸ List.mem_cons_of_mem _ h)

/-- What stands before a text belongs to its first part. -/
theorem splitOn_append_left
    {w : List Char}
    (hw : sep ∉ w)
    (s : List Char) :
    (w ++ s).splitOn sep = (s.splitOn sep).modifyHead (w ++ ·) := by
  induction w with
  | nil =>
      rw [List.nil_append]
      cases s.splitOn sep <;> rfl
  | cons c w ih =>
      simp only [List.mem_cons, not_or] at hw
      rw [List.cons_append, List.splitOn_cons_eq_if_modifyHead, ih hw.2,
        if_neg (by simpa using Ne.symm hw.1), List.modifyHead_modifyHead]
      rfl

/-- What stands after a text belongs to its last part. -/
theorem exists_splitOn_append_right
    {w : List Char}
    (hw : sep ∉ w)
    (s : List Char) :
    ∃ first last, s.splitOn sep = first ++ [last] ∧
      (s ++ w).splitOn sep = first ++ [last ++ w] := by
  induction s with
  | nil =>
      exact ⟨[], [], rfl, by simpa using List.splitOn_eq_singleton hw⟩
  | cons c s ih =>
      obtain ⟨first, last, hs, hsw⟩ := ih
      rw [List.cons_append, List.splitOn_cons_eq_if_modifyHead,
        List.splitOn_cons_eq_if_modifyHead, hs, hsw]
      by_cases hc : c = sep
      · exact ⟨[] :: first, last, by simp [hc], by simp [hc]⟩
      · cases first with
        | nil =>
            exact ⟨[], c :: last, by simp [hc], by simp [hc]⟩
        | cons part first =>
            exact ⟨(c :: part) :: first, last, by simp [hc], by simp [hc]⟩

/-- White space around a text does not change its parts. -/
theorem map_trimSpace_splitOn
    (hsep : isSpace sep = false)
    (s : List Char) :
    ((trimSpace s).splitOn sep).map trimSpace =
      (s.splitOn sep).map trimSpace := by
  obtain ⟨before, after, hs, hbefore, hafter⟩ := exists_trimSpace s
  have hnot : ∀ {w : List Char}, (∀ c ∈ w, isSpace c = true) → sep ∉ w := by
    intro w hw hmem
    exact absurd (hw sep hmem) (by simp [hsep])
  obtain ⟨first, last, htrimmed, hright⟩ :=
    exists_splitOn_append_right (hnot hafter) (trimSpace s)
  conv_rhs => rw [hs, List.append_assoc, splitOn_append_left (hnot hbefore), hright]
  rw [htrimmed]
  cases first with
  | nil =>
      simp [trimSpace_append_left hbefore, trimSpace_append_right hafter]
  | cons part first =>
      simp [trimSpace_append_left hbefore, trimSpace_append_right hafter]

/-- Without blank parts, the trimmed parts of the trimmed text are those of the text. -/
theorem map_trim_splitNoEmpty
    (hsep : isSpace sep = false)
    {s : String}
    (hparts : ∀ part ∈ s.toList.splitOn sep, trimSpace part ≠ []) :
    (splitNoEmpty (trim s) sep).map trim =
      (s.toList.splitOn sep).map (fun part => String.ofList (trimSpace part)) := by
  have hmap := map_trimSpace_splitOn hsep s.toList
  have hkeep : ((trimSpace s.toList).splitOn sep).filter (fun part => !part.isEmpty) =
      (trimSpace s.toList).splitOn sep := by
    refine List.filter_eq_self.mpr fun part hpart => ?_
    have htrimmed : trimSpace part ∈ (s.toList.splitOn sep).map trimSpace :=
      hmap ▸ List.mem_map_of_mem hpart
    obtain ⟨part', hpart', heq⟩ := List.mem_map.mp htrimmed
    cases part with
    | nil =>
        exact absurd heq (hparts part' hpart')
    | cons c part =>
        rfl
  calc (splitNoEmpty (trim s) sep).map trim
      = (((trimSpace s.toList).splitOn sep).map trimSpace).map String.ofList := by
        simp [splitNoEmpty, trim, hkeep, Function.comp_def]
    _ = ((s.toList.splitOn sep).map trimSpace).map String.ofList := by
        rw [hmap]
    _ = (s.toList.splitOn sep).map (fun part => String.ofList (trimSpace part)) := by
        simp [Function.comp_def]

end Splitting

end Util
end CoopMessenger
