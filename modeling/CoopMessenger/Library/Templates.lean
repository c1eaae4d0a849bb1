import Mathlib.Data.List.Infix
import Mathlib.Tactic.Common

/-!
# Templates

A template is filled by replacing one placeholder after the other, each everywhere.  What
is put in earlier is searched for the placeholders that come later.

**Results.**
* `replaceAll_separate`: a character that is not in the pattern separates the text.
* `mem_substitute_iff`: how a character can get into a text that is filled.
* `substitute_text`: a template is filled hole by hole.
-/

namespace CoopMessenger
namespace Library
namespace Templates

variable {α : Type} [DecidableEq α]

section Replacing

/-- Replaces the pattern, after so many characters of the occurrence before. -/
def replaceAfter (p v : List α) : Nat → List α → List α
  | _, [] => []
  | skip + 1, _ :: rest => replaceAfter p v skip rest
  | 0, c :: rest =>
      if p.isPrefixOf (c :: rest) then
        v ++ replaceAfter p v (p.length - 1) rest
      else
        c :: replaceAfter p v 0 rest

/-- Replaces every occurrence of the pattern, which is not empty, from left to right. -/
def replaceAll (p v s : List α) : List α :=
  replaceAfter p v 0 s

variable {p v s : List α}
variable {c : α}

@[simp] theorem replaceAll_nil :
    replaceAll p v [] = [] := by
  rfl

theorem replaceAfter_append
    (p v skipped rest : List α) :
    replaceAfter p v skipped.length (skipped ++ rest) = replaceAfter p v 0 rest := by
  induction skipped with
  | nil =>
      rfl
  | cons d skipped ih =>
      exact ih

theorem replaceAll_append
    (hp : p ≠ [])
    (rest : List α) :
    replaceAll p v (p ++ rest) = v ++ replaceAll p v rest := by
  cases p with
  | nil =>
      exact absurd rfl hp
  | cons d p =>
      have hstart : (d :: p).isPrefixOf (d :: (p ++ rest)) = true :=
        List.isPrefixOf_iff_prefix.mpr (List.prefix_append (d :: p) rest)
      rw [List.cons_append, replaceAll, replaceAfter, if_pos hstart, List.length_cons,
        Nat.add_sub_cancel, replaceAfter_append, replaceAll]

theorem replaceAll_cons
    (h : ¬ p <+: c :: s) :
    replaceAll p v (c :: s) = c :: replaceAll p v s := by
  rw [replaceAll, replaceAfter, if_neg (mt List.isPrefixOf_iff_prefix.mp h), replaceAll]

/-- A text is empty, or starts with the pattern, or with something else. -/
theorem replaceAll_induction
    {motive : List α → Prop}
    (hp : p ≠ [])
    (nil : motive [])
    (found : ∀ rest, motive rest → motive (p ++ rest))
    (other : ∀ c rest, ¬ p <+: c :: rest → motive rest → motive (c :: rest))
    (s : List α) :
    motive s := by
  induction hn : s.length using Nat.strongRecOn generalizing s with
  | ind n ih =>
      cases s with
      | nil =>
          exact nil
      | cons c s =>
          by_cases hstart : p <+: c :: s
          · obtain ⟨rest, hrest⟩ := hstart
            have hpos := List.length_pos_iff.mpr hp
            rw [← hrest]
            refine found rest (ih rest.length ?_ rest rfl)
            rw [← hn, ← hrest, List.length_append]
            omega
          · refine other c s hstart (ih s.length ?_ s rfl)
            rw [← hn]
            exact Nat.lt_succ_self _

/-- A text without the pattern stays as it is. -/
theorem replaceAll_of_not_infix
    (h : ¬ p <:+: s) :
    replaceAll p v s = s := by
  induction s with
  | nil =>
      rfl
  | cons c s ih =>
      rw [replaceAll_cons fun hstart => h hstart.isInfix,
        ih fun hpart => h (List.infix_cons hpart)]

theorem replaceAll_self
    (hp : p ≠ []) :
    replaceAll p v p = v := by
  have h := replaceAll_append (v := v) hp []
  rwa [List.append_nil, replaceAll_nil, List.append_nil] at h

/-- A character that is not in the pattern separates the text. -/
theorem replaceAll_separate
    (hp : p ≠ [])
    (hc : c ∉ p)
    (before after : List α) :
    replaceAll p v (before ++ c :: after) = replaceAll p v before ++ c :: replaceAll p v after := by
  have hnot : ∀ t : List α, p <+: t ++ c :: after → p <+: t := by
    intro t hstart
    rcases List.prefix_or_prefix_of_prefix hstart (List.prefix_append t (c :: after)) with h | h
    · exact h
    · obtain ⟨rest, rfl⟩ := h
      rw [List.prefix_append_right_inj] at hstart
      cases rest with
      | nil =>
          rw [List.append_nil]
      | cons d rest =>
          rw [List.cons_prefix_cons] at hstart
          rw [hstart.1] at hc
          exact absurd (List.mem_append_right t List.mem_cons_self) hc
  induction before using replaceAll_induction (p := p) hp with
  | nil =>
      refine replaceAll_cons fun hstart => ?_
      exact hp (List.prefix_nil.mp (hnot [] hstart))
  | found rest ih =>
      rw [List.append_assoc, replaceAll_append hp, replaceAll_append hp, ih, List.append_assoc]
  | other d rest hstart ih =>
      have hother : ¬ p <+: d :: (rest ++ c :: after) :=
        fun h => hstart (hnot (d :: rest) h)
      rw [List.cons_append, replaceAll_cons hother, replaceAll_cons hstart, ih]
      rfl

theorem mem_replaceAll
    (hp : p ≠ [])
    (h : c ∈ replaceAll p v s) :
    c ∈ s ∨ p <:+: s ∧ c ∈ v := by
  induction s using replaceAll_induction (p := p) hp with
  | nil =>
      cases h
  | found rest ih =>
      rw [replaceAll_append hp, List.mem_append] at h
      rcases h with h | h
      · exact .inr ⟨(List.prefix_append p rest).isInfix, h⟩
      · rcases ih h with h | ⟨hpart, hv⟩
        · exact .inl (List.mem_append_right p h)
        · exact .inr ⟨hpart.trans (List.suffix_append p rest).isInfix, hv⟩
  | other d rest hstart ih =>
      rw [replaceAll_cons hstart, List.mem_cons] at h
      rcases h with rfl | h
      · exact .inl List.mem_cons_self
      · rcases ih h with h | ⟨hpart, hv⟩
        · exact .inl (List.mem_cons_of_mem d h)
        · exact .inr ⟨List.infix_cons hpart, hv⟩

/-- What is put in for a pattern is in the text. -/
theorem mem_replaceAll_of_infix
    (hp : p ≠ [])
    (hpart : p <:+: s)
    (hv : c ∈ v) :
    c ∈ replaceAll p v s := by
  induction s using replaceAll_induction (p := p) hp with
  | nil =>
      exact absurd (List.infix_nil.mp hpart) hp
  | found rest ih =>
      rw [replaceAll_append hp]
      exact List.mem_append_left _ hv
  | other d rest hstart ih =>
      rw [replaceAll_cons hstart]
      rcases List.infix_cons_iff.mp hpart with h | h
      · exact absurd h hstart
      · exact List.mem_cons_of_mem d (ih h)

theorem mem_replaceAll_of_mem
    (hp : p ≠ [])
    (hc : c ∉ p)
    (h : c ∈ s) :
    c ∈ replaceAll p v s := by
  induction s using replaceAll_induction (p := p) hp with
  | nil =>
      cases h
  | found rest ih =>
      rw [replaceAll_append hp]
      rcases List.mem_append.mp h with h | h
      · exact absurd h hc
      · exact List.mem_append_right v (ih h)
  | other d rest hstart ih =>
      rw [replaceAll_cons hstart]
      rcases List.mem_cons.mp h with rfl | h
      · exact List.mem_cons_self
      · exact List.mem_cons_of_mem d (ih h)

/-- How a character that is not in the pattern gets into the text. -/
theorem mem_replaceAll_iff
    (hp : p ≠ [])
    (hc : c ∉ p) :
    c ∈ replaceAll p v s ↔ c ∈ s ∨ p <:+: s ∧ c ∈ v := by
  constructor
  · exact mem_replaceAll hp
  · rintro (h | ⟨hpart, hv⟩)
    · exact mem_replaceAll_of_mem hp hc h
    · exact mem_replaceAll_of_infix hp hpart hv

end Replacing

section Substitution

/-- Replaces one placeholder after the other. -/
def substitute (subs : List (List α × List α)) (s : List α) : List α :=
  subs.foldl (fun s sub => replaceAll sub.1 sub.2 s) s

variable {subs : List (List α × List α)}
variable {c : α}

theorem substitute_cons
    (p v s : List α)
    (subs : List (List α × List α)) :
    substitute ((p, v) :: subs) s = substitute subs (replaceAll p v s) := by
  rfl

theorem substitute_append
    (first subs : List (List α × List α))
    (s : List α) :
    substitute (first ++ subs) s = substitute subs (substitute first s) :=
  List.foldl_append

/-- A character that is in no placeholder separates the text. -/
theorem substitute_separate
    (hp : ∀ sub ∈ subs, sub.1 ≠ [])
    (hc : ∀ sub ∈ subs, c ∉ sub.1)
    (before after : List α) :
    substitute subs (before ++ c :: after) =
      substitute subs before ++ c :: substitute subs after := by
  induction subs generalizing before after with
  | nil =>
      rfl
  | cons sub subs ih =>
      have hrest := ih (fun t ht => hp t (List.mem_cons_of_mem _ ht))
        (fun t ht => hc t (List.mem_cons_of_mem _ ht))
      unfold substitute at hrest ⊢
      rw [List.foldl_cons, replaceAll_separate (hp sub List.mem_cons_self)
        (hc sub List.mem_cons_self), hrest]
      rfl

/-- A text without placeholders stays as it is. -/
theorem substitute_of_not_infix
    {s : List α}
    (h : ∀ sub ∈ subs, ¬ sub.1 <:+: s) :
    substitute subs s = s := by
  induction subs with
  | nil =>
      rfl
  | cons sub subs ih =>
      have hrest := ih fun t ht => h t (List.mem_cons_of_mem _ ht)
      unfold substitute at hrest ⊢
      rw [List.foldl_cons, replaceAll_of_not_infix (h sub List.mem_cons_self), hrest]

/-- A placeholder is filled with its value, and that with the values that come later. -/
theorem substitute_placeholder
    {first : List (List α × List α)} {p v : List α}
    (hp : p ≠ [])
    (hfirst : ∀ sub ∈ first, ¬ sub.1 <:+: p) :
    substitute (first ++ (p, v) :: subs) p = substitute subs v := by
  rw [substitute_append, substitute_of_not_infix hfirst, substitute_cons, replaceAll_self hp]

/-- A character that no value has is not put in. -/
theorem mem_substitute_iff_of_not_mem
    {s : List α}
    (hp : ∀ sub ∈ subs, sub.1 ≠ [])
    (hc : ∀ sub ∈ subs, c ∉ sub.1)
    (hv : ∀ sub ∈ subs, c ∉ sub.2) :
    c ∈ substitute subs s ↔ c ∈ s := by
  induction subs generalizing s with
  | nil =>
      exact Iff.rfl
  | cons sub subs ih =>
      have hrest := ih (s := replaceAll sub.1 sub.2 s)
        (fun t ht => hp t (List.mem_cons_of_mem _ ht))
        (fun t ht => hc t (List.mem_cons_of_mem _ ht))
        (fun t ht => hv t (List.mem_cons_of_mem _ ht))
      refine hrest.trans ?_
      rw [mem_replaceAll_iff (hp sub List.mem_cons_self) (hc sub List.mem_cons_self)]
      constructor
      · rintro (h | ⟨-, h⟩)
        · exact h
        · exact absurd h (hv sub List.mem_cons_self)
      · exact .inl

/-- A character that one value has gets into the text at the placeholder of that value. -/
theorem mem_substitute_iff
    {first : List (List α × List α)} {p v s : List α}
    (hp : ∀ sub ∈ first ++ (p, v) :: subs, sub.1 ≠ [])
    (hc : ∀ sub ∈ first ++ (p, v) :: subs, c ∉ sub.1)
    (hfirst : ∀ sub ∈ first, c ∉ sub.2)
    (hsubs : ∀ sub ∈ subs, c ∉ sub.2) :
    c ∈ substitute (first ++ (p, v) :: subs) s ↔
      c ∈ s ∨ p <:+: substitute first s ∧ c ∈ v := by
  have hmem : ∀ sub ∈ first, sub ∈ first ++ (p, v) :: subs :=
    fun sub h => List.mem_append_left _ h
  have hself : (p, v) ∈ first ++ (p, v) :: subs :=
    List.mem_append_right _ List.mem_cons_self
  have hlater : ∀ sub ∈ subs, sub ∈ first ++ (p, v) :: subs :=
    fun sub h => List.mem_append_right _ (List.mem_cons_of_mem _ h)
  rw [substitute_append, substitute_cons,
    mem_substitute_iff_of_not_mem (fun sub h => hp sub (hlater sub h))
      (fun sub h => hc sub (hlater sub h)) hsubs,
    mem_replaceAll_iff (hp _ hself) (hc _ hself),
    mem_substitute_iff_of_not_mem (fun sub h => hp sub (hmem sub h))
      (fun sub h => hc sub (hmem sub h)) hfirst]

end Substitution

section Filling

variable {ν : Type}

/-- A template that starts and ends with a hole; between two holes a text has two ends. -/
inductive Template (α ν : Type) where
  | last (n : ν)
  | next (n : ν) (c : α) (middle : List α) (d : α) (rest : Template α ν)

/-- The template with a text in each hole. -/
def Template.fill (values : ν → List α) : Template α ν → List α
  | .last n => values n
  | .next n c middle d rest => values n ++ c :: (middle ++ d :: rest.fill values)

/-- The ends of the texts are in no placeholder, and the texts have none in them. -/
def Template.Separated (subs : List (List α × List α)) : Template α ν → Prop
  | .last _ => True
  | .next _ c middle d rest =>
      (∀ sub ∈ subs, c ∉ sub.1 ∧ d ∉ sub.1 ∧ ¬ sub.1 <:+: middle) ∧ rest.Separated subs

/-- A template is filled hole by hole. -/
theorem substitute_text
    {subs : List (List α × List α)} {T : Template α ν} {placeholder : ν → List α}
    (hp : ∀ sub ∈ subs, sub.1 ≠ [])
    (hT : T.Separated subs) :
    substitute subs (T.fill placeholder) = T.fill fun n => substitute subs (placeholder n) := by
  induction T with
  | last n =>
      rfl
  | next n c middle d rest ih =>
      obtain ⟨htext, hrest⟩ := hT
      rw [Template.fill, substitute_separate hp (fun sub h => (htext sub h).1),
        substitute_separate hp (fun sub h => (htext sub h).2.1),
        substitute_of_not_infix (fun sub h => (htext sub h).2.2), ih hrest]
      rfl

end Filling

end Templates
end Library
end CoopMessenger
