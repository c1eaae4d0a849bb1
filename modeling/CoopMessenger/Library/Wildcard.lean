import Mathlib.Data.List.Infix
import Mathlib.Data.List.Forall2

/-!
# Wildcard patterns

A pattern is a list of items: a literal character, a single arbitrary character,
or an arbitrary string.  Two concrete syntaxes are translated to it: globs, where
`*` stands for any string, and the SQL `LIKE` patterns with an escape character,
where `%` stands for any string and `_` for one character.  Matching takes the
comparison of characters as a parameter; `LIKE` compares ASCII letters without
regard to case.

**Results.**
* `wildMatch_mono`: a coarser comparison matches more.
* `wildMatch_lits_iff`: without wildcards, matching is comparison letter by letter.
* `wildMatch_any_lits_any_iff`: literals between two wildcards are searched for.
* `wildMatch_globItems_iff`: matching the items of a glob is matching the glob,
  given by rules of its own.
* `likeItems_escaped`: a text that has been escaped stands for itself.
-/

namespace CoopMessenger
namespace Library

universe u

/-- One item of a wildcard pattern. -/
inductive Item (α : Type u) where
  | lit (c : α)
  | one
  | any
deriving DecidableEq, Repr

section Matching

variable {α : Type u}

/-- Does the pattern match the whole text, comparing literals by `eqv`? -/
def wildMatch
    (eqv : α → α → Bool) :
    List (Item α) → List α → Bool
  | [], t => t.isEmpty
  | .lit _ :: _, [] => false
  | .lit c :: p, d :: t => eqv c d && wildMatch eqv p t
  | .one :: _, [] => false
  | .one :: p, _ :: t => wildMatch eqv p t
  | .any :: p, t => t.tails.any (fun t' => wildMatch eqv p t')

variable {eqv : α → α → Bool}

@[simp] theorem wildMatch_nil_iff
    (t : List α) :
    wildMatch eqv [] t = true ↔ t = [] := by
  simp [wildMatch]

@[simp] theorem wildMatch_lit_nil
    (c : α) (p : List (Item α)) :
    wildMatch eqv (.lit c :: p) [] = false := by
  rfl

@[simp] theorem wildMatch_lit_cons
    (c d : α) (p : List (Item α)) (t : List α) :
    wildMatch eqv (.lit c :: p) (d :: t) =
      (eqv c d && wildMatch eqv p t) := by
  rfl

/-- `any` skips a prefix of the text. -/
theorem wildMatch_any_iff
    (p : List (Item α)) (t : List α) :
    wildMatch eqv (.any :: p) t = true
      ↔
    ∃ t', t' <:+ t ∧ wildMatch eqv p t' = true := by
  simp [wildMatch, List.any_eq_true]

/-- Two wildcards in a row match what one matches. -/
theorem wildMatch_any_any
    (p : List (Item α)) (t : List α) :
    wildMatch eqv (.any :: .any :: p) t = true
      ↔
    wildMatch eqv (.any :: p) t = true := by
  simp only [wildMatch_any_iff]
  constructor
  · rintro ⟨t', ht', t'', ht'', hmatch⟩
    exact ⟨t'', ht''.trans ht', hmatch⟩
  · rintro ⟨t', ht', hmatch⟩
    exact ⟨t, List.suffix_rfl, t', ht', hmatch⟩

/-- A coarser comparison of characters matches at least as many texts. -/
theorem wildMatch_mono
    {eqv' : α → α → Bool}
    (hle : ∀ c d, eqv c d = true → eqv' c d = true)
    {p : List (Item α)} {t : List α}
    (h : wildMatch eqv p t = true) :
    wildMatch eqv' p t = true := by
  induction p generalizing t with
  | nil =>
      simpa using h
  | cons item p ih =>
      cases item with
      | lit c =>
          cases t with
          | nil =>
              simp at h
          | cons d t =>
              simp only [wildMatch_lit_cons, Bool.and_eq_true] at h ⊢
              exact ⟨hle c d h.1, ih h.2⟩
      | one =>
          cases t with
          | nil =>
              simp [wildMatch] at h
          | cons d t =>
              exact ih h
      | any =>
          rw [wildMatch_any_iff] at h ⊢
          obtain ⟨t', hsuffix, hmatch⟩ := h
          exact ⟨t', hsuffix, ih hmatch⟩

/-- A pattern of literals matches exactly the texts that agree letter by letter. -/
theorem wildMatch_lits_iff
    (p t : List α) :
    wildMatch eqv (p.map .lit) t = true
      ↔
    List.Forall₂ (fun c d => eqv c d = true) p t := by
  induction p generalizing t with
  | nil =>
      simp
  | cons c p ih =>
      cases t with
      | nil =>
          simp
      | cons d t =>
          simp [ih]

/-- Literals match the beginning of the text. -/
theorem wildMatch_lits_append_iff
    (p : List α) (rest : List (Item α)) (t : List α) :
    wildMatch eqv (p.map .lit ++ rest) t = true
      ↔
    ∃ v w, t = v ++ w ∧ List.Forall₂ (fun c d => eqv c d = true) p v ∧
      wildMatch eqv rest w = true := by
  induction p generalizing t with
  | nil =>
      simp
  | cons c p ih =>
      cases t with
      | nil =>
          simp
      | cons d t =>
          rw [List.map_cons, List.cons_append, wildMatch_lit_cons, Bool.and_eq_true, ih]
          constructor
          · rintro ⟨hc, v, w, rfl, hv, hw⟩
            exact ⟨d :: v, w, rfl, List.Forall₂.cons hc hv, hw⟩
          · rintro ⟨v, w, heq, hv, hw⟩
            cases hv with
            | cons hc hv =>
                obtain ⟨rfl, rfl⟩ := List.cons.inj heq
                exact ⟨hc, _, w, rfl, hv, hw⟩

/-- Literals between two wildcards are searched for in the text. -/
theorem wildMatch_any_lits_any_iff
    (p t : List α) :
    wildMatch eqv (.any :: (p.map .lit ++ [.any])) t = true
      ↔
    ∃ u v w, t = u ++ v ++ w ∧ List.Forall₂ (fun c d => eqv c d = true) p v := by
  have hany : ∀ w : List α, wildMatch eqv [.any] w = true :=
    fun w => (wildMatch_any_iff [] w).mpr ⟨[], List.nil_suffix, rfl⟩
  rw [wildMatch_any_iff]
  constructor
  · rintro ⟨t', ⟨u, rfl⟩, hmatch⟩
    obtain ⟨v, w, rfl, hv, -⟩ := (wildMatch_lits_append_iff p [.any] t').mp hmatch
    exact ⟨u, v, w, (List.append_assoc u v w).symm, hv⟩
  · rintro ⟨u, v, w, rfl, hv⟩
    refine ⟨v ++ w, ⟨u, (List.append_assoc u v w).symm⟩, ?_⟩
    exact (wildMatch_lits_append_iff p [.any] _).mpr ⟨v, w, rfl, hv, hany w⟩

end Matching

section Glob

/-- The items of a glob, where `*` stands for any string. -/
def globItems
    (p : List Char) : List (Item Char) :=
  p.map (fun c => if c = '*' then .any else .lit c)

/-- Without `*` a glob is a list of literals. -/
theorem globItems_of_no_star
    {p : List Char}
    (h : '*' ∉ p) :
    globItems p = p.map .lit := by
  apply List.map_congr_left
  intro c hc
  have hne : c ≠ '*' := by
    rintro rfl
    exact h hc
  simp [hne]

/-- Does the glob match the text, letter case included? -/
def globMatch
    (p t : String) : Bool :=
  wildMatch (fun c d => c == d) (globItems p.toList) t.toList

/-- A glob without `*` matches exactly itself. -/
theorem globMatch_of_no_star
    {p : String}
    (h : '*' ∉ p.toList)
    (t : String) :
    globMatch p t = true ↔ p = t := by
  unfold globMatch
  rw [globItems_of_no_star h, wildMatch_lits_iff]
  simp only [beq_iff_eq, List.forall₂_eq_eq_eq]
  exact String.toList_inj

/-- The glob matches the text: `*` stands for any string, a letter for itself. -/
inductive GlobMatches
    (eqv : Char → Char → Bool) : List Char → List Char → Prop where
  | nil : GlobMatches eqv [] []
  | star {p t u w : List Char}
      (heq : w = u ++ t)
      (rest : GlobMatches eqv p t) :
      GlobMatches eqv ('*' :: p) w
  | letter {c d : Char} {p t : List Char}
      (hstar : c ≠ '*')
      (hc : eqv c d = true)
      (rest : GlobMatches eqv p t) :
      GlobMatches eqv (c :: p) (d :: t)

/-- Matching the items of a glob is matching the glob. -/
theorem wildMatch_globItems_iff
    {eqv : Char → Char → Bool}
    (p t : List Char) :
    wildMatch eqv (globItems p) t = true ↔ GlobMatches eqv p t := by
  induction p generalizing t with
  | nil =>
      rw [globItems, List.map_nil, wildMatch_nil_iff]
      constructor
      · rintro rfl
        exact GlobMatches.nil
      · intro h
        cases h
        rfl
  | cons c p ih =>
      rw [globItems, List.map_cons]
      by_cases hstar : c = '*'
      · subst hstar
        rw [if_pos rfl, wildMatch_any_iff]
        constructor
        · rintro ⟨t', ⟨u, rfl⟩, hmatch⟩
          exact GlobMatches.star rfl ((ih t').mp hmatch)
        · intro h
          cases h with
          | star heq rest => exact ⟨_, ⟨_, heq.symm⟩, (ih _).mpr rest⟩
          | letter hne hc rest => exact absurd rfl hne
      · rw [if_neg hstar]
        cases t with
        | nil =>
            rw [wildMatch_lit_nil]
            constructor
            · intro h
              exact absurd h Bool.false_ne_true
            · intro h
              cases h with
              | star heq rest => exact absurd rfl hstar
        | cons d t =>
            rw [wildMatch_lit_cons, Bool.and_eq_true]
            constructor
            · rintro ⟨hc, hmatch⟩
              exact GlobMatches.letter hstar hc ((ih t).mp hmatch)
            · intro h
              cases h with
              | star heq rest => exact absurd rfl hstar
              | letter hne hc rest => exact ⟨hc, (ih t).mpr rest⟩

end Glob

section Like

/-- Do the characters agree up to the case of ASCII letters? -/
def caseFoldEq
    (c d : Char) : Bool :=
  c.toLower == d.toLower

/--
The items of a `LIKE` pattern with escape character `esc`; `none` if the escape
character stands at the end, in which case the pattern matches nothing.
-/
def likeItems
    (esc : Char) : List Char → Option (List (Item Char))
  | [] => some []
  | c :: rest =>
      if c = '%' then
        (likeItems esc rest).map (.any :: ·)
      else if c = esc then
        match rest with
        | [] => none
        | d :: rest' => (likeItems esc rest').map (.lit d :: ·)
      else if c = '_' then
        (likeItems esc rest).map (.one :: ·)
      else
        (likeItems esc rest).map (.lit c :: ·)

theorem likeItems_percent
    (esc : Char) (rest : List Char) :
    likeItems esc ('%' :: rest) =
      (likeItems esc rest).map (.any :: ·) := by
  cases rest <;> simp [likeItems]

theorem likeItems_escape
    {esc : Char}
    (hesc : esc ≠ '%')
    (d : Char) (rest : List Char) :
    likeItems esc (esc :: d :: rest) =
      (likeItems esc rest).map (.lit d :: ·) := by
  simp [likeItems, hesc]

theorem likeItems_lit
    {esc c : Char}
    (hpercent : c ≠ '%')
    (hesc : c ≠ esc)
    (hunder : c ≠ '_')
    (rest : List Char) :
    likeItems esc (c :: rest) =
      (likeItems esc rest).map (.lit c :: ·) := by
  cases rest <;> simp [likeItems, hpercent, hesc, hunder]

/-- A text with the escape character before every special one stands for itself. -/
theorem likeItems_escaped
    {esc : Char}
    (hesc : esc ≠ '%')
    (t rest : List Char) :
    likeItems esc (t.flatMap (fun c =>
        if c = esc ∨ c = '%' ∨ c = '_' then [esc, c] else [c]) ++ rest) =
      (likeItems esc rest).map (t.map .lit ++ ·) := by
  induction t with
  | nil =>
      simp
  | cons c t ih =>
      rw [List.flatMap_cons, List.append_assoc]
      split
      case isTrue =>
        rw [List.cons_append, List.singleton_append, likeItems_escape hesc, ih, Option.map_map]
        rfl
      case isFalse hc =>
        rw [not_or, not_or] at hc
        rw [List.singleton_append, likeItems_lit hc.2.1 hc.1 hc.2.2, ih, Option.map_map]
        rfl

/-- SQL: `t LIKE p ESCAPE esc`. -/
def sqlLike
    (esc : Char)
    (t p : String) : Bool :=
  match likeItems esc p.toList with
  | none => false
  | some items => wildMatch caseFoldEq items t.toList

/-- Agreement up to case, of whole texts. -/
theorem forall₂_caseFoldEq_iff
    {p v : List Char} :
    List.Forall₂ (fun c d => caseFoldEq c d = true) p v ↔
      p.map Char.toLower = v.map Char.toLower := by
  rw [← List.forall₂_eq_eq_eq, List.forall₂_map_left_iff, List.forall₂_map_right_iff]
  simp only [caseFoldEq, beq_iff_eq]

end Like

end Library
end CoopMessenger
