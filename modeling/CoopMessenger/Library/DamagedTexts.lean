import CoopMessenger.Library.Json
import Mathlib.Data.Bool.AllAny
import Mathlib.Data.List.Forall2

/-!
# Damaged JSON texts

A text whose characters outside ASCII came out wrong, each as any characters outside
ASCII, or as none.  In a JSON text such characters stand between quotes only, so what
the text denotes keeps its shape, its numbers, and its strings within ASCII.

**Results.**
* `Damages.eq_of_ascii`: a text within ASCII is never damaged.
* `exists_parse_of_damages`: a damaged text denotes a similar value.
-/

namespace CoopMessenger
namespace Library

section Texts

def isASCII (c : Char) : Bool :=
  decide (c.toNat < 128)

/-- The second text is the first one, but for what is outside ASCII. -/
inductive Damages : List Char → List Char → Prop
  | nil : Damages [] []
  | ascii {s t : List Char} (c : Char) (hc : isASCII c = true) (h : Damages s t) :
      Damages (c :: s) (c :: t)
  | other {s t : List Char} (c : Char) (hc : isASCII c = false) (u : List Char)
      (hu : ∀ d ∈ u, isASCII d = false) (h : Damages s t) : Damages (c :: s) (u ++ t)

namespace Damages

/-- A character that comes out right. -/
theorem same
    (c : Char)
    {s t : List Char}
    (h : Damages s t) :
    Damages (c :: s) (c :: t) := by
  cases hc : isASCII c with
  | true =>
      exact ascii c hc h
  | false =>
      exact other c hc [c] (by simpa using hc) h

theorem refl
    (s : List Char) :
    Damages s s := by
  induction s with
  | nil =>
      exact nil
  | cons c s ih =>
      exact same c ih

theorem append
    {s t s' t' : List Char}
    (h : Damages s t)
    (h' : Damages s' t') :
    Damages (s ++ s') (t ++ t') := by
  induction h with
  | nil =>
      exact h'
  | ascii c hc _ ih =>
      exact ascii c hc ih
  | other c hc u hu _ ih =>
      rw [List.append_assoc]
      exact other c hc u hu ih

/-- A text within ASCII is never damaged. -/
theorem eq_of_ascii
    {s t : List Char}
    (h : Damages s t)
    (hs : ∀ c ∈ s, isASCII c = true) :
    t = s := by
  induction h with
  | nil =>
      rfl
  | ascii c _ _ ih =>
      rw [ih (fun d hd => hs d (List.mem_cons_of_mem c hd))]
  | other c hc _ _ _ _ =>
      rw [hs c List.mem_cons_self] at hc
      cases hc

/-- What comes out for the first character, and for the others. -/
theorem exists_of_cons
    {c : Char} {s t : List Char}
    (h : Damages (c :: s) t) :
    ∃ u t', t = u ++ t' ∧ Damages [c] u ∧ Damages s t' := by
  cases h with
  | ascii _ hc h =>
      exact ⟨[c], _, rfl, refl [c], h⟩
  | other _ hc u hu h =>
      refine ⟨u, _, rfl, ?_, h⟩
      have hone := other c hc u hu nil
      rwa [List.append_nil] at hone

theorem exists_of_ascii_cons
    {c : Char} {s t : List Char}
    (h : Damages (c :: s) t)
    (hc : isASCII c = true) :
    ∃ t', t = c :: t' ∧ Damages s t' := by
  cases h with
  | ascii _ _ h =>
      exact ⟨_, rfl, h⟩
  | other _ hc' _ _ _ =>
      rw [hc] at hc'
      cases hc'

/-- A damaged text has the parts that the text has. -/
theorem exists_of_append
    {s s' t : List Char}
    (h : Damages (s ++ s') t) :
    ∃ u u', t = u ++ u' ∧ Damages s u ∧ Damages s' u' := by
  induction s generalizing t with
  | nil =>
      exact ⟨[], t, rfl, nil, h⟩
  | cons c s ih =>
      obtain ⟨v, t', rfl, hc, h'⟩ := exists_of_cons h
      obtain ⟨u, u', rfl, hs, hs'⟩ := ih h'
      exact ⟨v ++ u, u', (List.append_assoc v u u').symm, append hc hs, hs'⟩

/-- No character within ASCII comes out that was not there. -/
theorem mem_of_ascii
    {s t : List Char}
    (h : Damages s t)
    {d : Char}
    (hd : d ∈ t)
    (hascii : isASCII d = true) :
    d ∈ s := by
  induction h with
  | nil =>
      exact hd
  | ascii c _ _ ih =>
      rcases List.mem_cons.mp hd with rfl | hd
      · exact List.mem_cons_self
      · exact List.mem_cons_of_mem c (ih hd)
  | other c _ u hu _ ih =>
      rcases List.mem_append.mp hd with hd | hd
      · rw [hu d hd] at hascii
        cases hascii
      · exact List.mem_cons_of_mem c (ih hd)

/-- What is damaged twice is damaged. -/
theorem trans
    {s t r : List Char}
    (h : Damages s t)
    (h' : Damages t r) :
    Damages s r := by
  induction h generalizing r with
  | nil =>
      exact h'
  | ascii c hc _ ih =>
      obtain ⟨r', rfl, hrest⟩ := h'.exists_of_ascii_cons hc
      exact ascii c hc (ih hrest)
  | other c hc u hu _ ih =>
      obtain ⟨v, r', rfl, hv, hrest⟩ := h'.exists_of_append
      refine other c hc v (fun d hd => ?_) (ih hrest)
      rw [Bool.eq_false_iff]
      intro hascii
      have hmem := hu d (hv.mem_of_ascii hd hascii)
      rw [hascii] at hmem
      cases hmem

/-- A damaged text has the same separators within ASCII, and damaged parts. -/
theorem exists_of_append_cons
    {s s' t : List Char} {c : Char}
    (h : Damages (s ++ c :: s') t)
    (hc : isASCII c = true) :
    ∃ u u', t = u ++ c :: u' ∧ Damages s u ∧ Damages s' u' := by
  obtain ⟨u, v, rfl, hs, hv⟩ := h.exists_of_append
  obtain ⟨u', rfl, hs'⟩ := hv.exists_of_ascii_cons hc
  exact ⟨u, u', rfl, hs, hs'⟩

end Damages

end Texts

namespace Json

section Values

/-- The shape, the numbers and what is within ASCII agree. -/
inductive Similar : Json → Json → Prop
  | null : Similar .null .null
  | bool (b : Bool) : Similar (.bool b) (.bool b)
  | num (literal : List Char) : Similar (.num literal) (.num literal)
  | str (s t : String) (h : Damages s.toList t.toList) : Similar (.str s) (.str t)
  | arr (items items' : List Json) (h : List.Forall₂ Similar items items') :
      Similar (.arr items) (.arr items')
  | obj (members members' : List (String × Json))
      (hnames : List.Forall₂ (fun m m' => Damages m.1.toList m'.1.toList) members members')
      (h : List.Forall₂ Similar (members.map Prod.snd) (members'.map Prod.snd)) :
      Similar (.obj members) (.obj members')

/-- Members with similar names and values. -/
def SimilarMember (m m' : String × Json) : Prop :=
  Damages m.1.toList m'.1.toList ∧ Similar m.2 m'.2

theorem Similar.ofMembers
    {members members' : List (String × Json)}
    (h : List.Forall₂ SimilarMember members members') :
    Similar (.obj members) (.obj members') := by
  refine .obj members members' (h.imp fun _ _ hm => hm.1) ?_
  rw [List.forall₂_map_left_iff, List.forall₂_map_right_iff]
  exact h.imp fun _ _ hm => hm.2

/-- A string within ASCII is what it was. -/
theorem Similar.eq_of_ascii
    {s : String} {j : Json}
    (h : Similar (.str s) j)
    (hs : ∀ c ∈ s.toList, isASCII c = true) :
    j = .str s := by
  cases h with
  | str _ t h =>
      rw [String.toList_inj.mp (h.eq_of_ascii hs)]

end Values

section Units

/-- What the lexer collects between quotes, where characters came out wrong. -/
inductive DamagesUnits : List CodeUnit → List CodeUnit → Prop
  | nil : DamagesUnits [] []
  | unit {us vs : List CodeUnit} (n : Nat) (h : DamagesUnits us vs) :
      DamagesUnits (.unit n :: us) (.unit n :: vs)
  | ascii {us vs : List CodeUnit} (c : Char) (hc : isASCII c = true)
      (h : DamagesUnits us vs) : DamagesUnits (.char c :: us) (.char c :: vs)
  | other {us vs : List CodeUnit} (c : Char) (hc : isASCII c = false) (u : List Char)
      (hu : ∀ d ∈ u, isASCII d = false) (h : DamagesUnits us vs) :
      DamagesUnits (.char c :: us) (u.map .char ++ vs)

theorem DamagesUnits.append
    {us vs us' vs' : List CodeUnit}
    (h : DamagesUnits us vs)
    (h' : DamagesUnits us' vs') :
    DamagesUnits (us ++ us') (vs ++ vs') := by
  induction h with
  | nil =>
      exact h'
  | unit n _ ih =>
      exact unit n ih
  | ascii c hc _ ih =>
      exact ascii c hc ih
  | other c hc u hu _ ih =>
      rw [List.append_assoc]
      exact other c hc u hu ih

theorem combine_map_char
    (u : List Char)
    (vs : List CodeUnit) :
    combine (u.map .char ++ vs) = u ++ combine vs := by
  induction u with
  | nil =>
      rfl
  | cons c u ih =>
      rw [List.map_cons, List.cons_append, combine, ih, List.cons_append]

/-- Two halves that belong together, or a half and whatever follows it. -/
theorem combine_unit_cases
    (n : Nat)
    (us : List CodeUnit) :
    combine (.unit n :: us) = ofUnit n :: combine us ∨
      ∃ l rest c, us = .unit l :: rest ∧ combine (.unit n :: us) = c :: combine rest ∧
        combine us = ofUnit l :: combine rest ∧ isASCII c = false ∧
        isASCII (ofUnit n) = false ∧ isASCII (ofUnit l) = false := by
  cases us with
  | nil =>
      exact Or.inl rfl
  | cons u rest =>
      cases u with
      | char c =>
          exact Or.inl rfl
      | unit l =>
          by_cases hpair : (isHighSurrogate n && isLowSurrogate l) = true
          · obtain ⟨hhigh, hlow⟩ := (Bool.and_eq_true _ _).mp hpair
            have hn : ofUnit n = '\ufffd' := by rw [ofUnit, hhigh]; rfl
            have hl : ofUnit l = '\ufffd' := by rw [ofUnit, hlow, Bool.or_true]; rfl
            have hlhigh : isHighSurrogate l = false := by
              simp only [isLowSurrogate, Bool.and_eq_true, decide_eq_true_eq] at hlow
              simp only [isHighSurrogate, Bool.and_eq_false_iff, decide_eq_false_iff_not]
              omega
            refine Or.inr ⟨l, rest, _, rfl, by rw [combine, if_pos hpair],
              combine_unit hlhigh rest, ?_, by rw [hn]; rfl, by rw [hl]; rfl⟩
            simp only [isHighSurrogate, isLowSurrogate, Bool.and_eq_true,
              decide_eq_true_eq] at hhigh hlow
            have hvalid : (0x10000 + (n - 0xd800) * 0x400 + (l - 0xdc00)).isValidChar := by
              refine Or.inr ⟨?_, ?_⟩ <;> omega
            rw [isASCII, decide_eq_false_iff_not, Char.ofNat, dif_pos hvalid]
            show ¬ 0x10000 + (n - 0xd800) * 0x400 + (l - 0xdc00) < 128
            omega
          · exact Or.inl (by rw [combine, if_neg hpair])

/-- A half in front of a character that got lost. -/
theorem damages_lost
    {n : Nat} {c : Char} {us : List CodeUnit} {t : List Char}
    (hc : isASCII c = false)
    (h : Damages (combine (.unit n :: us)) t) :
    Damages (ofUnit n :: c :: combine us) t := by
  rcases combine_unit_cases n us with halone | ⟨l, rest, d, rfl, hpair, hrest, hd, hn, hl⟩
  · rw [halone] at h
    obtain ⟨u, t', rfl, hfirst, h⟩ := h.exists_of_cons
    exact hfirst.append (.other c hc [] (by simp) h)
  · rw [hpair] at h
    cases h with
    | ascii _ hascii _ =>
        rw [hascii] at hd
        cases hd
    | other _ _ u hu h =>
        rw [hrest]
        exact .other _ hn u hu (.other c hc [] (by simp) (.other _ hl [] (by simp) h))

/-- The strings that come out; a half may stand in front of them. -/
theorem DamagesUnits.combine
    {us vs : List CodeUnit}
    (h : DamagesUnits us vs) :
    Damages (combine us) (combine vs) ∧
      ∀ n, Damages (Json.combine (.unit n :: us)) (Json.combine (.unit n :: vs)) := by
  induction h with
  | nil =>
      exact ⟨.nil, fun n => .refl _⟩
  | @unit us vs m _ ih =>
      refine ⟨ih.2 m, fun n => ?_⟩
      rw [Json.combine, Json.combine]
      split
      · exact .same _ ih.1
      · exact .same _ (ih.2 m)
  | ascii c hc _ ih =>
      exact ⟨.ascii c hc ih.1, fun n => .same (ofUnit n) (.ascii c hc ih.1)⟩
  | other c hc u hu _ ih =>
      refine ⟨?_, fun n => ?_⟩
      · rw [combine_map_char]
        exact .other c hc u hu ih.1
      · cases u with
        | nil =>
            exact damages_lost hc (ih.2 n)
        | cons d u =>
            have hchars := Damages.other c hc (d :: u) hu ih.1
            rw [← combine_map_char] at hchars
            exact .same (ofUnit n) hchars

end Units

section Lexing

/-- Tokens with similar values. -/
def SimilarToken : Token → Token → Prop
  | .value j, .value j' => Similar j j'
  | t, t' => t = t'

/-- The lexer is in the middle of the same, but for what it collects between quotes. -/
inductive SimilarMode : Mode → Mode → Prop
  | between : SimilarMode .between .between
  | word (rest : List Char) (t : Token) (hrest : ∀ x ∈ rest, isASCII x = true)
      (ht : SimilarToken t t) : SimilarMode (.word rest t) (.word rest t)
  | number (digits : List Char) : SimilarMode (.number digits) (.number digits)
  | string {us vs : List CodeUnit} (h : DamagesUnits us vs) :
      SimilarMode (.string us) (.string vs)
  | escaped {us vs : List CodeUnit} (h : DamagesUnits us vs) :
      SimilarMode (.escaped us) (.escaped vs)
  | hex {us vs : List CodeUnit} (digits : List Nat) (h : DamagesUnits us vs) :
      SimilarMode (.hex us digits) (.hex vs digits)

theorem DamagesUnits.concat_char
    {us vs : List CodeUnit}
    (h : DamagesUnits us vs)
    (c : Char) :
    DamagesUnits (us ++ [.char c]) (vs ++ [.char c]) := by
  refine h.append ?_
  cases hc : isASCII c with
  | true => exact .ascii c hc .nil
  | false => exact .other c hc [c] (by simpa using hc) .nil

theorem similar_startToken
    {c : Char} {tokens : List Token} {mode : Mode}
    (h : startToken c = some (tokens, mode)) :
    List.Forall₂ SimilarToken tokens tokens ∧ SimilarMode mode mode := by
  unfold startToken at h
  split at h
  · cases h
    exact ⟨.nil, .between⟩
  · split at h
    · cases h
      exact ⟨.nil, .number [c]⟩
    · split at h
      case h_7 =>
        cases h
        exact ⟨.nil, .string .nil⟩
      case h_8 =>
        cases h
        exact ⟨.nil, .word _ _ (List.all_iff_forall_prop.mp (by decide)) (Similar.bool true)⟩
      case h_9 =>
        cases h
        exact ⟨.nil, .word _ _ (List.all_iff_forall_prop.mp (by decide)) (Similar.bool false)⟩
      case h_10 =>
        cases h
        exact ⟨.nil, .word _ _ (List.all_iff_forall_prop.mp (by decide)) Similar.null⟩
      case h_11 =>
        cases h
      all_goals
        cases h
        exact ⟨.cons rfl .nil, .between⟩

/-- A token starts within ASCII. -/
theorem isASCII_of_startToken
    {c : Char}
    (h : (startToken c).isSome = true) :
    isASCII c = true := by
  unfold startToken at h
  split at h
  case isTrue hspace =>
    simp only [List.mem_cons, List.not_mem_nil, or_false] at hspace
    rcases hspace with rfl | rfl | rfl | rfl <;> rfl
  case isFalse =>
    split at h
    case isTrue hdigit =>
      simp only [Bool.or_eq_true, Char.isDigit_iff_toNat, beq_iff_eq] at hdigit
      rw [isASCII, decide_eq_true_eq]
      rcases hdigit with ⟨-, hle⟩ | rfl
      · have hnine : '9'.toNat = 57 := rfl
        omega
      · decide
    case isFalse =>
      split at h <;> first | rfl | cases h

/-- One character, in similar modes. -/
theorem similar_lexChar
    {mode mode' next : Mode} {tokens : List Token} {c : Char}
    (h : SimilarMode mode mode')
    (hread : lexChar mode c = some (tokens, next)) :
    ∃ tokens' next', lexChar mode' c = some (tokens', next') ∧
      List.Forall₂ SimilarToken tokens tokens' ∧ SimilarMode next next' := by
  cases h with
  | between =>
      exact ⟨tokens, next, hread, similar_startToken hread⟩
  | word rest t hrest ht =>
      refine ⟨tokens, next, hread, ?_⟩
      cases rest with
      | nil =>
          cases hread
      | cons x rest =>
          cases rest with
          | nil =>
              rw [lexChar] at hread
              split at hread
              · cases hread
                exact ⟨.cons ht .nil, .between⟩
              · cases hread
          | cons y rest =>
              rw [lexChar] at hread
              · split at hread
                · cases hread
                  exact ⟨.nil, .word _ t (fun z hz => hrest z (List.mem_cons_of_mem x hz)) ht⟩
                · cases hread
              · simp
  | number digits =>
      refine ⟨tokens, next, hread, ?_⟩
      rw [lexChar] at hread
      split at hread
      · cases hread
        exact ⟨.nil, .number _⟩
      · split at hread
        · obtain ⟨⟨more, mode⟩, hstart, hp⟩ := Option.map_eq_some_iff.mp hread
          cases hp
          obtain ⟨hmore, hmode⟩ := similar_startToken hstart
          exact ⟨.cons (Similar.num digits) hmore, hmode⟩
        · cases hread
  | @string us vs h =>
      rw [lexChar] at hread ⊢
      split at hread
      case isTrue hquote =>
        cases hread
        refine ⟨_, _, if_pos hquote, .cons ?_ .nil, .between⟩
        refine Similar.str _ _ ?_
        rw [String.toList_ofList, String.toList_ofList]
        exact h.combine.1
      case isFalse hquote =>
        split at hread
        case isTrue hback =>
          cases hread
          exact ⟨[], .escaped vs, by rw [if_neg hquote, if_pos hback], .nil, .escaped h⟩
        case isFalse hback =>
          split at hread
          case isTrue =>
            cases hread
          case isFalse hcontrol =>
            cases hread
            exact ⟨[], _, by rw [if_neg hquote, if_neg hback, if_neg hcontrol], .nil,
              .string (h.concat_char c)⟩
  | @escaped us vs h =>
      rw [lexChar] at hread ⊢
      split at hread
      case isTrue hu =>
        cases hread
        exact ⟨[], _, if_pos hu, .nil, .hex [] h⟩
      case isFalse hu =>
        obtain ⟨d, hd, hp⟩ := Option.map_eq_some_iff.mp hread
        cases hp
        exact ⟨[], _, by rw [if_neg hu, hd]; rfl, .nil, .string (h.concat_char d)⟩
  | @hex us vs digits h =>
      rw [lexChar] at hread ⊢
      obtain ⟨d, hd, hp⟩ := Option.map_eq_some_iff.mp hread
      rw [hd, Option.map_some]
      split at hp
      case isTrue hlength =>
        cases hp
        exact ⟨[], _, by rw [if_pos hlength], .nil,
          .string (h.append (.unit _ .nil))⟩
      case isFalse hlength =>
        cases hp
        exact ⟨[], _, by rw [if_neg hlength], .nil, .hex _ h⟩

theorem isASCII_of_le
    {c d : Char}
    (h : c ≤ d)
    (hd : isASCII d = true) :
    isASCII c = true := by
  rw [isASCII, decide_eq_true_eq] at hd ⊢
  exact Nat.lt_of_le_of_lt (UInt32.le_iff_toNat_le.mp h) hd

theorem isASCII_of_hexValue
    {c : Char}
    (h : (hexValue c).isSome = true) :
    isASCII c = true := by
  unfold hexValue at h
  split at h
  case isTrue hdigit =>
    simp only [Char.isDigit_iff_toNat] at hdigit
    rw [isASCII, decide_eq_true_eq]
    have hnine : '9'.toNat = 57 := rfl
    omega
  case isFalse =>
    split at h
    case isTrue hlower =>
      exact isASCII_of_le hlower.2 rfl
    case isFalse =>
      split at h
      case isTrue hupper => exact isASCII_of_le hupper.2 rfl
      case isFalse => cases h

theorem isASCII_of_ofShortEscape
    {c : Char}
    (h : (ofShortEscape c).isSome = true) :
    isASCII c = true := by
  unfold ofShortEscape at h
  split at h <;> first | rfl | cases h

theorem isASCII_of_isNumberChar
    {c : Char}
    (h : isNumberChar c = true) :
    isASCII c = true := by
  simp only [isNumberChar, Bool.or_eq_true, decide_eq_true_eq, List.mem_cons,
    List.not_mem_nil, or_false] at h
  rcases h with hdigit | rfl | rfl | rfl | rfl | rfl
  · simp only [Char.isDigit_iff_toNat] at hdigit
    rw [isASCII, decide_eq_true_eq]
    have hnine : '9'.toNat = 57 := rfl
    omega
  all_goals rfl

/-- What is outside ASCII is read between quotes only. -/
theorem string_of_lexChar
    {mode mode' next : Mode} {tokens : List Token} {c : Char}
    (h : SimilarMode mode mode')
    (hc : isASCII c = false)
    (hread : lexChar mode c = some (tokens, next)) :
    ∃ us vs, mode' = .string vs ∧ DamagesUnits us vs ∧ tokens = [] ∧
      next = .string (us ++ [.char c]) := by
  have hstart : startToken c = none := by
    rw [← Option.not_isSome_iff_eq_none]
    intro hsome
    rw [isASCII_of_startToken hsome] at hc
    cases hc
  cases h with
  | between =>
      rw [lexChar, hstart] at hread
      cases hread
  | word rest t hrest ht =>
      have hne : ∀ x ∈ rest, c ≠ x := by
        rintro x hx rfl
        rw [hrest c hx] at hc
        cases hc
      cases rest with
      | nil =>
          cases hread
      | cons x rest =>
          have hx := hne x List.mem_cons_self
          cases rest <;> simp [lexChar, hx] at hread
  | number digits =>
      have hnumber : isNumberChar c = false := by
        rw [Bool.eq_false_iff]
        intro h
        rw [isASCII_of_isNumberChar h] at hc
        cases hc
      simp [lexChar, hnumber, hstart] at hread
  | @string us vs h =>
      refine ⟨us, vs, rfl, h, ?_⟩
      have hquote : c ≠ '"' ∧ c ≠ '\\' := by
        refine ⟨?_, ?_⟩ <;> rintro rfl <;> cases hc
      have hlarge : ¬ c.toNat < 0x20 := by
        rw [isASCII, decide_eq_false_iff_not] at hc
        omega
      rw [lexChar, if_neg hquote.1, if_neg hquote.2, if_neg hlarge] at hread
      cases hread
      exact ⟨rfl, rfl⟩
  | escaped h =>
      have hu : c ≠ 'u' := by
        rintro rfl
        cases hc
      have hshort : ofShortEscape c = none := by
        rw [← Option.not_isSome_iff_eq_none]
        intro hsome
        rw [isASCII_of_ofShortEscape hsome] at hc
        cases hc
      simp [lexChar, hu, hshort] at hread
  | hex digits h =>
      have hvalue : hexValue c = none := by
        rw [← Option.not_isSome_iff_eq_none]
        intro hsome
        rw [isASCII_of_hexValue hsome] at hc
        cases hc
      simp [lexChar, hvalue] at hread

/-- What is outside ASCII is collected between quotes. -/
theorem lex_others
    {u : List Char}
    (hu : ∀ d ∈ u, isASCII d = false)
    (vs : List CodeUnit)
    (t : List Char) :
    lex (.string vs) (u ++ t) = lex (.string (vs ++ u.map .char)) t := by
  induction u generalizing vs with
  | nil =>
      rw [List.nil_append, List.map_nil, List.append_nil]
  | cons d u ih =>
      have hd := hu d List.mem_cons_self
      have hquote : d ≠ '"' ∧ d ≠ '\\' := by
        refine ⟨?_, ?_⟩ <;> rintro rfl <;> cases hd
      have hlarge : ¬ d.toNat < 0x20 := by
        rw [isASCII, decide_eq_false_iff_not] at hd
        omega
      have hrest := ih (fun e he => hu e (List.mem_cons_of_mem d he)) (vs ++ [.char d])
      rw [List.cons_append, lex_cons, lexChar, if_neg hquote.1, if_neg hquote.2,
        if_neg hlarge, Option.bind_some, hrest, List.append_assoc]
      simp

/-- The tokens of a damaged text. -/
theorem exists_lex_of_damages
    {s t : List Char}
    (h : Damages s t)
    {mode mode' : Mode} {tokens : List Token}
    (hmode : SimilarMode mode mode')
    (hlex : lex mode s = some tokens) :
    ∃ tokens', lex mode' t = some tokens' ∧ List.Forall₂ SimilarToken tokens tokens' := by
  induction h generalizing mode mode' tokens with
  | nil =>
      cases hmode with
      | between =>
          cases hlex
          exact ⟨[], rfl, .nil⟩
      | number digits =>
          refine ⟨tokens, hlex, ?_⟩
          rw [lex] at hlex
          split at hlex
          · cases hlex
            exact .cons (Similar.num digits) .nil
          · cases hlex
      | word _ _ _ _ => cases hlex
      | string _ => cases hlex
      | escaped _ => cases hlex
      | hex _ _ => cases hlex
  | ascii c _ _ ih =>
      rw [lex_cons] at hlex
      obtain ⟨⟨first, next⟩, hread, hrest⟩ := Option.bind_eq_some_iff.mp hlex
      obtain ⟨more, hmore, rfl⟩ := Option.map_eq_some_iff.mp hrest
      obtain ⟨first', next', hread', hfirst, hnext⟩ := similar_lexChar hmode hread
      obtain ⟨more', hmore', hsimilar⟩ := ih hnext hmore
      refine ⟨first' ++ more', ?_, List.rel_append hfirst hsimilar⟩
      rw [lex_cons, hread', Option.bind_some, hmore', Option.map_some]
  | other c hc u hu _ ih =>
      rw [lex_cons] at hlex
      obtain ⟨⟨first, next⟩, hread, hrest⟩ := Option.bind_eq_some_iff.mp hlex
      obtain ⟨more, hmore, rfl⟩ := Option.map_eq_some_iff.mp hrest
      obtain ⟨us, vs, rfl, hunits, rfl, rfl⟩ := string_of_lexChar hmode hc hread
      have hother : DamagesUnits [.char c] (u.map .char) := by
        have hone := DamagesUnits.other c hc u hu .nil
        rwa [List.append_nil] at hone
      obtain ⟨more', hmore', hsimilar⟩ := ih (.string (hunits.append hother)) hmore
      exact ⟨more', by rw [lex_others hu, hmore'], hsimilar⟩

end Lexing

section Feeding

/-- Arrays and objects that are not closed yet, with similar contents. -/
inductive SimilarFrame : Frame → Frame → Prop
  | array {items items' : List Json} (h : List.Forall₂ Similar items items') :
      SimilarFrame (.array items) (.array items')
  | object {members members' : List (String × Json)} {key key' : String}
      (h : List.Forall₂ SimilarMember members members')
      (hkey : Damages key.toList key'.toList) :
      SimilarFrame (.object members key) (.object members' key')

inductive SimilarState : State → State → Prop
  | value {stack stack' : List Frame} (hs : List.Forall₂ SimilarFrame stack stack') :
      SimilarState (.value stack) (.value stack')
  | firstItem {stack stack' : List Frame} (hs : List.Forall₂ SimilarFrame stack stack') :
      SimilarState (.firstItem stack) (.firstItem stack')
  | firstKey {stack stack' : List Frame} (hs : List.Forall₂ SimilarFrame stack stack') :
      SimilarState (.firstKey stack) (.firstKey stack')
  | key {members members' : List (String × Json)} {stack stack' : List Frame}
      (h : List.Forall₂ SimilarMember members members')
      (hs : List.Forall₂ SimilarFrame stack stack') :
      SimilarState (.key members stack) (.key members' stack')
  | colon {members members' : List (String × Json)} {key key' : String}
      {stack stack' : List Frame} (h : List.Forall₂ SimilarMember members members')
      (hkey : Damages key.toList key'.toList) (hs : List.Forall₂ SimilarFrame stack stack') :
      SimilarState (.colon members key stack) (.colon members' key' stack')
  | after {j j' : Json} {stack stack' : List Frame} (hj : Similar j j')
      (hs : List.Forall₂ SimilarFrame stack stack') :
      SimilarState (.after j stack) (.after j' stack')

/-- A token that is no value comes out as it is. -/
theorem SimilarToken.eq
    {t t' : Token}
    (h : SimilarToken t t')
    (ht : ∀ j, t ≠ .value j) :
    t' = t := by
  cases t with
  | value j => exact absurd rfl (ht j)
  | _ => exact h.symm

theorem SimilarToken.exists_value
    {j : Json} {t' : Token}
    (h : SimilarToken (.value j) t') :
    ∃ j', t' = .value j' ∧ Similar j j' := by
  cases t' with
  | value j' => exact ⟨j', rfl, h⟩
  | _ => exact Token.noConfusion h

theorem similar_feedValue
    {stack stack' : List Frame} {t t' : Token} {r : State}
    (hs : List.Forall₂ SimilarFrame stack stack')
    (ht : SimilarToken t t')
    (h : feedValue stack t = some r) :
    ∃ r', feedValue stack' t' = some r' ∧ SimilarState r r' := by
  have hlength := hs.length_eq
  cases t with
  | value j =>
      obtain ⟨j', rfl, hj⟩ := ht.exists_value
      cases h
      exact ⟨_, rfl, .after hj hs⟩
  | openArray =>
      cases ht.eq (by simp)
      rw [feedValue] at h ⊢
      split at h
      case isTrue hdepth =>
        cases h
        exact ⟨_, if_pos (hlength ▸ hdepth), .firstItem hs⟩
      case isFalse => cases h
  | openObject =>
      cases ht.eq (by simp)
      rw [feedValue] at h ⊢
      split at h
      case isTrue hdepth =>
        cases h
        exact ⟨_, if_pos (hlength ▸ hdepth), .firstKey hs⟩
      case isFalse => cases h
  | _ => cases h

/-- What may follow a value that is complete. -/
theorem similar_feedAfter
    {j j' : Json} {stack stack' : List Frame} {t t' : Token} {r : State}
    (hj : Similar j j')
    (hs : List.Forall₂ SimilarFrame stack stack')
    (ht : SimilarToken t t')
    (h : feed (.after j stack) t = some r) :
    ∃ r', feed (.after j' stack') t' = some r' ∧ SimilarState r r' := by
  cases hs with
  | nil =>
      cases t <;> cases h
  | cons hf hs =>
      cases hf with
      | array hitems =>
          have hmore := List.rel_append hitems (.cons hj .nil)
          cases t with
          | comma =>
              cases h
              cases ht.eq (by simp)
              exact ⟨_, rfl, .value (.cons (.array hmore) hs)⟩
          | closeArray =>
              cases h
              cases ht.eq (by simp)
              exact ⟨_, rfl, .after (.arr _ _ hmore) hs⟩
          | _ => cases h
      | @object members members' k k' hmembers hkey =>
          have hmember : SimilarMember (k, j) (k', j') := ⟨hkey, hj⟩
          have hmore := List.rel_append hmembers (.cons hmember .nil)
          cases t with
          | comma =>
              cases h
              cases ht.eq (by simp)
              exact ⟨_, rfl, .key hmore hs⟩
          | closeObject =>
              cases h
              cases ht.eq (by simp)
              exact ⟨_, rfl, .after (Similar.ofMembers hmore) hs⟩
          | _ => cases h

theorem similar_feed
    {s s' : State} {t t' : Token} {r : State}
    (hs : SimilarState s s')
    (ht : SimilarToken t t')
    (h : feed s t = some r) :
    ∃ r', feed s' t' = some r' ∧ SimilarState r r' := by
  cases hs with
  | value hs =>
      exact similar_feedValue hs ht h
  | after hj hs =>
      exact similar_feedAfter hj hs ht h
  | firstItem hs =>
      have hvalue := @similar_feedValue _ _ t t' r (.cons (.array .nil) hs) ht
      cases t with
      | closeArray =>
          cases h
          cases ht.eq (by simp)
          exact ⟨_, rfl, .after (.arr [] [] .nil) hs⟩
      | value j =>
          obtain ⟨j', rfl, -⟩ := ht.exists_value
          exact hvalue h
      | _ =>
          cases ht.eq (by simp)
          exact hvalue h
  | firstKey hs =>
      cases t with
      | closeObject =>
          cases h
          cases ht.eq (by simp)
          exact ⟨_, rfl, .after (Similar.ofMembers .nil) hs⟩
      | value j =>
          obtain ⟨j', rfl, hj⟩ := ht.exists_value
          cases hj with
          | str k k' hk =>
              cases h
              exact ⟨_, rfl, .colon .nil hk hs⟩
          | _ => cases h
      | _ => cases h
  | key hmembers hs =>
      cases t with
      | value j =>
          obtain ⟨j', rfl, hj⟩ := ht.exists_value
          cases hj with
          | str k k' hk =>
              cases h
              exact ⟨_, rfl, .colon hmembers hk hs⟩
          | _ => cases h
      | _ => cases h
  | colon hmembers hkey hs =>
      cases t with
      | colon =>
          cases h
          cases ht.eq (by simp)
          exact ⟨_, rfl, .value (.cons (.object hmembers hkey) hs)⟩
      | _ => cases h

theorem similar_foldlM_feed
    {tokens tokens' : List Token}
    (htokens : List.Forall₂ SimilarToken tokens tokens')
    {s s' r : State}
    (hs : SimilarState s s')
    (h : tokens.foldlM feed s = some r) :
    ∃ r', tokens'.foldlM feed s' = some r' ∧ SimilarState r r' := by
  induction htokens generalizing s s' with
  | nil =>
      cases h
      exact ⟨s', rfl, hs⟩
  | cons ht _ ih =>
      rw [List.foldlM_cons] at h
      obtain ⟨next, hfeed, hrest⟩ := Option.bind_eq_some_iff.mp h
      obtain ⟨next', hfeed', hnext⟩ := similar_feed hs ht hfeed
      obtain ⟨r', hr', hsimilar⟩ := ih hnext hrest
      refine ⟨r', ?_, hsimilar⟩
      rw [List.foldlM_cons, hfeed']
      exact hr'

/-- A damaged text denotes a similar value. -/
theorem exists_parse_of_damages
    {s t : List Char} {j : Json}
    (h : Damages s t)
    (hparse : parse s = some j) :
    ∃ j', parse t = some j' ∧ Similar j j' := by
  obtain ⟨tokens, hlex, hof⟩ := Option.bind_eq_some_iff.mp hparse
  obtain ⟨tokens', hlex', htokens⟩ := exists_lex_of_damages h .between hlex
  unfold ofTokens at hof
  split at hof
  case h_1 _ k hfold =>
    cases hof
    obtain ⟨r', hr', hsimilar⟩ := similar_foldlM_feed htokens (.value .nil) hfold
    cases hsimilar with
    | @after _ j' _ _ hj hs =>
        cases hs
        refine ⟨j', ?_, hj⟩
        rw [parse, hlex', Option.bind_some, ofTokens, hr']
  case h_2 =>
    cases hof

end Feeding

section Fields

/-- The value under a name; of several, the last one. -/
def field?
    (name : String) : Json → Option Json
  | .obj members => (members.reverse.find? (fun m => m.1 = name)).map Prod.snd
  | _ => none

theorem field?_of_mem
    {members : List (String × Json)} {name : String} {j : Json}
    (hnodup : (members.map Prod.fst).Nodup)
    (hmem : (name, j) ∈ members) :
    (Json.obj members).field? name = some j := by
  have hfind : members.reverse.find? (fun m => m.1 = name) = some (name, j) := by
    rw [List.find?_eq_some_iff_append]
    obtain ⟨before, after, rfl⟩ := List.append_of_mem hmem
    refine ⟨by simp, after.reverse, before.reverse, by simp, fun m hm => ?_⟩
    rw [List.map_append, List.map_cons, List.nodup_append, List.nodup_cons] at hnodup
    have hne : m.1 ≠ name := by
      rintro rfl
      exact hnodup.2.1.1 (List.mem_map.mpr ⟨m, List.mem_reverse.mp hm, rfl⟩)
    simpa using hne
  rw [field?, hfind, Option.map_some]

/-- A similar object has similar fields, under names within ASCII. -/
theorem Similar.exists_field
    {members : List (String × Json)} {j : Json}
    (h : Similar (.obj members) j)
    (hnames : ∀ m ∈ members, ∀ c ∈ m.1.toList, isASCII c = true)
    {name : String} {v : Json}
    (hv : (Json.obj members).field? name = some v) :
    ∃ v', j.field? name = some v' ∧ Similar v v' := by
  cases h with
  | obj _ members' hkeys hvalues =>
      rw [List.forall₂_map_left_iff, List.forall₂_map_right_iff] at hvalues
      have hfind : ∀ {l l' : List (String × Json)},
          List.Forall₂ (fun m m' => m'.1 = m.1 ∧ Similar m.2 m'.2) l l' →
          ∀ v, (l.find? (fun m => m.1 = name)).map Prod.snd = some v →
            ∃ v', (l'.find? (fun m => m.1 = name)).map Prod.snd = some v' ∧
              Similar v v' := by
        intro l l' hl
        induction hl with
        | nil =>
            exact fun v hv => absurd hv (by simp)
        | @cons m m' l l' hm _ ih =>
            intro v hv
            rw [List.find?_cons] at hv ⊢
            rw [hm.1]
            by_cases hname : m.1 = name
            · simp only [hname, decide_true, Option.map_some] at hv ⊢
              cases hv
              exact ⟨m'.2, rfl, hm.2⟩
            · simp only [hname, decide_false] at hv ⊢
              exact ih v hv
      have hsame : List.Forall₂ (fun m m' => m'.1 = m.1 ∧ Similar m.2 m'.2)
          members members' := by
        clear hv
        induction hkeys with
        | nil =>
            exact .nil
        | @cons m m' _ _ hkey _ ih =>
            cases hvalues with
            | cons hvalue hvalues =>
                refine .cons ⟨?_, hvalue⟩
                  (ih (fun k hk => hnames k (List.mem_cons_of_mem m hk)) hvalues)
                exact String.toList_inj.mp (hkey.eq_of_ascii (hnames m List.mem_cons_self))
      exact hfind (List.rel_reverse hsame) v hv

end Fields

end Json

end Library
end CoopMessenger
