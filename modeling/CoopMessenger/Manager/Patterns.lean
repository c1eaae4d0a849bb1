import CoopMessenger.Library.Wildcard
import CoopMessenger.Manager.Types

/-!
# Stored topic patterns

The access table keeps topic patterns as SQL `LIKE` patterns: `toSQLWildcard`
turns `*` into `%` and escapes `_` with a backslash, `fromSQLWildcard` undoes
it.  `StoredPattern` is the type of the column: only the stored form of an
allowed pattern can be written.

**Results.**
* `fromSQLWildcard_toSQLWildcard`: the user-visible pattern is recovered.
* `sqlLike_toSQLWildcard`: the stored form matches what the glob matches, up to
  the case of ASCII letters.
* `pattern_encoding`: distinct allowed patterns are stored as distinct texts, and
  each of them matches the topics that its glob does.
* `length_toSQLWildcard`: every underscore counts twice in the stored form.
-/

namespace CoopMessenger
namespace Manager

open Library

/-- Every `_` becomes `\_`. -/
def escapeUnderscoreChars
    (s : List Char) : List Char :=
  s.flatMap (fun c => if c = '_' then ['\\', '_'] else [c])

/-- Every `\_` becomes `_`. -/
def unescapeUnderscoreChars :
    List Char → List Char
  | [] => []
  | [c] => [c]
  | c :: d :: rest =>
      if c = '\\' ∧ d = '_' then
        '_' :: unescapeUnderscoreChars rest
      else
        c :: unescapeUnderscoreChars (d :: rest)

/-- Replace one character by another everywhere. -/
def replaceChar
    (old new : Char)
    (s : List Char) : List Char :=
  s.map (fun c => if c = old then new else c)

def escapeUnderscore (s : String) : String :=
  String.ofList (escapeUnderscoreChars s.toList)

def unescapeUnderscore (s : String) : String :=
  String.ofList (unescapeUnderscoreChars s.toList)

/-- Converts a wildcard string to a SQL wildcard string. -/
def toSQLWildcard (s : String) : String :=
  escapeUnderscore (String.ofList (replaceChar '*' '%' s.toList))

/-- Converts a SQL wildcard string to a wildcard string. -/
def fromSQLWildcard (s : String) : String :=
  String.ofList (replaceChar '%' '*' (unescapeUnderscore s).toList)

/-- The characters that have a meaning of their own in a stored pattern only. -/
def plainChar (c : Char) : Prop :=
  c ≠ '%' ∧ c ≠ '\\'

/-- An allowed pattern contains neither `%` nor the escape character. -/
theorem plainChar_of_allowedTopicPattern
    {p : String}
    (h : allowedTopicPattern p = true) :
    ∀ c ∈ p.toList, plainChar c := by
  intro c hc
  simp only [allowedTopicPattern, Bool.and_eq_true, List.all_eq_true] at h
  have hchar := h.2 c hc
  constructor
  · rintro rfl
    exact absurd hchar (by decide)
  · rintro rfl
    exact absurd hchar (by decide)

section Characters

@[simp] theorem escapeUnderscoreChars_nil :
    escapeUnderscoreChars [] = [] := by
  rfl

@[simp] theorem escapeUnderscoreChars_cons
    (c : Char) (s : List Char) :
    escapeUnderscoreChars (c :: s) =
      (if c = '_' then ['\\', '_'] else [c]) ++
        escapeUnderscoreChars s := by
  rfl

/-- Only a backslash makes the unescaping look at the next character. -/
theorem unescapeUnderscoreChars_cons
    {c : Char}
    (hc : c ≠ '\\')
    (s : List Char) :
    unescapeUnderscoreChars (c :: s) =
      c :: unescapeUnderscoreChars s := by
  cases s with
  | nil =>
      rfl
  | cons d rest =>
      simp [unescapeUnderscoreChars, hc]

/-- Unescaping undoes escaping on text without backslashes. -/
theorem unescape_escapeUnderscoreChars
    {s : List Char}
    (hs : '\\' ∉ s) :
    unescapeUnderscoreChars (escapeUnderscoreChars s) = s := by
  induction s with
  | nil =>
      rfl
  | cons c s ih =>
      rw [List.mem_cons, not_or] at hs
      have hrest := ih hs.2
      rw [escapeUnderscoreChars_cons]
      split
      case isTrue h =>
        subst h
        simp [unescapeUnderscoreChars, hrest]
      case isFalse h =>
        rw [List.singleton_append,
          unescapeUnderscoreChars_cons (Ne.symm hs.1), hrest]

/-- Replacing a character and replacing it back. -/
theorem replaceChar_replaceChar
    {old new : Char} {s : List Char}
    (hs : new ∉ s) :
    replaceChar new old (replaceChar old new s) = s := by
  unfold replaceChar
  rw [List.map_map]
  refine (List.map_congr_left ?_).trans (List.map_id s)
  intro c hc
  have hne : c ≠ new := by
    rintro rfl
    exact hs hc
  by_cases h : c = old
  · simp [h]
  · simp [h, hne]

/-- Replacing a character that does not occur. -/
theorem replaceChar_of_not_mem
    {old new : Char} {s : List Char}
    (hs : old ∉ s) :
    replaceChar old new s = s := by
  refine (List.map_congr_left ?_).trans (List.map_id s)
  intro c hc
  have hne : c ≠ old := by
    rintro rfl
    exact hs hc
  simp [hne]

/-- The stored form reads back as the items of the glob. -/
theorem likeItems_escapeUnderscoreChars
    {s : List Char}
    (hs : ∀ c ∈ s, plainChar c) :
    likeItems '\\' (escapeUnderscoreChars (replaceChar '*' '%' s)) =
      some (globItems s) := by
  induction s with
  | nil =>
      rfl
  | cons c s ih =>
      have hrest := ih (fun d hd => hs d (List.mem_cons_of_mem c hd))
      obtain ⟨hpercent, hbackslash⟩ := hs c List.mem_cons_self
      simp only [replaceChar, globItems, List.map_cons] at hrest ⊢
      rw [escapeUnderscoreChars_cons]
      by_cases hstar : c = '*'
      · subst hstar
        rw [if_pos rfl, if_pos rfl, if_neg (by decide),
          List.singleton_append, likeItems_percent, hrest]
        rfl
      · rw [if_neg hstar, if_neg hstar]
        by_cases hunder : c = '_'
        · subst hunder
          rw [if_pos rfl, List.cons_append, List.singleton_append,
            likeItems_escape (by decide), hrest]
          rfl
        · rw [if_neg hunder, List.singleton_append,
            likeItems_lit hpercent hbackslash hunder, hrest]
          rfl

/-- Escaping adds one character for each underscore. -/
theorem length_escapeUnderscoreChars
    (s : List Char) :
    (escapeUnderscoreChars s).length = s.length + s.count '_' := by
  induction s with
  | nil =>
      rfl
  | cons c s ih =>
      rw [escapeUnderscoreChars_cons, List.length_append, ih]
      split
      case isTrue h =>
        subst h
        simp only [List.length_cons, List.length_nil, List.count_cons_self]
        omega
      case isFalse h =>
        rw [List.count_cons_of_ne h]
        simp only [List.length_cons, List.length_nil]
        omega

/-- Replacing `*` by `%` leaves the underscores where they are. -/
theorem count_underscore_replaceChar
    (s : List Char) :
    (replaceChar '*' '%' s).count '_' = s.count '_' := by
  induction s with
  | nil =>
      rfl
  | cons c s ih =>
      unfold replaceChar at ih ⊢
      rw [List.map_cons]
      by_cases hstar : c = '*'
      · subst hstar
        rw [if_pos rfl, List.count_cons_of_ne (by decide),
          List.count_cons_of_ne (by decide), ih]
      · rw [if_neg hstar, List.count_cons, List.count_cons, ih]

end Characters

section Stored

variable {p : String}

/-- Reading a stored pattern back gives the pattern that was written. -/
theorem fromSQLWildcard_toSQLWildcard
    (h : allowedTopicPattern p = true) :
    fromSQLWildcard (toSQLWildcard p) = p := by
  have hplain := plainChar_of_allowedTopicPattern h
  have hpercent : '%' ∉ p.toList := fun hc => (hplain _ hc).1 rfl
  have hbackslash : '\\' ∉ replaceChar '*' '%' p.toList := by
    intro hc
    obtain ⟨d, hd, heq⟩ := List.mem_map.mp hc
    split at heq
    · exact absurd heq (by decide)
    · exact (hplain d hd).2 heq
  simp only [fromSQLWildcard, toSQLWildcard, escapeUnderscore,
    unescapeUnderscore, String.toList_ofList,
    unescape_escapeUnderscoreChars hbackslash,
    replaceChar_replaceChar hpercent, String.ofList_toList]

/-- Without `*` only the underscores change. -/
theorem toSQLWildcard_of_allowedTopic
    {topic : String}
    (h : allowedTopic topic = true) :
    toSQLWildcard topic = escapeUnderscore topic := by
  simp only [toSQLWildcard, escapeUnderscore, String.toList_ofList,
    replaceChar_of_not_mem (star_not_mem_of_allowedTopic h)]

/-- `LIKE` on the stored form is the glob up to the case of ASCII letters. -/
theorem sqlLike_toSQLWildcard
    (h : allowedTopicPattern p = true)
    (topic : String) :
    sqlLike '\\' topic (toSQLWildcard p) =
      wildMatch caseFoldEq (globItems p.toList) topic.toList := by
  simp only [sqlLike, toSQLWildcard, escapeUnderscore, String.toList_ofList,
    likeItems_escapeUnderscoreChars (plainChar_of_allowedTopicPattern h)]

/-- Every underscore counts twice in the length of the stored form. -/
theorem length_toSQLWildcard
    (p : String) :
    (toSQLWildcard p).toList.length =
      p.toList.length + p.toList.count '_' := by
  simp only [toSQLWildcard, escapeUnderscore, String.toList_ofList,
    length_escapeUnderscoreChars, count_underscore_replaceChar]
  simp [replaceChar]

/-- What the glob matches, the stored form matches under `LIKE`. -/
theorem sqlLike_of_globMatch
    (h : allowedTopicPattern p = true)
    {topic : String}
    (hmatch : globMatch p topic = true) :
    sqlLike '\\' topic (toSQLWildcard p) = true := by
  rw [sqlLike_toSQLWildcard h]
  refine wildMatch_mono ?_ hmatch
  intro c d hcd
  have heq : c = d := by simpa using hcd
  simp [caseFoldEq, heq]

/-- Distinct allowed patterns have distinct stored forms. -/
theorem toSQLWildcard_inj
    {p q : String}
    (hp : allowedTopicPattern p = true)
    (hq : allowedTopicPattern q = true)
    (h : toSQLWildcard p = toSQLWildcard q) :
    p = q := by
  rw [← fromSQLWildcard_toSQLWildcard hp, h, fromSQLWildcard_toSQLWildcard hq]

/-- The stored form keeps an allowed pattern and what it matches. -/
theorem pattern_encoding
    {p : String}
    (h : allowedTopicPattern p = true) :
    fromSQLWildcard (toSQLWildcard p) = p ∧
      (∀ q, allowedTopicPattern q = true → q ≠ p → toSQLWildcard q ≠ toSQLWildcard p) ∧
      ∀ t, allowedTopic t = true →
        (sqlLike '\\' t (toSQLWildcard p) = true ↔
          GlobMatches caseFoldEq p.toList t.toList) := by
  refine ⟨fromSQLWildcard_toSQLWildcard h, ?_, ?_⟩
  · intro q hq hne heq
    exact hne (toSQLWildcard_inj hq h heq)
  · intro t ht
    rw [sqlLike_toSQLWildcard h, wildMatch_globItems_iff]

/-- The pattern of all topics below a prefix, written with other letters. -/
theorem pattern_encoding_up :
    sqlLike '\\' "UP_a" (toSQLWildcard "up_*") = true ↔
      GlobMatches caseFoldEq "up_*".toList "UP_a".toList :=
  (pattern_encoding (by decide)).2.2 "UP_a" (by decide)

/-- The column of topic patterns: stored forms of allowed patterns. -/
def StoredPattern : Type :=
  { s : String //
    allowedTopicPattern (fromSQLWildcard s) = true ∧
      toSQLWildcard (fromSQLWildcard s) = s }

instance : DecidableEq StoredPattern :=
  inferInstanceAs (DecidableEq (Subtype _))

/-- The stored form of an allowed pattern. -/
def StoredPattern.ofPattern
    (p : String)
    (h : allowedTopicPattern p = true) : StoredPattern :=
  ⟨toSQLWildcard p, by
    rw [fromSQLWildcard_toSQLWildcard h]
    exact ⟨h, rfl⟩⟩

/-- The user-visible form of a stored pattern. -/
def StoredPattern.visible (s : StoredPattern) : String :=
  fromSQLWildcard s.1

@[simp] theorem StoredPattern.visible_ofPattern
    (h : allowedTopicPattern p = true) :
    (StoredPattern.ofPattern p h).visible = p :=
  fromSQLWildcard_toSQLWildcard h

@[simp] theorem StoredPattern.ofPattern_val
    (h : allowedTopicPattern p = true) :
    (StoredPattern.ofPattern p h).1 = toSQLWildcard p := by
  rfl

/-- A stored pattern is the stored form of its visible form. -/
theorem StoredPattern.ofPattern_visible
    (s : StoredPattern) :
    StoredPattern.ofPattern s.visible s.2.1 = s :=
  Subtype.ext s.2.2

end Stored

end Manager
end CoopMessenger
