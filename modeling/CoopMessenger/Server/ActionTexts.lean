import CoopMessenger.Server.Actions
import CoopMessenger.Util.Trimming

/-!
# Action buttons in the simple format

An action is written as a list of keys with their quoted values, the type first
and quotes escaped.  Fields with their default may be left out; the other fields
come in any order.

**Results.**
* `scanQuoted_escapeQuotes`, `unescapeQuotes_escapeQuotes`: a quoted value is
  read back whatever it contains.
* `parseActions_renderActions`: what is written from valid, normalised actions is
  read back as these actions, with new IDs.
-/

namespace CoopMessenger
namespace Server

open Library Util

namespace Actions

section Rendering

/-- Puts a backslash in front of every quote. -/
def escapeQuotes
    (quote : Char)
    (s : List Char) : List Char :=
  s.flatMap (fun c => if c = quote then ['\\', c] else [c])

/-- `key="value"` -/
def renderPair (p : String × String) : List Char :=
  p.1.toList ++ '=' :: '"' :: escapeQuotes '"' p.2.toList ++ ['"']

def renderPairs (pairs : List (String × String)) : List Char :=
  [','].intercalate (pairs.map renderPair)

/-- The text of actions, each given by its keys and values. -/
def renderActions (pairs : List (List (String × String))) : String :=
  String.ofList ([';'].intercalate (pairs.map renderPairs))

/-- The keys of the fields that hold one value. -/
def scalarKeys : List String :=
  ["action", "label", "clear", "url", "method", "body", "intent", "value"]

/-- The text of the field under the key. -/
def scalarField
    (a : Action)
    (key : String) : String :=
  match key with
  | "action" => a.action
  | "label" => a.label
  | "clear" => if a.clear then "true" else "false"
  | "url" => a.url
  | "method" => a.method
  | "body" => a.body
  | "intent" => a.intent
  | "value" => a.value
  | _ => ""

def headerPair (h : String × String) : String × String :=
  ("headers." ++ h.1, h.2)

def extraPair (e : String × String) : String × String :=
  ("extras." ++ e.1, e.2)

/-- All keys of an action with their values. -/
def actionPairs (a : Action) : List (String × String) :=
  scalarKeys.map (fun k => (k, scalarField a k)) ++ a.headers.map headerPair ++
    a.extras.map extraPair

/-- Keys whose values are those of an action without any. -/
def defaultPairs : List (String × String) :=
  scalarKeys.map (fun k => (k, scalarField newAction k))

/-- The type first, then everything but what is default and may be left out. -/
def IsRendering
    (a : Action)
    (pairs : List (String × String)) : Prop :=
  pairs.head? = some ("action", a.action) ∧
    (∀ p ∈ pairs, p ∈ actionPairs a) ∧
    ∀ p ∈ actionPairs a, p ∉ defaultPairs → p ∈ pairs

/-- No NUL character and no backslash at the end. -/
def PlainValue (s : String) : Prop :=
  actionEOF ∉ s.toList ∧ s.toList.getLast? ≠ some '\\'

/-- Letters, digits, `_`, `-` and `.` -/
def PlainName (s : String) : Prop :=
  ∀ c ∈ s.toList, isKeyChar c = true

instance decidableIsRendering
    (a : Action)
    (pairs : List (String × String)) :
    Decidable (IsRendering a pairs) :=
  inferInstanceAs (Decidable (_ ∧ _ ∧ _))

instance decidablePlainValue
    (s : String) :
    Decidable (PlainValue s) :=
  inferInstanceAs (Decidable (_ ∧ _))

instance decidablePlainName
    (s : String) :
    Decidable (PlainName s) :=
  decidable_of_iff (s.toList.all isKeyChar = true) List.all_eq_true

/-- Headers and extras are maps, their names are plain, and so are all values. -/
structure Writable (a : Action) : Prop where
  headers : Dictionary.IsDict a.headers
  extras : Dictionary.IsDict a.extras
  names : ∀ p ∈ a.headers ++ a.extras, PlainName p.1
  values : ∀ p ∈ actionPairs a, PlainValue p.2

end Rendering

section Quotes

theorem scanQuoted_escapeQuotes
    (prev : Char)
    {s : List Char}
    (rest : List Char)
    (hnul : actionEOF ∉ s)
    (hlast : (prev :: s).getLast? ≠ some '\\') :
    ActionParser.scanQuoted '"' prev (escapeQuotes '"' s ++ '"' :: rest) =
      some (escapeQuotes '"' s) := by
  induction s generalizing prev with
  | nil =>
      have hprev : prev ≠ '\\' := by
        rintro rfl
        exact hlast rfl
      have heof : ¬ '"' = actionEOF := by
        decide
      simp [escapeQuotes, ActionParser.scanQuoted, hprev, heof]
  | cons c s ih =>
      rw [List.mem_cons, not_or] at hnul
      have hrest := ih c hnul.2 (by simpa using hlast)
      have hcons : escapeQuotes '"' (c :: s) =
          (if c = '"' then ['\\', c] else [c]) ++ escapeQuotes '"' s := by
        rfl
      rw [hcons]
      split
      case isTrue hc =>
        -- the quote is read after a backslash, and the backslash after anything
        have hbackslash : ¬ '\\' = actionEOF ∧ ¬ '\\' = '"' := by
          decide
        simpa [ActionParser.scanQuoted, hbackslash, Ne.symm hnul.1] using hrest
      case isFalse hc =>
        simpa [ActionParser.scanQuoted, Ne.symm hnul.1, hc] using hrest

theorem head_escapeQuotes
    (quote : Char)
    (hquote : quote ≠ '\\')
    (s : List Char) :
    (escapeQuotes quote s).head? ≠ some quote := by
  cases s with
  | nil =>
      simp [escapeQuotes]
  | cons c s =>
      by_cases hc : c = quote
      · simp [escapeQuotes, hc, hquote.symm]
      · simp [escapeQuotes, hc]

theorem unescapeQuotes_escapeQuotes
    (quote : Char)
    (hquote : quote ≠ '\\')
    (s : List Char) :
    ActionParser.unescapeQuotes quote (escapeQuotes quote s) = s := by
  induction s with
  | nil =>
      rfl
  | cons c s ih =>
      have hhead := head_escapeQuotes quote hquote s
      have hcons : escapeQuotes quote (c :: s) =
          (if c = quote then ['\\', c] else [c]) ++ escapeQuotes quote s := by
        rfl
      rw [hcons]
      split
      case isTrue hc =>
        simp [ActionParser.unescapeQuotes, hc, ih]
      case isFalse hc =>
        cases hs : escapeQuotes quote s with
        | nil =>
            rw [hs] at ih
            simpa [ActionParser.unescapeQuotes] using ih
        | cons d t =>
            rw [hs] at ih hhead
            have hd : d ≠ quote := by
              simpa using hhead
            simp [ActionParser.unescapeQuotes, hd, ih]

end Quotes

section Sections

theorem skipWhile_eq_self
    {f : Char → Bool}
    {p : ActionParser}
    (h : ∀ c ∈ p.rest.head?, f c = false) :
    p.skipWhile f = p := by
  obtain ⟨pos, rest⟩ := p
  cases rest with
  | nil =>
      rfl
  | cons c rest =>
      have hc : f c = false := h c rfl
      simp [ActionParser.skipWhile, hc, ActionParser.width]

theorem isSpace_of_isKeyChar
    {c : Char}
    (h : isKeyChar c = true) :
    isSpace c = false ∧ c ≠ '=' := by
  refine ⟨?_, ?_⟩
  · by_contra hspace
    rw [Bool.not_eq_false, isSpace, decide_eq_true_eq] at hspace
    simp only [List.mem_cons, List.not_mem_nil, or_false] at hspace
    rcases hspace with rfl | rfl | rfl | rfl <;> revert h <;> decide
  · rintro rfl
    revert h
    decide

theorem parseKey_eq
    {key : List Char}
    (rest : List Char)
    (pos : Nat)
    (hne : key ≠ [])
    (hkey : ∀ c ∈ key, isKeyChar c = true)
    (hrest : ∀ c ∈ rest.head?, isRegexSpace c = false) :
    ∃ pos', ActionParser.parseKey ⟨pos, key ++ '=' :: rest⟩ =
      (String.ofList key, ⟨pos', rest⟩) := by
  have htake : (key ++ '=' :: rest).takeWhile isKeyChar = key := by
    have hequals : isKeyChar '=' = false := by
      decide
    rw [List.takeWhile_append_of_pos hkey, List.takeWhile_cons_of_neg (by simp [hequals]),
      List.append_nil]
  have hdrop : (key ++ '=' :: rest).dropWhile isKeyChar = '=' :: rest := by
    rw [List.dropWhile_append_of_pos hkey]
    rfl
  have hname : ActionParser.skipWhile isKeyChar ⟨pos, key ++ '=' :: rest⟩ =
      ⟨pos + ActionParser.width key, '=' :: rest⟩ := by
    rw [ActionParser.skipWhile, htake, hdrop]
  have hspaces : ActionParser.skipWhile isRegexSpace
      ⟨pos + ActionParser.width key, '=' :: rest⟩ =
        ⟨pos + ActionParser.width key, '=' :: rest⟩ :=
    skipWhile_eq_self (by rintro c ⟨⟩; decide)
  refine ⟨pos + ActionParser.width key + '='.utf8Size, ?_⟩
  simp only [ActionParser.parseKey, htake, hname, hspaces]
  rw [if_pos ⟨hne, rfl⟩, ActionParser.advance, skipWhile_eq_self hrest]

theorem isSpace_of_isSectionEnd
    {rest : List Char}
    (h : isSectionEnd (rest.headD actionEOF) = true) :
    ∀ c ∈ rest.head?, isSpace c = false := by
  intro c hc
  cases rest with
  | nil =>
      cases hc
  | cons d rest =>
      cases hc
      have hmem : c ∈ [actionEOF, ';', ','] := by
        simpa [isSectionEnd] using h
      simp only [List.mem_cons, List.not_mem_nil, or_false] at hmem
      rcases hmem with rfl | rfl | rfl <;> decide

theorem exists_advance
    (pos : Nat)
    (rest : List Char) :
    ∃ pos', ActionParser.advance ⟨pos, rest⟩ = ⟨pos', rest.tail⟩ := by
  cases rest with
  | nil =>
      exact ⟨pos, rfl⟩
  | cons c rest =>
      exact ⟨_, rfl⟩

theorem parseQuotedValue_eq
    {value : String} {rest : List Char}
    (pos : Nat)
    (hvalue : PlainValue value)
    (hend : isSectionEnd (rest.headD actionEOF) = true) :
    ∃ pos', ActionParser.parseQuotedValue '"'
        ⟨pos, '"' :: (escapeQuotes '"' value.toList ++ '"' :: rest)⟩ =
      .ok (value, isLastSection (rest.headD actionEOF), ⟨pos', rest.tail⟩) := by
  have hscan := scanQuoted_escapeQuotes actionEOF rest hvalue.1
    (by
      cases hlist : value.toList with
      | nil =>
          decide
      | cons c s =>
          have hlast := hvalue.2
          rw [hlist] at hlast
          simpa using hlast)
  have hunescape := unescapeQuotes_escapeQuotes '"' (by decide)
    value.toList
  have hstart : ActionParser.advance
      ⟨pos, '"' :: (escapeQuotes '"' value.toList ++ '"' :: rest)⟩ =
        ⟨pos + '"'.utf8Size, escapeQuotes '"' value.toList ++ '"' :: rest⟩ := by
    rfl
  have hdrop : (escapeQuotes '"' value.toList ++ '"' :: rest).drop
      (escapeQuotes '"' value.toList).length = '"' :: rest :=
    List.drop_left
  simp only [ActionParser.parseQuotedValue, hstart, hscan, hdrop, hunescape,
    String.ofList_toList]
  have hslurp : ∀ pos', ActionParser.slurpSpaces ⟨pos', rest⟩ = ⟨pos', rest⟩ :=
    fun pos' => skipWhile_eq_self (isSpace_of_isSectionEnd hend)
  rw [ActionParser.advance, hslurp, ActionParser.peek, if_pos hend]
  obtain ⟨pos', hadvance⟩ := exists_advance
    (pos + '"'.utf8Size + ActionParser.width (escapeQuotes '"' value.toList) +
      '"'.utf8Size) rest
  exact ⟨pos', by rw [hadvance]⟩

/-- A key with its value is read up to the end of the section. -/
theorem parseSection_renderPair
    {p : String × String}
    (rest : List Char)
    (pos : Nat)
    (hne : p.1 ≠ "")
    (hkey : PlainName p.1)
    (hvalue : PlainValue p.2)
    (hend : isSectionEnd (rest.headD actionEOF) = true) :
    ∃ pos', ActionParser.parseSection ⟨pos, renderPair p ++ rest⟩ =
      .ok ((p.1, p.2, isLastSection (rest.headD actionEOF)), ⟨pos', rest.tail⟩) := by
  have hkeyne : p.1.toList ≠ [] := by
    simpa using hne
  have hslurp : ActionParser.slurpSpaces ⟨pos, renderPair p ++ rest⟩ =
      ⟨pos, renderPair p ++ rest⟩ := by
    refine skipWhile_eq_self fun c hc => ?_
    cases hlist : p.1.toList with
    | nil =>
        exact absurd hlist hkeyne
    | cons d key =>
        simp only [renderPair, hlist, List.cons_append, List.head?_cons,
          Option.mem_some_iff] at hc
        subst hc
        exact (isSpace_of_isKeyChar (hkey _ (by simp [hlist]))).1
  have htext : renderPair p ++ rest = p.1.toList ++
      '=' :: '"' :: (escapeQuotes '"' p.2.toList ++ '"' :: rest) := by
    simp [renderPair]
  obtain ⟨pos₁, hparse⟩ := parseKey_eq
    ('"' :: (escapeQuotes '"' p.2.toList ++ '"' :: rest)) pos hkeyne hkey
    (by rintro c ⟨⟩; decide)
  rw [← htext, String.ofList_toList] at hparse
  obtain ⟨pos₂, hquoted⟩ := parseQuotedValue_eq pos₁ hvalue hend
  refine ⟨pos₂, ?_⟩
  have hquote : isSectionEnd '"' = false := by
    decide
  simp only [ActionParser.parseSection, hslurp, hparse, ActionParser.peek,
    List.headD_cons, hquote, hquoted]
  rfl

end Sections

section Fields

variable {a cur : Action}
variable {done : List (String × String)}

/-- The action that is being filled in has the fields that were read. -/
structure Written
    (a cur : Action)
    (done : List (String × String)) : Prop where
  id : cur.id = ""
  scalars : ∀ k ∈ scalarKeys, scalarField cur k = scalarField a k ∨
    (scalarField cur k = scalarField newAction k ∧ (k, scalarField a k) ∉ done)
  headers : Dictionary.IsDict cur.headers ∧
    ∀ h, h ∈ cur.headers ↔ h ∈ a.headers ∧ headerPair h ∈ done
  extras : Dictionary.IsDict cur.extras ∧
    ∀ e, e ∈ cur.extras ↔ e ∈ a.extras ∧ extraPair e ∈ done

theorem written_nil :
    Written a newAction [] where
  id := rfl
  scalars _ _ := Or.inr ⟨rfl, List.not_mem_nil⟩
  headers := ⟨List.Pairwise.nil, by simp [newAction]⟩
  extras := ⟨List.Pairwise.nil, by simp [newAction]⟩

theorem expandKey_of_ne
    {key : String}
    (hkey : key ≠ "")
    (i : Nat) :
    expandKey cur i key = key := by
  simp [expandKey, hkey]

/-- The action with the field under the key taken from another one. -/
def copyField
    (a cur : Action)
    (key : String) : Action :=
  match key with
  | "action" => { cur with action := a.action }
  | "label" => { cur with label := a.label }
  | "clear" => { cur with clear := a.clear }
  | "url" => { cur with url := a.url }
  | "method" => { cur with method := a.method }
  | "body" => { cur with body := a.body }
  | "intent" => { cur with intent := a.intent }
  | "value" => { cur with value := a.value }
  | _ => cur

theorem populateAction_scalar
    (i : Nat)
    {k : String}
    (hk : k ∈ scalarKeys) :
    populateAction cur i k (scalarField a k) = .ok (copyField a cur k) := by
  have hlower : ∀ k ∈ scalarKeys, lower k = k := by
    decide
  have hkey := hlower k hk
  have htrue : lower "true" = "true" := by
    decide
  have hfalse : lower "false" = "false" := by
    decide
  simp only [scalarKeys, List.mem_cons, List.not_mem_nil, or_false] at hk
  rcases hk with rfl | rfl | rfl | rfl | rfl | rfl | rfl | rfl
  case inr.inr.inl =>
    cases hclear : a.clear <;>
      simp [populateAction, expandKey, hkey, scalarField, copyField, htrue,
        hfalse, hclear]
  all_goals
    simp [populateAction, expandKey, hkey, scalarField, copyField]

/-- A field is copied, and all others are left alone. -/
theorem copyField_spec
    (a cur : Action)
    {k : String}
    (hk : k ∈ scalarKeys) :
    (copyField a cur k).id = cur.id ∧
      (copyField a cur k).headers = cur.headers ∧
      (copyField a cur k).extras = cur.extras ∧
      scalarField (copyField a cur k) k = scalarField a k ∧
      ∀ k' ∈ scalarKeys, k' ≠ k →
        scalarField (copyField a cur k) k' = scalarField cur k' := by
  simp only [scalarKeys, List.mem_cons, List.not_mem_nil, or_false] at hk
  rcases hk with rfl | rfl | rfl | rfl | rfl | rfl | rfl | rfl <;>
    simp [scalarKeys, scalarField, copyField]

theorem populateAction_header
    (i : Nat)
    (h : String × String) :
    populateAction cur i (headerPair h).1 (headerPair h).2 =
      .ok { cur with headers := Dictionary.set h.1 h.2 cur.headers } := by
  have hne : "headers." ++ h.1 ≠ "" := by
    intro hempty
    have hlist := congrArg String.toList hempty
    simp at hlist
  rw [populateAction, headerPair, expandKey_of_ne hne]
  simp [trimPrefix, hne]

theorem populateAction_extra
    (i : Nat)
    (e : String × String) :
    populateAction cur i (extraPair e).1 (extraPair e).2 =
      .ok { cur with extras := Dictionary.set e.1 e.2 cur.extras } := by
  have hne : "extras." ++ e.1 ≠ "" := by
    intro hempty
    have hlist := congrArg String.toList hempty
    simp at hlist
  rw [populateAction, extraPair, expandKey_of_ne hne]
  simp [trimPrefix, hne]

theorem headerPair_injective :
    Function.Injective headerPair := by
  rintro ⟨k, v⟩ ⟨k', v'⟩ h
  simp only [headerPair, Prod.mk.injEq, String.append_right_inj] at h
  rw [h.1, h.2]

theorem extraPair_injective :
    Function.Injective extraPair := by
  rintro ⟨k, v⟩ ⟨k', v'⟩ h
  simp only [extraPair, Prod.mk.injEq, String.append_right_inj] at h
  rw [h.1, h.2]

theorem headerPair_ne_extraPair
    (h e : String × String) :
    headerPair h ≠ extraPair e := by
  intro heq
  have hlist := congrArg (fun p => p.1.toList) heq
  simp [headerPair, extraPair] at hlist

/-- The key of one value is no key of a header and of no extra. -/
theorem scalar_ne_pair
    {k : String}
    (hk : k ∈ scalarKeys)
    (h : String × String) :
    (headerPair h).1 ≠ k ∧ (extraPair h).1 ≠ k := by
  have hplain : ∀ k ∈ scalarKeys,
      "headers.".toList.isPrefixOf k.toList = false ∧
        "extras.".toList.isPrefixOf k.toList = false := by
    decide
  refine ⟨?_, ?_⟩ <;> rintro rfl
  · simpa [headerPair] using (hplain _ hk).1
  · simpa [extraPair] using (hplain _ hk).2

/-- Writing an entry whose pair is read keeps track of the pairs that were read. -/
theorem mem_set_iff_of_read
    {d read : List (String × String)}
    {f : String × String → String × String}
    (hf : Function.Injective f)
    (hd : Dictionary.IsDict d)
    (hread : Dictionary.IsDict read)
    (hmem : ∀ h, h ∈ read ↔ h ∈ d ∧ f h ∈ done)
    {h₀ : String × String}
    (h₀mem : h₀ ∈ d)
    (h : String × String) :
    h ∈ Dictionary.set h₀.1 h₀.2 read ↔ h ∈ d ∧ f h ∈ f h₀ :: done := by
  rw [Dictionary.mem_set_iff hread, hmem, List.mem_cons, hf.eq_iff]
  constructor
  · rintro (rfl | ⟨⟨hmem, hdone⟩, -⟩)
    · exact ⟨h₀mem, Or.inl rfl⟩
    · exact ⟨hmem, Or.inr hdone⟩
  · rintro ⟨hmem, rfl | hdone⟩
    · exact Or.inl rfl
    · by_cases hkey : h.1 = h₀.1
      · exact Or.inl (hd.eq_of_key_eq hmem h₀mem hkey)
      · exact Or.inr ⟨⟨hmem, hdone⟩, hkey⟩

/-- Reading one more of the pairs of the action. -/
theorem Written.step
    (hcur : Written a cur done)
    (hheaders : Dictionary.IsDict a.headers)
    (hextras : Dictionary.IsDict a.extras)
    {p : String × String}
    (hp : p ∈ actionPairs a)
    (i : Nat) :
    ∃ cur', populateAction cur i p.1 p.2 = .ok cur' ∧
      Written a cur' (p :: done) := by
  simp only [actionPairs, List.mem_append, List.mem_map] at hp
  rcases hp with (⟨k, hk, rfl⟩ | ⟨h, hh, rfl⟩) | ⟨e, he, rfl⟩
  · obtain ⟨hid, hcurHeaders, hcurExtras, hsame, hothers⟩ :=
      copyField_spec a cur hk
    refine ⟨_, populateAction_scalar i hk, hid.trans hcur.id, ?_, ?_, ?_⟩
    · intro k' hk'
      by_cases heq : k' = k
      · subst heq
        exact Or.inl hsame
      · rw [hothers k' hk' heq, List.mem_cons, Prod.mk.injEq, not_or]
        exact (hcur.scalars k' hk').imp_right
          fun h => ⟨h.1, fun hpair => heq hpair.1, h.2⟩
    · rw [hcurHeaders]
      refine ⟨hcur.headers.1, fun h => ?_⟩
      have hne : headerPair h ≠ (k, scalarField a k) :=
        fun heq => (scalar_ne_pair hk h).1 (congrArg Prod.fst heq)
      rw [hcur.headers.2, List.mem_cons, or_iff_right hne]
    · rw [hcurExtras]
      refine ⟨hcur.extras.1, fun e => ?_⟩
      have hne : extraPair e ≠ (k, scalarField a k) :=
        fun heq => (scalar_ne_pair hk e).2 (congrArg Prod.fst heq)
      rw [hcur.extras.2, List.mem_cons, or_iff_right hne]
  · refine ⟨_, populateAction_header i h, hcur.id, ?_, ?_, ?_⟩
    · intro k hk
      have hne : (k, scalarField a k) ≠ headerPair h :=
        fun heq => (scalar_ne_pair hk h).1 (congrArg Prod.fst heq).symm
      rw [List.mem_cons, or_iff_right hne]
      exact hcur.scalars k hk
    · exact ⟨hcur.headers.1.set h.1 h.2, mem_set_iff_of_read headerPair_injective
        hheaders hcur.headers.1 hcur.headers.2 hh⟩
    · refine ⟨hcur.extras.1, fun e => ?_⟩
      rw [hcur.extras.2, List.mem_cons,
        or_iff_right (headerPair_ne_extraPair h e).symm]
  · refine ⟨_, populateAction_extra i e, hcur.id, ?_, ?_, ?_⟩
    · intro k hk
      have hne : (k, scalarField a k) ≠ extraPair e :=
        fun heq => (scalar_ne_pair hk e).2 (congrArg Prod.fst heq).symm
      rw [List.mem_cons, or_iff_right hne]
      exact hcur.scalars k hk
    · refine ⟨hcur.headers.1, fun h => ?_⟩
      rw [hcur.headers.2, List.mem_cons,
        or_iff_right (headerPair_ne_extraPair h e)]
    · exact ⟨hcur.extras.1.set e.1 e.2, mem_set_iff_of_read extraPair_injective
        hextras hcur.extras.1 hcur.extras.2 he⟩

/-- Once all pairs of a rendering are read, nothing but the ID is missing. -/
theorem Written.eq_of_rendering
    {pairs : List (String × String)}
    (hcur : Written a cur done)
    (hdone : ∀ p, p ∈ done ↔ p ∈ pairs)
    (hheaders : Dictionary.IsDict a.headers)
    (hextras : Dictionary.IsDict a.extras)
    (hpairs : IsRendering a pairs) :
    cur = { a with id := "" } := by
  have hscalar : ∀ k ∈ scalarKeys, scalarField cur k = scalarField a k := by
    intro k hk
    rcases hcur.scalars k hk with h | ⟨hdefault, hnot⟩
    · exact h
    · have hmem : (k, scalarField a k) ∈ actionPairs a := by
        simp only [actionPairs, List.mem_append, List.mem_map]
        exact Or.inl (Or.inl ⟨k, hk, rfl⟩)
      have hdef : (k, scalarField a k) ∈ defaultPairs := by
        by_contra hdef
        exact hnot ((hdone _).mpr (hpairs.2.2 _ hmem hdef))
      simp only [defaultPairs, List.mem_map, Prod.mk.injEq] at hdef
      obtain ⟨_, -, rfl, hvalue⟩ := hdef
      rw [hdefault, hvalue]
  have hnotDefault : ∀ h, headerPair h ∉ defaultPairs ∧
      extraPair h ∉ defaultPairs := by
    intro h
    refine ⟨?_, ?_⟩ <;> intro hmem <;>
      simp only [defaultPairs, List.mem_map] at hmem <;>
      obtain ⟨k, hk, heq⟩ := hmem
    · exact (scalar_ne_pair hk h).1 (congrArg Prod.fst heq).symm
    · exact (scalar_ne_pair hk h).2 (congrArg Prod.fst heq).symm
  have hdict : cur.headers = a.headers := by
    refine hcur.headers.1.ext hheaders fun h => ?_
    rw [hcur.headers.2, hdone]
    refine ⟨And.left, fun hh => ⟨hh, hpairs.2.2 _ ?_ (hnotDefault h).1⟩⟩
    simp only [actionPairs, List.mem_append, List.mem_map]
    exact Or.inl (Or.inr ⟨h, hh, rfl⟩)
  have hdict' : cur.extras = a.extras := by
    refine hcur.extras.1.ext hextras fun e => ?_
    rw [hcur.extras.2, hdone]
    refine ⟨And.left, fun he => ⟨he, hpairs.2.2 _ ?_ (hnotDefault e).2⟩⟩
    simp only [actionPairs, List.mem_append, List.mem_map]
    exact Or.inr ⟨e, he, rfl⟩
  have hclear : cur.clear = a.clear := by
    have htext := hscalar "clear" (by decide)
    simp only [scalarField] at htext
    cases hc : cur.clear <;> cases ha : a.clear <;> simp [hc, ha] at htext ⊢
  have hid := hcur.id
  have h₁ := hscalar "action" (by decide)
  have h₂ := hscalar "label" (by decide)
  have h₃ := hscalar "url" (by decide)
  have h₄ := hscalar "method" (by decide)
  have h₅ := hscalar "body" (by decide)
  have h₆ := hscalar "intent" (by decide)
  have h₇ := hscalar "value" (by decide)
  simp only [scalarField] at h₁ h₂ h₃ h₄ h₅ h₆ h₇
  cases cur
  simp only [Action.mk.injEq]
  exact ⟨hid, h₁, h₂, hclear, h₃, h₄, hdict, h₅, h₆, hdict', h₇⟩

end Fields

section RoundTrip

variable {a cur : Action}
variable {done : List (String × String)}

theorem plainName_of_mem
    (ha : Writable a)
    {p : String × String}
    (hp : p ∈ actionPairs a) :
    p.1 ≠ "" ∧ PlainName p.1 := by
  have hscalars : ∀ k ∈ scalarKeys, k ≠ "" ∧ PlainName k := by
    decide
  have happend : ∀ start name : String, start ≠ "" →
      PlainName start → PlainName name →
        start ++ name ≠ "" ∧ PlainName (start ++ name) := by
    intro start name hne hstart hname
    refine ⟨fun h => hne (String.append_eq_empty_iff.mp h).1, fun c hc => ?_⟩
    rw [String.toList_append, List.mem_append] at hc
    exact hc.elim (hstart c) (hname c)
  simp only [actionPairs, List.mem_append, List.mem_map] at hp
  rcases hp with (⟨k, hk, rfl⟩ | ⟨h, hh, rfl⟩) | ⟨e, he, rfl⟩
  · exact hscalars k hk
  · exact happend _ _ (by decide) (by decide)
      (ha.names h (List.mem_append_left _ hh))
  · exact happend _ _ (by decide) (by decide)
      (ha.names e (List.mem_append_right _ he))

/-- What follows an action: nothing, or the next one. -/
def NextAction (rest : List Char) : Prop :=
  rest = [] ∨ ∃ next, rest = ';' :: next ∧ ∀ c ∈ next.head?, isSpace c = false

/-- The text of an action starts with the first key. -/
theorem head_renderPairs
    (ha : Writable a)
    {pairs : List (String × String)}
    (hpairs : ∀ p ∈ pairs, p ∈ actionPairs a)
    (hne : pairs ≠ [])
    (rest : List Char) :
    ∃ c, (renderPairs pairs ++ rest).head? = some c ∧ isKeyChar c = true := by
  cases pairs with
  | nil =>
      exact absurd rfl hne
  | cons p pairs =>
      have hname := plainName_of_mem ha (hpairs p List.mem_cons_self)
      cases hkey : p.1.toList with
      | nil =>
          exact absurd (String.toList_eq_nil_iff.mp hkey) hname.1
      | cons c key =>
          refine ⟨c, ?_, hname.2 c (by simp [hkey])⟩
          cases pairs <;> simp [renderPairs, renderPair, hkey]

theorem isSpace_head_renderPairs
    (ha : Writable a)
    {pairs : List (String × String)}
    (hpairs : ∀ p ∈ pairs, p ∈ actionPairs a)
    (hne : pairs ≠ [])
    (rest : List Char) :
    ∀ c ∈ (renderPairs pairs ++ rest).head?, isSpace c = false := by
  obtain ⟨d, hhead, hkey⟩ := head_renderPairs ha hpairs hne rest
  intro c hc
  cases hhead.symm.trans hc
  exact (isSpace_of_isKeyChar hkey).1

/-- All pairs of an action are read, up to the next action. -/
theorem parseSections_renderPairs
    (ha : Writable a)
    {pairs : List (String × String)} {rest : List Char}
    (hpairs : ∀ p ∈ pairs, p ∈ actionPairs a)
    (hne : pairs ≠ [])
    (hrest : NextAction rest)
    (hcur : Written a cur done)
    (i pos : Nat) :
    ∃ cur' pos', parseSections cur i ⟨pos, renderPairs pairs ++ rest⟩ =
        .ok (cur', ⟨pos', rest.tail⟩) ∧
      Written a cur' (pairs.reverse ++ done) := by
  induction pairs generalizing cur done i pos with
  | nil =>
      exact absurd rfl hne
  | cons p pairs ih =>
      obtain ⟨hp, hothers⟩ := List.forall_mem_cons.mp hpairs
      obtain ⟨hkey, hname⟩ := plainName_of_mem ha hp
      obtain ⟨cur', hpopulate, hwritten⟩ :=
        hcur.step ha.headers ha.extras hp i
      cases pairs with
      | nil =>
          have hend : isSectionEnd (rest.headD actionEOF) = true ∧
              isLastSection (rest.headD actionEOF) = true ∧
              ∀ c ∈ rest.tail.head?, isSpace c = false := by
            rcases hrest with rfl | ⟨next, rfl, hnext⟩
            · exact ⟨rfl, rfl, by rintro c ⟨⟩⟩
            · exact ⟨rfl, rfl, hnext⟩
          obtain ⟨pos', hsection⟩ := parseSection_renderPair rest pos hkey hname
            (ha.values p hp) hend.1
          have htext : renderPairs [p] = renderPair p := by
            simp [renderPairs]
          have hslurp : ActionParser.slurpSpaces ⟨pos', rest.tail⟩ =
              ⟨pos', rest.tail⟩ :=
            skipWhile_eq_self hend.2.2
          refine ⟨cur', pos', ?_, hwritten⟩
          rw [htext, parseSections_of_section hsection hpopulate, hend.2.1,
            hslurp]
          rfl
      | cons q pairs =>
          have htext : renderPairs (p :: q :: pairs) ++ rest =
              renderPair p ++ ',' :: (renderPairs (q :: pairs) ++ rest) := by
            simp [renderPairs]
          obtain ⟨pos', hsection⟩ := parseSection_renderPair
            (',' :: (renderPairs (q :: pairs) ++ rest)) pos hkey hname
            (ha.values p hp) rfl
          obtain ⟨final, pos'', hsections, hfinal⟩ :=
            ih hothers (List.cons_ne_nil q pairs) hwritten (i + 1) pos'
          have hslurp : ActionParser.slurpSpaces
              ⟨pos', renderPairs (q :: pairs) ++ rest⟩ =
                ⟨pos', renderPairs (q :: pairs) ++ rest⟩ :=
            skipWhile_eq_self (isSpace_head_renderPairs ha hothers
              (List.cons_ne_nil q pairs) rest)
          refine ⟨final, pos'', ?_, ?_⟩
          · rw [htext, parseSections_of_section hsection hpopulate]
            rw [List.tail_cons, hslurp]
            exact hsections
          · simpa using hfinal

theorem ne_nil_of_rendering
    {pairs : List (String × String)}
    (h : IsRendering a pairs) :
    pairs ≠ [] := by
  rintro rfl
  cases h.1

theorem ne_nil_of_renderings
    {actions : List Action} {pairs : List (List (String × String))}
    (h : List.Forall₂ IsRendering actions pairs) :
    ∀ ps ∈ pairs, ps ≠ [] := by
  induction h with
  | nil =>
      simp
  | cons hhead htail ih =>
      exact List.forall_mem_cons.mpr ⟨ne_nil_of_rendering hhead, ih⟩

theorem exists_intercalate_cons
    (sep part : List Char)
    (parts : List (List Char)) :
    ∃ more, sep.intercalate (part :: parts) = part ++ more := by
  cases parts with
  | nil =>
      exact ⟨[], by simp⟩
  | cons next parts =>
      exact ⟨_, by rw [List.intercalate_cons_cons, List.append_assoc]⟩

/-- An action is read back, except for its ID. -/
theorem parseSections_rendering
    (ha : Writable a)
    {pairs : List (String × String)} {rest : List Char}
    (hpairs : IsRendering a pairs)
    (hrest : NextAction rest)
    (pos : Nat) :
    ∃ pos', parseSections newAction 0 ⟨pos, renderPairs pairs ++ rest⟩ =
      .ok ({ a with id := "" }, ⟨pos', rest.tail⟩) := by
  obtain ⟨cur, pos', hparse, hcur⟩ := parseSections_renderPairs ha hpairs.2.1
    (ne_nil_of_rendering hpairs) hrest written_nil 0 pos
  have hdone : ∀ p, p ∈ pairs.reverse ++ [] ↔ p ∈ pairs := by
    simp
  rw [hcur.eq_of_rendering hdone ha.headers ha.extras hpairs] at hparse
  exact ⟨pos', hparse⟩

/-- All actions are read back, except for their IDs. -/
theorem parse_renderings
    {actions : List Action} {pairs : List (List (String × String))}
    (hwritable : ∀ a ∈ actions, Writable a)
    (hpairs : List.Forall₂ IsRendering actions pairs)
    (pos : Nat) :
    parse ⟨pos, [';'].intercalate (pairs.map renderPairs)⟩ =
      .ok (actions.map fun a => { a with id := "" }) := by
  induction hpairs generalizing pos with
  | nil =>
      exact parse_nil pos
  | @cons a ps actions pairs hhead htail ih =>
      obtain ⟨ha, hactions⟩ := List.forall_mem_cons.mp hwritable
      have hps := ne_nil_of_rendering hhead
      obtain ⟨rest, htext, hrest, hparse⟩ : ∃ rest,
          [';'].intercalate ((ps :: pairs).map renderPairs) =
            renderPairs ps ++ rest ∧ NextAction rest ∧
          ∀ pos', parse ⟨pos', rest.tail⟩ =
            .ok (actions.map fun a => { a with id := "" }) := by
        cases htail with
        | nil =>
            exact ⟨[], by simp, Or.inl rfl, parse_nil⟩
        | @cons a' ps' actions pairs hhead' htail =>
            refine ⟨';' :: [';'].intercalate ((ps' :: pairs).map renderPairs),
              by simp, Or.inr ⟨_, rfl, ?_⟩, ih hactions⟩
            obtain ⟨more, hmore⟩ := exists_intercalate_cons [';']
              (renderPairs ps') (pairs.map renderPairs)
            rw [List.map_cons, hmore]
            exact isSpace_head_renderPairs (hactions a' List.mem_cons_self)
              hhead'.2.1 (ne_nil_of_rendering hhead') more
      obtain ⟨pos', hsections⟩ := parseSections_rendering ha hhead hrest pos
      obtain ⟨c, hc, -⟩ := head_renderPairs ha hhead.2.1 hps rest
      have hne : renderPairs ps ++ rest ≠ [] := by
        intro hempty
        rw [hempty] at hc
        cases hc
      rw [htext, parse_of_sections hne hsections, hparse]
      rfl

/-- A key starts and ends with no white space. -/
theorem not_isSpace_of_isKeyChar
    {c : Char}
    (h : isKeyChar c = true) :
    Util.isSpace c = false := by
  have hsmall : c.toNat < 0x80 := by
    simp only [isKeyChar, Bool.or_eq_true, decide_eq_true_eq, List.mem_cons,
      List.not_mem_nil, or_false] at h
    rcases h with h | rfl | rfl | rfl
    · delta Char.isAlphanum Char.isAlpha Char.isUpper Char.isLower Char.isDigit at h
      simp only [Bool.or_eq_true, Bool.and_eq_true, decide_eq_true_eq,
        UInt32.le_iff_toNat_le] at h
      have hbounds : 'Z'.val.toNat = 90 ∧ 'z'.val.toNat = 122 ∧
          '9'.val.toNat = 57 := by
        decide
      change c.val.toNat < 0x80
      omega
    all_goals decide
  by_contra hspace
  simp only [Bool.not_eq_false, Util.isSpace, Bool.or_eq_true, Bool.and_eq_true,
    decide_eq_true_eq, List.mem_cons, List.not_mem_nil, or_false] at hspace
  rcases hspace with hlist | ⟨hlarge, -⟩
  · rcases hlist with rfl | rfl | rfl | rfl | rfl | rfl | rfl | rfl | rfl | rfl |
      rfl | rfl | rfl | rfl <;> revert h hsmall <;> decide
  · have hle : '\u2000'.toNat ≤ c.toNat := hlarge
    have hvalue : '\u2000'.toNat = 0x2000 := by
      decide
    omega

/-- What all parts end with, the joined text ends with. -/
theorem getLast?_intercalate
    {sep : List Char} {parts : List (List Char)}
    {c : Char}
    (hne : parts ≠ [])
    (h : ∀ part ∈ parts, part.getLast? = some c) :
    (sep.intercalate parts).getLast? = some c := by
  induction parts with
  | nil =>
      exact absurd rfl hne
  | cons part parts ih =>
      obtain ⟨hpart, hparts⟩ := List.forall_mem_cons.mp h
      cases parts with
      | nil =>
          simpa using hpart
      | cons next parts =>
          rw [List.intercalate_cons_cons, List.getLast?_append,
            ih (List.cons_ne_nil next parts) hparts]
          rfl

theorem head_renderActions
    {actions : List Action} {pairs : List (List (String × String))}
    (hne : actions ≠ [])
    (hwritable : ∀ a ∈ actions, Writable a)
    (hpairs : List.Forall₂ IsRendering actions pairs) :
    ∃ c, (renderActions pairs).toList.head? = some c ∧ isKeyChar c = true := by
  cases hpairs with
  | nil =>
      exact absurd rfl hne
  | @cons a ps actions pairs hhead htail =>
      obtain ⟨more, hmore⟩ := exists_intercalate_cons [';'] (renderPairs ps)
        (pairs.map renderPairs)
      rw [renderActions, String.toList_ofList, List.map_cons, hmore]
      exact head_renderPairs (hwritable a List.mem_cons_self) hhead.2.1
        (ne_nil_of_rendering hhead) more

theorem getLast?_renderActions
    {actions : List Action} {pairs : List (List (String × String))}
    (hne : actions ≠ [])
    (hpairs : List.Forall₂ IsRendering actions pairs) :
    (renderActions pairs).toList.getLast? = some '"' := by
  rw [renderActions, String.toList_ofList]
  refine getLast?_intercalate ?_ ?_
  · rintro hempty
    rw [List.map_eq_nil_iff] at hempty
    subst hempty
    cases hpairs
    exact hne rfl
  · intro part hpart
    obtain ⟨ps, hps, rfl⟩ := List.mem_map.mp hpart
    refine getLast?_intercalate
      (by simpa using ne_nil_of_renderings hpairs ps hps) ?_
    intro text htext
    obtain ⟨p, -, rfl⟩ := List.mem_map.mp htext
    exact List.getLast?_concat

variable (E : Environment)

/-- The type in lower case and the method in upper case. -/
def Normalized (a : Action) : Prop :=
  mapText E.toLower a.action = a.action ∧ mapText E.toUpper a.method = a.method

instance decidableNormalized
    (a : Action) :
    Decidable (Normalized E a) :=
  inferInstanceAs (Decidable (_ ∧ _))

theorem normalizeFrom_renderings
    {actions : List Action}
    (hnormal : ∀ a ∈ actions, Normalized E a)
    (i : Nat) :
    normalizeFrom E i ((actions.map fun a => { a with id := "" }).map some) =
      .ok (actions.mapIdx fun j a =>
        { a with id := randomString (E.draws (i + j)) actionIDLength }) := by
  induction actions generalizing i with
  | nil =>
      rfl
  | cons a actions ih =>
      obtain ⟨⟨haction, hmethod⟩, hactions⟩ := List.forall_mem_cons.mp hnormal
      simp only [List.map_cons, normalizeFrom, ih hactions, Except.map,
        List.mapIdx_cons, normalizeAction, haction, hmethod, Nat.add_zero,
        Nat.add_assoc, Nat.add_comm 1]

/--
Valid, normalised actions that are written in the simple format are read back,
with new IDs.
-/
theorem parseActions_renderActions
    {actions : List Action} {pairs : List (List (String × String))}
    (hne : actions ≠ [])
    (hlength : actions.length ≤ actionsMax)
    (hvalid : ∀ a ∈ actions, actionProblem a = none)
    (hnormal : ∀ a ∈ actions, Normalized E a)
    (hwritable : ∀ a ∈ actions, Writable a)
    (hpairs : List.Forall₂ IsRendering actions pairs) :
    parseActions E (bytesOf (renderActions pairs)) =
      .ok (actions.mapIdx fun i a =>
        { a with id := randomString (E.draws i) actionIDLength }) := by
  obtain ⟨c, hhead, hkey⟩ := head_renderActions hne hwritable hpairs
  have hlast := getLast?_renderActions hne hpairs
  have htrim : trimSpace (renderActions pairs).toList =
      (renderActions pairs).toList := by
    refine trimSpace_eq_self (fun d hd => ?_) (fun d hd => ?_)
    · cases hhead.symm.trans hd
      exact not_isSpace_of_isKeyChar hkey
    · cases hlast.symm.trans hd
      decide
  have hsimple : parseEither E ((renderActions pairs).toList.map some) =
      .ok ((actions.map fun a => { a with id := "" }).map some) := by
    have hbracket : ((renderActions pairs).toList.map some).head? ≠
        some (some '[') := by
      rw [List.head?_map, hhead]
      rintro ⟨⟩
      revert hkey
      decide
    rw [parseEither, if_neg hbracket, parseActionsFromSimple,
      validText_map_some, renderActions, String.toList_ofList]
    simp only [parse_renderings hwritable hpairs]
  have hproblem : (actions.mapIdx fun i a => { a with
      id := randomString (E.draws i) actionIDLength }).findSome? actionProblem =
        none := by
    rw [List.findSome?_eq_none_iff]
    intro a ha
    obtain ⟨i, hi, rfl⟩ := List.mem_mapIdx.mp ha
    have hmember := hvalid _ (List.getElem_mem hi)
    exact hmember
  rw [parseActions, runes_bytesOf, trimRunes_map_some, htrim, hsimple]
  simp only [bind, Except.bind, normalizeFrom_renderings E hnormal 0,
    Nat.zero_add, validateActions, List.length_mapIdx, hproblem]
  rw [if_neg (Nat.not_lt.mpr hlength)]

/-- An action with quotes, delimiters and an empty header. -/
def quotedAction : Action :=
  { newAction with
    action := "http"
    label := "Say \"hi\""
    url := "https://x"
    headers := [("a", ""), ("b", "x;\"y\",")] }

def quotedPairs : List (String × String) :=
  [("action", "http"), ("headers.b", "x;\"y\","), ("label", "Say \"hi\""),
    ("url", "https://x"), ("headers.a", "")]

/-- The default fields are left out, and the headers are out of order. -/
theorem quoted_action_parsed :
    parseActions asciiEnvironment (bytesOf (renderActions [quotedPairs])) =
      .ok [{ quotedAction with id := "aaaaaaaaaa" }] := by
  have hwritable : Writable quotedAction :=
    ⟨by decide, by decide, by decide, by decide⟩
  have hrendering : IsRendering quotedAction quotedPairs := by
    decide
  have hnormal : Normalized asciiEnvironment quotedAction := by
    decide
  have hparse := parseActions_renderActions asciiEnvironment
    (List.cons_ne_nil quotedAction []) (by decide)
    (List.forall_mem_singleton.mpr (by decide))
    (List.forall_mem_singleton.mpr hnormal)
    (List.forall_mem_singleton.mpr hwritable)
    (List.forall₂_cons.mpr ⟨hrendering, List.Forall₂.nil⟩)
  have hid : randomString (asciiEnvironment.draws 0) actionIDLength =
      "aaaaaaaaaa" := by
    decide
  rw [hparse, List.mapIdx_cons, hid]
  rfl

end RoundTrip

end Actions

end Server
end CoopMessenger
