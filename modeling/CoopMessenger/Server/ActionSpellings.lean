import CoopMessenger.Server.ActionTexts
import CoopMessenger.Server.MessageJSON

/-!
# Spellings of an action

The type of an action, its label and its URL or value are written in a fixed
order, with their keys in front of them, or as the members of a JSON object.

**Results.**
* `parse_spellSections`: plain values are applied in turn, with a key or without.
* `parseActions_positional`, `parseActions_keyed`, `parseActions_jsonForm`: what is
  normalised and checked, for each of the spellings.
* `spellings_agree`: keys and JSON give the same result, and so does the fixed
  order for the types that take a third value.
-/

namespace CoopMessenger
namespace Server

open Library Util

namespace Actions

section Spelling

/-- `type, label, third` -/
def positional
    (t label third : List UInt8) : List UInt8 :=
  t ++ (bytesOf ", " ++ (label ++ (bytesOf ", " ++ third)))

/-- `action=type, label=label, key=third` -/
def keyed
    (t label : List UInt8)
    (key : String)
    (third : List UInt8) : List UInt8 :=
  bytesOf "action=" ++ (t ++ (bytesOf ", label=" ++
    (label ++ (bytesOf (", " ++ key ++ "=") ++ third))))

/-- `[{"action":"type","label":"label","key":"third"}]` -/
def jsonForm (t label key third : String) : List UInt8 :=
  bytesOf (String.ofList (Json.print (.arr [.obj
    [("action", .str t), ("label", .str label), (key, .str third)]])))

/-- No delimiter, quote or equals sign. -/
def isPlainRune : Option Char → Bool
  | some c => !isSectionEnd c && decide (c ∉ ['"', '\'', '='])
  | none => true

/--
Something without delimiters, quotes, equals signs, and white space around it.
-/
structure Plain (s : List (Option Char)) : Prop where
  nonempty : s ≠ []
  chars : ∀ r ∈ s, isPlainRune r = true
  first : ∀ r ∈ s.head?, isSpaceRune r = false
  last : ∀ r ∈ s.getLast?, isSpaceRune r = false

instance decidablePlain
    (s : List (Option Char)) :
    Decidable (Plain s) :=
  decidable_of_iff
    (s.isEmpty = false ∧ s.all isPlainRune = true ∧
      s.head?.all (!isSpaceRune ·) = true ∧ s.getLast?.all (!isSpaceRune ·) = true)
    (by
      simp only [List.isEmpty_eq_false_iff, List.all_eq_true, Option.all_eq_true,
        Bool.not_eq_true']
      exact ⟨fun h => ⟨h.1, h.2.1, h.2.2.1, h.2.2.2⟩,
        fun h => ⟨h.nonempty, h.chars, h.first, h.last⟩⟩)

/-- The type, in lower case, takes a third value, and this is its key. -/
def TakesThird (t key : String) : Prop :=
  t ∈ actionsWithURL ∧ key = "url" ∨ t ∈ actionsWithValue ∧ key = "value"

/-- The same actions up to their IDs, or errors. -/
def SameResult :
    Except Failure (List Action) → Except Failure (List Action) → Prop
  | .ok actions, .ok others =>
      actions.map (fun a => { a with id := "" }) =
        others.map (fun a => { a with id := "" })
  | .error (.error _), .error (.error _) => True
  | _, _ => False

end Spelling

section Sections

/-- A value, with its key if it has one. -/
def spellSection (p : String × List Char) : List Char :=
  if p.1 = "" then p.2 else p.1.toList ++ '=' :: p.2

def spellSections (parts : List (String × List Char)) : List Char :=
  [',', ' '].intercalate (parts.map spellSection)

/-- Applies keys and values in turn. -/
def populateFrom
    (a : Action)
    (i : Nat) :
    List (String × List Char) → Except String Action
  | [] => .ok a
  | p :: rest =>
      match populateAction a i p.1 (String.ofList p.2) with
      | .error e => .error e
      | .ok a' => populateFrom a' (i + 1) rest

variable {v rest : List Char}

theorem Plain.char_spec
    (hv : Plain (v.map some))
    {c : Char}
    (hc : c ∈ v) :
    isSectionEnd c = false ∧ c ∉ ['"', '\'', '='] := by
  simpa [isPlainRune] using hv.chars (some c) (List.mem_map.mpr ⟨c, hc, rfl⟩)

theorem Plain.head_spec
    (hv : Plain (v.map some)) :
    ∃ c, v.head? = some c ∧ c ∈ v ∧ Util.isSpace c = false := by
  cases v with
  | nil =>
      exact absurd rfl hv.nonempty
  | cons c v =>
      exact ⟨c, rfl, List.mem_cons_self, hv.first (some c) rfl⟩

theorem Plain.trimmed
    (hv : Plain (v.map some)) :
    trimSpace v = v := by
  have htrim := trimRunes_eq_self hv.first hv.last
  rw [trimRunes_map_some] at htrim
  exact List.map_injective_iff.mpr (Option.some_injective Char) htrim

/-- The spaces of the parser and of its regular expression are white space. -/
theorem isSpace_of_util
    {c : Char}
    (h : Util.isSpace c = false) :
    isSpace c = false ∧ isRegexSpace c = false := by
  refine ⟨?_, ?_⟩ <;> by_contra hspace
  · rw [Bool.not_eq_false, isSpace, decide_eq_true_eq] at hspace
    simp only [List.mem_cons, List.not_mem_nil, or_false] at hspace
    rcases hspace with rfl | rfl | rfl | rfl <;> revert h <;> decide
  · rw [Bool.not_eq_false, isRegexSpace, decide_eq_true_eq] at hspace
    simp only [List.mem_cons, List.not_mem_nil, or_false] at hspace
    rcases hspace with rfl | rfl | rfl | rfl | rfl <;> revert h <;> decide

/-- In front of the end of a section there is no key without an equals sign. -/
theorem parseKey_plain
    (hv : ∀ c ∈ v, c ≠ '=')
    (hend : isSectionEnd (rest.headD actionEOF) = true)
    (pos : Nat) :
    ActionParser.parseKey ⟨pos, v ++ rest⟩ = ("", ⟨pos, v ++ rest⟩) := by
  have hspaces : ∀ c, isSectionEnd c = true → isKeyChar c = false ∧
      isRegexSpace c = false ∧ c ≠ '=' := by
    intro c hc
    have hmem : c ∈ [actionEOF, ';', ','] := by
      simpa [isSectionEnd] using hc
    simp only [List.mem_cons, List.not_mem_nil, or_false] at hmem
    rcases hmem with rfl | rfl | rfl <;> decide
  -- what is skipped ends inside the value or right behind it
  have hskip : ∀ (f : Char → Bool) (w : List Char), w <:+ v →
      (∀ c, isSectionEnd c = true → f c = false) →
        ∃ w', w' <:+ v ∧ (w ++ rest).dropWhile f = w' ++ rest := by
    intro f w hw hf
    rw [List.dropWhile_append]
    split
    · refine ⟨[], List.nil_suffix, ?_⟩
      cases rest with
      | nil =>
          rfl
      | cons c rest =>
          exact List.dropWhile_cons_of_neg (by simp [hf c hend])
    · exact ⟨w.dropWhile f, (List.dropWhile_suffix f).trans hw, rfl⟩
  obtain ⟨w, hw, hname⟩ := hskip isKeyChar v List.suffix_rfl
    fun c hc => (hspaces c hc).1
  obtain ⟨w', hw', hspace⟩ := hskip isRegexSpace w hw
    fun c hc => (hspaces c hc).2.1
  have hhead : (w' ++ rest).head? ≠ some '=' := by
    cases w' with
    | nil =>
        cases rest with
        | nil =>
            simp
        | cons c rest =>
            simpa using (hspaces c hend).2.2
    | cons c w' =>
        simpa using hv c (hw'.subset List.mem_cons_self)
  simp only [ActionParser.parseKey, ActionParser.skipWhile, hname, hspace]
  exact if_neg fun h => hhead h.2

theorem parseValue_plain
    (hv : Plain (v.map some))
    (hend : isSectionEnd (rest.headD actionEOF) = true)
    (pos : Nat) :
    ∃ pos', ActionParser.parseValue ⟨pos, v ++ rest⟩ =
      (String.ofList v, isLastSection (rest.headD actionEOF), ⟨pos', rest.tail⟩) := by
  have hinside : ∀ c ∈ v, (!isSectionEnd c) = true := by
    intro c hc
    rw [(hv.char_spec hc).1]
    rfl
  have hbehind : rest.takeWhile (fun c => !isSectionEnd c) = [] ∧
      rest.dropWhile (fun c => !isSectionEnd c) = rest := by
    cases rest with
    | nil =>
        exact ⟨rfl, rfl⟩
    | cons c rest =>
        have hc : isSectionEnd c = true := hend
        simp [hc]
  have htake : (v ++ rest).takeWhile (fun c => !isSectionEnd c) = v := by
    rw [List.takeWhile_append_of_pos hinside, hbehind.1, List.append_nil]
  have hdrop : (v ++ rest).dropWhile (fun c => !isSectionEnd c) = rest := by
    rw [List.dropWhile_append_of_pos hinside, hbehind.2]
  obtain ⟨pos', hadvance⟩ := exists_advance (pos + ActionParser.width v) rest
  refine ⟨pos', ?_⟩
  simp only [ActionParser.parseValue, ActionParser.skipWhile, htake, hdrop, hv.trimmed,
    hadvance, ActionParser.peek]

/-- A section starts with its key or its value, and not with white space. -/
theorem head_spellSection
    {key : String}
    (hkey : PlainName key)
    (hv : Plain (v.map some))
    (rest : List Char) :
    ∃ c, (spellSection (key, v) ++ rest).head? = some c ∧ Util.isSpace c = false := by
  by_cases hempty : key = ""
  · obtain ⟨c, hhead, -, hspace⟩ := hv.head_spec
    refine ⟨c, ?_, hspace⟩
    rw [spellSection, if_pos hempty, List.head?_append, hhead]
    rfl
  · cases hlist : key.toList with
    | nil =>
        exact absurd (String.toList_eq_nil_iff.mp hlist) hempty
    | cons c name =>
        refine ⟨c, ?_, not_isSpace_of_isKeyChar (hkey c (by simp [hlist]))⟩
        rw [spellSection, if_neg hempty, hlist]
        rfl

theorem slurpSpaces_eq_self
    {s : List Char}
    (hs : ∃ c, s.head? = some c ∧ Util.isSpace c = false)
    (pos : Nat) :
    ActionParser.slurpSpaces ⟨pos, s⟩ = ⟨pos, s⟩ := by
  obtain ⟨c, hhead, hspace⟩ := hs
  refine skipWhile_eq_self fun d hd => ?_
  cases hhead.symm.trans hd
  exact (isSpace_of_util hspace).1

theorem parseKey_spellSection
    {key : String}
    (hkey : PlainName key)
    (hv : Plain (v.map some))
    (hend : isSectionEnd (rest.headD actionEOF) = true)
    (pos : Nat) :
    ∃ pos', ActionParser.parseKey ⟨pos, spellSection (key, v) ++ rest⟩ =
      (key, ⟨pos', v ++ rest⟩) := by
  by_cases hempty : key = ""
  · refine ⟨pos, ?_⟩
    rw [spellSection, if_pos hempty, hempty]
    refine parseKey_plain (fun c hc => ?_) hend pos
    have hquotes := (hv.char_spec hc).2
    simp only [List.mem_cons, not_or] at hquotes
    exact hquotes.2.2.1
  · obtain ⟨c, hhead, -, hspace⟩ := hv.head_spec
    obtain ⟨pos', hparse⟩ := parseKey_eq (v ++ rest) pos (by simpa using hempty) hkey
      (by
        intro d hd
        rw [List.head?_append, hhead] at hd
        cases hd
        exact (isSpace_of_util hspace).2)
    refine ⟨pos', ?_⟩
    rw [spellSection, if_neg hempty, List.append_assoc, List.cons_append, hparse,
      String.ofList_toList]

/-- A plain value is read up to the end of its section, with its key. -/
theorem parseSection_spellSection
    {key : String}
    (rest : List Char)
    (hkey : PlainName key)
    (hv : Plain (v.map some))
    (hend : isSectionEnd (rest.headD actionEOF) = true)
    (pos : Nat) :
    ∃ pos', ActionParser.parseSection ⟨pos, spellSection (key, v) ++ rest⟩ =
      .ok ((key, String.ofList v, isLastSection (rest.headD actionEOF)),
        ⟨pos', rest.tail⟩) := by
  obtain ⟨c, hhead, hmem, -⟩ := hv.head_spec
  obtain ⟨hplain, hquotes⟩ := hv.char_spec hmem
  simp only [List.mem_cons, not_or] at hquotes
  obtain ⟨pos₁, hparse⟩ := parseKey_spellSection hkey hv hend pos
  obtain ⟨pos₂, hvalue⟩ := parseValue_plain hv hend pos₁
  have hslurp := slurpSpaces_eq_self (head_spellSection hkey hv rest) pos
  have hpeek : ActionParser.peek ⟨pos₁, v ++ rest⟩ = c := by
    rw [ActionParser.peek, List.headD_eq_head?_getD, List.head?_append, hhead]
    rfl
  refine ⟨pos₂, ?_⟩
  simp only [ActionParser.parseSection, hslurp, hparse, hpeek, hplain, hvalue]
  rw [if_neg Bool.false_ne_true, if_neg (not_or.mpr ⟨hquotes.1, hquotes.2.1⟩)]

/-- Keys that may be left out, and plain values. -/
def PlainParts (parts : List (String × List Char)) : Prop :=
  ∀ p ∈ parts, PlainName p.1 ∧ Plain (p.2.map some)

theorem spellSections_cons
    (p q : String × List Char)
    (parts : List (String × List Char)) :
    spellSections (p :: q :: parts) =
      spellSection p ++ ',' :: ' ' :: spellSections (q :: parts) := by
  simp [spellSections]

theorem head_spellSections
    {p : String × List Char} {parts : List (String × List Char)}
    (h : PlainParts (p :: parts)) :
    ∃ c, (spellSections (p :: parts)).head? = some c ∧ Util.isSpace c = false := by
  obtain ⟨hkey, hv⟩ := h p List.mem_cons_self
  obtain ⟨more, hmore⟩ := exists_intercalate_cons [',', ' '] (spellSection p)
    (parts.map spellSection)
  rw [spellSections, List.map_cons, hmore]
  exact head_spellSection hkey hv more

/-- All sections are read, and their values applied in turn. -/
theorem parseSections_spellSections
    {p : String × List Char} {parts : List (String × List Char)}
    (h : PlainParts (p :: parts))
    (a : Action)
    (i pos : Nat) :
    ∃ pos', parseSections a i ⟨pos, spellSections (p :: parts)⟩ =
      (populateFrom a i (p :: parts)).map fun a' => (a', ⟨pos', []⟩) := by
  induction parts generalizing p a i pos with
  | nil =>
      obtain ⟨hkey, hv⟩ := h p List.mem_cons_self
      obtain ⟨pos', hsection⟩ := parseSection_spellSection [] hkey hv rfl pos
      have htext : spellSections [p] = spellSection p ++ [] := by
        simp [spellSections]
      refine ⟨pos', ?_⟩
      rw [htext, populateFrom]
      cases hpopulate : populateAction a i p.1 (String.ofList p.2) with
      | error e =>
          rw [parseSections_of_error hsection hpopulate]
          rfl
      | ok a' =>
          rw [parseSections_of_section hsection hpopulate]
          rfl
  | cons q parts ih =>
      obtain ⟨hkey, hv⟩ := h p List.mem_cons_self
      have hparts : PlainParts (q :: parts) :=
        fun r hr => h r (List.mem_cons_of_mem p hr)
      obtain ⟨pos₁, hsection⟩ := parseSection_spellSection
        (',' :: ' ' :: spellSections (q :: parts)) hkey hv rfl pos
      rw [spellSections_cons, populateFrom]
      cases hpopulate : populateAction a i p.1 (String.ofList p.2) with
      | error e =>
          refine ⟨pos₁, ?_⟩
          rw [parseSections_of_error hsection hpopulate]
          rfl
      | ok a' =>
          have hblank : ActionParser.slurpSpaces
              ⟨pos₁, ' ' :: spellSections (q :: parts)⟩ =
                ActionParser.slurpSpaces
                  ⟨pos₁ + 1, spellSections (q :: parts)⟩ := by
            have hwidth : ' '.utf8Size = 1 := by
              decide
            simp [ActionParser.slurpSpaces, ActionParser.skipWhile, isSpace,
              ActionParser.width, hwidth, Nat.add_assoc]
          obtain ⟨pos₂, hsections⟩ := ih hparts a' (i + 1) (pos₁ + 1)
          refine ⟨pos₂, ?_⟩
          rw [parseSections_of_section hsection hpopulate]
          simp only [List.headD_cons, List.tail_cons, hblank]
          rw [slurpSpaces_eq_self (head_spellSections hparts)]
          exact hsections

/-- Plain values are read as one action, with or without their keys. -/
theorem parse_spellSections
    {parts : List (String × List Char)}
    (hne : parts ≠ [])
    (h : PlainParts parts)
    (pos : Nat) :
    parse ⟨pos, spellSections parts⟩ =
      (populateFrom newAction 0 parts).map fun a => [a] := by
  obtain ⟨p, parts, rfl⟩ := List.exists_cons_of_ne_nil hne
  obtain ⟨pos', hsections⟩ := parseSections_spellSections h newAction 0 pos
  obtain ⟨c, hhead, -⟩ := head_spellSections h
  have htext : spellSections (p :: parts) ≠ [] := by
    intro hempty
    rw [hempty] at hhead
    cases hhead
  cases hpopulate : populateFrom newAction 0 (p :: parts) with
  | error e =>
      rw [hpopulate] at hsections
      rw [parse, dif_neg htext]
      split
      · next h' =>
          cases hsections.symm.trans h'
          rfl
      · next h' =>
          cases hsections.symm.trans h'
  | ok a =>
      rw [hpopulate] at hsections
      rw [parse_of_sections htext hsections, parse_nil]
      rfl

theorem getLast?_spellSections
    {p : String × List Char} {parts : List (String × List Char)}
    (h : PlainParts (p :: parts)) :
    ∃ c, (spellSections (p :: parts)).getLast? = some c ∧ Util.isSpace c = false := by
  induction parts generalizing p with
  | nil =>
      obtain ⟨-, hv⟩ := h p List.mem_cons_self
      have hne : p.2 ≠ [] := by
        simpa using hv.nonempty
      have hlast := List.getLast?_eq_some_getLast hne
      refine ⟨p.2.getLast hne, ?_, hv.last (some (p.2.getLast hne)) ?_⟩
      · have htext : spellSections [p] = spellSection p := by
          simp [spellSections]
        rw [htext, spellSection]
        split
        · exact hlast
        · rw [List.getLast?_append, List.getLast?_cons, hlast]
          rfl
      · rw [List.getLast?_map, hlast]
        rfl
  | cons q parts ih =>
      obtain ⟨c, hlast, hspace⟩ := ih fun r hr => h r (List.mem_cons_of_mem p hr)
      refine ⟨c, ?_, hspace⟩
      rw [spellSections_cons, List.getLast?_append, List.getLast?_cons,
        List.getLast?_cons, hlast]
      rfl

end Sections

section Parsing

variable (E : Environment)

/-- What is no JSON and has no white space around it is read in the simple format. -/
theorem parseActions_simple
    {s : List UInt8}
    (hfirst : ∀ r ∈ (runes s).head?, isSpaceRune r = false ∧ r ≠ some '[')
    (hlast : ∀ r ∈ (runes s).getLast?, isSpaceRune r = false) :
    parseActions E s =
      match parseActionsFromSimple (runes s) with
      | .error e => .error (.error e)
      | .ok actions =>
          (normalizeFrom E 0 (actions.map some)).bind validateActions := by
  have hbracket : (runes s).head? ≠ some (some '[') :=
    fun h => (hfirst _ h).2 rfl
  rw [parseActions, trimRunes_eq_self (fun r hr => (hfirst r hr).1) hlast, parseEither,
    if_neg hbracket]
  cases parseActionsFromSimple (runes s) <;> rfl

theorem parseActions_invalid
    {s : List UInt8}
    (hfirst : ∀ r ∈ (runes s).head?, isSpaceRune r = false ∧ r ≠ some '[')
    (hlast : ∀ r ∈ (runes s).getLast?, isSpaceRune r = false)
    (h : none ∈ runes s) :
    parseActions E s = .error (.error "invalid utf-8 string") := by
  rw [parseActions_simple E hfirst hlast, parseActionsFromSimple, validText_eq_none h]

/-- Plain values are applied in turn, then the action is normalised and checked. -/
theorem parseActions_parts
    {s : List UInt8}
    {parts : List (String × List Char)}
    (hs : runes s = (spellSections parts).map some)
    (hne : parts ≠ [])
    (h : PlainParts parts)
    (hbracket : (spellSections parts).head? ≠ some '[') :
    parseActions E s =
      match populateFrom newAction 0 parts with
      | .error e => .error (.error e)
      | .ok a => validateActions [normalizeAction E 0 a] := by
  obtain ⟨p, parts, rfl⟩ := List.exists_cons_of_ne_nil hne
  obtain ⟨c, hhead, hfirst⟩ := head_spellSections h
  obtain ⟨d, htail, hlast⟩ := getLast?_spellSections h
  rw [parseActions_simple E, hs, parseActionsFromSimple, validText_map_some]
  · simp only [parse_spellSections hne h]
    cases populateFrom newAction 0 (p :: parts) <;> rfl
  · intro r hr
    rw [hs, List.head?_map, hhead] at hr
    cases hr
    refine ⟨hfirst, ?_⟩
    rintro ⟨⟩
    exact hbracket hhead
  · intro r hr
    rw [hs, List.getLast?_map, htail] at hr
    cases hr
    exact hlast

/-- The action with the type, the label, and the URL or the value. -/
def spelledAction (t label key third : String) : Action :=
  if key = "url" then
    { newAction with action := t, label := label, url := third }
  else
    { newAction with action := t, label := label, value := third }

theorem populateAction_values
    (cur : Action)
    (i : Nat)
    (v : String) :
    populateAction cur i "action" v = .ok { cur with action := v } ∧
      populateAction cur i "label" v = .ok { cur with label := v } ∧
      populateAction cur i "url" v = .ok { cur with url := v } ∧
      populateAction cur i "value" v = .ok { cur with value := v } :=
  ⟨populateAction_scalar (a := { newAction with action := v }) i (by decide),
    populateAction_scalar (a := { newAction with label := v }) i (by decide),
    populateAction_scalar (a := { newAction with url := v }) i (by decide),
    populateAction_scalar (a := { newAction with value := v }) i (by decide)⟩

/-- A value without a key is applied as one with the key it stands for. -/
theorem populateAction_expanded
    {cur : Action} {i : Nat} {key : String}
    (hkey : expandKey cur i "" = key)
    (hne : key ≠ "")
    (v : String) :
    populateAction cur i "" v = populateAction cur i key v := by
  simp only [populateAction, hkey, expandKey_of_ne hne]

theorem populateFrom_keyed
    (t label third : List Char)
    {key : String}
    (hkey : key ∈ ["url", "value"]) :
    populateFrom newAction 0 [("action", t), ("label", label), (key, third)] =
      .ok (spelledAction (String.ofList t) (String.ofList label) key
        (String.ofList third)) := by
  simp only [List.mem_cons, List.not_mem_nil, or_false] at hkey
  rcases hkey with rfl | rfl <;>
    simp [populateFrom, populateAction_values, spelledAction]

/-- Without keys the third value needs a type that takes it. -/
theorem populateFrom_positional
    (t label third : List Char) :
    populateFrom newAction 0 [("", t), ("", label), ("", third)] =
      if String.ofList t ∈ actionsWithURL then
        .ok (spelledAction (String.ofList t) (String.ofList label) "url"
          (String.ofList third))
      else if String.ofList t ∈ actionsWithValue then
        .ok (spelledAction (String.ofList t) (String.ofList label) "value"
          (String.ofList third))
      else
        .error s!"term '{String.ofList third}' unknown" := by
  have haction : ∀ cur v, populateAction cur 0 "" v = populateAction cur 0 "action" v :=
    fun cur v =>
      populateAction_expanded (show expandKey cur 0 "" = "action" from rfl) (by decide) v
  have hlabel : ∀ cur v, populateAction cur 1 "" v = populateAction cur 1 "label" v :=
    fun cur v =>
      populateAction_expanded (show expandKey cur 1 "" = "label" from rfl) (by decide) v
  simp only [populateFrom, haction, hlabel, populateAction_values]
  by_cases hurl : String.ofList t ∈ actionsWithURL
  · have hkey : expandKey { newAction with
        action := String.ofList t
        label := String.ofList label } 2 "" = "url" := by
      simp [expandKey, hurl]
    rw [if_pos hurl, populateAction_expanded hkey (by decide)]
    simp [populateAction_values, spelledAction]
  · by_cases hvalue : String.ofList t ∈ actionsWithValue
    · have hkey : expandKey { newAction with
          action := String.ofList t
          label := String.ofList label } 2 "" = "value" := by
        simp [expandKey, hurl, hvalue]
      rw [if_neg hurl, if_pos hvalue, populateAction_expanded hkey (by decide)]
      simp [populateAction_values, spelledAction]
    · rw [if_neg hurl, if_neg hvalue]
      simp [populateAction, expandKey, hurl, hvalue]

theorem sameResult_validateActions
    (d₁ d₂ : Nat → Nat → Nat)
    (a : Action) :
    SameResult (validateActions [normalizeAction { E with draws := d₁ } 0 a])
      (validateActions [normalizeAction { E with draws := d₂ } 0 a]) := by
  have hproblem : actionProblem (normalizeAction { E with draws := d₁ } 0 a) =
      actionProblem (normalizeAction { E with draws := d₂ } 0 a) := by
    rfl
  simp only [validateActions, List.findSome?_cons, List.findSome?_nil, hproblem]
  cases actionProblem (normalizeAction { E with draws := d₂ } 0 a) with
  | none =>
      rfl
  | some e =>
      trivial

theorem runes_positional
    (t : String)
    (label third : List UInt8) :
    runes (positional (bytesOf t) label third) =
      t.toList.map some ++ (", ".toList.map some ++
        (runes label ++ (", ".toList.map some ++ runes third))) := by
  have hsep : ", " ≠ "" := by
    decide
  rw [positional, runes_bytesOf_append, runes_bytesOf_append,
    runes_append_bytesOf label hsep]

theorem runes_keyed
    (t key : String)
    (label third : List UInt8) :
    runes (keyed (bytesOf t) label key third) =
      "action=".toList.map some ++ (t.toList.map some ++
        (", label=".toList.map some ++ (runes label ++
          ((", " ++ key ++ "=").toList.map some ++ runes third)))) := by
  have hsep : ", " ++ key ++ "=" ≠ "" := by
    simp
  rw [keyed, runes_bytesOf_append, runes_bytesOf_append, runes_bytesOf_append,
    runes_append_bytesOf label hsep]

variable {E}
variable {t label third : List Char} {key : String}
variable {labelBytes thirdBytes : List UInt8}

theorem parseActions_keyed
    (ht : Plain (t.map some))
    (hlabel : Plain (label.map some))
    (hthird : Plain (third.map some))
    (hkey : key ∈ ["url", "value"])
    (hlabelBytes : runes labelBytes = label.map some)
    (hthirdBytes : runes thirdBytes = third.map some) :
    parseActions E (keyed (bytesOf (String.ofList t)) labelBytes key thirdBytes) =
      validateActions [normalizeAction E 0 (spelledAction (String.ofList t)
        (String.ofList label) key (String.ofList third))] := by
  have hnames : ∀ k ∈ ["action", "label", "url", "value"], k ≠ "" ∧ PlainName k := by
    decide
  have hname := hnames key (List.mem_cons_of_mem _ (List.mem_cons_of_mem _ hkey))
  have hparts : PlainParts [("action", t), ("label", label), (key, third)] := by
    simp only [PlainParts, List.forall_mem_cons, List.not_mem_nil, false_implies,
      implies_true, and_true]
    exact ⟨⟨(hnames "action" (by decide)).2, ht⟩,
      ⟨(hnames "label" (by decide)).2, hlabel⟩, hname.2, hthird⟩
  rw [parseActions_parts E ?_ (List.cons_ne_nil _ _) hparts,
    populateFrom_keyed t label third hkey]
  · simp [spellSections, spellSection]
  · rw [runes_keyed, hlabelBytes, hthirdBytes]
    simp [spellSections, spellSection, hname.1]

theorem parseActions_positional
    (ht : Plain (t.map some))
    (hbracket : t.head? ≠ some '[')
    (hlabel : Plain (label.map some))
    (hthird : Plain (third.map some))
    (hlabelBytes : runes labelBytes = label.map some)
    (hthirdBytes : runes thirdBytes = third.map some) :
    parseActions E (positional (bytesOf (String.ofList t)) labelBytes thirdBytes) =
      match populateFrom newAction 0 [("", t), ("", label), ("", third)] with
      | .error e => .error (.error e)
      | .ok a => validateActions [normalizeAction E 0 a] := by
  have hname : PlainName "" := by
    decide
  have hparts : PlainParts [("", t), ("", label), ("", third)] := by
    simp only [PlainParts, List.forall_mem_cons, List.not_mem_nil, false_implies,
      implies_true, and_true]
    exact ⟨⟨hname, ht⟩, ⟨hname, hlabel⟩, hname, hthird⟩
  have htext : spellSections [("", t), ("", label), ("", third)] =
      t ++ (", ".toList ++ (label ++ (", ".toList ++ third))) := by
    simp [spellSections, spellSection]
  refine parseActions_parts E ?_ (List.cons_ne_nil _ _) hparts ?_
  · rw [runes_positional, hlabelBytes, hthirdBytes, htext]
    simp
  · obtain ⟨c, hhead, -⟩ := ht.head_spec
    rw [htext, List.head?_append, hhead, Option.some_or]
    rw [hhead] at hbracket
    exact hbracket

theorem parseActions_jsonForm
    (t label third : String)
    (hkey : key ∈ ["url", "value"]) :
    parseActions E (jsonForm t label key third) =
      validateActions [normalizeAction E 0 (spelledAction t label key third)] := by
  have hprintable : Json.Printable Json.maxNestingDepth (.arr [.obj
      [("action", .str t), ("label", .str label), (key, .str third)]]) := by
    refine .arr _ (List.forall_mem_singleton.mpr (.obj _ ?_))
    simp only [List.forall_mem_cons, List.not_mem_nil, false_implies, implies_true,
      and_true]
    exact ⟨.str t, .str label, .str third⟩
  have hdecode : decodePointer (.obj
      [("action", .str t), ("label", .str label), (key, .str third)]) =
        some (some (spelledAction t label key third)) := by
    simp only [List.mem_cons, List.not_mem_nil, or_false] at hkey
    rcases hkey with rfl | rfl <;>
      simp [decodePointer, decodeAction, decodeFields, fieldNamed, actionFields,
        setActionField, decodeString, spelledAction, newAction]
  have hparse : parseActionsFromJSON (Json.print (.arr [.obj
      [("action", .str t), ("label", .str label), (key, .str third)]])) =
        some ([spelledAction t label key third].map some) := by
    rw [parseActionsFromJSON, Json.parse_print hprintable]
    simp [hdecode]
  exact parseActions_print E hparse

/-- Bytes that are no text are an error in both spellings without JSON. -/
theorem parseActions_invalid_bytes
    {t : String}
    (key : String)
    (ht : Plain (t.toList.map some))
    (hbracket : t.toList.head? ≠ some '[')
    (hthird : Plain (runes thirdBytes))
    (h : none ∈ runes labelBytes ∨ none ∈ runes thirdBytes) :
    parseActions E (positional (bytesOf t) labelBytes thirdBytes) =
        .error (.error "invalid utf-8 string") ∧
      parseActions E (keyed (bytesOf t) labelBytes key thirdBytes) =
        .error (.error "invalid utf-8 string") := by
  have hlast : ∀ before, ∀ r ∈ (before ++ runes thirdBytes).getLast?,
      isSpaceRune r = false := by
    intro before r hr
    rw [List.getLast?_append_of_ne_nil _ hthird.nonempty] at hr
    exact hthird.last r hr
  refine ⟨parseActions_invalid E ?_ ?_ ?_, parseActions_invalid E ?_ ?_ ?_⟩
  · obtain ⟨c, hhead, -, hspace⟩ := ht.head_spec
    intro r hr
    rw [runes_positional, List.head?_append, List.head?_map, hhead] at hr
    cases hr
    refine ⟨hspace, ?_⟩
    rintro ⟨⟩
    exact hbracket hhead
  · rw [runes_positional]
    simpa only [List.append_assoc] using hlast (t.toList.map some ++
      (", ".toList.map some ++ (runes labelBytes ++ ", ".toList.map some)))
  · rw [runes_positional]
    simp only [List.mem_append]
    tauto
  · intro r hr
    rw [runes_keyed] at hr
    cases hr
    decide
  · rw [runes_keyed]
    simpa only [List.append_assoc] using hlast ("action=".toList.map some ++
      (t.toList.map some ++ (", label=".toList.map some ++ (runes labelBytes ++
        (", " ++ key ++ "=").toList.map some))))
  · rw [runes_keyed]
    simp only [List.mem_append]
    tauto

end Parsing

section Agreement

variable (E : Environment)
variable {t key : String}
variable {label third : List UInt8}

/-- Without keys a third value is an error if the type, as it is written, takes none. -/
theorem positional_error
    (ht : Plain (t.toList.map some))
    (hbracket : t.toList.head? ≠ some '[')
    (hnone : ∀ key, ¬ TakesThird t key)
    (hlabel : Plain (runes label))
    (hthird : Plain (runes third)) :
    ∃ e, parseActions E (positional (bytesOf t) label third) = .error (.error e) := by
  have hurl : t ∉ actionsWithURL := fun h => hnone "url" (Or.inl ⟨h, rfl⟩)
  have hvalue : t ∉ actionsWithValue := fun h => hnone "value" (Or.inr ⟨h, rfl⟩)
  by_cases hvalid : none ∈ runes label ∨ none ∈ runes third
  · exact ⟨_, (parseActions_invalid_bytes "" ht hbracket hthird hvalid).1⟩
  · obtain ⟨hl, hu⟩ := not_or.mp hvalid
    obtain ⟨l, hl⟩ := exists_eq_map_some hl
    obtain ⟨u, hu⟩ := exists_eq_map_some hu
    have hparse := parseActions_positional (E := E) ht hbracket (hl ▸ hlabel)
      (hu ▸ hthird) hl hu
    rw [populateFrom_positional, String.ofList_toList, if_neg hurl, if_neg hvalue]
      at hparse
    exact ⟨_, hparse⟩

theorem not_takesThird
    (ht : t ∉ actionsWithURL ++ actionsWithValue)
    (key : String) :
    ¬ TakesThird t key := by
  rw [List.mem_append, not_or] at ht
  exact not_or.mpr ⟨fun h => ht.1 h.1, fun h => ht.2 h.1⟩

/-- For the types that take a third value its key may be left out, and all keys. -/
theorem sameResult_positional
    (d₁ d₂ : Nat → Nat → Nat)
    (hthirdKey : TakesThird t key)
    (hlabel : Plain (runes label))
    (hthird : Plain (runes third)) :
    SameResult
      (parseActions { E with draws := d₁ } (positional (bytesOf t) label third))
      (parseActions { E with draws := d₂ } (keyed (bytesOf t) label key third)) := by
  have hall : ∀ t ∈ actionsAll, Plain (t.toList.map some) ∧
      t.toList.head? ≠ some '[' ∧ ¬ (t ∈ actionsWithURL ∧ t ∈ actionsWithValue) := by
    decide
  have hmem : t ∈ actionsAll ∧ key ∈ ["url", "value"] := by
    have hwith : (∀ t ∈ actionsWithURL, t ∈ actionsAll) ∧
        ∀ t ∈ actionsWithValue, t ∈ actionsAll := by
      decide
    rcases hthirdKey with ⟨hmem, rfl⟩ | ⟨hmem, rfl⟩
    · exact ⟨hwith.1 t hmem, by decide⟩
    · exact ⟨hwith.2 t hmem, by decide⟩
  obtain ⟨ht, hbracket, hdistinct⟩ := hall t hmem.1
  by_cases hvalid : none ∈ runes label ∨ none ∈ runes third
  · obtain ⟨hpositional, -⟩ := parseActions_invalid_bytes
      (E := { E with draws := d₁ }) key ht hbracket hthird hvalid
    obtain ⟨-, hkeyed⟩ := parseActions_invalid_bytes
      (E := { E with draws := d₂ }) key ht hbracket hthird hvalid
    rw [hpositional, hkeyed]
    trivial
  · obtain ⟨hl, hu⟩ := not_or.mp hvalid
    obtain ⟨l, hl⟩ := exists_eq_map_some hl
    obtain ⟨u, hu⟩ := exists_eq_map_some hu
    have hpositional := parseActions_positional (E := { E with draws := d₁ }) ht
      hbracket (hl ▸ hlabel) (hu ▸ hthird) hl hu
    have hkeyed := parseActions_keyed (E := { E with draws := d₂ }) ht
      (hl ▸ hlabel) (hu ▸ hthird) hmem.2 hl hu
    rw [populateFrom_positional] at hpositional
    rw [String.ofList_toList] at hpositional hkeyed
    rw [hpositional, hkeyed]
    rcases hthirdKey with ⟨hurl, rfl⟩ | ⟨hvalue, rfl⟩
    · rw [if_pos hurl]
      exact sameResult_validateActions E d₁ d₂ _
    · rw [if_neg fun hurl => hdistinct ⟨hurl, hvalue⟩, if_pos hvalue]
      exact sameResult_validateActions E d₁ d₂ _

/--
Keys and JSON agree whatever the type, and for types in lower case leaving out the
keys agrees with them where the type takes a third value; a broadcast does not.
-/
theorem spellings_agree
    (d₁ d₂ : Nat → Nat → Nat)
    (ht : Plain (runes (bytesOf t)))
    (hlabel : Plain (runes label))
    (hthird : Plain (runes third))
    (hkey : key ∈ ["url", "value"]) :
    (∀ l u, label = bytesOf l → third = bytesOf u →
        SameResult
          (parseActions { E with draws := d₁ } (keyed (bytesOf t) label key third))
          (parseActions { E with draws := d₂ } (jsonForm t l key u))) ∧
      (TakesThird t key →
        SameResult
          (parseActions { E with draws := d₁ } (positional (bytesOf t) label third))
          (parseActions { E with draws := d₂ } (keyed (bytesOf t) label key third))) ∧
      (t = "broadcast" →
        ∃ e, parseActions E (positional (bytesOf t) label third) =
          .error (.error e)) := by
  refine ⟨?_, fun h => sameResult_positional E d₁ d₂ h hlabel hthird, ?_⟩
  · rintro l u rfl rfl
    rw [runes_bytesOf] at ht hlabel hthird
    have hkeyed := parseActions_keyed (E := { E with draws := d₁ }) ht hlabel hthird
      hkey (runes_bytesOf l) (runes_bytesOf u)
    rw [String.ofList_toList, String.ofList_toList, String.ofList_toList] at hkeyed
    rw [hkeyed, parseActions_jsonForm t l u hkey]
    exact sameResult_validateActions E d₁ d₂ _
  · rintro rfl
    exact positional_error E (by decide) (by decide) (not_takesThird (by decide)) hlabel
      hthird

/-- The values of a copy action, with inner blanks. -/
theorem copy_spellings :
    SameResult
        (parseActions asciiEnvironment
          (keyed (bytesOf "copy") (bytesOf "Copy code") "value" (bytesOf "1234")))
        (parseActions asciiEnvironment (jsonForm "copy" "Copy code" "value" "1234")) ∧
      SameResult
        (parseActions asciiEnvironment
          (positional (bytesOf "copy") (bytesOf "Copy code") (bytesOf "1234")))
        (parseActions asciiEnvironment
          (keyed (bytesOf "copy") (bytesOf "Copy code") "value" (bytesOf "1234"))) := by
  have hplain : Plain (runes (bytesOf "copy")) ∧ Plain (runes (bytesOf "Copy code")) ∧
      Plain (runes (bytesOf "1234")) := by
    simp only [runes_bytesOf]
    decide
  have hkey : "value" ∈ ["url", "value"] := by
    decide
  have hagree := spellings_agree asciiEnvironment (fun _ _ => 0) (fun _ _ => 0)
    hplain.1 hplain.2.1 hplain.2.2 hkey
  exact ⟨hagree.1 _ _ rfl rfl, hagree.2.1 (Or.inr ⟨by decide, rfl⟩)⟩

/-- A broadcast takes no third value, and the case of a type matters without keys. -/
theorem spellings_differ :
    Plain (runes (bytesOf "l")) ∧ Plain (runes (bytesOf "u")) ∧
      ∀ t ∈ ["broadcast", "VIEW"],
        Plain (runes (bytesOf t)) ∧
          mapText asciiEnvironment.toLower t ∈ actionsAll ∧
          ¬ SameResult
            (parseActions asciiEnvironment
              (positional (bytesOf t) (bytesOf "l") (bytesOf "u")))
            (parseActions asciiEnvironment
              (keyed (bytesOf t) (bytesOf "l") "url" (bytesOf "u"))) := by
  have hl : Plain (runes (bytesOf "l")) := by
    rw [runes_bytesOf]
    decide
  have hu : Plain (runes (bytesOf "u")) := by
    rw [runes_bytesOf]
    decide
  have htypes : ∀ t ∈ ["broadcast", "VIEW"], Plain (t.toList.map some) ∧
      t.toList.head? ≠ some '[' ∧ t ∉ actionsWithURL ++ actionsWithValue ∧
      mapText asciiEnvironment.toLower t ∈ actionsAll ∧
      (validateActions [normalizeAction asciiEnvironment 0
        (spelledAction t "l" "url" "u")]).isOk = true := by
    decide
  refine ⟨hl, hu, fun t ht => ?_⟩
  obtain ⟨hplain, hbracket, hnone, htype, hok⟩ := htypes t ht
  obtain ⟨e, hpositional⟩ := positional_error asciiEnvironment hplain hbracket
    (not_takesThird hnone) hl hu
  have hkey : "url" ∈ ["url", "value"] := by
    decide
  have hkeyed := parseActions_keyed (E := asciiEnvironment) hplain
    (runes_bytesOf "l" ▸ hl) (runes_bytesOf "u" ▸ hu) hkey (runes_bytesOf "l")
    (runes_bytesOf "u")
  rw [String.ofList_toList, String.ofList_toList, String.ofList_toList] at hkeyed
  refine ⟨(runes_bytesOf t).symm ▸ hplain, htype, ?_⟩
  rw [hpositional, hkeyed]
  cases hresult : validateActions [normalizeAction asciiEnvironment 0
      (spelledAction t "l" "url" "u")] with
  | error f =>
      rw [hresult] at hok
      cases hok
  | ok actions =>
      exact id

end Agreement

end Actions

end Server
end CoopMessenger
