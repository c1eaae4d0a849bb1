import CoopMessenger.Server.Actions
import CoopMessenger.Util.RuneCuts

/-!
# Positions of the action parser

The parser of the simple action format moves a byte position through its input and
decodes one rune at a time; none of its loops has a counter.  Here the loops get
fuel, and every position that the parser moves to is kept in a trail, so that
termination and positions can be spoken about.  The parser on the characters that
are left is followed step by step.

**Results.**
* `parseSection_progress`: a section takes something, or is the last one, or fails.
* `parse_spec`: with enough fuel the parser on bytes gives what the parser on
  characters gives, at positions between characters.
* `parser_progress`: the parser returns, and never leaves the positions between
  characters.
-/

namespace CoopMessenger
namespace Server

open Library Util

namespace Actions

section Bytes

/-- `utf8.DecodeRuneInString` -/
def decodeRune (s : List UInt8) : Char × Nat :=
  match s with
  | [] => ('\ufffd', 0)
  | b :: rest =>
      match (b :: rest).toByteArray.utf8DecodeChar? 0 with
      | some c => (c, c.utf8Size)
      | none => ('\ufffd', 1)

/-- The text of bytes. -/
def textOf (bytes : List UInt8) : List Char :=
  replaceInvalid (runes bytes)

/-- The parser: its position in the input, and all positions it has moved to. -/
structure Scanner where
  input : List UInt8
  pos : Nat
  trail : List Nat
deriving DecidableEq, Repr

namespace Scanner

def start (input : List UInt8) : Scanner :=
  ⟨input, 0, [0]⟩

def eof (p : Scanner) : Bool :=
  p.input.length ≤ p.pos

/-- The next rune and its width. -/
def peek (p : Scanner) : Char × Nat :=
  if p.eof then (actionEOF, 0) else decodeRune (p.input.drop p.pos)

/-- `p.pos += w` -/
def move
    (p : Scanner)
    (w : Nat) : Scanner :=
  { p with pos := p.pos + w, trail := (p.pos + w) :: p.trail }

/-- `p.input[start:p.pos]` -/
def slice
    (p : Scanner)
    (start : Nat) : List UInt8 :=
  (p.input.drop start).take (p.pos - start)

/-- Reads all space characters. -/
def slurpSpaces : Nat → Scanner → Option Scanner
  | 0, _ => none
  | fuel + 1, p =>
      let (r, w) := p.peek
      if r = actionEOF ∨ isSpace r = false then
        some p
      else
        slurpSpaces fuel (p.move w)

/-- Matches `^([-.\w]+)\s*=\s*`. -/
def parseKey (p : Scanner) : String × Scanner :=
  let rs := runes (p.input.drop p.pos)
  let key := rs.takeWhile (Option.any isKeyChar)
  let blanks := (rs.dropWhile (Option.any isKeyChar)).takeWhile (Option.any isRegexSpace)
  let after := (rs.dropWhile (Option.any isKeyChar)).dropWhile (Option.any isRegexSpace)
  if key ≠ [] ∧ after.head? = some (some '=') then
    (String.ofList (replaceInvalid key),
      p.move (bytesOfRunes
        (key ++ (blanks ++ some '=' :: after.tail.takeWhile (Option.any isRegexSpace)))))
  else
    ("", p)

/-- Reads up to the end of the section. -/
def parseValue
    (start : Nat) :
    Nat → Scanner → Option ((String × Bool) × Scanner)
  | 0, _ => none
  | fuel + 1, p =>
      let (r, w) := p.peek
      if isSectionEnd r then
        some ((String.ofList (trimSpace (textOf (p.slice start))), isLastSection r), p.move w)
      else
        parseValue start fuel (p.move w)

/-- The loop of `parseQuotedValue`, behind the first quote. -/
def parseQuoted
    (quote : Char)
    (start : Nat) :
    Nat → Char → Scanner → Option (Except String (String × Bool) × Scanner)
  | 0, _, _ => none
  | fuel + 1, prev, p =>
      let (r, w) := p.peek
      if r = actionEOF then
        some (.error s!"unexpected end of input, quote started at position {start}", p)
      else if r = quote ∧ prev ≠ '\\' then
        let value := String.ofList (ActionParser.unescapeQuotes quote (textOf (p.slice start)))
        (slurpSpaces fuel (p.move w)).map fun q =>
          let (r, w) := q.peek
          if isSectionEnd r then
            (.ok (value, isLastSection r), q.move w)
          else
            (.error s!"unexpected character '{r}' at position {q.pos}", q)
      else
        parseQuoted quote start fuel r (p.move w)

def parseQuotedValue
    (fuel : Nat)
    (quote : Char)
    (p : Scanner) : Option (Except String (String × Bool) × Scanner) :=
  parseQuoted quote (p.pos + 1) fuel actionEOF (p.move 1)

/-- The key and the value of a section, and if it is the last one. -/
def parseSection
    (fuel : Nat)
    (p : Scanner) : Option (Except String (String × String × Bool) × Scanner) :=
  (slurpSpaces fuel p).bind fun p =>
    let (key, p) := p.parseKey
    let (r, w) := p.peek
    if isSectionEnd r then
      some (.ok (key, "", isLastSection r), p.move w)
    else if r = '"' ∨ r = '\'' then
      (parseQuotedValue fuel r p).map fun (v, p) => (v.map (key, ·), p)
    else
      (parseValue p.pos fuel p).map fun (v, p) => (.ok (key, v), p)

/-- The sections of one action. -/
def parseAction :
    Nat → Action → Nat → Scanner → Option (Except String Action × Scanner)
  | 0, _, _, _ => none
  | fuel + 1, a, «section», p =>
      (parseSection fuel p).bind fun
        | (.error e, p) => some (.error e, p)
        | (.ok (key, value, last), p) =>
            match populateAction a «section» key value with
            | .error e => some (.error e, p)
            | .ok a' =>
                (slurpSpaces fuel p).bind fun p =>
                  if last then
                    some (.ok a', p)
                  else
                    parseAction fuel a' («section» + 1) p

/-- Reads actions until the end of the input is reached. -/
def parse : Nat → Scanner → Option (Except String (List Action) × Scanner)
  | 0, _ => none
  | fuel + 1, p =>
      if p.eof then
        some (.ok [], p)
      else
        (parseAction fuel newAction 0 p).bind fun
          | (.error e, p) => some (.error e, p)
          | (.ok a, p) => (parse fuel p).map fun (rest, p) => (rest.map (a :: ·), p)

end Scanner

end Bytes

section Positions

open ActionParser (width)

@[simp] theorem width_nil :
    width [] = 0 := by
  rfl

@[simp] theorem width_cons
    (c : Char) (s : List Char) :
    width (c :: s) = c.utf8Size + width s := by
  rfl

@[simp] theorem width_append
    (s t : List Char) :
    width (s ++ t) = width s + width t := by
  simp [width]

@[simp] theorem length_encode
    (s : List Char) :
    (encode s).length = width s := by
  induction s with
  | nil =>
      rfl
  | cons c s ih =>
      rw [encode_cons, List.length_append, String.length_utf8EncodeChar]
      exact congrArg _ ih

@[simp] theorem textOf_encode
    (s : List Char) :
    textOf (encode s) = s := by
  rw [textOf, runes_encode_all, replaceInvalid_map_some]

/-- A position between two characters of the text, or at one of its ends. -/
def Boundary
    (s : List Char)
    (x : Nat) : Prop :=
  ∃ before after, s = before ++ after ∧ x = width before

theorem Boundary.le
    {s : List Char} {x : Nat}
    (h : Boundary s x) :
    x ≤ (encode s).length := by
  obtain ⟨before, after, rfl, rfl⟩ := h
  rw [length_encode, width_append]
  exact Nat.le_add_right _ _

/-- All positions of the parser on bytes are between characters. -/
structure OnBoundaries
    (s : List Char)
    (p : Scanner) : Prop where
  input : p.input = encode s
  pos : Boundary s p.pos
  trail : ∀ x ∈ p.trail, Boundary s x

/-- The parser on bytes is where the parser on characters is. -/
structure At
    (s : List Char)
    (p : Scanner)
    (q : ActionParser) : Prop where
  input : p.input = encode s
  pos : p.pos = q.pos
  consumed : ∃ before, s = before ++ q.rest ∧ q.pos = width before
  trail : ∀ x ∈ p.trail, Boundary s x

variable {s : List Char} {p : Scanner} {q : ActionParser}

theorem At.onBoundaries
    (h : At s p q) :
    OnBoundaries s p := by
  obtain ⟨before, hs, hpos⟩ := h.consumed
  exact ⟨h.input, ⟨before, q.rest, hs, h.pos.trans hpos⟩, h.trail⟩

theorem At.start
    (s : List Char) :
    At s (Scanner.start (encode s)) ⟨0, s⟩ where
  input := rfl
  pos := rfl
  consumed := ⟨[], rfl, rfl⟩
  trail := by
    intro x hx
    rw [List.mem_singleton.mp hx]
    exact ⟨[], s, rfl, rfl⟩

/-- What is left of the bytes are the characters that are left. -/
theorem At.drop
    (h : At s p q) :
    p.input.drop p.pos = encode q.rest := by
  obtain ⟨before, hs, hpos⟩ := h.consumed
  rw [h.input, h.pos, hs, encode_append, hpos, ← length_encode, List.drop_left]

/-- Moving over characters. -/
theorem At.move
    (h : At s p q)
    {taken rest : List Char}
    (hrest : q.rest = taken ++ rest) :
    At s (p.move (width taken)) ⟨q.pos + width taken, rest⟩ := by
  obtain ⟨before, hs, hpos⟩ := h.consumed
  have hs' : s = (before ++ taken) ++ rest := by
    rw [hs, hrest, List.append_assoc]
  have hwidth : p.pos + width taken = width (before ++ taken) := by
    rw [h.pos, hpos, width_append]
  refine ⟨h.input, congrArg (· + width taken) h.pos, ⟨before ++ taken, hs', ?_⟩, ?_⟩
  · rw [← hwidth, h.pos]
  · intro x hx
    rcases List.mem_cons.mp hx with rfl | hx
    · exact ⟨before ++ taken, rest, hs', hwidth⟩
    · exact h.trail x hx

theorem At.eof_iff
    (h : At s p q) :
    p.eof = true ↔ q.rest = [] := by
  obtain ⟨before, hs, hpos⟩ := h.consumed
  rw [Scanner.eof, decide_eq_true_eq, h.input, h.pos, hs, length_encode, width_append, hpos]
  constructor
  · intro hle
    cases hrest : q.rest with
    | nil =>
        rfl
    | cons c rest =>
        have hc := c.utf8Size_pos
        rw [hrest, width_cons] at hle
        omega
  · intro hrest
    rw [hrest, width_nil]
    omega

/-- The rune that is seen, and the position behind it. -/
theorem At.peek
    (h : At s p q) :
    p.peek.1 = q.peek ∧ At s (p.move p.peek.2) q.advance := by
  cases hrest : q.rest with
  | nil =>
      have hpeek : p.peek = (actionEOF, 0) := if_pos (h.eof_iff.mpr hrest)
      have hmove := h.move (show q.rest = [] ++ q.rest from rfl)
      rw [hpeek, ActionParser.peek, ActionParser.advance, hrest]
      exact ⟨rfl, hmove⟩
  | cons c rest =>
      have hne : ¬ p.eof = true := by
        rw [h.eof_iff, hrest]
        exact List.cons_ne_nil c rest
      have hdecode : decodeRune (encode q.rest) = (c, c.utf8Size) := by
        have hchar := decode_encode c (encode rest)
        rw [hrest, encode_cons]
        cases hbytes : String.utf8EncodeChar c ++ encode rest with
        | nil =>
            have hlength := congrArg List.length hbytes
            have hpos := c.utf8Size_pos
            rw [List.length_append, String.length_utf8EncodeChar, List.length_nil] at hlength
            omega
        | cons b bytes =>
            rw [hbytes] at hchar
            simp only [decodeRune, hchar]
      have hpeek : p.peek = (c, c.utf8Size) := by
        rw [Scanner.peek, if_neg hne, h.drop, hdecode]
      have hmove := h.move (show q.rest = [c] ++ rest from hrest)
      rw [hpeek, ActionParser.peek, ActionParser.advance, hrest]
      exact ⟨rfl, hmove⟩

end Positions

section Following

open ActionParser (width)

variable {s : List Char} {p : Scanner} {q : ActionParser}

theorem peek_of_cons
    {c : Char} {rest : List Char}
    (h : q.rest = c :: rest) :
    q.peek = c := by
  rw [ActionParser.peek, h]
  rfl

theorem rest_ne_nil_of_peek
    (h : q.peek ≠ actionEOF) :
    ∃ c rest, q.rest = c :: rest ∧ q.peek = c ∧ q.advance = ⟨q.pos + c.utf8Size, rest⟩ := by
  cases hrest : q.rest with
  | nil =>
      rw [ActionParser.peek, hrest] at h
      exact absurd rfl h
  | cons c rest =>
      refine ⟨c, rest, rfl, peek_of_cons hrest, ?_⟩
      rw [ActionParser.advance, hrest]

/-- Skipping goes on behind a character that is skipped. -/
theorem skipWhile_of_pos
    {f : Char → Bool} {c : Char} {rest : List Char}
    (hrest : q.rest = c :: rest)
    (hc : f c = true) :
    q.skipWhile f = (⟨q.pos + c.utf8Size, rest⟩ : ActionParser).skipWhile f := by
  simp only [ActionParser.skipWhile, hrest, List.takeWhile_cons_of_pos hc,
    List.dropWhile_cons_of_pos hc, width_cons, Nat.add_assoc]

theorem skipWhile_of_neg
    {f : Char → Bool}
    (h : ∀ c rest, q.rest = c :: rest → f c = false) :
    q.skipWhile f = q := by
  cases hrest : q.rest with
  | nil =>
      obtain ⟨pos, rest⟩ := q
      obtain rfl : rest = [] := hrest
      rfl
  | cons c rest =>
      obtain ⟨pos, rest'⟩ := q
      obtain rfl : rest' = c :: rest := hrest
      have hc := h c rest rfl
      simp [ActionParser.skipWhile, hc]

/-- The loop over space characters ends where the characters have been skipped. -/
theorem slurpSpaces_spec
    (h : At s p q)
    {fuel : Nat}
    (hfuel : q.rest.length < fuel) :
    ∃ p', Scanner.slurpSpaces fuel p = some p' ∧ At s p' q.slurpSpaces := by
  induction fuel generalizing p q with
  | zero =>
      exact absurd hfuel (Nat.not_lt_zero _)
  | succ fuel ih =>
      obtain ⟨hpeek, hmove⟩ := h.peek
      rw [Scanner.slurpSpaces]
      by_cases hstop : q.peek = actionEOF ∨ isSpace q.peek = false
      · have hskip : q.slurpSpaces = q := by
          refine skipWhile_of_neg (fun c rest hrest => ?_)
          rw [peek_of_cons hrest] at hstop
          rcases hstop with rfl | hspace
          · rfl
          · exact hspace
        rw [hskip]
        refine ⟨p, ?_, h⟩
        simp only [hpeek]
        exact if_pos hstop
      · rw [not_or, Bool.not_eq_false] at hstop
        obtain ⟨c, rest, hrest, hc, hadvance⟩ := rest_ne_nil_of_peek hstop.1
        rw [hadvance] at hmove
        have hlength : rest.length < fuel := by
          rw [hrest, List.length_cons] at hfuel
          omega
        obtain ⟨p', hp', hat⟩ := ih hmove hlength
        refine ⟨p', ?_, ?_⟩
        · simp only [hpeek]
          rw [if_neg (by rw [not_or, Bool.not_eq_false]; exact hstop)]
          exact hp'
        · rw [ActionParser.slurpSpaces, skipWhile_of_pos hrest (hc ▸ hstop.2)]
          exact hat

theorem bytesOfRunes_map_some
    (cs : List Char) :
    bytesOfRunes (cs.map some) = width cs := by
  rw [bytesOfRunes, List.map_map]
  rfl

theorem takeWhile_any
    (f : Char → Bool)
    (cs : List Char) :
    (cs.map some).takeWhile (Option.any f) = (cs.takeWhile f).map some :=
  List.takeWhile_map ..

theorem dropWhile_any
    (f : Char → Bool)
    (cs : List Char) :
    (cs.map some).dropWhile (Option.any f) = (cs.dropWhile f).map some :=
  List.dropWhile_map ..

/-- The key is matched on the runes as on the characters. -/
theorem parseKey_spec
    (h : At s p q) :
    p.parseKey.1 = q.parseKey.1 ∧ At s p.parseKey.2 q.parseKey.2 := by
  have hruns : runes (p.input.drop p.pos) = q.rest.map some := by
    rw [h.drop, runes_encode_all]
  simp only [Scanner.parseKey, ActionParser.parseKey, hruns, takeWhile_any, dropWhile_any,
    List.head?_map, ne_eq, List.map_eq_nil_iff, replaceInvalid_map_some]
  have hhead : ((q.rest.dropWhile isKeyChar).dropWhile isRegexSpace).head?.map some =
      some (some '=') ↔
      ((q.skipWhile isKeyChar).skipWhile isRegexSpace).rest.head? = some '=' := by
    simp [ActionParser.skipWhile]
  by_cases hmatch : ¬q.rest.takeWhile isKeyChar = [] ∧
      ((q.skipWhile isKeyChar).skipWhile isRegexSpace).rest.head? = some '='
  · rw [if_pos (by rw [hhead]; exact hmatch), if_pos hmatch]
    refine ⟨rfl, ?_⟩
    obtain ⟨after, hafter⟩ : ∃ after,
        (q.rest.dropWhile isKeyChar).dropWhile isRegexSpace = '=' :: after :=
      List.head?_eq_some_iff.mp hmatch.2
    have htaken : q.rest = (q.rest.takeWhile isKeyChar ++
        ((q.rest.dropWhile isKeyChar).takeWhile isRegexSpace ++
          '=' :: after.takeWhile isRegexSpace)) ++ after.dropWhile isRegexSpace := by
      simp only [List.append_assoc, List.cons_append, List.takeWhile_append_dropWhile]
      rw [← hafter, List.takeWhile_append_dropWhile, List.takeWhile_append_dropWhile]
    have hmove := h.move htaken
    have hwidth : bytesOfRunes
        ((q.rest.takeWhile isKeyChar).map some ++
          (((q.rest.dropWhile isKeyChar).takeWhile isRegexSpace).map some ++
            some '=' :: ((((q.rest.dropWhile isKeyChar).dropWhile isRegexSpace).map
              some).tail.takeWhile (Option.any isRegexSpace)))) =
        width (q.rest.takeWhile isKeyChar ++
          ((q.rest.dropWhile isKeyChar).takeWhile isRegexSpace ++
            '=' :: after.takeWhile isRegexSpace)) := by
      rw [← bytesOfRunes_map_some, hafter, List.map_cons, List.tail_cons, takeWhile_any,
        List.map_append, List.map_append, List.map_cons]
    rw [hwidth]
    have hend : ((q.skipWhile isKeyChar).skipWhile isRegexSpace).advance.skipWhile isRegexSpace =
        ⟨q.pos + width (q.rest.takeWhile isKeyChar ++
          ((q.rest.dropWhile isKeyChar).takeWhile isRegexSpace ++
            '=' :: after.takeWhile isRegexSpace)), after.dropWhile isRegexSpace⟩ := by
      simp only [ActionParser.skipWhile, ActionParser.advance, hafter, width_append, width_cons,
        Nat.add_assoc]
    rw [hend]
    exact hmove
  · rw [if_neg (by rw [hhead]; exact hmatch), if_neg hmatch]
    exact ⟨rfl, h⟩

/-- The characters that have been read since a position. -/
def Since
    (s : List Char)
    (start : Nat)
    (done : List Char)
    (q : ActionParser) : Prop :=
  ∃ before, s = before ++ (done ++ q.rest) ∧ start = width before ∧ q.pos = start + width done

theorem At.since
    (h : At s p q) :
    Since s p.pos [] q := by
  obtain ⟨before, hs, hpos⟩ := h.consumed
  exact ⟨before, hs, h.pos.trans hpos, h.pos.symm⟩

theorem Since.cons
    {start : Nat} {done rest : List Char} {c : Char}
    (h : Since s start done q)
    (hrest : q.rest = c :: rest) :
    Since s start (done ++ [c]) ⟨q.pos + c.utf8Size, rest⟩ := by
  obtain ⟨before, hs, hstart, hpos⟩ := h
  refine ⟨before, ?_, hstart, ?_⟩
  · rw [hs, hrest, List.append_assoc, List.singleton_append]
  · rw [hpos, width_append, width_cons, width_nil, Nat.add_zero, Nat.add_assoc]

/-- The bytes from a position on are those of the characters read since then. -/
theorem At.slice
    (h : At s p q)
    {start : Nat} {done : List Char}
    (hsince : Since s start done q) :
    textOf (p.slice start) = done := by
  obtain ⟨before, hs, hstart, hpos⟩ := hsince
  have hlength : p.pos - start = (encode done).length := by
    rw [h.pos, hpos, length_encode]
    omega
  rw [Scanner.slice, hlength, h.input, hs, hstart, encode_append, encode_append,
    ← length_encode before, List.drop_left, List.take_left, textOf_encode]

/-- The loop of `parseValue` reads up to the end of the section. -/
theorem parseValue_spec
    {start : Nat} {done : List Char}
    (h : At s p q)
    (hsince : Since s start done q)
    {fuel : Nat}
    (hfuel : q.rest.length < fuel) :
    ∃ p', Scanner.parseValue start fuel p =
        some ((String.ofList (trimSpace (done ++ q.rest.takeWhile (fun c => !isSectionEnd c))),
          isLastSection (q.skipWhile (fun c => !isSectionEnd c)).peek), p') ∧
      At s p' (q.skipWhile (fun c => !isSectionEnd c)).advance := by
  induction fuel generalizing p q done with
  | zero =>
      exact absurd hfuel (Nat.not_lt_zero _)
  | succ fuel ih =>
      obtain ⟨hpeek, hmove⟩ := h.peek
      rw [Scanner.parseValue]
      simp only [hpeek]
      by_cases hend : isSectionEnd q.peek = true
      · have hstop : ∀ c rest, q.rest = c :: rest → (!isSectionEnd c) = false := by
          intro c rest hrest
          rw [peek_of_cons hrest] at hend
          rw [hend]
          rfl
        have htake : q.rest.takeWhile (fun c => !isSectionEnd c) = [] := by
          cases hrest : q.rest with
          | nil => rfl
          | cons c rest => exact List.takeWhile_cons_of_neg (by rw [hstop c rest hrest]; simp)
        rw [if_pos hend, skipWhile_of_neg hstop, htake, List.append_nil, h.slice hsince]
        exact ⟨_, rfl, hmove⟩
      · have hne : q.peek ≠ actionEOF := by
          intro heof
          rw [heof] at hend
          exact hend (by decide)
        obtain ⟨c, rest, hrest, hc, hadvance⟩ := rest_ne_nil_of_peek hne
        have hgo : (!isSectionEnd c) = true := by
          rw [hc, Bool.not_eq_true] at hend
          rw [hend]
          rfl
        rw [hadvance] at hmove
        have hlength : rest.length < fuel := by
          rw [hrest, List.length_cons] at hfuel
          omega
        obtain ⟨p', hp', hat⟩ := ih hmove (hsince.cons hrest) hlength
        rw [if_neg hend, hp', skipWhile_of_pos hrest hgo]
        refine ⟨p', ?_, hat⟩
        rw [hrest, List.takeWhile_cons_of_pos (p := fun c => !isSectionEnd c) hgo,
          List.append_assoc, List.singleton_append]

/--
The parser on bytes follows the one on characters: it returns, with the same value or
the same error, and stays between characters.
-/
def Follows
    {α : Type}
    (s : List Char)
    (chars : Except String (α × ActionParser))
    (bytes : Option (Except String α × Scanner)) : Prop :=
  match chars with
  | .error e => ∃ p', bytes = some (.error e, p') ∧ OnBoundaries s p'
  | .ok (a, q) => ∃ p', bytes = some (.ok a, p') ∧ At s p' q

/-- The quoted value whose first characters have been read. -/
def quotedFrom
    (quote : Char)
    (start : Nat)
    (done : List Char)
    (prev : Char)
    (q : ActionParser) : Except String ((String × Bool) × ActionParser) :=
  match ActionParser.scanQuoted quote prev q.rest with
  | none => .error s!"unexpected end of input, quote started at position {start}"
  | some raw =>
      let r := (⟨q.pos + width raw, q.rest.drop raw.length⟩ : ActionParser).advance.slurpSpaces
      if isSectionEnd r.peek then
        .ok ((String.ofList (ActionParser.unescapeQuotes quote (done ++ raw)),
          isLastSection r.peek), r.advance)
      else
        .error s!"unexpected character '{r.peek}' at position {r.pos}"

/-- At the quote that ends the value. -/
theorem quotedFrom_quote
    {quote prev c : Char} {rest : List Char}
    (hrest : q.rest = c :: rest)
    (heof : c ≠ actionEOF)
    (hend : c = quote ∧ prev ≠ '\\')
    (start : Nat)
    (done : List Char) :
    quotedFrom quote start done prev q =
      if isSectionEnd q.advance.slurpSpaces.peek then
        .ok ((String.ofList (ActionParser.unescapeQuotes quote done),
          isLastSection q.advance.slurpSpaces.peek), q.advance.slurpSpaces.advance)
      else
        .error s!"unexpected character '{q.advance.slurpSpaces.peek}' at position {q.advance.slurpSpaces.pos}" := by
  have hscan : ActionParser.scanQuoted quote prev q.rest = some [] := by
    rw [hrest, ActionParser.scanQuoted, if_neg heof, if_pos hend]
  simp only [quotedFrom, hscan, width_nil, Nat.add_zero, List.length_nil, List.drop_zero,
    List.append_nil]

/-- Before that quote. -/
theorem quotedFrom_cons
    {quote prev c : Char} {rest : List Char}
    (hrest : q.rest = c :: rest)
    (heof : c ≠ actionEOF)
    (hgo : ¬(c = quote ∧ prev ≠ '\\'))
    (start : Nat)
    (done : List Char) :
    quotedFrom quote start done prev q =
      quotedFrom quote start (done ++ [c]) c ⟨q.pos + c.utf8Size, rest⟩ := by
  simp only [quotedFrom, hrest, ActionParser.scanQuoted, if_neg heof, if_neg hgo]
  cases hscan : ActionParser.scanQuoted quote c rest with
  | none =>
      rfl
  | some raw =>
      simp only [Option.map_some, width_cons, List.length_cons, List.drop_succ_cons,
        Nat.add_assoc, List.append_assoc, List.singleton_append]

/-- The loop of `parseQuotedValue` follows. -/
theorem parseQuoted_spec
    {quote prev : Char} {start : Nat} {done : List Char}
    (h : At s p q)
    (hsince : Since s start done q)
    {fuel : Nat}
    (hfuel : q.rest.length < fuel) :
    Follows s (quotedFrom quote start done prev q)
      (Scanner.parseQuoted quote start fuel prev p) := by
  induction fuel generalizing p q done prev with
  | zero =>
      exact absurd hfuel (Nat.not_lt_zero _)
  | succ fuel ih =>
      obtain ⟨hpeek, hmove⟩ := h.peek
      rw [Scanner.parseQuoted]
      simp only [hpeek]
      by_cases heof : q.peek = actionEOF
      · have hscan : ActionParser.scanQuoted quote prev q.rest = none := by
          cases hrest : q.rest with
          | nil =>
              rfl
          | cons c rest =>
              rw [ActionParser.scanQuoted, if_pos ((peek_of_cons hrest).symm.trans heof)]
        simp only [quotedFrom, hscan, Follows]
        exact ⟨p, if_pos heof, h.onBoundaries⟩
      · obtain ⟨c, rest, hrest, hc, hadvance⟩ := rest_ne_nil_of_peek heof
        have hlength : rest.length < fuel := by
          rw [hrest, List.length_cons] at hfuel
          omega
        rw [if_neg heof]
        by_cases hend : q.peek = quote ∧ prev ≠ '\\'
        · have hlength' : q.advance.rest.length < fuel := by
            rw [hadvance]
            exact hlength
          obtain ⟨p', hp', hat⟩ := slurpSpaces_spec hmove hlength'
          obtain ⟨hpeek', hmove'⟩ := hat.peek
          rw [if_pos hend, hp', Option.map_some,
            quotedFrom_quote hrest (hc ▸ heof) (hc ▸ hend), h.slice hsince]
          simp only [hpeek', hat.pos]
          split
          · exact ⟨_, rfl, hmove'⟩
          · exact ⟨_, rfl, hat.onBoundaries⟩
        · rw [if_neg hend, quotedFrom_cons hrest (hc ▸ heof) (hc ▸ hend), hc]
          rw [hadvance] at hmove
          exact ih hmove (hsince.cons hrest) hlength

theorem Follows.onBoundaries
    {α : Type}
    {chars : Except String (α × ActionParser)}
    {bytes : Option (Except String α × Scanner)}
    (h : Follows s chars bytes) :
    ∃ r p', bytes = some (r, p') ∧ OnBoundaries s p' := by
  cases chars with
  | error e =>
      obtain ⟨p', hp', hbounds⟩ := h
      exact ⟨_, p', hp', hbounds⟩
  | ok r =>
      obtain ⟨p', hp', hat⟩ := h
      exact ⟨_, p', hp', hat.onBoundaries⟩

/-- `parseQuotedValue` follows. -/
theorem parseQuotedValue_spec
    {quote : Char} {rest : List Char}
    (h : At s p q)
    (hrest : q.rest = quote :: rest)
    (hquote : quote.utf8Size = 1)
    {fuel : Nat}
    (hfuel : q.rest.length < fuel) :
    Follows s ((q.parseQuotedValue quote).map fun r => ((r.1, r.2.1), r.2.2))
      (Scanner.parseQuotedValue fuel quote p) := by
  have hmove := h.move (show q.rest = [quote] ++ rest from hrest)
  rw [width_cons, width_nil, hquote, Nat.add_zero] at hmove
  have hadvance : q.advance = ⟨q.pos + 1, rest⟩ := by
    rw [ActionParser.advance, hrest]
    exact congrArg (fun n => ActionParser.mk (q.pos + n) rest) hquote
  have hlength : rest.length < fuel := by
    rw [hrest, List.length_cons] at hfuel
    omega
  have hspec : Follows s (quotedFrom quote (p.pos + 1) [] actionEOF ⟨q.pos + 1, rest⟩)
      (Scanner.parseQuoted quote (p.pos + 1) fuel actionEOF (p.move 1)) :=
    parseQuoted_spec hmove hmove.since hlength
  have hsame : (q.parseQuotedValue quote).map (fun r => ((r.1, r.2.1), r.2.2)) =
      quotedFrom quote (p.pos + 1) [] actionEOF ⟨q.pos + 1, rest⟩ := by
    simp only [ActionParser.parseQuotedValue, quotedFrom, hadvance, h.pos]
    cases ActionParser.scanQuoted quote actionEOF rest with
    | none =>
        rfl
    | some raw =>
        simp only [List.nil_append]
        split
        · rfl
        · rfl
  rw [hsame]
  exact hspec

/-- `parseSection` follows. -/
theorem parseSection_spec
    (h : At s p q)
    {fuel : Nat}
    (hfuel : q.rest.length < fuel) :
    Follows s q.parseSection (Scanner.parseSection fuel p) := by
  obtain ⟨p₁, hp₁, hat₁⟩ := slurpSpaces_spec h hfuel
  obtain ⟨hkey, hat₂⟩ := parseKey_spec hat₁
  obtain ⟨hpeek, hmove⟩ := hat₂.peek
  have hlength : q.slurpSpaces.parseKey.2.rest.length < fuel :=
    Nat.lt_of_le_of_lt
      ((ActionParser.parseKey_le _).trans (ActionParser.skipWhile_le _ _)) hfuel
  simp only [Scanner.parseSection, hp₁, Option.bind_some, hpeek, hkey,
    ActionParser.parseSection]
  by_cases hend : isSectionEnd q.slurpSpaces.parseKey.2.peek = true
  · rw [if_pos hend, if_pos hend]
    exact ⟨_, rfl, hmove⟩
  · rw [if_neg hend, if_neg hend]
    by_cases hquote : q.slurpSpaces.parseKey.2.peek = '"' ∨ q.slurpSpaces.parseKey.2.peek = '\''
    · have hne : q.slurpSpaces.parseKey.2.peek ≠ actionEOF := by
        intro heof
        rw [heof] at hend
        exact hend (by decide)
      obtain ⟨c, rest, hrest, hc, -⟩ := rest_ne_nil_of_peek hne
      have hsize : c.utf8Size = 1 := by
        rw [hc] at hquote
        rcases hquote with rfl | rfl <;> decide
      have hspec := parseQuotedValue_spec hat₂ hrest hsize hlength
      rw [if_pos hquote, if_pos hquote, hc]
      cases hquoted : q.slurpSpaces.parseKey.2.parseQuotedValue c with
      | error e =>
          rw [hquoted] at hspec
          obtain ⟨p', hp', hbounds⟩ := hspec
          rw [hp']
          exact ⟨p', rfl, hbounds⟩
      | ok r =>
          rw [hquoted] at hspec
          obtain ⟨p', hp', hat⟩ := hspec
          rw [hp']
          exact ⟨p', rfl, hat⟩
    · obtain ⟨p', hp', hat⟩ := parseValue_spec hat₂ hat₂.since hlength
      rw [if_neg hquote, if_neg hquote, hp']
      exact ⟨p', rfl, hat⟩

/-- The sections of one action are read alike. -/
theorem parseAction_spec
    {a : Action} {«section» : Nat}
    (h : At s p q)
    {fuel : Nat}
    (hfuel : q.rest.length + 1 < fuel) :
    Follows s (parseSections a «section» q) (Scanner.parseAction fuel a «section» p) := by
  induction fuel generalizing p q a «section» with
  | zero =>
      exact absurd hfuel (Nat.not_lt_zero _)
  | succ fuel ih =>
      have hspec := parseSection_spec h (show q.rest.length < fuel from by omega)
      rw [Scanner.parseAction]
      cases hsection : q.parseSection with
      | error e =>
          rw [hsection] at hspec
          obtain ⟨p', hp', hbounds⟩ := hspec
          have hchars : parseSections a «section» q = .error e := by
            rw [parseSections]
            split
            · next he =>
                exact congrArg Except.error (Except.error.inj (he.symm.trans hsection))
            · next he =>
                exact absurd (he.symm.trans hsection) (by simp)
          rw [hchars, hp']
          exact ⟨p', rfl, hbounds⟩
      | ok r =>
          obtain ⟨⟨key, value, last⟩, q'⟩ := r
          rw [hsection] at hspec
          obtain ⟨p', hp', hat⟩ := hspec
          have hless := ActionParser.parseSection_le hsection
          rw [hp', Option.bind_some]
          cases hpopulate : populateAction a «section» key value with
          | error e =>
              rw [parseSections_of_error hsection hpopulate]
              simp only [hpopulate]
              exact ⟨p', rfl, hat.onBoundaries⟩
          | ok a' =>
              obtain ⟨p'', hp'', hat'⟩ :=
                slurpSpaces_spec hat (show q'.rest.length < fuel from by omega)
              rw [parseSections_of_section hsection hpopulate]
              simp only [hpopulate, hp'', Option.bind_some]
              cases last with
              | true =>
                  exact ⟨p'', rfl, hat'⟩
              | false =>
                  have hpos := List.length_pos_iff.mpr (ActionParser.parseSection_last hsection)
                  have hslurp := ActionParser.skipWhile_le isSpace q'
                  exact ih hat' (by simp only [ActionParser.slurpSpaces]; omega)

/-- The parser on bytes returns what the one on characters does. -/
theorem parse_spec
    (h : At s p q)
    {fuel : Nat}
    (hfuel : q.rest.length + 2 < fuel) :
    ∃ p', Scanner.parse fuel p = some (parse q, p') ∧ OnBoundaries s p' := by
  induction fuel generalizing p q with
  | zero =>
      exact absurd hfuel (Nat.not_lt_zero _)
  | succ fuel ih =>
      rw [Scanner.parse]
      by_cases hrest : q.rest = []
      · rw [if_pos (h.eof_iff.mpr hrest), parse, dif_pos hrest]
        exact ⟨p, rfl, h.onBoundaries⟩
      · have hspec : Follows s (parseSections newAction 0 q)
            (Scanner.parseAction fuel newAction 0 p) :=
          parseAction_spec h (by omega)
        rw [if_neg (fun heof => hrest (h.eof_iff.mp heof))]
        cases hsections : parseSections newAction 0 q with
        | error e =>
            rw [hsections] at hspec
            obtain ⟨p', hp', hbounds⟩ := hspec
            have hchars : parse q = .error e := by
              rw [parse, dif_neg hrest]
              split
              · next he => exact congrArg Except.error (Except.error.inj (he.symm.trans hsections))
              · next he => exact absurd (he.symm.trans hsections) (by simp)
            rw [hp', hchars]
            exact ⟨p', rfl, hbounds⟩
        | ok r =>
            obtain ⟨a, q'⟩ := r
            rw [hsections] at hspec
            obtain ⟨p', hp', hat⟩ := hspec
            have hless := parseSections_le hsections
            have hpos := List.length_pos_iff.mpr hrest
            obtain ⟨p'', hp'', hbounds⟩ := ih hat (by omega)
            rw [hp', Option.bind_some, parse_of_sections hrest hsections]
            simp only [hp'', Option.map_some]
            exact ⟨p'', rfl, hbounds⟩

end Following

section Progress

variable {s : List Char} {p p' : Scanner} {q q' : ActionParser}

/-- The fewer characters are left, the further the position. -/
theorem At.pos_lt
    (h : At s p q)
    (h' : At s p' q')
    (hlt : q'.rest.length < q.rest.length) :
    p.pos < p'.pos := by
  obtain ⟨before, hs, hpos⟩ := h.consumed
  obtain ⟨before', hs', hpos'⟩ := h'.consumed
  have hlength := congrArg List.length (hs.symm.trans hs')
  rw [List.length_append, List.length_append] at hlength
  obtain ⟨more, hmore⟩ : before <+: before' :=
    List.prefix_of_prefix_length_le ⟨q.rest, hs.symm⟩ ⟨q'.rest, hs'.symm⟩ (by omega)
  rw [h.pos, h'.pos, hpos, hpos', ← hmore, ActionParser.width, ActionParser.width,
    List.map_append, List.sum_append]
  cases more with
  | nil =>
      rw [List.append_nil] at hmore
      rw [hmore] at hlength
      omega
  | cons c more =>
      have hc := c.utf8Size_pos
      rw [List.map_cons, List.sum_cons]
      omega

/-- A section takes something, or is the last one, or fails. -/
theorem parseSection_progress
    (h : At s p q)
    {fuel : Nat}
    (hfuel : q.rest.length < fuel) :
    ∃ r p', Scanner.parseSection fuel p = some (r, p') ∧ OnBoundaries s p' ∧
      (p.pos < p'.pos ∨ (∃ key value, r = .ok (key, value, true)) ∨ ∃ e, r = .error e) := by
  have hspec := parseSection_spec h hfuel
  cases hsection : q.parseSection with
  | error e =>
      rw [hsection] at hspec
      obtain ⟨p', hp', hbounds⟩ := hspec
      exact ⟨_, p', hp', hbounds, Or.inr (Or.inr ⟨e, rfl⟩)⟩
  | ok r =>
      obtain ⟨⟨key, value, last⟩, q'⟩ := r
      rw [hsection] at hspec
      obtain ⟨p', hp', hat⟩ := hspec
      refine ⟨_, p', hp', hat.onBoundaries, ?_⟩
      cases last with
      | true =>
          exact Or.inr (Or.inl ⟨key, value, rfl⟩)
      | false =>
          have hpos := List.length_pos_iff.mpr (ActionParser.parseSection_last hsection)
          have hless := ActionParser.parseSection_le hsection
          exact Or.inl (h.pos_lt hat (by omega))

theorem OnBoundaries.exists_at
    (h : OnBoundaries s p) :
    ∃ q, At s p q ∧ q.rest.length ≤ s.length := by
  obtain ⟨before, after, hs, hpos⟩ := h.pos
  refine ⟨⟨p.pos, after⟩, ⟨h.input, rfl, ⟨before, hs, hpos⟩, h.trail⟩, ?_⟩
  rw [hs, List.length_append]
  exact Nat.le_add_left _ _

/--
For every valid text and enough fuel the parser returns; a section that is read from any
position between characters takes something, is the last one, or fails; and every
position is between characters and not behind the end.
-/
theorem parser_progress
    {text : String} {p : Scanner} {fuel : Nat}
    (hp : OnBoundaries text.toList p)
    (hfuel : text.toList.length + 2 < fuel) :
    (∃ p', Scanner.parse fuel (Scanner.start (bytesOf text)) =
        some (parse ⟨0, text.toList⟩, p') ∧
      ∀ x ∈ p'.trail, x ≤ (bytesOf text).length ∧ Boundary text.toList x) ∧
    ∃ r p', Scanner.parseSection fuel p = some (r, p') ∧
      (p.pos < p'.pos ∨ (∃ key value, r = .ok (key, value, true)) ∨ ∃ e, r = .error e) ∧
      ∀ x ∈ p'.trail, x ≤ (bytesOf text).length ∧ Boundary text.toList x := by
  have hbytes : bytesOf text = encode text.toList := bytesOf_eq_encode text
  have hinside : ∀ {p'}, OnBoundaries text.toList p' →
      ∀ x ∈ p'.trail, x ≤ (bytesOf text).length ∧ Boundary text.toList x := by
    intro p' hp' x hx
    rw [hbytes]
    exact ⟨(hp'.trail x hx).le, hp'.trail x hx⟩
  constructor
  · obtain ⟨p', hparse, hbounds⟩ := parse_spec (At.start text.toList) hfuel
    rw [hbytes]
    refine ⟨p', hparse, ?_⟩
    rw [← hbytes]
    exact hinside hbounds
  · obtain ⟨q, hat, hlength⟩ := hp.exists_at
    obtain ⟨r, p', hsection, hbounds, hprogress⟩ :=
      parseSection_progress hat (show q.rest.length < fuel from by omega)
    exact ⟨r, p', hsection, hprogress, hinside hbounds⟩

/-- A section that ends with a NUL, and one behind it. -/
theorem parser_progress_nul :
    (∃ p', Scanner.parse 10 (Scanner.start (bytesOf "a\x00b")) =
        some (parse ⟨0, "a\x00b".toList⟩, p') ∧
      ∀ x ∈ p'.trail, x ≤ (bytesOf "a\x00b").length ∧ Boundary "a\x00b".toList x) ∧
    ∃ r p', Scanner.parseSection 10 (Scanner.start (encode "a\x00b".toList)) = some (r, p') ∧
      ((Scanner.start (encode "a\x00b".toList)).pos < p'.pos ∨
        (∃ key value, r = .ok (key, value, true)) ∨ ∃ e, r = .error e) ∧
      ∀ x ∈ p'.trail, x ≤ (bytesOf "a\x00b").length ∧ Boundary "a\x00b".toList x :=
  parser_progress (At.start "a\x00b".toList).onBoundaries (by decide)

end Progress

end Actions
end Server
end CoopMessenger
