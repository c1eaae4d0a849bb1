import CoopMessenger.Util.RuneCuts

/-!
# Lines of a response

`fetchLinesIterator` decodes the chunks of a response one by one, with a decoder that
is asked for the whole text every time, and yields the lines of what it has; the rest
of a line is kept for the next chunk.

**Results.**
* `fetchLines_eq`: the lines are those of the decoded chunks, joined.
* `replaces`: a character that is cut leaves more replacement characters than
  there were.
* `fetchLines_iff`: for which cuts the lines do not depend on the chunks.
-/

namespace CoopMessenger
namespace Web

open Util

section Decoding

/-- Can the second byte follow the first one in a character of three or four bytes? -/
def follows (b c : UInt8) : Bool :=
  (b = 0xe0 && 0xa0 ≤ c && c ≤ 0xbf) || (0xe1 ≤ b && b ≤ 0xec && 0x80 ≤ c && c ≤ 0xbf) ||
  (b = 0xed && 0x80 ≤ c && c ≤ 0x9f) || (0xee ≤ b && b ≤ 0xef && 0x80 ≤ c && c ≤ 0xbf) ||
  (b = 0xf0 && 0x90 ≤ c && c ≤ 0xbf) || (0xf1 ≤ b && b ≤ 0xf3 && 0x80 ≤ c && c ≤ 0xbf) ||
  (b = 0xf4 && 0x80 ≤ c && c ≤ 0x8f)

/--
The length of the longest beginning of an invalid sequence that could have become a
character; one byte where there is none.
-/
def invalidLength : List UInt8 → Nat
  | b :: c :: rest =>
      if follows b c = false then
        1
      else if 0xf0 ≤ b ∧ rest.head?.any (fun d => 0x80 ≤ d && d ≤ 0xbf) then
        3
      else
        2
  | _ => 1

/-- Decodes characters, after so many bytes of the one before. -/
def decodeAfter :
    Nat → List UInt8 → List Char
  | _, [] => []
  | skip + 1, _ :: rest => decodeAfter skip rest
  | 0, b :: rest =>
      match (b :: rest).toByteArray.utf8DecodeChar? 0 with
      | some c => c :: decodeAfter (c.utf8Size - 1) rest
      | none => '\ufffd' :: decodeAfter (invalidLength (b :: rest) - 1) rest

/-- `utf8Decoder.decode(chunk)`: a byte order mark at the beginning is dropped. -/
def decode (chunk : List UInt8) : List Char :=
  if [0xef, 0xbb, 0xbf].isPrefixOf chunk then
    decodeAfter 0 (chunk.drop 3)
  else
    decodeAfter 0 chunk

end Decoding

section Iterator

/-- The alternatives of `/\n|\r|\r\n/gm`, in order. -/
def lineBreaks : List (List Char) :=
  [['\n'], ['\r'], ['\r', '\n']]

/-- The length of the match at the beginning of the text. -/
def matchLength (s : List Char) : Option Nat :=
  lineBreaks.findSome? fun b => if b.isPrefixOf s then some b.length else none

/-- The first match from an index on: where it begins and where it ends. -/
def search : List Char → Nat → Option (Nat × Nat)
  | [], _ => none
  | c :: rest, i =>
      match matchLength (c :: rest) with
      | some n => some (i, i + n)
      | none => search rest (i + 1)

/-- The variables of the loop, and the chunks that the reader has left. -/
structure LineIterator where
  chunk : List Char
  startIndex : Nat
  lastIndex : Nat
  readerDone : Bool
  chunks : List (List UInt8)
deriving Repr

/-- What one turn of the loop does. -/
inductive Turn where
  | done
  | read (next : LineIterator)
  | yields (line : List Char) (next : LineIterator)

namespace LineIterator

/-- `re.exec(chunk)` -/
def exec (it : LineIterator) : Option (Nat × Nat) :=
  search (it.chunk.drop it.lastIndex) it.lastIndex

/-- The reader gives the next chunk, or reports that it is done. -/
def refill
    (remainder : List Char) : List (List UInt8) → LineIterator
  | [] => ⟨remainder, 0, 0, true, []⟩
  | chunk :: chunks => ⟨remainder ++ decode chunk, 0, 0, false, chunks⟩

def turn (it : LineIterator) : Turn :=
  match it.exec with
  | none =>
      if it.readerDone then
        .done
      else
        .read (refill (it.chunk.drop it.startIndex) it.chunks)
  | some (index, lastIndex) =>
      .yields ((it.chunk.drop it.startIndex).take (index - it.startIndex))
        { it with startIndex := lastIndex, lastIndex := lastIndex }

end LineIterator

/-- Does the character end a line? -/
def isBreak (c : Char) : Bool :=
  c = '\n' || c = '\r'

/-- The alternative of both characters is never reached. -/
theorem matchLength_cons
    (c : Char) (s : List Char) :
    matchLength (c :: s) = if isBreak c then some 1 else none := by
  by_cases hn : c = '\n'
  · subst hn
    rfl
  · by_cases hr : c = '\r'
    · subst hr
      rfl
    · have hbreak : isBreak c = false := by simp [isBreak, hn, hr]
      simp [matchLength, lineBreaks, List.findSome?, hbreak, Ne.symm hn, Ne.symm hr]

/-- Nothing is found in a text without line breaks. -/
theorem search_eq_none_iff
    (s : List Char) (i : Nat) :
    search s i = none ↔ ∀ c ∈ s, isBreak c = false := by
  induction s generalizing i with
  | nil =>
      simp [search]
  | cons c s ih =>
      rw [search, matchLength_cons]
      cases hc : isBreak c with
      | true => simp [hc]
      | false => simp [hc, ih]

/-- What is found is the first line break. -/
theorem search_eq_some
    {s : List Char} {i j k : Nat}
    (h : search s i = some (j, k)) :
    ∃ pre b post, s = pre ++ b :: post ∧ (∀ c ∈ pre, isBreak c = false) ∧ isBreak b = true ∧
      j = i + pre.length ∧ k = j + 1 := by
  induction s generalizing i with
  | nil =>
      cases h
  | cons c s ih =>
      rw [search, matchLength_cons] at h
      cases hc : isBreak c with
      | true =>
          rw [hc] at h
          cases h
          exact ⟨[], c, s, rfl, by simp, hc, rfl, rfl⟩
      | false =>
          rw [hc] at h
          obtain ⟨pre, b, post, rfl, hpre, hb, hj, hk⟩ := ih h
          refine ⟨c :: pre, b, post, rfl, ?_, hb, ?_, hk⟩
          · intro d hd
            rcases List.mem_cons.mp hd with rfl | hd
            · exact hc
            · exact hpre d hd
          · rw [List.length_cons, hj]
            omega

namespace LineIterator

/-- The line that does not end in a newline. -/
def lastLine (it : LineIterator) : List (List Char) :=
  if it.startIndex < it.chunk.length then [it.chunk.drop it.startIndex] else []

/-- What is left to do: reads, and characters to look at. -/
def size (it : LineIterator) : Nat × Nat :=
  (it.chunks.length + (if it.readerDone then 0 else 1), it.chunk.length - it.lastIndex)

theorem size_read
    {it next : LineIterator}
    (h : it.turn = .read next) :
    Prod.Lex (· < ·) (· < ·) next.size it.size := by
  unfold turn at h
  split at h
  · split at h
    · cases h
    · next hdone =>
        cases h
        apply Prod.Lex.left
        rw [Bool.not_eq_true] at hdone
        cases hchunks : it.chunks with
        | nil =>
            simp [refill, hdone]
        | cons chunk chunks =>
            simp [refill, hdone]
  · cases h

theorem size_yields
    {it next : LineIterator} {line : List Char}
    (h : it.turn = .yields line next) :
    Prod.Lex (· < ·) (· < ·) next.size it.size := by
  unfold turn at h
  split at h
  · split at h
    · cases h
    · cases h
  · next j k hexec =>
      cases h
      obtain ⟨pre, b, post, hs, -, -, hj, hk⟩ := search_eq_some hexec
      have hlength := congrArg List.length hs
      rw [List.length_drop, List.length_append, List.length_cons] at hlength
      apply Prod.Lex.right
      show it.chunk.length - k < it.chunk.length - it.lastIndex
      omega

/-- The lines that the iterator yields. -/
def lines (it : LineIterator) : List (List Char) :=
  match _h : it.turn with
  | .done => it.lastLine
  | .read next => lines next
  | .yields line next => line :: lines next
termination_by it.size
decreasing_by
  · exact size_read _h
  · exact size_yields _h

end LineIterator

/-- The lines of a response that arrives in the given chunks. -/
def fetchLines (chunks : List (List UInt8)) : List (List Char) :=
  (LineIterator.refill [] chunks).lines

end Iterator

section Lines

/-- The lines of a text behind the beginning of a line. -/
def splitFrom : List Char → List Char → List (List Char)
  | line, [] => if line = [] then [] else [line]
  | line, c :: s => if isBreak c then line :: splitFrom [] s else splitFrom (line ++ [c]) s

theorem splitFrom_append
    {pre : List Char}
    (hpre : ∀ c ∈ pre, isBreak c = false)
    (line s : List Char) :
    splitFrom line (pre ++ s) = splitFrom (line ++ pre) s := by
  induction pre generalizing line with
  | nil =>
      rw [List.nil_append, List.append_nil]
  | cons c pre ih =>
      rw [List.cons_append, splitFrom, hpre c List.mem_cons_self,
        if_neg Bool.false_ne_true, ih (fun d hd => hpre d (List.mem_cons_of_mem c hd)),
        List.append_assoc, List.singleton_append]

/-- What the loop relies on between two turns. -/
structure LineIterator.Sane (it : LineIterator) : Prop where
  index : it.lastIndex = it.startIndex
  finished : it.readerDone = true → it.chunks = []

theorem LineIterator.sane_refill
    (remainder : List Char)
    (chunks : List (List UInt8)) :
    (refill remainder chunks).Sane := by
  cases chunks with
  | nil => exact ⟨rfl, fun _ => rfl⟩
  | cons chunk chunks => exact ⟨rfl, fun h => absurd h Bool.false_ne_true⟩

/-- The iterator yields the lines of what it has and of what it will decode. -/
theorem LineIterator.lines_eq
    {it : LineIterator}
    (h : it.Sane) :
    it.lines = splitFrom [] (it.chunk.drop it.startIndex ++ it.chunks.flatMap decode) := by
  fun_induction LineIterator.lines it with
  | case1 it hturn =>
      unfold turn at hturn
      split at hturn
      · next hexec =>
          split at hturn
          · next hdone =>
              have hnone := (search_eq_none_iff _ _).mp hexec
              rw [h.index] at hnone
              rw [h.finished hdone, List.flatMap_nil, splitFrom_append hnone, splitFrom, lastLine,
                List.nil_append]
              simp only [List.drop_eq_nil_iff]
              by_cases hlt : it.startIndex < it.chunk.length
              · rw [if_pos hlt, if_neg (by omega)]
              · rw [if_neg hlt, if_pos (by omega)]
          · cases hturn
      · cases hturn
  | case2 it next hturn ih =>
      unfold turn at hturn
      split at hturn
      · split at hturn
        · cases hturn
        · cases hturn
          rw [ih (sane_refill _ _)]
          cases it.chunks with
          | nil => rfl
          | cons chunk chunks =>
              rw [refill, List.drop_zero, List.append_assoc, List.flatMap_cons]
      · cases hturn
  | case3 it line next hturn ih =>
      unfold turn at hturn
      split at hturn
      · split at hturn
        · cases hturn
        · cases hturn
      · next j k hexec =>
          cases hturn
          obtain ⟨pre, b, post, hs, hpre, hb, hj, hk⟩ := search_eq_some hexec
          rw [h.index] at hs hj
          have hline : (it.chunk.drop it.startIndex).take (j - it.startIndex) = pre := by
            rw [hs, show j - it.startIndex = pre.length from by omega, List.take_left]
          have hrest : it.chunk.drop k = post := by
            have hdrop := congrArg (List.drop (pre.length + 1)) hs
            rw [List.drop_drop, List.drop_append, List.drop_of_length_le (Nat.le_succ _),
              List.nil_append, show pre.length + 1 - pre.length = 1 from by omega,
              List.drop_one, List.tail_cons] at hdrop
            rw [hk, hj, Nat.add_assoc]
            exact hdrop
          have hnext := ih ⟨rfl, h.finished⟩
          rw [hnext, hline, hs, List.append_assoc, splitFrom_append hpre, List.cons_append,
            splitFrom, hb, if_pos rfl, hrest, List.nil_append]

/-- The lines are those of the decoded chunks, joined. -/
theorem fetchLines_eq
    (chunks : List (List UInt8)) :
    fetchLines chunks = splitFrom [] (chunks.flatMap decode) := by
  rw [fetchLines, LineIterator.lines_eq (LineIterator.sane_refill [] chunks)]
  cases chunks with
  | nil => rfl
  | cons chunk chunks => rw [LineIterator.refill, List.drop_zero, List.nil_append, List.flatMap_cons]

/-- The characters of the lines are all but the line breaks. -/
theorem flatten_splitFrom
    (line s : List Char) :
    (splitFrom line s).flatten = line ++ s.filter (fun c => !isBreak c) := by
  induction s generalizing line with
  | nil =>
      rw [splitFrom]
      split
      case isTrue h => rw [h]; rfl
      case isFalse h => simp
  | cons c s ih =>
      rw [splitFrom]
      cases hc : isBreak c with
      | true => simp [hc, ih]
      | false => simp [hc, ih]

/-- Lines that are the same have the same number of each character. -/
theorem count_eq_of_splitFrom_eq
    {s t : List Char}
    (h : splitFrom [] s = splitFrom [] t)
    {c : Char}
    (hc : isBreak c = false) :
    s.count c = t.count c := by
  have hflat := congrArg List.flatten h
  rw [flatten_splitFrom, flatten_splitFrom, List.nil_append, List.nil_append] at hflat
  have hcount := congrArg (List.count c) hflat
  have hkept : (!isBreak c) = true := by rw [hc]; rfl
  rwa [List.count_filter (p := fun c => !isBreak c) hkept,
    List.count_filter (p := fun c => !isBreak c) hkept] at hcount

end Lines

section Characters

theorem decodeAfter_append
    (bytes rest : List UInt8) :
    decodeAfter bytes.length (bytes ++ rest) = decodeAfter 0 rest := by
  induction bytes with
  | nil =>
      rfl
  | cons b bytes ih =>
      exact ih

/-- A character that is there as a whole is decoded. -/
theorem decodeAfter_encodeChar
    (c : Char)
    (rest : List UInt8) :
    decodeAfter 0 (String.utf8EncodeChar c ++ rest) = c :: decodeAfter 0 rest := by
  have hdecode := decode_encode c rest
  have hlength := String.length_utf8EncodeChar c
  have hpos := c.utf8Size_pos
  cases hbytes : String.utf8EncodeChar c with
  | nil =>
      rw [hbytes, List.length_nil] at hlength
      omega
  | cons b bytes =>
      rw [hbytes, List.cons_append] at hdecode
      have htail : bytes.length = c.utf8Size - 1 := by
        rw [hbytes, List.length_cons] at hlength
        omega
      rw [List.cons_append, decodeAfter, hdecode]
      simp only [← htail, decodeAfter_append]

theorem decodeAfter_encode
    (s : List Char)
    (rest : List UInt8) :
    decodeAfter 0 (encode s ++ rest) = s ++ decodeAfter 0 rest := by
  induction s with
  | nil =>
      rfl
  | cons c s ih =>
      rw [encode_cons, List.append_assoc, decodeAfter_encodeChar, ih, List.cons_append]

/-- No character begins with the byte. -/
def Continuation (b : UInt8) : Prop :=
  ¬ b.IsUTF8FirstByte

theorem decodeChar_of_continuation
    {b : UInt8}
    (hb : Continuation b)
    (rest : List UInt8) :
    (b :: rest).toByteArray.utf8DecodeChar? 0 = none := by
  rw [← Option.not_isSome_iff_eq_none]
  intro hsome
  have hfirst := ByteArray.isUTF8FirstByte_of_isSome_utf8DecodeChar? hsome
  exact hb (by simpa using hfirst)

theorem follows_of_continuation
    {b : UInt8}
    (hb : Continuation b)
    (c : UInt8) :
    follows b c = false := by
  have hall : ∀ n : Fin 256, ¬ (UInt8.ofNat n.val).IsUTF8FirstByte →
      UInt8.ofNat n.val < 0xe0 ∨ 0xf4 < UInt8.ofNat n.val := by
    decide +kernel
  have hrange : b < 0xe0 ∨ 0xf4 < b := by
    have h := hall ⟨b.toNat, b.toNat_lt⟩
    simp only [UInt8.ofNat_toNat] at h
    exact h hb
  rw [Bool.eq_false_iff]
  intro h
  simp only [follows, Bool.or_eq_true, Bool.and_eq_true, decide_eq_true_eq,
    UInt8.le_iff_toNat_le, UInt8.lt_iff_toNat_lt, ← UInt8.toNat_inj] at h hrange
  simp only [UInt8.reduceToNat] at h hrange
  omega

/-- Each byte of the rest of a character is replaced. -/
theorem decodeAfter_continuations
    {bytes : List UInt8}
    (hbytes : ∀ b ∈ bytes, Continuation b)
    (rest : List UInt8) :
    decodeAfter 0 (bytes ++ rest) = List.replicate bytes.length '\ufffd' ++ decodeAfter 0 rest := by
  induction bytes with
  | nil =>
      rfl
  | cons b bytes ih =>
      have hb := hbytes b List.mem_cons_self
      have hlength : invalidLength (b :: (bytes ++ rest)) = 1 := by
        cases bytes ++ rest with
        | nil => rfl
        | cons c more => rw [invalidLength, follows_of_continuation hb, if_pos rfl]
      rw [List.cons_append, decodeAfter, decodeChar_of_continuation hb]
      simp only [hlength, Nat.sub_self]
      rw [ih (fun c hc => hbytes c (List.mem_cons_of_mem b hc)), List.length_cons,
        List.replicate_succ, List.cons_append]

/-- Bytes that are skipped or replaced leave nothing but replacement characters. -/
theorem mem_decodeAfter_continuations
    {bytes : List UInt8}
    (hbytes : ∀ b ∈ bytes, Continuation b)
    (skip : Nat) :
    ∀ c ∈ decodeAfter skip bytes, c = '\ufffd' := by
  induction bytes generalizing skip with
  | nil =>
      cases skip <;> exact fun c hc => absurd hc List.not_mem_nil
  | cons b bytes ih =>
      have hbytes' := fun c hc => hbytes c (List.mem_cons_of_mem b hc)
      cases skip with
      | zero =>
          rw [← List.append_nil (b :: bytes), decodeAfter_continuations hbytes]
          intro c hc
          rw [List.mem_append] at hc
          rcases hc with hc | hc
          · exact List.eq_of_mem_replicate hc
          · exact absurd hc List.not_mem_nil
      | succ skip =>
          exact ih hbytes' skip

/-- The bytes of a character behind its first one. -/
theorem continuation_of_encodeChar
    {c : Char} {b : UInt8} {bytes : List UInt8}
    (h : String.utf8EncodeChar c = b :: bytes) :
    ∀ d ∈ bytes, Continuation d := by
  intro d hd hfirst
  obtain ⟨i, hi, rfl⟩ := List.getElem_of_mem hd
  have hlt : i + 1 < (String.utf8EncodeChar c).length := by
    rw [h, List.length_cons]
    omega
  have hget : (String.utf8EncodeChar c)[i + 1] = bytes[i] := by
    simp [h]
  rw [← hget, UInt8.isUTF8FirstByte_getElem_utf8EncodeChar] at hfirst
  omega

/-- The beginning of a character is no character. -/
theorem decodeChar_of_prefix
    {c : Char} {bytes more : List UInt8}
    (h : String.utf8EncodeChar c = bytes ++ more)
    (hmore : more ≠ []) :
    bytes.toByteArray.utf8DecodeChar? 0 = none := by
  cases hdecode : bytes.toByteArray.utf8DecodeChar? 0 with
  | none =>
      rfl
  | some d =>
      obtain ⟨rest, rfl⟩ := exists_of_decode hdecode
      have hc := decode_encode c []
      rw [List.append_nil, h, List.append_assoc, decode_encode] at hc
      obtain rfl : d = c := Option.some.inj hc
      have hlength := congrArg List.length h
      have hpos := List.length_pos_iff.mpr hmore
      rw [List.length_append, List.length_append] at hlength
      omega

/-- The beginning of a character leaves replacement characters, one at least. -/
theorem decodeAfter_prefix
    {c : Char} {bytes more : List UInt8}
    (h : String.utf8EncodeChar c = bytes ++ more)
    (hbytes : bytes ≠ [])
    (hmore : more ≠ []) :
    ∃ cs, decodeAfter 0 bytes = '\ufffd' :: cs ∧ ∀ d ∈ cs, d = '\ufffd' := by
  cases bytes with
  | nil =>
      exact absurd rfl hbytes
  | cons b bytes =>
      have hcont := continuation_of_encodeChar h
      refine ⟨decodeAfter (invalidLength (b :: bytes) - 1) bytes, ?_, ?_⟩
      · rw [decodeAfter, decodeChar_of_prefix h hmore]
      · exact mem_decodeAfter_continuations
          (fun d hd => hcont d (List.mem_append_left more hd)) _

end Characters

section Damage

/-- The replacement character. -/
def replacement : Char := '\ufffd'

theorem encode_eq_nil_iff
    (s : List Char) :
    encode s = [] ↔ s = [] := by
  cases s with
  | nil =>
      simp
  | cons c s =>
      have hlength := String.length_utf8EncodeChar c
      have hpos := c.utf8Size_pos
      rw [encode_cons, List.append_eq_nil_iff]
      constructor
      · rintro ⟨hnil, -⟩
        rw [hnil, List.length_nil] at hlength
        omega
      · intro h
        cases h

/-- A cut is between two characters, or inside one of them. -/
theorem cut_cases
    {chunk more : List UInt8} {s : List Char}
    (h : chunk ++ more = encode s) :
    (∃ t t', s = t ++ t' ∧ chunk = encode t ∧ more = encode t') ∨
    ∃ t c t' p q, s = t ++ c :: t' ∧ String.utf8EncodeChar c = p ++ q ∧ p ≠ [] ∧ q ≠ [] ∧
      chunk = encode t ++ p ∧ more = q ++ encode t' := by
  induction s generalizing chunk with
  | nil =>
      obtain ⟨rfl, rfl⟩ := List.append_eq_nil_iff.mp h
      exact Or.inl ⟨[], [], rfl, rfl, rfl⟩
  | cons c s ih =>
      rw [encode_cons] at h
      rcases List.append_eq_append_iff.mp h with ⟨q, hc, hmore⟩ | ⟨chunk', rfl, hs⟩
      · by_cases hchunk : chunk = []
        · subst hchunk
          rw [List.nil_append] at hc
          exact Or.inl ⟨[], c :: s, rfl, rfl, by rw [hmore, ← hc, encode_cons]⟩
        · by_cases hq : q = []
          · subst hq
            rw [List.append_nil] at hc
            exact Or.inl ⟨[c], s, rfl, by rw [encode_cons, encode_nil, List.append_nil, hc], hmore⟩
          · exact Or.inr ⟨[], c, s, chunk, q, rfl, hc, hchunk, hq, rfl, hmore⟩
      · rcases ih hs.symm with ⟨t, t', rfl, rfl, hmore⟩ |
          ⟨t, d, t', p, q, rfl, hd, hp, hq, rfl, hmore⟩
        · exact Or.inl ⟨c :: t, t', rfl, by rw [encode_cons], hmore⟩
        · refine Or.inr ⟨c :: t, d, t', p, q, rfl, hd, hp, hq, ?_, hmore⟩
          rw [encode_cons, List.append_assoc]

/-- The characters of the chunks, byte order marks included. -/
def decoded (chunks : List (List UInt8)) : List Char :=
  chunks.flatMap (decodeAfter 0)

/-- Chunks of a text have its replacement characters, and more if a character is cut. -/
def Replaces (chunks : List (List UInt8)) : Prop :=
  ∀ s, chunks.flatten = encode s →
    s.count replacement ≤ (decoded chunks).count replacement ∧
    (s.count replacement = (decoded chunks).count replacement →
      ∀ chunk ∈ chunks, ∃ t, chunk = encode t)

/-- Chunks that begin inside a character have one more. -/
def ReplacesInside (chunks : List (List UInt8)) : Prop :=
  ∀ q s, q ≠ [] → (∀ b ∈ q, Continuation b) → chunks.flatten = q ++ encode s →
    s.count replacement + 1 ≤ (decoded chunks).count replacement

theorem Replaces.cons
    {chunks : List (List UInt8)}
    (h : Replaces chunks)
    (hinside : ReplacesInside chunks)
    (chunk : List UInt8) :
    Replaces (chunk :: chunks) := by
  intro s hs
  rw [List.flatten_cons] at hs
  rw [decoded, List.flatMap_cons, ← decoded, List.count_append]
  rcases cut_cases hs with ⟨t, t', rfl, rfl, hmore⟩ |
    ⟨t, c, t', p, q, rfl, hc, hp, hq, rfl, hmore⟩
  · obtain ⟨hle, heq⟩ := h t' hmore
    have hdecode : decodeAfter 0 (encode t) = t := by
      have := decodeAfter_encode t []
      rwa [List.append_nil, decodeAfter, List.append_nil] at this
    rw [hdecode, List.count_append]
    refine ⟨by omega, fun hsame => ?_⟩
    intro chunk hchunk
    rcases List.mem_cons.mp hchunk with rfl | hchunk
    · exact ⟨t, rfl⟩
    · exact heq (by omega) chunk hchunk
  · obtain ⟨cs, hcs, -⟩ := decodeAfter_prefix hc hp hq
    have hcont : ∀ b ∈ q, Continuation b := by
      cases p with
      | nil => exact absurd rfl hp
      | cons b p =>
          exact fun d hd => continuation_of_encodeChar hc d (List.mem_append_right p hd)
    have hrest := hinside q t' hq hcont hmore
    have hfirst : (decodeAfter 0 p).count replacement = cs.count replacement + 1 := by
      rw [hcs]
      exact List.count_cons_self
    have hone : (c :: t').count replacement ≤ t'.count replacement + 1 := by
      rw [List.count_cons]
      split <;> omega
    rw [decodeAfter_encode, List.count_append, List.count_append, hfirst]
    exact ⟨by omega, fun hsame => absurd hsame (by omega)⟩

theorem ReplacesInside.cons
    {chunks : List (List UInt8)}
    (h : Replaces chunks)
    (hinside : ReplacesInside chunks)
    (chunk : List UInt8) :
    ReplacesInside (chunk :: chunks) := by
  intro q s hq hcont hs
  rw [List.flatten_cons] at hs
  have hcount : ∀ n, (List.replicate n '\ufffd').count replacement = n :=
    fun n => List.count_replicate_self
  rcases List.append_eq_append_iff.mp hs with ⟨q', rfl, hmore⟩ | ⟨chunk', rfl, hmore⟩
  · have hdecode : decodeAfter 0 chunk = List.replicate chunk.length '\ufffd' := by
      have := decodeAfter_continuations (fun b hb => hcont b (List.mem_append_left q' hb)) []
      rwa [List.append_nil, decodeAfter, List.append_nil] at this
    rw [decoded, List.flatMap_cons, ← decoded, List.count_append, hdecode, hcount]
    by_cases hq' : q' = []
    · subst hq'
      rw [List.append_nil] at hq
      have hpos := List.length_pos_iff.mpr hq
      have hle := (h s hmore).1
      omega
    · have hle := hinside q' s hq' (fun b hb => hcont b (List.mem_append_right chunk hb)) hmore
      omega
  · have hle := (h.cons hinside chunk' s hmore.symm).1
    have hpos := List.length_pos_iff.mpr hq
    rw [decoded, List.flatMap_cons, ← decoded, List.count_append] at hle ⊢
    rw [decodeAfter_continuations hcont, List.count_append, hcount]
    omega

/-- A character that is cut leaves more replacement characters than there were. -/
theorem replaces
    (chunks : List (List UInt8)) :
    Replaces chunks ∧ ReplacesInside chunks := by
  induction chunks with
  | nil =>
      constructor
      · intro s hs
        rw [List.flatten_nil, eq_comm, encode_eq_nil_iff] at hs
        subst hs
        exact ⟨Nat.le_refl _, fun _ chunk hchunk => absurd hchunk List.not_mem_nil⟩
      · intro q s hq _ hs
        rw [List.flatten_nil, eq_comm, List.append_eq_nil_iff] at hs
        exact absurd hs.1 hq
  | cons chunk chunks ih =>
      exact ⟨ih.1.cons ih.2 chunk, ReplacesInside.cons ih.1 ih.2 chunk⟩

end Damage

section Marks

/-- The byte order mark. -/
def mark : Char := '\ufeff'

/-- A text without a byte order mark at its beginning. -/
def dropMark : List Char → List Char
  | [] => []
  | c :: s => if c = mark then s else c :: s

theorem dropMark_cons_of_ne
    {c : Char}
    (hc : c ≠ mark)
    (s : List Char) :
    dropMark (c :: s) = c :: s :=
  if_neg hc

theorem isPrefixOf_mark_iff
    (chunk : List UInt8) :
    [0xef, 0xbb, 0xbf].isPrefixOf chunk = true ↔
      ∃ rest, chunk = String.utf8EncodeChar mark ++ rest := by
  have hmark : String.utf8EncodeChar mark = [0xef, 0xbb, 0xbf] := by decide
  rw [List.isPrefixOf_iff_prefix, hmark]
  exact ⟨fun ⟨rest, h⟩ => ⟨rest, h.symm⟩, fun ⟨rest, h⟩ => ⟨rest, h.symm⟩⟩

/-- The decoder drops a byte order mark. -/
theorem decode_eq
    (chunk : List UInt8) :
    decode chunk = dropMark (decodeAfter 0 chunk) := by
  rw [decode]
  split
  case isTrue h =>
    obtain ⟨rest, rfl⟩ := (isPrefixOf_mark_iff chunk).mp h
    have hdrop : (String.utf8EncodeChar mark ++ rest).drop 3 = rest :=
      List.drop_left' (show (String.utf8EncodeChar mark).length = 3 from by decide)
    rw [hdrop, decodeAfter_encodeChar, dropMark, if_pos rfl]
  case isFalse h =>
    cases chunk with
    | nil => rfl
    | cons b rest =>
        rw [decodeAfter]
        cases hdecode : (b :: rest).toByteArray.utf8DecodeChar? 0 with
        | none =>
            exact (dropMark_cons_of_ne (show '\ufffd' ≠ mark from by decide) _).symm
        | some c =>
            refine (dropMark_cons_of_ne ?_ _).symm
            rintro rfl
            exact h ((isPrefixOf_mark_iff _).mpr (exists_of_decode hdecode))

theorem head?_of_dropMark
    {t : List Char}
    (h : t.head? ≠ some mark) :
    dropMark t = t := by
  cases t with
  | nil =>
      rfl
  | cons c t =>
      exact dropMark_cons_of_ne (fun hc => h (congrArg some hc)) t

theorem count_dropMark_of_ne
    {c : Char}
    (hc : c ≠ mark)
    (t : List Char) :
    (dropMark t).count c = t.count c := by
  cases t with
  | nil =>
      rfl
  | cons d t =>
      rw [dropMark]
      split
      case isTrue hd => rw [List.count_cons_of_ne (hd ▸ Ne.symm hc)]
      case isFalse => rfl

theorem count_mark_dropMark
    (t : List Char) :
    (dropMark t).count mark + (if t.head? = some mark then 1 else 0) = t.count mark := by
  cases t with
  | nil =>
      rfl
  | cons c t =>
      rw [dropMark, List.head?_cons]
      by_cases hc : c = mark
      · subst hc
        rw [if_pos rfl, if_pos rfl, List.count_cons_self]
      · rw [if_neg hc, if_neg (fun h => hc (Option.some.inj h)), Nat.add_zero]

/-- The marks of the texts are kept just if no text begins with one. -/
theorem count_flatMap_dropMark
    (ts : List (List Char)) :
    (ts.flatMap dropMark).count mark ≤ ts.flatten.count mark ∧
      ((ts.flatMap dropMark).count mark = ts.flatten.count mark →
        ∀ t ∈ ts, t.head? ≠ some mark) := by
  induction ts with
  | nil =>
      exact ⟨Nat.le_refl _, fun _ t ht => absurd ht List.not_mem_nil⟩
  | cons t ts ih =>
      have ht := count_mark_dropMark t
      rw [List.flatMap_cons, List.flatten_cons, List.count_append, List.count_append]
      refine ⟨by omega, fun heq => ?_⟩
      have hhead : t.head? ≠ some mark := by
        intro h
        rw [if_pos h] at ht
        omega
      intro t' ht'
      rcases List.mem_cons.mp ht' with rfl | ht'
      · exact hhead
      · exact ih.2 (by omega) t' ht'

theorem flatMap_dropMark
    {ts : List (List Char)}
    (h : ∀ t ∈ ts, t.head? ≠ some mark) :
    ts.flatMap dropMark = ts.flatten := by
  induction ts with
  | nil =>
      rfl
  | cons t ts ih =>
      rw [List.flatMap_cons, List.flatten_cons, head?_of_dropMark (h t List.mem_cons_self),
        ih (fun t' ht' => h t' (List.mem_cons_of_mem t ht'))]

/-- Empty texts do not count. -/
theorem flatMap_dropMark_filter
    (ts : List (List Char)) :
    ts.flatMap dropMark = (ts.filter (· ≠ [])).flatMap dropMark ∧
      ts.flatten = (ts.filter (· ≠ [])).flatten := by
  induction ts with
  | nil =>
      exact ⟨rfl, rfl⟩
  | cons t ts ih =>
      by_cases ht : t = []
      · subst ht
        rw [List.filter_cons_of_neg (by simp)]
        exact ih
      · rw [List.filter_cons_of_pos (by simp [ht]), List.flatMap_cons, List.flatMap_cons,
          List.flatten_cons, List.flatten_cons, ← ih.1, ← ih.2]
        exact ⟨rfl, rfl⟩

theorem dropMark_append
    {t : List Char}
    (ht : t ≠ [])
    (rest : List Char) :
    dropMark (t ++ rest) = dropMark t ++ rest := by
  cases t with
  | nil =>
      exact absurd rfl ht
  | cons c t =>
      rw [List.cons_append, dropMark, dropMark]
      split <;> rfl

/-- Texts that are decoded one by one keep their marks just if only the first begins with one. -/
theorem flatMap_dropMark_iff
    (ts : List (List Char)) :
    ((ts.flatMap dropMark).count mark = (dropMark ts.flatten).count mark →
      ∀ t ∈ (ts.filter (· ≠ [])).tail, t.head? ≠ some mark) ∧
    ((∀ t ∈ (ts.filter (· ≠ [])).tail, t.head? ≠ some mark) →
      ts.flatMap dropMark = dropMark ts.flatten) := by
  rw [(flatMap_dropMark_filter ts).1, (flatMap_dropMark_filter ts).2]
  cases hts : ts.filter (· ≠ []) with
  | nil =>
      exact ⟨fun _ t ht => absurd ht List.not_mem_nil, fun _ => rfl⟩
  | cons t rest =>
      have ht : t ≠ [] := by
        have hmem : t ∈ ts.filter (· ≠ []) := by
          rw [hts]
          exact List.mem_cons_self
        simpa using List.of_mem_filter hmem
      rw [List.flatMap_cons, List.flatten_cons, dropMark_append ht, List.tail_cons,
        List.count_append, List.count_append]
      constructor
      · intro heq
        exact (count_flatMap_dropMark rest).2 (Nat.add_left_cancel heq)
      · intro h
        rw [flatMap_dropMark h]

end Marks

section Results

/--
The chunks are texts, so that no character is cut, and no chunk but the first one with
something in it begins with a byte order mark.
-/
structure CleanCuts (chunks : List (List UInt8)) : Prop where
  whole : ∀ chunk ∈ chunks, ∃ t : String, chunk = bytesOf t
  marks : ∀ chunk ∈ (chunks.filter (· ≠ [])).tail, ¬ [0xef, 0xbb, 0xbf] <+: chunk

theorem decodeAfter_encode_all
    (t : List Char) :
    decodeAfter 0 (encode t) = t := by
  have h := decodeAfter_encode t []
  rwa [List.append_nil, decodeAfter, List.append_nil] at h

theorem prefix_mark_encode_iff
    (t : List Char) :
    [0xef, 0xbb, 0xbf] <+: encode t ↔ t.head? = some mark := by
  rw [← List.isPrefixOf_iff_prefix, isPrefixOf_mark_iff]
  constructor
  · rintro ⟨rest, h⟩
    have hdecode := decodeAfter_encode_all t
    rw [h, decodeAfter_encodeChar] at hdecode
    rw [← hdecode]
    rfl
  · intro h
    obtain ⟨rest, rfl⟩ := List.head?_eq_some_iff.mp h
    exact ⟨encode rest, rfl⟩

theorem encode_flatten
    (ts : List (List Char)) :
    (ts.map encode).flatten = encode ts.flatten := by
  induction ts with
  | nil =>
      rfl
  | cons t ts ih =>
      rw [List.map_cons, List.flatten_cons, List.flatten_cons, encode_append, ih]

theorem exists_texts
    {chunks : List (List UInt8)}
    (h : ∀ chunk ∈ chunks, ∃ t, chunk = encode t) :
    ∃ ts : List (List Char), chunks = ts.map encode := by
  induction chunks with
  | nil =>
      exact ⟨[], rfl⟩
  | cons chunk chunks ih =>
      obtain ⟨t, rfl⟩ := h chunk List.mem_cons_self
      obtain ⟨ts, rfl⟩ := ih (fun c hc => h c (List.mem_cons_of_mem _ hc))
      exact ⟨t :: ts, rfl⟩

theorem encode_injective
    {s t : List Char}
    (h : encode s = encode t) :
    s = t := by
  rw [← decodeAfter_encode_all s, h, decodeAfter_encode_all]

/-- The condition on the marks, of the texts. -/
theorem marks_iff
    (ts : List (List Char)) :
    (∀ chunk ∈ ((ts.map encode).filter (· ≠ [])).tail, ¬ [0xef, 0xbb, 0xbf] <+: chunk)
      ↔
    ∀ t ∈ (ts.filter (· ≠ [])).tail, t.head? ≠ some mark := by
  have hfilter : (ts.map encode).filter (· ≠ []) = (ts.filter (· ≠ [])).map encode := by
    rw [List.filter_map]
    congr 1
    apply List.filter_congr
    intro t _
    simp [encode_eq_nil_iff]
  rw [hfilter, ← List.map_tail]
  simp only [List.forall_mem_map, prefix_mark_encode_iff, ne_eq]

/-- The lines of texts that are decoded one by one. -/
theorem flatMap_decode_map_encode
    (ts : List (List Char)) :
    (ts.map encode).flatMap decode = ts.flatMap dropMark := by
  rw [List.flatMap_map]
  congr 1
  funext t
  rw [decode_eq, decodeAfter_encode_all]

theorem count_replacement_flatMap_decode
    (chunks : List (List UInt8)) :
    (chunks.flatMap decode).count replacement = (decoded chunks).count replacement := by
  induction chunks with
  | nil =>
      rfl
  | cons chunk chunks ih =>
      rw [decoded, List.flatMap_cons, List.flatMap_cons, ← decoded, List.count_append,
        List.count_append, ih, decode_eq, count_dropMark_of_ne (by decide)]

/--
The lines do not depend on the chunks of a valid text just if no character is cut and no
chunk but the first one begins with a byte order mark.
-/
theorem fetchLines_iff
    {text : String} {chunks : List (List UInt8)}
    (h : chunks.flatten = bytesOf text) :
    fetchLines chunks = fetchLines [bytesOf text] ↔ CleanCuts chunks := by
  rw [bytesOf_eq_encode] at h ⊢
  have hwhole : [encode text.toList].flatMap decode = dropMark text.toList := by
    rw [List.flatMap_singleton, decode_eq, decodeAfter_encode_all]
  rw [fetchLines_eq, fetchLines_eq, hwhole]
  constructor
  · intro heq
    have hcount := count_eq_of_splitFrom_eq heq (show isBreak replacement = false from by decide)
    rw [count_replacement_flatMap_decode, count_dropMark_of_ne (by decide)] at hcount
    obtain ⟨ts, rfl⟩ := exists_texts (((replaces chunks).1 text.toList h).2 hcount.symm)
    have htext : text.toList = ts.flatten :=
      encode_injective (h.symm.trans (encode_flatten ts))
    have hmarks := count_eq_of_splitFrom_eq heq (show isBreak mark = false from by decide)
    rw [flatMap_decode_map_encode, htext] at hmarks
    constructor
    · intro chunk hchunk
      obtain ⟨t, -, rfl⟩ := List.mem_map.mp hchunk
      exact ⟨String.ofList t, by rw [bytesOf_eq_encode, String.toList_ofList]⟩
    · exact (marks_iff ts).mpr ((flatMap_dropMark_iff ts).1 hmarks)
  · intro hclean
    have hvalid : ∀ chunk ∈ chunks, ∃ t, chunk = encode t := by
      intro chunk hchunk
      obtain ⟨t, rfl⟩ := hclean.whole chunk hchunk
      exact ⟨t.toList, bytesOf_eq_encode t⟩
    obtain ⟨ts, rfl⟩ := exists_texts hvalid
    have htext : text.toList = ts.flatten :=
      encode_injective (h.symm.trans (encode_flatten ts))
    rw [flatMap_decode_map_encode, htext,
      (flatMap_dropMark_iff ts).2 ((marks_iff ts).mp hclean.marks)]

/-- A cut inside of an umlaut. -/
theorem cut_umlaut :
    [[0x61, 0xc3], [0xbc, 0x0a]].flatten = bytesOf "a\u00fc\n" ∧
      fetchLines [[0x61, 0xc3], [0xbc, 0x0a]] = [['a', '\ufffd', '\ufffd']] ∧
      fetchLines [bytesOf "a\u00fc\n"] = [['a', '\u00fc']] := by
  refine ⟨by decide +kernel, ?_, ?_⟩
  · rw [fetchLines_eq]
    decide +kernel
  · rw [fetchLines_eq]
    decide +kernel

/-- A cut behind the umlaut. -/
theorem cut_behind_umlaut :
    fetchLines [[0x61, 0xc3, 0xbc], [0x0a]] = fetchLines [bytesOf "a\u00fc\n"] ↔
      CleanCuts [[0x61, 0xc3, 0xbc], [0x0a]] :=
  fetchLines_iff (by decide +kernel)

end Results

end Web
end CoopMessenger
