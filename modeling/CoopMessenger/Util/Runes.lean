import CoopMessenger.Util.Text

/-!
# Runes

A string of the server is a sequence of bytes and need not be valid text.  Read
as runes it is a list of characters, with `none` for a byte that belongs to none.
Random strings are drawn from a fixed set of letters and digits.

**Results.**
* `runes_bytesOf`: the runes of valid text are its characters.
* `runes_append_encode`, `runes_append_bytesOf`: a valid character, or text, ends the
  runes before it.
* `randomString_ne_empty`: a random string of a positive length is not empty.
-/

namespace CoopMessenger
namespace Util

section Runes

/-- Decodes runes, after so many bytes of the rune before. -/
def runesAfter :
    Nat → List UInt8 → List (Option Char)
  | _, [] => []
  | skip + 1, _ :: rest => runesAfter skip rest
  | 0, b :: rest =>
      match (b :: rest).toByteArray.utf8DecodeChar? 0 with
      | some c => some c :: runesAfter (c.utf8Size - 1) rest
      | none => none :: runesAfter 0 rest

/-- The runes of a string, as `utf8.DecodeRune` reads them one by one. -/
def runes (s : List UInt8) : List (Option Char) :=
  runesAfter 0 s

/-- The characters of a string, if it is valid text. -/
def validText (s : List (Option Char)) : Option (List Char) :=
  s.mapM id

/-- The characters of a string with replacements for invalid bytes. -/
def replaceInvalid (s : List (Option Char)) : List Char :=
  s.map (·.getD '\ufffd')

def isSpaceRune : Option Char → Bool
  | some c => isSpace c
  | none => false

/-- `strings.TrimSpace` -/
def trimRunes (s : List (Option Char)) : List (Option Char) :=
  (s.dropWhile isSpaceRune).rdropWhile isSpaceRune

theorem runesAfter_append
    (bytes rest : List UInt8) :
    runesAfter bytes.length (bytes ++ rest) = runesAfter 0 rest := by
  induction bytes with
  | nil =>
      rfl
  | cons b bytes ih =>
      exact ih

theorem runesAfter_encode
    (c : Char)
    (rest : List UInt8) :
    runesAfter 0 (String.utf8EncodeChar c ++ rest) =
      some c :: runesAfter 0 rest := by
  cases hbytes : String.utf8EncodeChar c with
  | nil =>
      have hlength := String.length_utf8EncodeChar c
      have hpos := c.utf8Size_pos
      rw [hbytes, List.length_nil] at hlength
      omega
  | cons b bytes =>
      have hlength : bytes.length = c.utf8Size - 1 := by
        have := String.length_utf8EncodeChar c
        rw [hbytes, List.length_cons] at this
        omega
      have hdecode : (b :: (bytes ++ rest)).toByteArray.utf8DecodeChar? 0 =
          some c := by
        rw [← List.cons_append, ← hbytes, List.toByteArray_append]
        exact ByteArray.utf8DecodeChar?_utf8EncodeChar_append
      rw [List.cons_append, runesAfter, hdecode]
      simp only [← hlength, runesAfter_append]

/-- What starts like a character before another one is inside the bytes before it. -/
theorem decode_append_encode
    {s : List UInt8}
    (hs : s ≠ [])
    (hnone : s.toByteArray.utf8DecodeChar? 0 = none)
    (d : Char)
    (rest : List UInt8) :
    (s ++ (String.utf8EncodeChar d ++ rest)).toByteArray.utf8DecodeChar? 0 = none := by
  cases hdecode : (s ++ (String.utf8EncodeChar d ++ rest)).toByteArray.utf8DecodeChar? 0 with
  | none =>
      rfl
  | some c =>
      obtain ⟨l, hl⟩ := ByteArray.exists_of_utf8DecodeChar?_eq_some hdecode
      have hlist : s ++ (String.utf8EncodeChar d ++ rest) =
          String.utf8EncodeChar c ++ l.data.toList := by
        have := congrArg (fun b => b.data.toList) hl
        simpa [List.data_toByteArray] using this
      by_cases hlength : (String.utf8EncodeChar c).length ≤ s.length
      · -- the character is inside `s`, so it would have been found there
        obtain ⟨t, rfl⟩ : ∃ t, s = String.utf8EncodeChar c ++ t := by
          refine ⟨s.drop (String.utf8EncodeChar c).length, ?_⟩
          have htake := congrArg (List.take (String.utf8EncodeChar c).length) hlist
          rw [List.take_append_of_le_length hlength, List.take_left] at htake
          conv_lhs => rw [← List.take_append_drop (String.utf8EncodeChar c).length s,
            htake]
        rw [List.toByteArray_append, ByteArray.utf8DecodeChar?_utf8EncodeChar_append]
          at hnone
        cases hnone
      · -- otherwise the first byte of `d` would stand inside the character
        have hpos := List.length_pos_iff.mpr hs
        have hi : s.length < (String.utf8EncodeChar c).length := by omega
        have hd : 0 < (String.utf8EncodeChar d).length := by
          rw [String.length_utf8EncodeChar]
          exact d.utf8Size_pos
        have hbyte : (String.utf8EncodeChar c)[s.length] = (String.utf8EncodeChar d)[0] := by
          have hget := congrArg (·[s.length]?) hlist
          rw [List.getElem?_append_right (Nat.le_refl _), Nat.sub_self,
            List.getElem?_append_left hd, List.getElem?_append_left hi,
            List.getElem?_eq_getElem hd, List.getElem?_eq_getElem hi] at hget
          exact (Option.some.inj hget).symm
        have hfirst : (String.utf8EncodeChar d)[0].IsUTF8FirstByte :=
          UInt8.isUTF8FirstByte_getElem_utf8EncodeChar.mpr rfl
        rw [← hbyte, UInt8.isUTF8FirstByte_getElem_utf8EncodeChar] at hfirst
        omega

/-- A valid character ends the runes before it. -/
theorem runes_append_encode
    (s : List UInt8)
    (d : Char)
    (rest : List UInt8) :
    runes (s ++ (String.utf8EncodeChar d ++ rest)) = runes s ++ some d :: runes rest := by
  unfold runes
  induction hn : s.length using Nat.strongRecOn generalizing s with
  | ind n ih =>
      cases s with
      | nil =>
          exact runesAfter_encode d rest
      | cons b s =>
          cases hdecode : (b :: s).toByteArray.utf8DecodeChar? 0 with
          | none =>
              have hnone := decode_append_encode (by simp) hdecode d rest
              rw [List.cons_append] at hnone
              rw [List.cons_append, runesAfter, runesAfter, hdecode, hnone]
              simp only [List.cons_append]
              rw [ih s.length (by simp at hn; omega) s rfl]
          | some c =>
              obtain ⟨l, hl⟩ := ByteArray.exists_of_utf8DecodeChar?_eq_some hdecode
              have hlist : b :: s = String.utf8EncodeChar c ++ l.data.toList := by
                have := congrArg (fun b => b.data.toList) hl
                simpa [List.data_toByteArray] using this
              have hsize := congrArg List.length hlist
              have hpos := c.utf8Size_pos
              rw [List.length_append, String.length_utf8EncodeChar] at hsize
              rw [hlist, List.append_assoc, runesAfter_encode, runesAfter_encode,
                ih l.data.toList.length (by omega) l.data.toList rfl, List.cons_append]

theorem bytesOf_eq
    (s : String) :
    bytesOf s = s.toList.flatMap String.utf8EncodeChar := by
  have hencode : s.toByteArray =
      (s.toList.flatMap String.utf8EncodeChar).toByteArray :=
    String.utf8Encode_toList.symm
  rw [bytesOf, String.toUTF8_eq_toByteArray, hencode, List.data_toByteArray,
    List.toList_toArray]

theorem runes_bytesOf_append
    (s : String)
    (rest : List UInt8) :
    runes (bytesOf s ++ rest) = s.toList.map some ++ runes rest := by
  rw [bytesOf_eq]
  induction s.toList with
  | nil =>
      rfl
  | cons c cs ih =>
      rw [List.flatMap_cons, List.append_assoc, runes, runesAfter_encode, ← runes, ih]
      rfl

/-- The runes of valid text are its characters. -/
theorem runes_bytesOf
    (s : String) :
    runes (bytesOf s) = s.toList.map some := by
  have happend := runes_bytesOf_append s []
  simpa [runes, runesAfter] using happend

/-- Text ends the runes before it. -/
theorem runes_append_bytesOf
    (before : List UInt8)
    {s : String}
    (hs : s ≠ "")
    (rest : List UInt8) :
    runes (before ++ (bytesOf s ++ rest)) =
      runes before ++ (s.toList.map some ++ runes rest) := by
  cases hlist : s.toList with
  | nil =>
      exact absurd (String.toList_eq_nil_iff.mp hlist) hs
  | cons c cs =>
      have hrest := runes_bytesOf_append (String.ofList cs) rest
      rw [bytesOf_eq, String.toList_ofList] at hrest
      rw [bytesOf_eq, hlist, List.flatMap_cons, List.append_assoc,
        runes_append_encode, hrest]
      rfl

theorem validText_map_some
    (s : List Char) :
    validText (s.map some) = some s := by
  induction s with
  | nil =>
      rfl
  | cons c s ih =>
      simp only [validText] at ih ⊢
      simp [ih]

theorem validText_eq_none
    {s : List (Option Char)}
    (h : none ∈ s) :
    validText s = none := by
  induction s with
  | nil =>
      cases h
  | cons r s ih =>
      cases r with
      | none =>
          rfl
      | some c =>
          have hrest : validText s = none := ih (by simpa using h)
          simp only [validText] at hrest ⊢
          simp [hrest]

theorem exists_eq_map_some
    {s : List (Option Char)}
    (h : none ∉ s) :
    ∃ cs : List Char, s = cs.map some := by
  induction s with
  | nil =>
      exact ⟨[], rfl⟩
  | cons r s ih =>
      rw [List.mem_cons, not_or] at h
      obtain ⟨cs, rfl⟩ := ih h.2
      cases r with
      | none =>
          exact absurd rfl h.1
      | some c =>
          exact ⟨c :: cs, rfl⟩

theorem replaceInvalid_map_some
    (s : List Char) :
    replaceInvalid (s.map some) = s := by
  simp [replaceInvalid, Function.comp_def]

theorem trimRunes_map_some
    (s : List Char) :
    trimRunes (s.map some) = (trimSpace s).map some := by
  simp [trimRunes, trimSpace, List.rdropWhile, List.dropWhile_map,
    Function.comp_def, isSpaceRune, ← List.map_reverse]

/-- What neither starts nor ends with white space is trimmed. -/
theorem trimRunes_eq_self
    {s : List (Option Char)}
    (hfirst : ∀ r ∈ s.head?, isSpaceRune r = false)
    (hlast : ∀ r ∈ s.getLast?, isSpaceRune r = false) :
    trimRunes s = s := by
  have hdrop : s.dropWhile isSpaceRune = s := by
    cases s with
    | nil =>
        rfl
    | cons r s =>
        exact List.dropWhile_cons_of_neg (by simp [hfirst r rfl])
  rw [trimRunes, hdrop, List.rdropWhile_eq_self_iff]
  intro hs
  simp [hlast _ (List.getLast?_eq_some_getLast hs)]

end Runes

section Random

def randomStringCharset : List Char :=
  "abcdefghijklmnopqrstuvwxyzABCDEFGHIJKLMNOPQRSTUVWXYZ0123456789".toList

/-- Letters and digits drawn one by one. -/
def randomString
    (draws : Nat → Nat)
    (length : Nat) : String :=
  String.ofList ((List.range length).map
    (fun i => randomStringCharset.getD (draws i % randomStringCharset.length) 'a'))

theorem randomString_ne_empty
    (draws : Nat → Nat)
    {length : Nat}
    (h : 0 < length) :
    randomString draws length ≠ "" := by
  intro hempty
  have hlist := congrArg (fun s => s.toList.length) hempty
  simp [randomString] at hlist
  omega

end Random

end Util
end CoopMessenger
