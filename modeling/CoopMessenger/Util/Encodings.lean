import CoopMessenger.Library.Base64
import CoopMessenger.Util.Cuts
import CoopMessenger.Util.RuneCuts
import Mathlib.Data.Bool.AllAny

/-!
# Encodings

The encodings of texts in headers and URLs, as the standard library documents them:
base64, query strings, and white space around strings of bytes.

**Results.**
* `decodeString_encodeToString`: encoded bytes are decoded again.
* `trimBytes_bytesOf`: trimming the bytes of a text trims the text.
* `parseQuery_queryText`: a query string of plain parts is read as it is written.
-/

namespace CoopMessenger
namespace Util

open Library

section Base64

/-- `base64.StdEncoding` -/
def stdEncoding : Base64.Alphabet where
  chars := "ABCDEFGHIJKLMNOPQRSTUVWXYZabcdefghijklmnopqrstuvwxyz0123456789+/".toList
  length_eq := by decide +kernel
  nodup := by decide +kernel
  pad_notMem := by decide +kernel
  breaks_notMem := by decide +kernel

/-- `base64.URLEncoding` -/
def urlEncoding : Base64.Alphabet where
  chars := "ABCDEFGHIJKLMNOPQRSTUVWXYZabcdefghijklmnopqrstuvwxyz0123456789-_".toList
  length_eq := by decide +kernel
  nodup := by decide +kernel
  pad_notMem := by decide +kernel
  breaks_notMem := by decide +kernel

/-- A byte below 128 as the character it is; no other byte becomes one of these. -/
def charOfByte (b : UInt8) : Char :=
  Char.ofNat b.toNat

def byteOfChar (c : Char) : UInt8 :=
  UInt8.ofNat c.toNat

variable (A : Base64.Alphabet)
variable (padded : Bool)

/-- `Encoding.EncodeToString` -/
def Encoding.encodeToString (bytes : List UInt8) : List UInt8 :=
  (Base64.encode A padded bytes).map byteOfChar

/-- `Encoding.DecodeString` -/
def Encoding.decodeString (s : List UInt8) : Option (List UInt8) :=
  Base64.decode A padded (s.map charOfByte)

end Base64

section RoundTrip

variable {A : Base64.Alphabet}
variable {padded : Bool}

theorem charOfByte_byteOfChar
    {c : Char}
    (h : c.toNat < 128) :
    charOfByte (byteOfChar c) = c := by
  have hbyte : (UInt8.ofNat c.toNat).toNat = c.toNat := by
    rw [UInt8.toNat_ofNat']
    omega
  rw [charOfByte, byteOfChar, hbyte, Char.ofNat_toNat]

theorem map_charOfByte
    {s : List Char}
    (h : ∀ c ∈ s, c.toNat < 128) :
    (s.map byteOfChar).map charOfByte = s := by
  induction s with
  | nil =>
      rfl
  | cons c s ih =>
      rw [List.map_cons, List.map_cons, charOfByte_byteOfChar (h c List.mem_cons_self),
        ih fun d hd => h d (List.mem_cons_of_mem _ hd)]

/-- The bytes of a character that is one byte. -/
theorem utf8EncodeChar_of_lt
    {c : Char}
    (h : c.toNat < 128) :
    String.utf8EncodeChar c = [byteOfChar c] := by
  have hsize : c.utf8Size = 1 := by
    rw [Char.utf8Size_eq_one_iff, UInt32.le_iff_toNat_le]
    exact Nat.le_of_lt_succ h
  rw [String.utf8EncodeChar_eq_singleton hsize, byteOfChar]
  rfl

theorem encode_of_lt
    {s : List Char}
    (h : ∀ c ∈ s, c.toNat < 128) :
    encode s = s.map byteOfChar := by
  induction s with
  | nil =>
      rfl
  | cons c s ih =>
      rw [encode_cons, utf8EncodeChar_of_lt (h c List.mem_cons_self),
        ih fun d hd => h d (List.mem_cons_of_mem _ hd)]
      rfl

theorem utf8EncodeChar_charOfByte
    {b : UInt8}
    (h : b.toNat < 128) :
    String.utf8EncodeChar (charOfByte b) = [b] := by
  have hnat : (charOfByte b).toNat = b.toNat := by
    have hvalid : b.toNat.isValidChar := .inl (Nat.lt_trans h (by decide))
    rw [charOfByte, Char.ofNat, dif_pos hvalid]
    rfl
  rw [utf8EncodeChar_of_lt (by rw [hnat]; exact h), byteOfChar, hnat, UInt8.ofNat_toNat]

/-- A byte below 128 in a text is the character that it is. -/
theorem mem_encode_iff
    {b : UInt8}
    (hb : b.toNat < 128)
    (s : List Char) :
    b ∈ encode s ↔ charOfByte b ∈ s := by
  constructor
  · intro hmem
    obtain ⟨before, after, hsplit⟩ := List.append_of_mem hmem
    have hrunes := runes_encode_all s
    rw [hsplit, ← List.singleton_append, ← utf8EncodeChar_charOfByte hb,
      runes_append_encode] at hrunes
    have hsome : some (charOfByte b) ∈ s.map some := by
      rw [← hrunes]
      exact List.mem_append_right _ List.mem_cons_self
    obtain ⟨c, hc, heq⟩ := List.mem_map.mp hsome
    rw [← Option.some.inj heq]
    exact hc
  · intro hmem
    refine List.mem_flatMap.mpr ⟨_, hmem, ?_⟩
    rw [utf8EncodeChar_charOfByte hb]
    exact List.mem_singleton_self b

/-- Encoded bytes are decoded again. -/
theorem decodeString_encodeToString
    (hchars : ∀ c ∈ A.chars, c.toNat < 128)
    (bytes : List UInt8) :
    Encoding.decodeString A padded (Encoding.encodeToString A padded bytes) = some bytes := by
  have hascii : ∀ c ∈ Base64.encode A padded bytes, c.toNat < 128 := by
    intro c hc
    rcases Base64.mem_encode hc with hmem | ⟨-, rfl⟩
    · exact hchars c hmem
    · decide
  rw [Encoding.decodeString, Encoding.encodeToString, map_charOfByte hascii, Base64.decode_encode]

theorem stdEncoding_lt :
    ∀ c ∈ stdEncoding.chars, c.toNat < 128 :=
  List.all_iff_forall_prop.mp (by decide +kernel)

theorem urlEncoding_lt :
    ∀ c ∈ urlEncoding.chars, c.toNat < 128 :=
  List.all_iff_forall_prop.mp (by decide +kernel)

end RoundTrip

section Trimming

/-- `strings.TrimSpace`, of any bytes -/
def trimBytes (s : List UInt8) : List UInt8 :=
  let rest := s.drop (bytesOfRunes ((runes s).takeWhile isSpaceRune))
  rest.take (rest.length - bytesOfRunes ((runes rest).rtakeWhile isSpaceRune))

theorem bytesOfRunes_map_some
    (s : List Char) :
    bytesOfRunes (s.map some) = (encode s).length := by
  rw [← runes_encode_all, bytes_runes]

theorem takeWhile_map_some
    (s : List Char) :
    (s.map some).takeWhile isSpaceRune = (s.takeWhile isSpace).map some := by
  rw [List.takeWhile_map]
  rfl

theorem rtakeWhile_map_some
    (s : List Char) :
    (s.map some).rtakeWhile isSpaceRune = (s.rtakeWhile isSpace).map some := by
  rw [List.rtakeWhile, List.rtakeWhile, ← List.map_reverse, takeWhile_map_some,
    List.map_reverse]

/-- Trimming the bytes of a text trims the text. -/
theorem trimBytes_encode
    (s : List Char) :
    trimBytes (encode s) = encode (trimSpace s) := by
  have hlead : (encode s).drop (bytesOfRunes ((runes (encode s)).takeWhile isSpaceRune)) =
      encode (s.dropWhile isSpace) := by
    rw [runes_encode_all, takeWhile_map_some, bytesOfRunes_map_some]
    conv_lhs =>
      rw [← List.takeWhile_append_dropWhile (p := isSpace) (l := s), encode_append]
    rw [List.takeWhile_append_dropWhile, List.drop_left]
  rw [trimBytes, hlead, runes_encode_all, rtakeWhile_map_some, bytesOfRunes_map_some, trimSpace]
  generalize s.dropWhile isSpace = rest
  have hsplit : encode rest = encode (rest.rdropWhile isSpace) ++
      encode (rest.rtakeWhile isSpace) := by
    rw [← encode_append, List.rdropWhile_append_rtakeWhile]
  rw [hsplit, List.length_append, Nat.add_sub_cancel, List.take_left]

theorem trimBytes_bytesOf
    (s : String) :
    trimBytes (bytesOf s) = bytesOf (trim s) := by
  rw [bytesOf_eq_encode, trimBytes_encode, bytesOf_eq_encode, trim, String.toList_ofList]

end Trimming

section Queries

/-- `strings.Cut` at a byte; without the byte everything is before it. -/
def cut
    (sep : UInt8)
    (s : List UInt8) : List UInt8 × List UInt8 :=
  (s.takeWhile (· ≠ sep), (s.dropWhile (· ≠ sep)).tail)

def hexDigit (b : UInt8) : Option UInt8 :=
  if 48 ≤ b ∧ b ≤ 57 then
    some (b - 48)
  else if 97 ≤ b ∧ b ≤ 102 then
    some (b - 87)
  else if 65 ≤ b ∧ b ≤ 70 then
    some (b - 55)
  else
    none

/-- `url.QueryUnescape` -/
def queryUnescape :
    List UInt8 → Option (List UInt8)
  | [] => some []
  | b :: rest =>
      if b = 37 then -- '%'
        match rest with
        | h :: l :: rest =>
            match hexDigit h, hexDigit l with
            | some high, some low => (queryUnescape rest).map ((16 * high + low) :: ·)
            | _, _ => none
        | _ => none
      else if b = 43 then -- '+'
        (queryUnescape rest).map (32 :: ·)
      else
        (queryUnescape rest).map (b :: ·)

/-- A name and its value; what cannot be read is left out. -/
def parsePair (s : List UInt8) : Option (List UInt8 × List UInt8) :=
  if s = [] ∨ 59 ∈ s then -- ';'
    none
  else
    let (key, value) := cut 61 s
    match queryUnescape key, queryUnescape value with
    | some key, some value => some (key, value)
    | _, _ => none

/-- `url.ParseQuery` -/
def parseQuery (query : List UInt8) : List (List UInt8 × List UInt8) :=
  (query.splitOn 38).filterMap parsePair

/-- `Values.Get` -/
def getValue
    (values : List (List UInt8 × List UInt8))
    (name : List UInt8) : List UInt8 :=
  ((values.find? fun v => v.1 = name).map Prod.snd).getD []

/-- Nothing in the bytes has a meaning in a query string. -/
def isPlainQuery (s : List UInt8) : Bool :=
  s.all fun b => decide (b ∉ [37, 38, 43, 59, 61])

variable {s key value : List UInt8}

theorem notMem_of_isPlainQuery
    (h : isPlainQuery s = true) :
    ∀ b ∈ s, b ≠ 37 ∧ b ≠ 38 ∧ b ≠ 43 ∧ b ≠ 59 ∧ b ≠ 61 := by
  intro b hb
  have hplain := List.all_eq_true.mp h b hb
  simpa using hplain

theorem queryUnescape_plain
    (h : isPlainQuery s = true) :
    queryUnescape s = some s := by
  induction s with
  | nil =>
      rfl
  | cons b s ih =>
      obtain ⟨hpercent, -, hplus, -, -⟩ := notMem_of_isPlainQuery h b List.mem_cons_self
      have hrest : isPlainQuery s = true := by
        rw [isPlainQuery, List.all_cons, Bool.and_eq_true] at h
        exact h.2
      unfold queryUnescape
      rw [if_neg hpercent, if_neg hplus, ih hrest]
      rfl

theorem cut_append
    {sep : UInt8}
    (h : sep ∉ key) :
    cut sep (key ++ sep :: value) = (key, value) := by
  have hkey : ∀ b ∈ key, (fun b => decide (b ≠ sep)) b = true := by
    intro b hb
    rw [decide_eq_true_eq]
    rintro rfl
    exact h hb
  rw [cut, List.takeWhile_append_of_pos hkey, List.dropWhile_append_of_pos hkey]
  simp

/-- A name and a value without special characters are read as they are. -/
theorem parsePair_plain
    (hkey : isPlainQuery key = true)
    (hvalue : isPlainQuery value = true) :
    parsePair (key ++ 61 :: value) = some (key, value) := by
  have hmem : 59 ∉ key ++ 61 :: value := by
    intro h
    rw [List.mem_append, List.mem_cons] at h
    rcases h with h | h | h
    · exact (notMem_of_isPlainQuery hkey _ h).2.2.2.1 rfl
    · exact absurd h (by decide)
    · exact (notMem_of_isPlainQuery hvalue _ h).2.2.2.1 rfl
  have hequals : 61 ∉ key := fun h => (notMem_of_isPlainQuery hkey _ h).2.2.2.2 rfl
  rw [parsePair, if_neg (by simp [hmem])]
  dsimp only
  rw [cut_append hequals]
  dsimp only
  rw [queryUnescape_plain hkey, queryUnescape_plain hvalue]

/-- Names and values as a query string. -/
def queryText (pairs : List (List UInt8 × List UInt8)) : List UInt8 :=
  [38].intercalate (pairs.map fun p => p.1 ++ 61 :: p.2)

/-- A query string of plain names and values is read as they are. -/
theorem parseQuery_queryText
    (pairs : List (List UInt8 × List UInt8))
    (hplain : ∀ p ∈ pairs, isPlainQuery p.1 = true ∧ isPlainQuery p.2 = true) :
    parseQuery (queryText pairs) = pairs := by
  have hparts : (pairs.map fun p => p.1 ++ 61 :: p.2).filterMap parsePair = pairs := by
    induction pairs with
    | nil =>
        rfl
    | cons p pairs ih =>
        obtain ⟨hkey, hvalue⟩ := hplain p List.mem_cons_self
        rw [List.map_cons, List.filterMap_cons_some (parsePair_plain hkey hvalue),
          ih fun q hq => hplain q (List.mem_cons_of_mem _ hq)]
  have hnotMem : ∀ part ∈ pairs.map (fun p => p.1 ++ 61 :: p.2), 38 ∉ part := by
    intro part hpart hmem
    obtain ⟨p, hp, rfl⟩ := List.mem_map.mp hpart
    obtain ⟨hkey, hvalue⟩ := hplain p hp
    rw [List.mem_append, List.mem_cons] at hmem
    rcases hmem with h | h | h
    · exact (notMem_of_isPlainQuery hkey _ h).2.1 rfl
    · exact absurd h (by decide)
    · exact (notMem_of_isPlainQuery hvalue _ h).2.1 rfl
  rw [parseQuery, queryText]
  cases pairs with
  | nil =>
      rfl
  | cons p pairs =>
      rw [List.splitOn_intercalate 38 hnotMem (List.cons_ne_nil _ _), hparts]

end Queries

end Util
end CoopMessenger
