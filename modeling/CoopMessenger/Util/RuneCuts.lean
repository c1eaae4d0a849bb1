import CoopMessenger.Util.Runes
import Mathlib.Algebra.GroupWithZero.Nat

/-!
# Runes of a string that is cut

A slice of a string counts bytes.  The runes that fit into it are kept, and each byte that
is left of the next one is a byte that belongs to no character.

**Results.**
* `runes_induction`: the runes of a string from the first to the last.
* `bytes_runes`: the bytes of the runes are the bytes of the string.
* `runes_take`: the runes of the first so many bytes.
* `keptRunes_replicate`: the same for a text that repeats a character.
-/

namespace CoopMessenger
namespace Util

section RuneCuts

/-- How many bytes a rune is read from. -/
def runeBytes : Option Char → Nat
  | some c => c.utf8Size
  | none => 1

def bytesOfRunes (rs : List (Option Char)) : Nat :=
  (rs.map runeBytes).sum

/-- The runes that fit into so many bytes. -/
def keptRunes :
    Nat → List (Option Char) → List (Option Char)
  | _, [] => []
  | k, r :: rs =>
      if runeBytes r ≤ k then r :: keptRunes (k - runeBytes r) rs else []

/-- The runes from the first one that does not fit. -/
def removedRunes :
    Nat → List (Option Char) → List (Option Char)
  | _, [] => []
  | k, r :: rs =>
      if runeBytes r ≤ k then removedRunes (k - runeBytes r) rs else r :: rs

theorem keptRunes_of_le
    {k : Nat} {r : Option Char}
    (h : runeBytes r ≤ k)
    (rs : List (Option Char)) :
    keptRunes k (r :: rs) = r :: keptRunes (k - runeBytes r) rs :=
  if_pos h

theorem keptRunes_of_lt
    {k : Nat} {r : Option Char}
    (h : k < runeBytes r)
    (rs : List (Option Char)) :
    keptRunes k (r :: rs) = [] :=
  if_neg (not_le.mpr h)

theorem bytesOfRunes_cons
    (r : Option Char)
    (rs : List (Option Char)) :
    bytesOfRunes (r :: rs) = runeBytes r + bytesOfRunes rs := by
  rfl

theorem keptRunes_append_removedRunes
    (k : Nat)
    (rs : List (Option Char)) :
    keptRunes k rs ++ removedRunes k rs = rs := by
  induction rs generalizing k with
  | nil =>
      rfl
  | cons r rs ih =>
      rw [keptRunes, removedRunes]
      split
      · rw [List.cons_append, ih]
      · rfl

theorem bytes_keptRunes_le
    (k : Nat)
    (rs : List (Option Char)) :
    bytesOfRunes (keptRunes k rs) ≤ k := by
  induction rs generalizing k with
  | nil =>
      exact Nat.zero_le k
  | cons r rs ih =>
      rw [keptRunes]
      split
      · have hrest := ih (k - runeBytes r)
        simp only [bytesOfRunes, List.map_cons, List.sum_cons] at hrest ⊢
        omega
      · exact Nat.zero_le k

theorem bytesOfRunes_append
    (rs ts : List (Option Char)) :
    bytesOfRunes (rs ++ ts) = bytesOfRunes rs + bytesOfRunes ts := by
  rw [bytesOfRunes, List.map_append, List.sum_append]
  rfl

theorem runes_invalid
    {b : UInt8} {rest : List UInt8}
    (h : (b :: rest).toByteArray.utf8DecodeChar? 0 = none) :
    runes (b :: rest) = none :: runes rest := by
  rw [runes, runesAfter, h]
  rfl

theorem runes_encode
    (c : Char)
    (rest : List UInt8) :
    runes (String.utf8EncodeChar c ++ rest) = some c :: runes rest :=
  runesAfter_encode c rest

theorem exists_of_decode
    {s : List UInt8} {c : Char}
    (h : s.toByteArray.utf8DecodeChar? 0 = some c) :
    ∃ rest, s = String.utf8EncodeChar c ++ rest := by
  obtain ⟨l, hl⟩ := ByteArray.exists_of_utf8DecodeChar?_eq_some h
  refine ⟨l.data.toList, ?_⟩
  have hlist := congrArg (fun b => b.data.toList) hl
  simpa [List.data_toByteArray] using hlist

theorem decode_encode
    (c : Char)
    (rest : List UInt8) :
    (String.utf8EncodeChar c ++ rest).toByteArray.utf8DecodeChar? 0 = some c := by
  rw [List.toByteArray_append]
  exact ByteArray.utf8DecodeChar?_utf8EncodeChar_append

/-- The bytes of characters. -/
def encode (s : List Char) : List UInt8 :=
  s.flatMap String.utf8EncodeChar

@[simp] theorem encode_nil :
    encode [] = [] := by
  rfl

@[simp] theorem encode_cons
    (c : Char) (s : List Char) :
    encode (c :: s) = String.utf8EncodeChar c ++ encode s := by
  rfl

@[simp] theorem encode_append
    (s t : List Char) :
    encode (s ++ t) = encode s ++ encode t :=
  List.flatMap_append

theorem bytesOf_eq_encode
    (s : String) :
    bytesOf s = encode s.toList :=
  bytesOf_eq s

theorem runes_encode_all
    (s : List Char) :
    runes (encode s) = s.map some := by
  have h := runes_bytesOf (String.ofList s)
  rwa [bytesOf_eq_encode, String.toList_ofList] at h

/-- A string is empty, or starts with an invalid byte, or with a character. -/
@[elab_as_elim]
theorem runes_induction
    {P : List UInt8 → Prop}
    (nil : P [])
    (invalid : ∀ b rest, (b :: rest).toByteArray.utf8DecodeChar? 0 = none → P rest →
      P (b :: rest))
    (valid : ∀ c rest, P rest → P (String.utf8EncodeChar c ++ rest))
    (s : List UInt8) :
    P s := by
  induction hn : s.length using Nat.strongRecOn generalizing s with
  | ind n ih =>
      cases s with
      | nil =>
          exact nil
      | cons b s =>
          cases hdecode : (b :: s).toByteArray.utf8DecodeChar? 0 with
          | none =>
              refine invalid b s hdecode (ih s.length ?_ s rfl)
              rw [← hn]
              exact Nat.lt_succ_self _
          | some c =>
              obtain ⟨rest, hrest⟩ := exists_of_decode hdecode
              rw [hrest]
              refine valid c rest (ih rest.length ?_ rest rfl)
              have hpos := c.utf8Size_pos
              rw [← hn, hrest, List.length_append, String.length_utf8EncodeChar]
              omega

theorem bytes_runes
    (s : List UInt8) :
    bytesOfRunes (runes s) = s.length := by
  induction s using runes_induction with
  | nil =>
      rfl
  | invalid b rest hdecode ih =>
      rw [runes_invalid hdecode, List.length_cons, ← ih]
      exact Nat.add_comm 1 _
  | valid c rest ih =>
      rw [runes_encode, List.length_append, String.length_utf8EncodeChar, ← ih]
      rfl

/-- Bytes that start no character. -/
theorem runes_of_no_start
    {s : List UInt8}
    (h : ∀ b ∈ s, ¬b.IsUTF8FirstByte) :
    runes s = List.replicate s.length none := by
  induction s using runes_induction with
  | nil =>
      rfl
  | invalid b rest hdecode ih =>
      rw [runes_invalid hdecode, ih fun b hb => h b (List.mem_cons_of_mem _ hb)]
      rfl
  | valid c rest ih =>
      have hpos : 0 < (String.utf8EncodeChar c).length := by
        rw [String.length_utf8EncodeChar]
        exact c.utf8Size_pos
      have hfirst : (String.utf8EncodeChar c)[0].IsUTF8FirstByte :=
        UInt8.isUTF8FirstByte_getElem_utf8EncodeChar.mpr rfl
      exact absurd hfirst (h _ (List.mem_append_left _ (List.getElem_mem hpos)))

/-- What is left of a character that is cut apart. -/
theorem runes_take_encode
    {c : Char} {k : Nat}
    (hk : k < c.utf8Size) :
    runes ((String.utf8EncodeChar c).take k) = List.replicate k none := by
  have hlength : (String.utf8EncodeChar c).length = c.utf8Size :=
    String.length_utf8EncodeChar c
  cases k with
  | zero =>
      rfl
  | succ k =>
      cases hcons : String.utf8EncodeChar c with
      | nil =>
          rw [hcons, List.length_nil] at hlength
          omega
      | cons b bytes =>
          have hbytes : bytes.length = c.utf8Size - 1 := by
            rw [hcons, List.length_cons] at hlength
            omega
          have hdecode : (b :: bytes.take k).toByteArray.utf8DecodeChar? 0 = none := by
            rw [Option.eq_none_iff_forall_ne_some]
            intro d hd
            obtain ⟨rest, hrest⟩ := exists_of_decode hd
            have hwhole : String.utf8EncodeChar c =
                String.utf8EncodeChar d ++ (rest ++ bytes.drop k) := by
              rw [← List.append_assoc, ← hrest, List.cons_append, List.take_append_drop, hcons]
            have hsame : some c = some d := by
              rw [← decode_encode d (rest ++ bytes.drop k), ← hwhole,
                ← decode_encode c [], List.append_nil]
            have hshort := congrArg List.length hrest
            rw [List.length_append, String.length_utf8EncodeChar, ← Option.some.inj hsame,
              List.length_cons, List.length_take] at hshort
            omega
          have hno : ∀ d ∈ bytes.take k, ¬d.IsUTF8FirstByte := by
            intro d hd hfirst
            obtain ⟨i, hi, rfl⟩ := List.mem_iff_getElem.mp (List.mem_of_mem_take hd)
            have hnext : i + 1 < (String.utf8EncodeChar c).length := by
              omega
            have hget : bytes[i] = (String.utf8EncodeChar c)[i + 1] := by
              simp only [hcons, List.getElem_cons_succ]
            rw [hget, UInt8.isUTF8FirstByte_getElem_utf8EncodeChar] at hfirst
            omega
          rw [List.take_succ_cons, runes_invalid hdecode, runes_of_no_start hno,
            List.length_take, Nat.min_eq_left (by omega)]
          rfl

/-- The runes of the first bytes: those that fit, and one for each byte left over. -/
theorem runes_take
    {s : List UInt8} {k : Nat}
    (hk : k ≤ s.length) :
    runes (s.take k) = keptRunes k (runes s) ++
      List.replicate (k - bytesOfRunes (keptRunes k (runes s))) none := by
  induction s using runes_induction generalizing k with
  | nil =>
      rw [Nat.le_zero.mp hk]
      rfl
  | invalid b rest hdecode ih =>
      rw [runes_invalid hdecode]
      cases k with
      | zero =>
          rfl
      | succ k =>
          have hshort : (b :: rest.take k).toByteArray.utf8DecodeChar? 0 = none := by
            rw [Option.eq_none_iff_forall_ne_some]
            intro d hd
            obtain ⟨tail, htail⟩ := exists_of_decode hd
            have hwhole : b :: rest = String.utf8EncodeChar d ++ (tail ++ rest.drop k) := by
              rw [← List.append_assoc, ← htail, List.cons_append, List.take_append_drop]
            rw [hwhole, decode_encode] at hdecode
            cases hdecode
          have hkept : keptRunes (k + 1) (none :: runes rest) =
              none :: keptRunes k (runes rest) :=
            keptRunes_of_le (Nat.le_add_left 1 k) _
          have hleft : k + 1 - bytesOfRunes (none :: keptRunes k (runes rest)) =
              k - bytesOfRunes (keptRunes k (runes rest)) := by
            rw [bytesOfRunes_cons, runeBytes]
            omega
          rw [List.take_succ_cons, runes_invalid hshort, ih (Nat.le_of_succ_le_succ hk), hkept,
            hleft, List.cons_append]
  | valid c rest ih =>
      have hlength : (String.utf8EncodeChar c).length = c.utf8Size :=
        String.length_utf8EncodeChar c
      rw [runes_encode]
      by_cases hfits : c.utf8Size ≤ k
      · have hkept : keptRunes k (some c :: runes rest) =
            some c :: keptRunes (k - c.utf8Size) (runes rest) :=
          keptRunes_of_le hfits _
        have hleft : k - bytesOfRunes (some c :: keptRunes (k - c.utf8Size) (runes rest)) =
            k - c.utf8Size - bytesOfRunes (keptRunes (k - c.utf8Size) (runes rest)) := by
          rw [bytesOfRunes_cons, runeBytes]
          omega
        have hrest : k - c.utf8Size ≤ rest.length := by
          rw [List.length_append] at hk
          omega
        rw [List.take_append, List.take_of_length_le (by omega), hlength, runes_encode,
          ih hrest, hkept, hleft, List.cons_append]
      · have hkept : keptRunes k (some c :: runes rest) = [] :=
          keptRunes_of_lt (not_le.mp hfits) _
        have hcut : (String.utf8EncodeChar c ++ rest).take k =
            (String.utf8EncodeChar c).take k :=
          List.take_append_of_le_length (by omega)
        rw [hcut, runes_take_encode (not_le.mp hfits), hkept]
        rfl

theorem keptRunes_replicate
    {r : Option Char} {n k : Nat}
    (hr : 0 < runeBytes r)
    (hk : k < n * runeBytes r) :
    keptRunes k (List.replicate n r) = List.replicate (k / runeBytes r) r ∧
      removedRunes k (List.replicate n r) = List.replicate (n - k / runeBytes r) r := by
  induction n generalizing k with
  | zero =>
      omega
  | succ n ih =>
      rw [List.replicate_succ, keptRunes, removedRunes]
      by_cases hfits : runeBytes r ≤ k
      · have hrest : k - runeBytes r < n * runeBytes r := by
          rw [Nat.succ_mul] at hk
          omega
        have hdiv : k / runeBytes r = (k - runeBytes r) / runeBytes r + 1 :=
          Nat.div_eq_sub_div hr hfits
        obtain ⟨hkept, hremoved⟩ := ih hrest
        rw [if_pos hfits, if_pos hfits, hkept, hremoved, hdiv, List.replicate_succ,
          Nat.add_sub_add_right]
        exact ⟨rfl, rfl⟩
      · have hdiv : k / runeBytes r = 0 := Nat.div_eq_of_lt (not_le.mp hfits)
        rw [if_neg hfits, if_neg hfits, hdiv]
        exact ⟨rfl, rfl⟩

theorem bytesOfRunes_replicate
    (n : Nat)
    (r : Option Char) :
    bytesOfRunes (List.replicate n r) = n * runeBytes r := by
  rw [bytesOfRunes, List.map_replicate, List.sum_replicate_nat]

end RuneCuts

end Util
end CoopMessenger
