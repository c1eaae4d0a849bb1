import Mathlib.Data.List.GetD
import Mathlib.Data.List.Nodup

/-!
# Base64

Encoding of bytes over an alphabet of 64 characters, with or without padding, and the
decoder that skips line breaks and does not look at the bits left over.

**Results.**
* `decode_encode`: what is encoded is decoded again.
* `mem_encode`: what an encoded text is written with.
-/

namespace CoopMessenger
namespace Library
namespace Base64

section Definitions

/-- 64 different characters; the padding character and line breaks are not among them. -/
structure Alphabet where
  chars : List Char
  length_eq : chars.length = 64
  nodup : chars.Nodup
  pad_notMem : '=' ∉ chars
  breaks_notMem : '\n' ∉ chars ∧ '\r' ∉ chars

variable (A : Alphabet)

/-- The character with the number. -/
def Alphabet.char (n : Nat) : Char :=
  A.chars.getD n '='

/-- The number of the character. -/
def Alphabet.value (c : Char) : Option Nat :=
  if A.chars.idxOf c < 64 then some (A.chars.idxOf c) else none

def padding (padded : Bool) (n : Nat) : List Char :=
  if padded then List.replicate n '=' else []

def encode (padded : Bool) : List UInt8 → List Char
  | [] => []
  | [a] =>
      [A.char (a.toNat / 4), A.char (a.toNat % 4 * 16)] ++ padding padded 2
  | [a, b] =>
      [A.char (a.toNat / 4),
        A.char (a.toNat % 4 * 16 + b.toNat / 16),
        A.char (b.toNat % 16 * 4)] ++ padding padded 1
  | a :: b :: c :: rest =>
      [A.char (a.toNat / 4),
        A.char (a.toNat % 4 * 16 + b.toNat / 16),
        A.char (b.toNat % 16 * 4 + c.toNat / 64),
        A.char (c.toNat % 64)] ++ encode padded rest

/-- The bytes of up to four numbers. -/
def quantum : List Nat → List UInt8
  | [w, x] => [UInt8.ofNat (w * 4 + x / 16)]
  | [w, x, y] => [UInt8.ofNat (w * 4 + x / 16), UInt8.ofNat (x * 16 + y / 4)]
  | [w, x, y, z] =>
      [UInt8.ofNat (w * 4 + x / 16), UInt8.ofNat (x * 16 + y / 4), UInt8.ofNat (y * 64 + z)]
  | _ => []

/-- Decodes a text without line breaks, four characters at a time. -/
def decodeQuanta (padded : Bool) : List Char → Option (List UInt8)
  | [] => some []
  | c₀ :: c₁ :: c₂ :: c₃ :: rest =>
      match A.value c₀, A.value c₁, A.value c₂, A.value c₃ with
      | some w, some x, some y, some z =>
          (decodeQuanta padded rest).map (quantum [w, x, y, z] ++ ·)
      | some w, some x, some y, none =>
          if padded ∧ c₃ = '=' ∧ rest = [] then some (quantum [w, x, y]) else none
      | some w, some x, none, _ =>
          if padded ∧ c₂ = '=' ∧ c₃ = '=' ∧ rest = [] then some (quantum [w, x]) else none
      | _, _, _, _ => none
  | cs =>
      if padded ∨ cs.length = 1 then none else (cs.mapM A.value).map quantum

def decode
    (padded : Bool)
    (s : List Char) : Option (List UInt8) :=
  decodeQuanta A padded (s.filter fun c => c ≠ '\n' ∧ c ≠ '\r')

end Definitions

section RoundTrip

variable {A : Alphabet}

theorem char_mem
    {n : Nat}
    (h : n < 64) :
    A.char n ∈ A.chars := by
  have hlength : n < A.chars.length := by
    rw [A.length_eq]
    exact h
  rw [Alphabet.char, List.getD_eq_getElem _ _ hlength]
  exact List.getElem_mem hlength

theorem value_char
    {n : Nat}
    (h : n < 64) :
    A.value (A.char n) = some n := by
  have hlength : n < A.chars.length := by
    rw [A.length_eq]
    exact h
  have hindex : A.chars.idxOf (A.char n) = n := by
    rw [Alphabet.char, List.getD_eq_getElem _ _ hlength]
    exact A.nodup.idxOf_getElem n hlength
  rw [Alphabet.value, hindex, if_pos h]

theorem value_pad :
    A.value '=' = none := by
  have hindex : A.chars.idxOf '=' = 64 := by
    rw [← A.length_eq]
    exact List.idxOf_eq_length_iff.mpr A.pad_notMem
  rw [Alphabet.value, hindex]
  rfl

theorem byte_lt (a : UInt8) :
    a.toNat < 256 :=
  a.toNat_lt

/-- The numbers that a group of bytes is written with give the bytes again. -/
theorem quantum_two (a : UInt8) :
    quantum [a.toNat / 4, a.toNat % 4 * 16] = [a] := by
  have ha := byte_lt a
  have h : a.toNat / 4 * 4 + a.toNat % 4 * 16 / 16 = a.toNat := by
    omega
  rw [quantum, h, UInt8.ofNat_toNat]

theorem quantum_three (a b : UInt8) :
    quantum [a.toNat / 4, a.toNat % 4 * 16 + b.toNat / 16, b.toNat % 16 * 4] = [a, b] := by
  have ha := byte_lt a
  have hb := byte_lt b
  have hfirst : a.toNat / 4 * 4 + (a.toNat % 4 * 16 + b.toNat / 16) / 16 = a.toNat := by
    omega
  have hsecond : (a.toNat % 4 * 16 + b.toNat / 16) * 16 + b.toNat % 16 * 4 / 4 =
      a.toNat % 4 * 256 + b.toNat := by
    omega
  have hbyte : UInt8.ofNat (a.toNat % 4 * 256 + b.toNat) = b := by
    apply UInt8.toNat_inj.mp
    rw [UInt8.toNat_ofNat']
    omega
  rw [quantum, hfirst, hsecond, hbyte, UInt8.ofNat_toNat]

theorem quantum_four (a b c : UInt8) :
    quantum [a.toNat / 4, a.toNat % 4 * 16 + b.toNat / 16,
      b.toNat % 16 * 4 + c.toNat / 64, c.toNat % 64] = [a, b, c] := by
  have ha := byte_lt a
  have hb := byte_lt b
  have hc := byte_lt c
  have hfirst : a.toNat / 4 * 4 + (a.toNat % 4 * 16 + b.toNat / 16) / 16 = a.toNat := by
    omega
  have hsecond : UInt8.ofNat ((a.toNat % 4 * 16 + b.toNat / 16) * 16 +
      (b.toNat % 16 * 4 + c.toNat / 64) / 4) = b := by
    apply UInt8.toNat_inj.mp
    rw [UInt8.toNat_ofNat']
    omega
  have hthird : UInt8.ofNat ((b.toNat % 16 * 4 + c.toNat / 64) * 64 + c.toNat % 64) = c := by
    apply UInt8.toNat_inj.mp
    rw [UInt8.toNat_ofNat']
    omega
  rw [quantum, hfirst, hsecond, hthird, UInt8.ofNat_toNat]

theorem decodeQuanta_encode
    (padded : Bool)
    (bytes : List UInt8) :
    decodeQuanta A padded (encode A padded bytes) = some bytes := by
  induction bytes using encode.induct with
  | case1 =>
      rfl
  | case2 a =>
      have ha := byte_lt a
      have hw : A.value (A.char (a.toNat / 4)) = some (a.toNat / 4) := value_char (by omega)
      have hx : A.value (A.char (a.toNat % 4 * 16)) = some (a.toNat % 4 * 16) :=
        value_char (by omega)
      cases padded with
      | true =>
          simp [encode, padding, List.replicate, decodeQuanta, hw, hx, value_pad, quantum_two]
      | false =>
          simp [encode, padding, decodeQuanta, hw, hx, quantum_two]
  | case3 a b =>
      have ha := byte_lt a
      have hb := byte_lt b
      have hw : A.value (A.char (a.toNat / 4)) = some (a.toNat / 4) := value_char (by omega)
      have hx : A.value (A.char (a.toNat % 4 * 16 + b.toNat / 16)) =
          some (a.toNat % 4 * 16 + b.toNat / 16) :=
        value_char (by omega)
      have hy : A.value (A.char (b.toNat % 16 * 4)) = some (b.toNat % 16 * 4) :=
        value_char (by omega)
      cases padded with
      | true =>
          simp [encode, padding, decodeQuanta, hw, hx, hy, value_pad, quantum_three]
      | false =>
          simp [encode, padding, decodeQuanta, hw, hx, hy, quantum_three]
  | case4 a b c rest ih =>
      have ha := byte_lt a
      have hb := byte_lt b
      have hc := byte_lt c
      have hw : A.value (A.char (a.toNat / 4)) = some (a.toNat / 4) := value_char (by omega)
      have hx : A.value (A.char (a.toNat % 4 * 16 + b.toNat / 16)) =
          some (a.toNat % 4 * 16 + b.toNat / 16) :=
        value_char (by omega)
      have hy : A.value (A.char (b.toNat % 16 * 4 + c.toNat / 64)) =
          some (b.toNat % 16 * 4 + c.toNat / 64) :=
        value_char (by omega)
      have hz : A.value (A.char (c.toNat % 64)) = some (c.toNat % 64) := value_char (by omega)
      simp only [encode, List.cons_append, List.nil_append, decodeQuanta, hw, hx, hy, hz, ih,
        Option.map_some, quantum_four]

theorem mem_padding
    {padded : Bool} {n : Nat} {c : Char}
    (h : c ∈ padding padded n) :
    padded = true ∧ c = '=' := by
  cases padded with
  | true =>
      exact ⟨rfl, (List.mem_replicate.mp h).2⟩
  | false =>
      cases h

/-- What an encoded text is written with. -/
theorem mem_encode
    {padded : Bool} {bytes : List UInt8} {c : Char}
    (h : c ∈ encode A padded bytes) :
    c ∈ A.chars ∨ padded = true ∧ c = '=' := by
  induction bytes using encode.induct with
  | case1 =>
      cases h
  | case2 a =>
      have ha := byte_lt a
      rw [encode, List.mem_append] at h
      rcases h with h | h
      · simp only [List.mem_cons, List.not_mem_nil, or_false] at h
        rcases h with rfl | rfl <;> exact .inl (char_mem (by omega))
      · exact .inr (mem_padding h)
  | case3 a b =>
      have ha := byte_lt a
      have hb := byte_lt b
      rw [encode, List.mem_append] at h
      rcases h with h | h
      · simp only [List.mem_cons, List.not_mem_nil, or_false] at h
        rcases h with rfl | rfl | rfl <;> exact .inl (char_mem (by omega))
      · exact .inr (mem_padding h)
  | case4 a b c rest ih =>
      have ha := byte_lt a
      have hb := byte_lt b
      have hc := byte_lt c
      rw [encode, List.mem_append] at h
      rcases h with h | h
      · simp only [List.mem_cons, List.not_mem_nil, or_false] at h
        rcases h with rfl | rfl | rfl | rfl <;> exact .inl (char_mem (by omega))
      · exact ih h

/-- What is encoded is decoded again. -/
theorem decode_encode
    (padded : Bool)
    (bytes : List UInt8) :
    decode A padded (encode A padded bytes) = some bytes := by
  have hfilter : (encode A padded bytes).filter (fun c => c ≠ '\n' ∧ c ≠ '\r') =
      encode A padded bytes := by
    rw [List.filter_eq_self]
    intro c hc
    rw [decide_eq_true_eq]
    rcases mem_encode hc with hmem | ⟨-, rfl⟩
    · constructor
      · rintro rfl
        exact A.breaks_notMem.1 hmem
      · rintro rfl
        exact A.breaks_notMem.2 hmem
    · decide
  rw [decode, hfilter, decodeQuanta_encode]

end RoundTrip

end Base64
end Library
end CoopMessenger
