import CoopMessenger.Util.Text

/-!
# Cutting text

Slices of a string count its bytes.  The first bytes of a text are a text again if no
character is cut apart.

**Results.**
* `decodeUTF8_bytesOf`: the bytes of a text are decoded to the text.
* `exists_take_iff`: which cuts of a text are texts.
* `exists_append_iff`: a text that follows does not mend a cut.
* `keepsText_take_iff`, `keepsText_append_iff`: which cuts keep a prefix of the text.
-/

namespace CoopMessenger
namespace Util

section Bytes

theorem decodeUTF8_bytesOf
    (s : String) :
    decodeUTF8 (bytesOf s) = some s := by
  simp only [decodeUTF8, bytesOf, String.toUTF8_eq_toByteArray, Array.toArray_toList,
    String.fromUTF8?, s.isValidUTF8, dif_pos, String.fromUTF8]

theorem bytesOf_injective
    {s t : String}
    (h : bytesOf s = bytesOf t) :
    s = t := by
  have hdecoded := congrArg decodeUTF8 h
  rw [decodeUTF8_bytesOf, decodeUTF8_bytesOf] at hdecoded
  exact Option.some.inj hdecoded

theorem bytesOf_ofList
    (l : List Char) :
    bytesOf (String.ofList l) = l.flatMap String.utf8EncodeChar := by
  have hencode : (String.ofList l).toByteArray =
      (l.flatMap String.utf8EncodeChar).toByteArray := by
    rw [← String.utf8Encode_toList, String.toList_ofList]
    rfl
  rw [bytesOf, String.toUTF8_eq_toByteArray, hencode, List.data_toByteArray]

theorem length_bytesOf
    (s : String) :
    (bytesOf s).length = s.utf8ByteSize := by
  rw [bytesOf, Array.length_toList]
  rfl

theorem bytesOf_append
    (s t : String) :
    bytesOf (s ++ t) = bytesOf s ++ bytesOf t := by
  simp [bytesOf, String.toByteArray_append]

theorem bytesOf_eq_nil_iff
    (s : String) :
    bytesOf s = [] ↔ s = "" :=
  ⟨fun h => bytesOf_injective h, fun h => h ▸ rfl⟩

end Bytes

section Cuts

variable {s : String}
variable {n : Nat}

/-- The number of bytes is the size of the first so many characters. -/
def IsBoundary (s : String) (n : Nat) : Prop :=
  (String.Pos.Raw.mk n).IsValid s

instance (s : String) (n : Nat) : Decidable (IsBoundary s n) :=
  inferInstanceAs (Decidable ((String.Pos.Raw.mk n).IsValid s))

theorem take_bytesOf
    (s : String)
    (n : Nat) :
    (bytesOf s).take n = (s.toByteArray.extract 0 n).data.toList := by
  simp [bytesOf]

/-- Bytes that are the bytes of a text. -/
theorem exists_bytesOf_iff
    (b : ByteArray) :
    (∃ t, b.data.toList = bytesOf t) ↔ b.IsValidUTF8 := by
  constructor
  · rintro ⟨t, ht⟩
    have hb : b = t.toByteArray := by
      apply ByteArray.ext
      rw [← Array.toList_inj]
      exact ht
    rw [hb]
    exact t.isValidUTF8
  · intro h
    exact ⟨⟨b, h⟩, rfl⟩

/-- The first bytes of a text are a text if they are all of it or end with a character. -/
theorem exists_take_iff :
    (∃ t, (bytesOf s).take n = bytesOf t) ↔ s.utf8ByteSize ≤ n ∨ IsBoundary s n := by
  constructor
  · intro h
    rw [take_bytesOf, exists_bytesOf_iff] at h
    rcases le_total s.utf8ByteSize n with hle | hle
    · exact Or.inl hle
    · exact Or.inr (String.Pos.Raw.isValid_iff_isValidUTF8_extract_zero.mpr ⟨hle, h⟩)
  · rintro (hle | hboundary)
    · exact ⟨s, List.take_of_length_le (length_bytesOf s ▸ hle)⟩
    · rw [take_bytesOf, exists_bytesOf_iff]
      exact (String.Pos.Raw.isValid_iff_isValidUTF8_extract_zero.mp hboundary).2

theorem isBoundary_of_isUTF8FirstByte
    (hn : n < (bytesOf s).length)
    (h : (bytesOf s)[n].IsUTF8FirstByte) :
    IsBoundary s n := by
  have hpos : String.Pos.Raw.mk n < s.rawEndPos := by
    rw [length_bytesOf] at hn
    exact hn
  exact String.Pos.Raw.isValid_iff_isUTF8FirstByte.mpr (Or.inr ⟨hpos, h⟩)

theorem isUTF8FirstByte_bytesOf
    (h : 0 < (bytesOf s).length) :
    (bytesOf s)[0].IsUTF8FirstByte := by
  have hpos : (0 : String.Pos.Raw) < s.rawEndPos := by
    rw [length_bytesOf] at h
    exact h
  exact String.isUTF8FirstByte_getUTF8Byte_zero (h := hpos)

/-- A text that follows does not mend bytes that are no text. -/
theorem exists_append_iff
    (b : List UInt8)
    (e : String) :
    (∃ t, b ++ bytesOf e = bytesOf t) ↔ ∃ t, b = bytesOf t := by
  constructor
  · rintro ⟨t, ht⟩
    have htake : (bytesOf t).take b.length = b := by
      rw [← ht, List.take_left]
    have hcut : ∃ t', (bytesOf t).take b.length = bytesOf t' := by
      rw [exists_take_iff]
      have hlength := congrArg List.length ht
      rw [List.length_append, length_bytesOf t] at hlength
      rcases Nat.eq_zero_or_pos (bytesOf e).length with hnone | hsome
      · exact Or.inl (by omega)
      · -- the byte after the cut starts the first character of what follows
        right
        have hn : b.length < (bytesOf t).length := by
          rw [length_bytesOf]
          omega
        have hbyte : (bytesOf t)[b.length] = (bytesOf e)[0] := by
          simp only [← ht, List.getElem_append_right (Nat.le_refl _), Nat.sub_self]
        refine isBoundary_of_isUTF8FirstByte hn ?_
        rw [hbyte]
        exact isUTF8FirstByte_bytesOf hsome
    rwa [htake] at hcut
  · rintro ⟨t, rfl⟩
    exact ⟨t ++ e, (bytesOf_append t e).symm⟩

end Cuts

section Keeping

/-- A prefix of the text that is a text, with the ellipsis at most. -/
def KeepsText
    (ellipsis s : String)
    (out : List UInt8) : Prop :=
  ∃ t, bytesOf t <+: bytesOf s ∧ (out = bytesOf t ∨ out = bytesOf t ++ bytesOf ellipsis)

variable {s : String}
variable {n : Nat}

theorem keepsText_self
    (ellipsis s : String) :
    KeepsText ellipsis s (bytesOf s) :=
  ⟨s, List.prefix_rfl, Or.inl rfl⟩

theorem keepsText_take_iff :
    KeepsText "" s ((bytesOf s).take n) ↔ s.utf8ByteSize ≤ n ∨ IsBoundary s n := by
  rw [← exists_take_iff]
  constructor
  · rintro ⟨t, -, ht | ht⟩
    · exact ⟨t, ht⟩
    · exact ⟨t, ht.trans (List.append_nil _)⟩
  · rintro ⟨t, ht⟩
    exact ⟨t, ht ▸ List.take_prefix n _, Or.inl ht⟩

theorem keepsText_append_iff
    {ellipsis : String}
    (hn : n < s.utf8ByteSize) :
    KeepsText ellipsis s ((bytesOf s).take n ++ bytesOf ellipsis) ↔ IsBoundary s n := by
  have hcut : (∃ t, (bytesOf s).take n = bytesOf t) ↔ IsBoundary s n := by
    rw [exists_take_iff, or_iff_right (not_le.mpr hn)]
  rw [← hcut]
  constructor
  · rintro ⟨t, -, ht | ht⟩
    · exact (exists_append_iff _ ellipsis).mp ⟨t, ht⟩
    · exact ⟨t, List.append_cancel_right ht⟩
  · rintro ⟨t, ht⟩
    exact ⟨t, ht ▸ List.take_prefix n _, Or.inr (by rw [ht])⟩

end Keeping

end Util
end CoopMessenger
