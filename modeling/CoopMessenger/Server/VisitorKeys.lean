import CoopMessenger.Server.Visitors
import CoopMessenger.Util.NetIP

/-!
# Visitor keys

The text under which a visitor is kept.  Without a tier it is the address, of
which only the first bits are kept: one number of bits for IPv4, another one for
IPv6.  An IPv4-mapped address is treated as IPv6.

**Results.**
* `visitorID_eq_text`: the texts are those of the identifiers of the visitor map.
* `visitorID_eq_iff`: keys are equal if the family and the first bits are.
* `visitorID_separates_networks_iff`: for which pairs of addresses the keys are
  equal exactly when the addresses are in one network.
-/

namespace CoopMessenger
namespace Server

open Manager Util.NetIP

namespace VisitorKeys

open Visitors (Config mask)

section Model

/-- The text under which a visitor is kept. -/
def visitorID
    (cfg : Config)
    (ip : Addr) :
    Option User → List Char
  | some ⟨id, _, _, some _, _, _⟩ => "user:".toList ++ id.toList
  | _ =>
      match ip with
      | .v4 bits =>
          "ip:".toList ++ (Addr.v4 (mask cfg.visitorPrefixBitsIPv4 bits)).toText
      | .v6 bits _ =>
          "ip:".toList ++ (Addr.v6 (mask cfg.visitorPrefixBitsIPv6 bits) []).toText

/-- An address of the visitor map, which has no zones. -/
def withoutZone :
    Addr → Visitors.Addr
  | .v4 bits => .v4 bits
  | .v6 bits _ => .v6 bits

/-- The text of an identifier of the visitor map. -/
def identifierText :
    Visitors.VisitorID → List Char
  | .user id => "user:".toList ++ id.toList
  | .ip .invalid => "ip:invalid IP".toList
  | .ip (.v4 bits) => "ip:".toList ++ (Addr.v4 bits).toText
  | .ip (.v6 bits) => "ip:".toList ++ (Addr.v6 bits []).toText

theorem visitorID_eq_text
    (cfg : Config)
    (ip : Addr)
    (u : Option User) :
    visitorID cfg ip u = identifierText (Visitors.visitorID cfg (withoutZone ip) u) := by
  match u with
  | none =>
      cases ip <;> rfl
  | some ⟨_, _, _, none, _, _⟩ =>
      cases ip <;> rfl
  | some ⟨_, _, _, some _, _, _⟩ =>
      rfl

/-- The first `n` bits are the same. -/
def SameFirst
    {w : Nat}
    (n : Nat)
    (a b : BitVec w) : Prop :=
  a >>> (w - n) = b >>> (w - n)

instance
    {w : Nat}
    (n : Nat)
    (a b : BitVec w) :
    Decidable (SameFirst n a b) :=
  inferInstanceAs (Decidable (_ = _))

/-- The address that is meant: an IPv4-mapped address means its IPv4 address. -/
def unmap :
    Addr → Addr
  | .v4 bits => .v4 bits
  | .v6 bits zone => if is4In6 bits then .v4 (unmapped bits) else .v6 bits zone

/-- Both addresses are in one network of the configured length. -/
def SameNetwork
    (cfg : Config)
    (a b : Addr) : Prop :=
  match unmap a, unmap b with
  | .v4 x, .v4 y => SameFirst cfg.visitorPrefixBitsIPv4 x y
  | .v6 x _, .v6 y _ => SameFirst cfg.visitorPrefixBitsIPv6 x y
  | _, _ => False

/--
Two mapped addresses differ early enough or agree long enough for either length, and
a mapped address is not near the other one.
-/
def KeptApart
    (cfg : Config) :
    Addr → Addr → Prop
  | .v4 _, .v4 _ => True
  | .v4 x, .v6 y _ | .v6 y _, .v4 x =>
      is4In6 y = true → ¬SameFirst cfg.visitorPrefixBitsIPv4 x (unmapped y)
  | .v6 x _, .v6 y _ =>
      if is4In6 x = true ∧ is4In6 y = true then
        SameFirst (min cfg.visitorPrefixBitsIPv4.val (cfg.visitorPrefixBitsIPv6 - 96))
            (unmapped x) (unmapped y) →
          SameFirst (max cfg.visitorPrefixBitsIPv4.val (cfg.visitorPrefixBitsIPv6 - 96))
            (unmapped x) (unmapped y)
      else
        is4In6 x = true ∨ is4In6 y = true →
          ¬SameFirst cfg.visitorPrefixBitsIPv6 x y

end Model

section Bits

variable {w : Nat} {a b : BitVec w}

theorem getLsbD_mask
    (n : Nat)
    (bits : BitVec w)
    (i : Nat) :
    (mask n bits).getLsbD i = (bits.getLsbD i && decide (w - n ≤ i)) := by
  have hlt : bits.getLsbD i = true → i < w := BitVec.lt_of_getLsbD
  simp only [mask, BitVec.getLsbD_and, BitVec.getLsbD_shiftLeft, BitVec.getLsbD_allOnes]
  grind

theorem sameFirst_iff
    {n : Nat} :
    SameFirst n a b ↔ ∀ i, w - n ≤ i → a.getLsbD i = b.getLsbD i := by
  constructor
  · intro h i hi
    have hbit := congrArg (BitVec.getLsbD · (i - (w - n))) h
    simpa only [BitVec.getLsbD_ushiftRight, Nat.add_sub_cancel' hi] using hbit
  · intro h
    refine BitVec.eq_of_getLsbD_eq fun i _ => ?_
    rw [BitVec.getLsbD_ushiftRight, BitVec.getLsbD_ushiftRight]
    exact h _ (Nat.le_add_right _ _)

/-- Masked bits are equal if the first bits are. -/
theorem mask_eq_mask_iff
    {n : Nat} :
    mask n a = mask n b ↔ SameFirst n a b := by
  rw [sameFirst_iff]
  constructor
  · intro h i hi
    have hbit := congrArg (BitVec.getLsbD · i) h
    simpa [getLsbD_mask, hi] using hbit
  · intro h
    refine BitVec.eq_of_getLsbD_eq fun i _ => ?_
    rw [getLsbD_mask, getLsbD_mask]
    by_cases hi : w - n ≤ i
    · rw [h i hi]
    · simp [hi]

theorem SameFirst.mono
    {m n : Nat}
    (hmn : m ≤ n)
    (h : SameFirst n a b) :
    SameFirst m a b := by
  rw [sameFirst_iff] at h ⊢
  exact fun i hi => h i (by omega)

/-- Two lengths give one answer unless the bits differ between them. -/
theorem sameFirst_iff_sameFirst_iff
    {m n : Nat} :
    (SameFirst m a b ↔ SameFirst n a b) ↔
      (SameFirst (min n m) a b → SameFirst (max n m) a b) := by
  rcases Nat.le_total m n with hmn | hmn
  · rw [Nat.min_eq_right hmn, Nat.max_eq_left hmn]
    exact ⟨fun h => h.mp, fun h => ⟨h, SameFirst.mono hmn⟩⟩
  · rw [Nat.min_eq_left hmn, Nat.max_eq_right hmn]
    exact ⟨fun h => h.mpr, fun h => ⟨SameFirst.mono hmn, h⟩⟩

/-- Mapped addresses have their first 96 bits in common. -/
theorem sameFirst_mapped_iff
    {x y : BitVec 128}
    (hx : is4In6 x = true)
    (hy : is4In6 y = true)
    (n : Nat) :
    SameFirst n x y ↔ SameFirst (n - 96) (unmapped x) (unmapped y) := by
  have hhigh : ∀ i, 32 ≤ i → x.getLsbD i = y.getLsbD i := by
    have heq : SameFirst 96 x y := (eq_of_beq hx).trans (eq_of_beq hy).symm
    exact fun i hi => sameFirst_iff.mp heq i hi
  have hlow : ∀ z : BitVec 128, ∀ i < 32, (unmapped z).getLsbD i = z.getLsbD i := by
    intro z i hi
    simp [unmapped, hi]
  rw [sameFirst_iff, sameFirst_iff]
  constructor
  · intro h i hi
    by_cases hi32 : i < 32
    · rw [hlow x i hi32, hlow y i hi32]
      exact h i (by omega)
    · rw [BitVec.getLsbD_of_ge _ _ (by omega), BitVec.getLsbD_of_ge _ _ (by omega)]
  · intro h i hi
    by_cases hi32 : i < 32
    · rw [← hlow x i hi32, ← hlow y i hi32]
      exact h i (by omega)
    · exact hhigh i (by omega)

end Bits

section Keys

variable {cfg : Config}

/-- Keys are equal if the family and the first bits are. -/
theorem visitorID_eq_iff
    {a b : Addr} :
    visitorID cfg a none = visitorID cfg b none ↔
      match a, b with
      | .v4 x, .v4 y => SameFirst cfg.visitorPrefixBitsIPv4 x y
      | .v6 x _, .v6 y _ => SameFirst cfg.visitorPrefixBitsIPv6 x y
      | _, _ => False := by
  cases a <;> cases b <;>
    simp [visitorID, toText_injective.eq_iff, mask_eq_mask_iff]

theorem visitorID_comm
    {a b : Addr} :
    (visitorID cfg a none = visitorID cfg b none ↔ SameNetwork cfg a b) ↔
      (visitorID cfg b none = visitorID cfg a none ↔ SameNetwork cfg b a) := by
  have hnetwork : SameNetwork cfg a b ↔ SameNetwork cfg b a := by
    unfold SameNetwork SameFirst
    cases unmap a <;> cases unmap b <;> simp [eq_comm]
  rw [eq_comm, hnetwork]

theorem separates_v4_v6_iff
    {x : BitVec 32} {y : BitVec 128} {zone : List Char} :
    (visitorID cfg (.v4 x) none = visitorID cfg (.v6 y zone) none ↔
      SameNetwork cfg (.v4 x) (.v6 y zone)) ↔ KeptApart cfg (.v4 x) (.v6 y zone) := by
  rw [visitorID_eq_iff]
  by_cases hy : is4In6 y = true
  · simp [SameNetwork, KeptApart, unmap, hy]
  · simp [SameNetwork, KeptApart, unmap, hy]

theorem separates_v6_v6_iff
    {x y : BitVec 128} {zone zone' : List Char} :
    (visitorID cfg (.v6 x zone) none = visitorID cfg (.v6 y zone') none ↔
      SameNetwork cfg (.v6 x zone) (.v6 y zone')) ↔
        KeptApart cfg (.v6 x zone) (.v6 y zone') := by
  rw [visitorID_eq_iff]
  by_cases hx : is4In6 x = true
  · by_cases hy : is4In6 y = true
    · simp only [SameNetwork, KeptApart, unmap, hx, hy, if_true, and_self]
      rw [sameFirst_mapped_iff hx hy, sameFirst_iff_sameFirst_iff]
    · simp [SameNetwork, KeptApart, unmap, hx, hy]
  · by_cases hy : is4In6 y = true
    · simp [SameNetwork, KeptApart, unmap, hx, hy]
    · simp [SameNetwork, KeptApart, unmap, hx, hy]

/--
The keys of two addresses are equal exactly when the addresses are in one network, if
and only if the addresses are kept apart.
-/
theorem visitorID_separates_networks_iff
    (cfg : Config)
    (a b : Addr) :
    (visitorID cfg a none = visitorID cfg b none ↔ SameNetwork cfg a b) ↔
      KeptApart cfg a b := by
  cases a with
  | v4 x =>
      cases b with
      | v4 y =>
          rw [visitorID_eq_iff]
          exact iff_of_true Iff.rfl trivial
      | v6 y zone =>
          exact separates_v4_v6_iff
  | v6 x zone =>
      cases b with
      | v4 y =>
          rw [visitorID_comm]
          exact separates_v4_v6_iff
      | v6 y zone' =>
          exact separates_v6_v6_iff

/-- Two unrelated IPv4 clients behind mapped addresses share a key. -/
theorem mapped_addresses_share_key :
    ¬ ∀ (cfg : Config) (a b : Addr),
      visitorID cfg a none = visitorID cfg b none ↔ SameNetwork cfg a b := by
  intro h
  have hkey := h ⟨32, 64⟩ (.v6 0xffff01020304 []) (.v6 0xffff05060708 [])
  have hsame : SameFirst 64 (0xffff01020304 : BitVec 128) 0xffff05060708 := by
    decide
  have hother : ¬SameFirst 32 (0x01020304 : BitVec 32) 0x05060708 := by
    decide
  exact hother (hkey.mp (visitorID_eq_iff.mpr hsame))

end Keys

end VisitorKeys
end Server
end CoopMessenger
