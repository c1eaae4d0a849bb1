import CoopMessenger.Library.Dictionary
import CoopMessenger.Library.Json
import CoopMessenger.Util.Runes

/-!
# Decoding JSON values

How `encoding/json` fills variables from a value: a field is named exactly or up
to the case of its letters, other keys are ignored, a key that comes twice is
decoded twice into the same field, and `null` leaves texts, numbers and booleans
as they are.  A value of another type is an error.

**Results.**
* `decodeFields_induction`: what every field keeps, decoding an object keeps.
* `decodeDict_isDict`: a decoded map is in the order of its keys.
* `decodeSlice_forall`: what every decoded item has, a decoded slice has.
-/

namespace CoopMessenger
namespace Util

open Library

section Fields

/-- Letters up to case, for comparisons with ASCII names. -/
def foldChar (c : Char) : Char :=
  if c = '\u212a' then
    'k'
  else if c = '\u017f' then
    's'
  else
    c.toLower

def foldName (s : String) : List Char :=
  s.toList.map foldChar

/-- The field that a key names: exactly, or else up to case. -/
def fieldNamed
    (names : List String)
    (key : String) : Option String :=
  if key ∈ names then
    some key
  else
    names.find? (fun name => decide (foldName name = foldName key))

/-- Decodes the members of an object into the fields they name. -/
def decodeFields
    {σ : Type}
    (names : List String)
    (setField : σ → String → Json → Option σ)
    (s : σ)
    (members : List (String × Json)) : Option σ :=
  members.foldlM
    (fun s m =>
      match fieldNamed names m.1 with
      | some name => setField s name m.2
      | none => some s) s

/-- What every field keeps, decoding an object keeps. -/
theorem decodeFields_induction
    {σ : Type}
    {names : List String}
    {setField : σ → String → Json → Option σ}
    {Keeps : σ → Prop}
    (hstep : ∀ s name j s', Keeps s → setField s name j = some s' → Keeps s')
    {s s' : σ} {members : List (String × Json)}
    (hs : Keeps s)
    (h : decodeFields names setField s members = some s') :
    Keeps s' := by
  induction members generalizing s with
  | nil =>
      cases h
      exact hs
  | cons m members ih =>
      simp only [decodeFields, List.foldlM_cons, Option.bind_eq_bind,
        Option.bind_eq_some_iff] at h
      obtain ⟨s₁, hfirst, hrest⟩ := h
      refine ih ?_ hrest
      split at hfirst
      · exact hstep _ _ _ _ hs hfirst
      · cases hfirst
        exact hs

end Fields

section Values

def decodeString (old : String) : Json → Option String
  | .str s => some s
  | .null => some old
  | _ => none

def decodeBool (old : Bool) : Json → Option Bool
  | .bool b => some b
  | .null => some old
  | _ => none

/-- A number without fraction and exponent. -/
def decodeInt (old : Int) : Json → Option Int
  | .num literal => parseInt (String.ofList literal)
  | .null => some old
  | _ => none

/-- Merges the members of an object into a map; `null` empties it. -/
def decodeDict
    (old : List (String × String)) : Json → Option (List (String × String))
  | .obj members =>
      members.foldlM
        (fun d m =>
          (decodeString "" m.2).map (fun s => Dictionary.set m.1 s d)) old
  | .null => some []
  | _ => none

/-- A decoded map is in the order of its keys. -/
theorem decodeDict_isDict
    {old d : List (String × String)} {j : Json}
    (hold : Dictionary.IsDict old)
    (h : decodeDict old j = some d) :
    Dictionary.IsDict d := by
  cases j with
  | obj members =>
      simp only [decodeDict] at h
      induction members generalizing old with
      | nil =>
          cases h
          exact hold
      | cons m members ih =>
          simp only [List.foldlM_cons, Option.bind_eq_bind,
            Option.bind_eq_some_iff, Option.map_eq_some_iff] at h
          obtain ⟨_, ⟨s, -, rfl⟩, hrest⟩ := h
          exact ih (hold.set m.1 s) hrest
  | null =>
      cases h
      exact List.Pairwise.nil
  | bool b =>
      cases h
  | num literal =>
      cases h
  | str s =>
      cases h
  | arr items =>
      cases h

end Values

section Slices

/-- A slice: its items, and what its array holds behind them. -/
structure Slice (α : Type) where
  items : List α
  spare : List α
deriving DecidableEq, Repr

def Slice.empty {α : Type} : Slice α :=
  ⟨[], []⟩

/-- Decodes the items of an array one after another over the old items. -/
def decodeItems
    {α : Type}
    (decodeItem : α → Json → Option α)
    (zero : α) :
    List α → List Json → Option (List α)
  | _, [] => some []
  | old, j :: rest =>
      (decodeItem (old.headD zero) j).bind fun a =>
        (decodeItems decodeItem zero old.tail rest).map (a :: ·)

/-- An array overwrites the items from the start and sets the length. -/
def decodeSlice
    {α : Type}
    (decodeItem : α → Json → Option α)
    (zero : α)
    (old : Slice α) : Json → Option (Slice α)
  | .arr [] => some .empty
  | .arr items =>
      let array := old.items ++ old.spare
      (decodeItems decodeItem zero array items).map
        (fun decoded => ⟨decoded, array.drop items.length⟩)
  | .null => some .empty
  | _ => none

section Items

variable {α : Type}
variable {decodeItem : α → Json → Option α}
variable {zero : α}
variable {Has : α → Prop}

theorem decodeItems_forall
    (hzero : Has zero)
    (hitem : ∀ a j b, Has a → decodeItem a j = some b → Has b)
    {old decoded : List α} {items : List Json}
    (hold : ∀ a ∈ old, Has a)
    (h : decodeItems decodeItem zero old items = some decoded) :
    ∀ a ∈ decoded, Has a := by
  induction items generalizing old decoded with
  | nil =>
      cases h
      simp
  | cons j items ih =>
      simp only [decodeItems, Option.bind_eq_some_iff,
        Option.map_eq_some_iff] at h
      obtain ⟨a, hfirst, rest, hrest, rfl⟩ := h
      have hhead : Has (old.headD zero) := by
        cases old with
        | nil =>
            exact hzero
        | cons b old =>
            exact hold b List.mem_cons_self
      exact List.forall_mem_cons.mpr ⟨hitem _ _ _ hhead hfirst,
        ih (fun b hb => hold b (List.mem_of_mem_tail hb)) hrest⟩

/-- What every decoded item has, a decoded slice has. -/
theorem decodeSlice_forall
    (hzero : Has zero)
    (hitem : ∀ a j b, Has a → decodeItem a j = some b → Has b)
    {old s : Slice α} {j : Json}
    (hold : ∀ a ∈ old.items ++ old.spare, Has a)
    (h : decodeSlice decodeItem zero old j = some s) :
    ∀ a ∈ s.items ++ s.spare, Has a := by
  cases j with
  | arr items =>
      cases items with
      | nil =>
          cases h
          simp [Slice.empty]
      | cons i items =>
          simp only [decodeSlice, Option.map_eq_some_iff] at h
          obtain ⟨decoded, hdecoded, rfl⟩ := h
          intro a ha
          rcases List.mem_append.mp ha with ha | ha
          · exact decodeItems_forall hzero hitem hold hdecoded a ha
          · exact hold a (List.mem_of_mem_drop ha)
  | null =>
      cases h
      simp [Slice.empty]
  | bool b =>
      cases h
  | num literal =>
      cases h
  | str s =>
      cases h
  | obj members =>
      cases h

end Items

end Slices

end Util
end CoopMessenger
