import Mathlib.Data.List.Basic

/-!
# Strings of the web application

A string of JavaScript is a list of 16-bit code units.  `hashCode` of
`web/src/app/utils.js` is computed in 32 bits.
-/

namespace CoopMessenger
namespace Web

abbrev JSString : Type := List UInt16

namespace JSString

/-- The code units of a text without characters beyond 16 bits. -/
def ofString (s : String) : JSString :=
  s.toList.map fun c => c.toNat.toUInt16

end JSString

/-- Non-cryptographic hash function. -/
def hashCode (s : JSString) : Int32 :=
  s.foldl (fun hash char => (hash <<< 5) - hash + Int32.ofNat char.toNat) 0

example : hashCode (JSString.ofString "Aa") = hashCode (JSString.ofString "BB") := by
  decide

end Web
end CoopMessenger
