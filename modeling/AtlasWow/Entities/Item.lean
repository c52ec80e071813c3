/-
An item (`Item.cpp`), as far as it is moved about.
-/
import Mathlib.Tactic.Common

namespace AtlasWow

/-- An item: its entry, which is no template's if it is zero, and the size of its stack. -/
structure Item where
  entry : Nat
  count : Nat
  hentry : entry ≠ 0
  deriving DecidableEq

end AtlasWow
