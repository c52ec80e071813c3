/-
`ObjectGuid` (`ObjectGuid.h`): the raw value, ordered and compared as a number.
The high half names the kind of object; an empty guid is zero.
-/
import Mathlib.Algebra.Group.Nat.Defs

namespace AtlasWow

abbrev ObjectGuid := Nat

namespace ObjectGuid

def Empty : ObjectGuid := 0

/-- `HighGuid::Group`. -/
def HighGuidGroup : Nat := 0x1F50

def getHigh (guid : ObjectGuid) : Nat := guid / 2 ^ 48 % 2 ^ 16
def isGroup (guid : ObjectGuid) : Bool := guid.getHigh = HighGuidGroup

/-- The guid of a group, from its counter. -/
def group (counter : Nat) : ObjectGuid := HighGuidGroup * 2 ^ 48 + counter

end ObjectGuid

end AtlasWow
