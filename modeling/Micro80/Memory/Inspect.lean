import Micro80.Memory
import Micro80.Text.Dump

/-!
# Inspecting memory

What can be looked at from outside while a program is stopped: the bytes of a range and a dump of
it.

## Main definitions

* `Memory.bytesFrom`, `Memory.dump`.
-/

namespace Micro80

namespace Memory

/-- The bytes of `count` addresses starting with `first`, wrapping around at the top of memory. -/
def bytesFrom (m : Memory) (first : UInt16) (count : Nat) : List UInt8 :=
  (List.range count).map (m.ahead first)

/-- A dump of `count` addresses starting with `first`. -/
def dump (m : Memory) (first : UInt16) (count : Nat) : Text :=
  Text.dump none first.toNat (m.bytesFrom first count)

end Memory

end Micro80
