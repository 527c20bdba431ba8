/-
This file holds the addresses of memory cells: a cell of a frame, and how many frames up
from the innermost one that frame is.
-/

namespace PadLang

/-- The address of a cell. -/
structure Slot where
  index : Nat
  level : Nat
deriving DecidableEq, Repr

/-- The text of an address. -/
def Slot.render (slot : Slot) : String :=
  "[" ++ toString slot.index ++ ":" ++ toString slot.level ++ "]"

end PadLang
