/-
This file looks code points up in tables of closed ranges.
-/

namespace PadLang

namespace Text

/-- Whether a code point lies in one of the ranges. -/
def inRanges (ranges : List (Nat × Nat)) (code : Nat) : Bool :=
  ranges.any fun range => range.1 ≤ code && code ≤ range.2

end Text

end PadLang
