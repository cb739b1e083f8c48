/-!
# Sets of characters as ranges

A `RangeTable` is a sorted array of closed ranges of code points; `RangeTable.contains` finds
a code point by halving the array.
-/

namespace CrmAutomation.Text

/-- Sorted, disjoint closed ranges of code points. -/
abbrev RangeTable := Array (Nat × Nat)

/-- The number of ranges that start at or below `code`, found by halving `[low, high)`. -/
def RangeTable.startsUpTo (table : RangeTable) (code : Nat) : Nat → Nat → Nat → Nat
  | 0, low, _ => low
  | fuel + 1, low, high =>
    if high ≤ low then low
    else
      let mid := (low + high) / 2
      match table[mid]? with
      | some (start, _) =>
        if start ≤ code then RangeTable.startsUpTo table code fuel (mid + 1) high
        else RangeTable.startsUpTo table code fuel low mid
      | none => low

/-- Whether a code point lies in one of the ranges. -/
def RangeTable.contains (table : RangeTable) (code : Nat) : Bool :=
  match RangeTable.startsUpTo table code (table.size + 1) 0 table.size with
  | 0 => false
  | i + 1 => match table[i]? with
    | some (_, last) => decide (code ≤ last)
    | none => false

end CrmAutomation.Text
