/-!
# Turns

Events of one contact are matched one at a time, in the order in which they came. `Turns` keeps,
for each key, the caller whose turn it is and those who wait; a key is there exactly while
somebody holds it or waits for it.
-/

namespace CrmAutomation

/-- The callers at each key, the one whose turn it is first. -/
abbrev Turns (κ : Type) := List (κ × List Nat)

namespace Turns

variable {κ : Type} [DecidableEq κ]

/-- The callers at a key. -/
def callers (key : κ) : Turns κ → List Nat
  | [] => []
  | (k, cs) :: rest => if k = key then cs else callers key rest

/-- The caller whose turn it is. -/
def holder? (key : κ) (t : Turns κ) : Option Nat := (callers key t).head?

/-- A caller comes: it is its turn at once if nobody is there, else it waits behind the others. -/
def arrive (key : κ) (caller : Nat) : Turns κ → Turns κ
  | [] => [(key, [caller])]
  | (k, cs) :: rest => if k = key then (k, cs ++ [caller]) :: rest else (k, cs) :: arrive key caller rest

/-- A caller goes, whether it had its turn or waited; the next one moves up. -/
def leave (key : κ) (caller : Nat) (t : Turns κ) : Turns κ :=
  (t.map fun p => if p.1 = key then (p.1, p.2.erase caller) else p).filter fun p => !p.2.isEmpty

end Turns

end CrmAutomation
