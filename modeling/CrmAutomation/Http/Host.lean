import CrmAutomation.Text.Case
import CrmAutomation.Text.Domain
import CrmAutomation.Text.Naming

/-!
# Hosts

The host of a URL is a name or an address. `Host.isDotted` and `Host.isColonAddress` tell the valid
addresses of the two kinds, and `Host.looksDotted` what has to be an address of the first kind
because it looks like one.
-/

namespace CrmAutomation.Http.Host

/-! ## Addresses of four numbers -/

/-- Whether characters are a run of digits and `more` others, with any one character between two
runs; `inRun` says that the first run has begun. -/
def isRuns (inRun : Bool) (more : Nat) : List Char → Bool
  | [] => inRun && more == 0
  | c :: rest =>
    (c.isDigit && isRuns true more rest)
      || (inRun && match more with
        | 0 => false
        | more + 1 => isRuns false more rest)

/-- Whether a host looks like four numbers with something between them. -/
def looksDotted (cs : List Char) : Bool := isRuns false 3 cs

/-- Whether characters write one of the four numbers, without leading zeros. -/
def isOctet (s : String) : Bool :=
  let cs := s.toList
  !cs.isEmpty && cs.all Char.isDigit && cs.length ≤ 3 && (s == "0" || cs.head? != some '0')
    && s.toNat?.getD 256 ≤ 255

/-- Whether a host is an address of four numbers. -/
def isDotted (s : String) : Bool :=
  let parts := Text.splitOn '.' s
  parts.length == 4 && parts.all isOctet

/-! ## Addresses of eight numbers -/

/-- Whether characters write one of the eight numbers. -/
def isHextet (s : String) : Bool :=
  let isHexDigit (c : Char) : Bool := c.isDigit || ('a' ≤ c.toLower && c.toLower ≤ 'f')
  !s.isEmpty && s.length ≤ 4 && s.toList.all isHexDigit

/-- The parts of an address, the last of which may be an address of four numbers: that counts as
two. -/
def withoutDots (parts : List String) : Option (List String) :=
  match parts.getLast? with
  | some last =>
    if last.contains '.' then
      if isDotted last then some (parts.dropLast ++ ["0", "0"]) else none
    else some parts
  | none => none

/-- Whether parts are an address: eight numbers, or fewer with one gap that stands for the rest. -/
def areHextets (parts : List String) : Bool :=
  let inside := (parts.drop 1).dropLast
  match inside.filter (· == "") with
  | [] => parts.length == 8 && parts.all isHextet
  | [_] =>
    let high := parts.takeWhile fun p => p != ""
    let gap := if parts.head? == some "" then 1 else high.length
    let low := parts.drop (gap + 1)
    let above := if parts.head? == some "" then parts[1]? == some "" else true
    let numbers := high ++ if low == [""] then [] else low
    above && numbers.all isHextet && numbers.length < 8
  | _ => false

/-- Whether a host is an address of numbers between colons; the name of a network may follow a
percent sign. -/
def isColonAddress (s : String) : Bool :=
  let (address, zone) : List Char × List Char := (s.toList.takeWhile (· != '%'), s.toList.dropWhile (· != '%'))
  let hasZone := zone.isEmpty || (zone.length != 1 && !(zone.drop 1).contains '%')
  let parts := Text.splitOn ':' (String.ofList address)
  hasZone && !address.contains '/' && 3 ≤ parts.length
    && (withoutDots parts).any fun parts => parts.length ≤ 9 && areHextets parts

end CrmAutomation.Http.Host
