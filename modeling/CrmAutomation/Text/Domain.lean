import CrmAutomation.Text.CharacterProperties
import CrmAutomation.Text.DomainCharacters
import CrmAutomation.Text.Punycode

/-!
# Internationalized domain names

A domain name consists of labels. `Domain.encode?` writes a name in ASCII, label by label, if every
label is valid: its characters are allowed where they stand, no two of them should have been
written as one, and a label that is written from right to left keeps to its direction.
-/

namespace CrmAutomation.Text.Domain

/-! ## Marks -/

/-- Whether a character combines with the one before it. -/
def isMark (c : Char) : Bool := markRanges.contains c.toNat

/-- The place of a mark among the marks of one character, zero for other characters. -/
def combiningClass (c : Char) : Nat :=
  ((combiningRanges.find? fun r => r.1 ≤ c.toNat && c.toNat ≤ r.2.1).map (·.2.2)).getD 0

/-- The class of the marks that silence a vowel. -/
def silencerClass : Nat := 9

/-- Whether a mark melts with a character into one. -/
def composes (base mark : Char) : Bool :=
  ((compositions.lookup mark.toNat).getD []).any fun r => r.1 ≤ base.toNat && base.toNat ≤ r.2

/-- Whether the marks of a label are in order, and none of them melts with its character. `base` is
the character that marks belong to, and `last` the class of the mark before. -/
def isComposed (base : Option Char) (last : Nat) : List Char → Bool
  | [] => true
  | c :: rest =>
    let place := combiningClass c
    let inOrder := place == 0 || last ≤ place
    let melts := base.any fun b => (last == 0 || last < place) && composes b c
    inOrder && !melts && if place = 0 then isComposed (some c) 0 rest else isComposed base place rest

/-! ## Characters with a context -/

/-- Whether the nearest character that is no mark joins to this side. -/
def joins (tables : List RangeTable) (cs : List Char) : Bool :=
  match cs.dropWhile isMark with
  | c :: _ => tables.any fun t => t.contains c.toNat
  | [] => false

def isArabicDigit (c : Char) : Bool := 0x660 ≤ c.toNat && c.toNat ≤ 0x669

def isExtendedDigit (c : Char) : Bool := 0x6F0 ≤ c.toNat && c.toNat ≤ 0x6F9

/-- Whether a character is of a script. -/
def isOf (script : RangeTable) (c : Option Char) : Bool := c.any fun c => script.contains c.toNat

/-- Whether a character may stand behind `before` (nearest first) and in front of `rest`. -/
def isAllowed (before : List Char) (c : Char) (rest : List Char) : Bool :=
  let n := c.toNat
  let all := before ++ c :: rest
  let silenced := before.head?.any fun b => combiningClass b == silencerClass
  if n = 0x200C then
    silenced || (joins [leftJoiningRanges, dualJoiningRanges] before
      && joins [rightJoiningRanges, dualJoiningRanges] rest)
  else if n = 0x200D then silenced
  else if n = 0xB7 then before.head? == some 'l' && rest.head? == some 'l'
  else if n = 0x375 then isOf greekRanges rest.head?
  else if n = 0x5F3 ∨ n = 0x5F4 then isOf hebrewRanges before.head?
  else if n = 0x30FB then all.any fun d => d.toNat != 0x30FB && japaneseRanges.contains d.toNat
  else if isArabicDigit c then !all.any isExtendedDigit
  else if isExtendedDigit c then !all.any isArabicDigit
  else domainRanges.contains n

/-- Whether every character from here on is allowed. -/
def allAllowed (before : List Char) : List Char → Bool
  | [] => true
  | c :: rest => isAllowed before c rest && allAllowed (c :: before) rest

/-! ## Directions -/

/-- How a character takes part in the direction of a label. -/
inductive Direction where
  | left
  | right
  | arabic
  | arabicNumber
  | europeanNumber
  | neutral
  | mark
  deriving DecidableEq, Repr

def direction (c : Char) : Direction :=
  let n := c.toNat
  if rightToLeftRanges.contains n then .right
  else if arabicRanges.contains n then .arabic
  else if arabicNumberRanges.contains n then .arabicNumber
  else if europeanNumberRanges.contains n then .europeanNumber
  else if neutralRanges.contains n then .neutral
  else if isMark c then .mark
  else .left

/-- Whether a label is written in one direction. One without right-to-left characters is; another
begins with a letter, ends with a letter or a digit, and does not mix directions or kinds of
digits. -/
def keepsDirection (label : List Char) : Bool :=
  let ds := label.map direction
  let has (d : Direction) : Bool := ds.contains d
  if !has .right && !has .arabic && !has .arabicNumber then true
  else
    let beginsWell := ds.head?.any fun d => d ∈ [.right, .arabic]
    let endsWell := (ds.reverse.dropWhile (· == .mark)).head?.any fun d =>
      d ∈ [.right, .arabic, .europeanNumber, .arabicNumber]
    beginsWell && endsWell && !has .left && !(has .arabicNumber && has .europeanNumber)

/-! ## Names -/

/-- Whether hyphens stand where they may: not at the ends, and not in the third and fourth place. -/
def placesHyphens (label : List Char) : Bool :=
  label.head? != some '-' && label.getLast? != some '-' && (label.drop 2).take 2 != ['-', '-']

/-- Whether a label of any characters is valid. -/
def isValidLabel (label : List Char) : Bool :=
  !label.isEmpty && placesHyphens label && !label.head?.any isMark && allAllowed [] label
    && isComposed none 0 label && keepsDirection label

/-- What a label in ASCII begins with that stands for one with other characters. -/
def encodedMark : List Char := "xn--".toList

def isAscii (cs : List Char) : Bool := cs.all fun c => c.toNat < 128

/-- Whether a label in ASCII is valid; one that stands for another is as valid as that. -/
def isValidAscii (label : List Char) : Bool :=
  let lower := label.map Char.toLower
  if encodedMark.isPrefixOf lower then
    let content := lower.drop encodedMark.length
    content.getLast?.any (· != '-') && (Punycode.decode? content).any isValidLabel
  else isValidLabel lower

/-- The greatest length of a label. -/
def maxLabelLength : Nat := 63

/-- The greatest length of a name. -/
def maxLength : Nat := 253

/-- A label in ASCII, if it is valid. -/
def encodeLabel? (label : List Char) : Option (List Char) :=
  let encoded := if isAscii label then label else encodedMark ++ Punycode.encode label
  let isValid := if isAscii label then isValidAscii label else isValidLabel label
  if isValid && encoded.length ≤ maxLabelLength then some encoded else none

/-- The points that labels are separated by. -/
def isPoint (c : Char) : Bool := [0x2E, 0x3002, 0xFF0E, 0xFF61].contains c.toNat

/-- The labels of a name. -/
def labels (cs : List Char) : List (List Char) :=
  cs.foldr (fun c parts =>
    if isPoint c then [] :: parts
    else match parts with
      | p :: ps => (c :: p) :: ps
      | [] => [[c]]) [[]]

/-- A name in ASCII, if it is valid. It may end with a point. -/
def encode? (name : List Char) : Option (List Char) := do
  let parts := labels name
  let isOpen := parts.getLast? == some []
  let encoded ← (if isOpen then parts.dropLast else parts).mapM encodeLabel?
  if encoded.isEmpty then none
  else
    let text := (['.'].intercalate encoded) ++ if isOpen then ['.'] else []
    if text.length ≤ maxLength + (if isOpen then 1 else 0) then some text else none

end CrmAutomation.Text.Domain
