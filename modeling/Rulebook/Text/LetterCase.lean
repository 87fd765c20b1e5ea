/-
# Letter case

Whole texts in uppercase and lowercase. The mapping is Unicode's, character by
character, with the one rule that looks at the neighbours: a capital sigma at
the end of a word has a lowercase form of its own.
-/

import Rulebook.Text.CharClass.CaseIgnorable
import Rulebook.Text.CharClass.Cased
import Rulebook.Text.LetterCase.Mapping

namespace Rulebook.Text

/-- The text in uppercase. -/
def upper (s : String) : String := String.ofList (s.toList.flatMap upperMapping.apply)

/-- Whether, case-ignorable characters passed over, a cased letter comes first. -/
def startsCased (cs : List Char) : Bool :=
  match cs.dropWhile (inRanges caseIgnorableRanges) with
  | c :: _ => inRanges casedRanges c
  | [] => false

/-- Lowercase of the rest of a text, given the characters before it, nearest
first. A sigma is final when a letter stands before it and none after it. -/
def lowerFrom (before : List Char) : List Char → List Char
  | [] => []
  | c :: rest =>
    (if c = 'Σ' then [if startsCased before && !startsCased rest then 'ς' else 'σ']
      else lowerMapping.apply c) ++ lowerFrom (c :: before) rest

/-- The text in lowercase. -/
def lower (s : String) : String := String.ofList (lowerFrom [] s.toList)

end Rulebook.Text
