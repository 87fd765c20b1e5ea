/-
# Quoted text

Names in outlines stand between double quotes. Quotes and backslashes are
escaped, the common controls have letters of their own, and any character that
would not show by itself is given by its code point.
-/

import Rulebook.Text.CharClass.GraphemeExtend
import Rulebook.Text.CharClass.Unprintable

namespace Rulebook.Text

/-- One character as it stands inside quotes. -/
def escapeChar (c : Char) : List Char :=
  match c with
  | '\x00' => ['\\', '0']
  | '\t' => ['\\', 't']
  | '\r' => ['\\', 'r']
  | '\n' => ['\\', 'n']
  | '"' => ['\\', '"']
  | '\\' => ['\\', '\\']
  | c =>
    if inRanges graphemeExtendRanges c || inRanges unprintableRanges c then
      ['\\', 'u', '{'] ++ Nat.toDigits 16 c.toNat ++ ['}']
    else [c]

/-- The text between double quotes. -/
def quoted (s : String) : String :=
  String.ofList (['"'] ++ s.toList.flatMap escapeChar ++ ['"'])

/-- Names between brackets, each quoted. -/
def quotedList (names : List String) : String :=
  "[" ++ String.intercalate ", " (names.map quoted) ++ "]"

end Rulebook.Text
