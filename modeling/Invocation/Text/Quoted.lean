import Invocation.Text.Hex
import Invocation.Text.Unicode.DefaultIgnorable
import Invocation.Text.Unicode.GraphemeExtend
import Invocation.Text.Unicode.Printable

/-!
# Quoted text

A text between double quotes, with every character that would not be seen as itself written as an
escape. A single quote stays as it is.
-/

namespace Invocation.Text

/-- Whether a character is seen by itself: it has a visible form and a place of its own. -/
def standsAlone (c : Char) : Bool :=
  Unicode.isPrintable c && !Unicode.isDefaultIgnorable c &&
    (!Unicode.isGraphemeExtend c || Unicode.isHalfwidthSoundMark c)

/-- A character as it stands between double quotes: the common controls, the quote and the
backslash have short escapes, and a character that is not seen by itself is written as its code
point. -/
def escapeChar (c : Char) : List Char :=
  match c with
  | '\x00' => ['\\', '0']
  | '\t' => ['\\', 't']
  | '\r' => ['\\', 'r']
  | '\n' => ['\\', 'n']
  | '\\' => ['\\', '\\']
  | '"' => ['\\', '"']
  | c =>
    if standsAlone c then [c] else ['\\', 'u', '\x7b'] ++ hex c.toNat ++ ['\x7d']

/-- The text between double quotes, escaped. -/
def quoted (s : String) : String :=
  String.ofList ('"' :: s.toList.flatMap escapeChar ++ ['"'])

end Invocation.Text
