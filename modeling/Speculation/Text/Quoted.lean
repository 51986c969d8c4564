import Speculation.Text.CharSet.Combining
import Speculation.Text.CharSet.Unprintable

/-!
# Quoted text

A string between double quotes. Quotes, backslashes and the usual control characters are written
with a backslash; a character that does not print, or that would combine with the one before it,
is written by its number.
-/

namespace Speculation
namespace Quoted

/-- Does a character show nothing of its own, or change the one before it? -/
def isHidden (c : Char) : Bool := CharSet.unprintable.contains c || CharSet.combining.contains c

/-- A character by its number in base sixteen. -/
def numbered (c : Char) : String :=
  "\\u\x7b" ++ String.ofList (Nat.toDigits 16 c.toNat) ++ "\x7d"

def escape (c : Char) : String :=
  match c with
  | '\x00' => "\\0"
  | '\t' => "\\t"
  | '\r' => "\\r"
  | '\n' => "\\n"
  | '"' => "\\\""
  | '\\' => "\\\\"
  | c => if isHidden c then numbered c else c.toString

def quote (s : String) : String := "\"" ++ String.join (s.toList.map escape) ++ "\""

end Quoted

end Speculation
