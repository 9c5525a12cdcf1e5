import LexTree.Unicode.CombiningMark
import LexTree.Unicode.Printable

/-!
# Quoted text

A text between double quotes on one line: quotes, backslashes and the common control characters get a backslash form,
and every other character that would not show on its own is written as its code point in hexadecimal.
-/

namespace LexTree

/-- The code point of `c` in lower-case hexadecimal, between braces. -/
def hexEscape (c : Char) : String :=
  "\\u\x7b" ++ String.ofList (Nat.toDigits 16 c.toNat) ++ "\x7d"

/-- How `c` is written between quotes. -/
def escape (c : Char) : String :=
  match c with
  | '\x00' => "\\0"
  | '\t' => "\\t"
  | '\r' => "\\r"
  | '\n' => "\\n"
  | '"' => "\\\""
  | '\\' => "\\\\"
  | _ =>
    if c.toNat < 0x80 then
      if 0x20 ≤ c.toNat && c.toNat < 0x7F then String.singleton c else hexEscape c
    else if CharSet.combiningMark.contains c || !CharSet.printable.contains c then hexEscape c
    else String.singleton c

/-- The text between double quotes. -/
def quote (s : String) : String :=
  s.foldl (fun out c => out ++ escape c) "\"" ++ "\""

end LexTree
