/-!
# JSON text

The values that a scope tree is written with, and their two layouts: compact, without any space, and pretty, one
entry a line with two spaces for each level.
-/

namespace LexTree

/-- A JSON value; the fields of a record keep their order. -/
inductive Json where
  | number (n : Nat)
  | text (s : String)
  | list (items : List Json)
  | record (fields : List (String × Json))

namespace Json

/-- How `c` is written in a JSON string. -/
def escape (c : Char) : String :=
  match c with
  | '"' => "\\\""
  | '\\' => "\\\\"
  | '\x08' => "\\b"
  | '\t' => "\\t"
  | '\n' => "\\n"
  | '\x0c' => "\\f"
  | '\r' => "\\r"
  | _ =>
    if c.toNat < 0x20 then
      "\\u00" ++ String.ofList [Nat.digitChar (c.toNat / 16), Nat.digitChar (c.toNat % 16)]
    else String.singleton c

/-- Append a JSON string to `out`. -/
def quoteOnto (out : String) (s : String) : String :=
  s.foldl (fun out c => out ++ escape c) (out.push '"') |>.push '"'

/-! ### Compact layout -/

mutual

def compactOnto (out : String) : Json → String
  | number n => out ++ toString n
  | text s => quoteOnto out s
  | list items => (compactItemsOnto (out.push '[') items).push ']'
  | record fields => (compactFieldsOnto (out.push '\x7b') fields).push '\x7d'

/-- Items with commas between them. -/
def compactItemsOnto (out : String) : List Json → String
  | [] => out
  | [j] => j.compactOnto out
  | j :: rest => compactItemsOnto ((j.compactOnto out).push ',') rest

/-- Fields with commas between them. -/
def compactFieldsOnto (out : String) : List (String × Json) → String
  | [] => out
  | [(key, j)] => j.compactOnto ((quoteOnto out key).push ':')
  | (key, j) :: rest => compactFieldsOnto ((j.compactOnto ((quoteOnto out key).push ':')).push ',') rest

end

/-- The value without any space. -/
def compact (j : Json) : String := j.compactOnto ""

/-! ### Pretty layout -/

/-- A new line that starts `level` levels in. -/
def lineOnto (out : String) (level : Nat) : String :=
  level.fold (fun _ _ out => out ++ "  ") (out.push '\n')

mutual

/-- Append a value whose last line starts `level` levels in. -/
def prettyOnto (out : String) (level : Nat) : Json → String
  | number n => out ++ toString n
  | text s => quoteOnto out s
  | list [] => out ++ "[]"
  | list items => (lineOnto (prettyItemsOnto (out.push '[') (level + 1) items) level).push ']'
  | record [] => out ++ "\x7b\x7d"
  | record fields => (lineOnto (prettyFieldsOnto (out.push '\x7b') (level + 1) fields) level).push '\x7d'

/-- Items on lines of their own. -/
def prettyItemsOnto (out : String) (level : Nat) : List Json → String
  | [] => out
  | [j] => j.prettyOnto (lineOnto out level) level
  | j :: rest => prettyItemsOnto ((j.prettyOnto (lineOnto out level) level).push ',') level rest

/-- Fields on lines of their own. -/
def prettyFieldsOnto (out : String) (level : Nat) : List (String × Json) → String
  | [] => out
  | [(key, j)] => j.prettyOnto (quoteOnto (lineOnto out level) key ++ ": ") level
  | (key, j) :: rest =>
    prettyFieldsOnto ((j.prettyOnto (quoteOnto (lineOnto out level) key ++ ": ") level).push ',') level rest

end

/-- The value over several lines, two spaces for each level. -/
def pretty (j : Json) : String := j.prettyOnto "" 0

end Json

end LexTree
