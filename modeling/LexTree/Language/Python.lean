import LexTree.Language

/-!
# Python

A colon that ends its line, a comment apart, opens a block.  The block closes at the first content of a later line that
is indented no deeper than the line of its colon.  Several blocks may close at one place: each time the predicate asks
the cursor to stay, so that the place is looked at again.
-/

namespace LexTree.Python

def keywords : List String := [
  "False", "None", "True", "and", "as", "assert", "async", "await", "break", "class", "continue", "def", "del", "elif",
  "else", "except", "finally", "for", "from", "global", "if", "import", "in", "is", "lambda", "nonlocal", "not", "or",
  "pass", "raise", "return", "try", "while", "with", "yield"]

def symbols : List (String × String) := [
  ("(", "LPAREN"), (")", "RPAREN"), ("[", "LBRACKET"), ("]", "RBRACKET"), ("\x7b", "LCURLY"), ("\x7d", "RCURLY"),
  (":", "COLON"), (",", "COMMA"), (".", "PERIOD"), (";", "SEMICOLON"), ("=", "EQUAL"), ("+", "PLUS"), ("-", "MINUS"),
  ("*", "STAR"), ("/", "SLASH"), ("%", "PERCENT"), ("<", "LESS_THAN"), (">", "GREATER_THAN"), ("!", "BANG"),
  ("&", "AMPERSAND"), ("|", "PIPE"), ("^", "CARET"), ("~", "TILDE"), ("@", "AT"), ("\\", "BACKSLASH")]

/-- Whether the innermost open block ends here: the line is a later one, indented no deeper than the block's. -/
def closesBlock (c : Cursor) (n : Notes) : Bool :=
  match n.scratch.topFrame? .scope with
  | some frame => c.line ≠ frame.line && c.indent ≤ frame.indent
  | none => false

/-- Whether nothing but blanks and a comment follows on the line. -/
def endsLine (c : Cursor) : Bool :=
  match c.firstNonBlank? (c.index + 1) with
  | none | some '\n' | some '#' => true
  | some _ => false

/-- The quote under the cursor: three of a kind, or else one. -/
def openingQuote? (c : Cursor) : Option String :=
  match c.current? with
  | some '"' => some (if c.startsWith "\"\"\"" then "\"\"\"" else "\"")
  | some '\'' => some (if c.startsWith "'''" then "'''" else "'")
  | _ => none

/-- A quote opens a string, once the blocks that end here are closed. -/
def stringStart : Predicate := fun c n =>
  if closesBlock c n then .ok false n
  else
    match openingQuote? c with
    | some quote => .ok true (n.mark quote quote)
    | none => .ok false n

/-- The closing quote is one that no backslash escapes. -/
def stringEnd : Predicate := fun c n =>
  .ok (c.startsWith n.endMarker && c.backslashesBefore % 2 = 0) n

/-- A hash opens a comment to the end of the line, which is marked. -/
def commentStart : Predicate := fun c n =>
  if c.current? = some '#' then
    .ok true { n.mark "#" "\n" with scratch := n.scratch.markLine .comment c.line }
  else .ok false n

/-- A comment ends wherever the line changes. -/
def commentEnd : Predicate := fun c n =>
  match n.scratch.markedLine .comment with
  | .ok line => .ok (c.line ≠ line) n
  | .error e => .error e n

/-- A colon that ends its line opens a block, whose place is kept as a frame. -/
def scopeStart : Predicate := fun c n =>
  if c.current? = some ':' && endsLine c then
    .ok true { n with startMarker := ":", scratch := n.scratch.pushFrame .scope ⟨c.line, c.indent⟩ }
  else .ok false n

/-- A block that ends here gives up its frame, and the place is looked at again. -/
def scopeEnd : Predicate := fun c n =>
  if closesBlock c n then
    match n.scratch.popFrame .scope with
    | .ok (_, scratch) => .ok true { n with scratch, suppressed := true }
    | .error e => .error e n
  else .ok false n

def predicate : Edge → Predicate
  | .opens .string => stringStart
  | .closes .string => stringEnd
  | .opens .comment => commentStart
  | .closes .comment => commentEnd
  | .opens .scope => scopeStart
  | .closes .scope => scopeEnd

/-- Python as a language. -/
def language : Language where
  name := "python"
  symbols := .ofPairs symbols
  keywords := .ofWords keywords
  isWordChar := isWordChar
  predicate := predicate

end LexTree.Python
