import LexTree.Language

/-!
# Java

Braces delimit scopes, quotes delimit strings and characters, and comments run to the end of the line or between `/*`
and `*/`.
-/

namespace LexTree.Java

def keywords : List String := [
  "abstract", "assert", "boolean", "break", "byte", "case", "catch", "char", "class", "const", "continue", "default",
  "do", "double", "else", "enum", "extends", "final", "finally", "float", "for", "goto", "if", "implements", "import",
  "instanceof", "int", "interface", "long", "native", "new", "package", "private", "protected", "public", "return",
  "short", "static", "strictfp", "super", "switch", "synchronized", "this", "throw", "throws", "transient", "try",
  "void", "volatile", "while", "true", "false", "null"]

def symbols : List (String × String) := [
  ("\x7b", "LCURLY"), ("\x7d", "RCURLY"), ("(", "LPAREN"), (")", "RPAREN"), ("[", "LBRACKET"), ("]", "RBRACKET"),
  (".", "PERIOD"), (",", "COMMA"), (";", "SEMICOLON"), (":", "COLON"), ("=", "EQUAL"), ("+", "PLUS"), ("-", "MINUS"),
  ("*", "STAR"), ("/", "SLASH"), ("%", "PERCENT"), ("<", "LESS_THAN"), (">", "GREATER_THAN"), ("!", "BANG"),
  ("?", "QUESTION"), ("&", "AMPERSAND"), ("|", "PIPE"), ("^", "CARET"), ("~", "TILDE"), ("@", "AT"),
  ("\\", "BACKSLASH")]

/-- A quote opens a string that the same quote closes. -/
def stringStart : Predicate := fun c n =>
  match c.current? with
  | some '"' => .ok true (n.mark "\"" "\"")
  | some '\'' => .ok true (n.mark "'" "'")
  | _ => .ok false n

/-- The closing quote is one that no backslash escapes. -/
def stringEnd : Predicate := fun c n =>
  .ok (c.current? = n.endMarker.toList.head? && c.backslashesBefore % 2 = 0) n

/-- Two slashes open a comment to the end of the line, which is marked; a slash and a star open a block comment. -/
def commentStart : Predicate := fun c n =>
  match c.current?, c.peek? 1 with
  | some '/', some '/' => .ok true { n.mark "//" "\n" with scratch := n.scratch.markLine .comment c.line }
  | some '/', some '*' => .ok true (n.mark "/*" "*/")
  | _, _ => .ok false n

/-- A line comment ends wherever the line changes, a block comment at its delimiter. -/
def commentEnd : Predicate := fun c n =>
  if n.endMarker = "\n" then
    match n.scratch.markedLine .comment with
    | .ok line => .ok (c.line ≠ line) n
    | .error e => .error e n
  else .ok (c.startsWith "*/") n

def scopeStart : Predicate := fun c n =>
  if c.current? = some '\x7b' then .ok true { n with startMarker := "\x7b" } else .ok false n

def scopeEnd : Predicate := fun c n =>
  if c.current? = some '\x7d' then .ok true { n with endMarker := "\x7d" } else .ok false n

def predicate : Edge → Predicate
  | .opens .string => stringStart
  | .closes .string => stringEnd
  | .opens .comment => commentStart
  | .closes .comment => commentEnd
  | .opens .scope => scopeStart
  | .closes .scope => scopeEnd

/-- Java as a language. -/
def language : Language where
  name := "java"
  symbols := .ofPairs symbols
  keywords := .ofWords keywords
  isWordChar := isWordChar
  predicate := predicate

end LexTree.Java
