import LexTree.Predicate
import LexTree.Table

/-!
# Languages

A language is what the scanner needs to know: a name, the tables of symbols and keywords, the characters of words, and
a predicate for each edge.  At each place the scanner looks for one of four boundaries, in a fixed order.
-/

namespace LexTree

structure Language where
  name : String
  symbols : SymbolTable := {}
  keywords : KeywordTable := {}
  /-- Whether a character can be part of a word. -/
  isWordChar : Char → Bool
  predicate : Edge → Predicate
  /-- The parts that have not been supplied. -/
  missing : List Part := if name.isEmpty then [.name] else []

/-- A language with parts missing is refused. -/
def Language.validate (L : Language) : Except ScanError Unit :=
  if L.missing.isEmpty then .ok () else .error (.incompleteLanguage L.name L.missing)

/-- The language under another name, held complete if that is not empty. -/
def Language.renamed (L : Language) (name : String) : Language :=
  { name, symbols := L.symbols, keywords := L.keywords, isWordChar := L.isWordChar, predicate := L.predicate }

/-- What the scanner looks for at each place. -/
inductive Boundary where
  | stringStart
  | commentStart
  | scopeStart
  | scopeEnd
deriving DecidableEq

namespace Boundary

/-- The order in which boundaries are tested: what could open both a string and a scope opens a string. -/
def order : List Boundary := [stringStart, commentStart, scopeStart, scopeEnd]

/-- The predicate that reports the boundary. -/
def edge : Boundary → Edge
  | stringStart => .opens .string
  | commentStart => .opens .comment
  | scopeStart => .opens .scope
  | scopeEnd => .closes .scope

def text (b : Boundary) : String := b.edge.text

end Boundary

namespace Language

/-- The first of `boundaries` found under the cursor.  Markers are cleared before each test, so that a predicate that
declines leaves none behind. -/
def firstBoundary (L : Language) (c : Cursor) : List Boundary → Probe (Option Boundary)
  | [], n => .ok none n.clearMarkers
  | b :: rest, n =>
    match L.predicate b.edge c n.clearMarkers with
    | .ok true n => .ok (some b) n
    | .ok false n => L.firstBoundary c rest n
    | .error e n => .error e n

/-- The boundary under the cursor, if there is one. -/
def dispatch (L : Language) (c : Cursor) : Probe (Option Boundary) :=
  L.firstBoundary c Boundary.order

end Language

end LexTree
