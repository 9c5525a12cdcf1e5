import LexTree.Text.Case
import Std.Data.HashMap

/-!
# Symbol and keyword tables

The tables that name symbols and words.  Labels are kept in upper case, as they appear in symbolic names.
-/

namespace LexTree

/-- Literals with their labels, in order of insertion; `positions` finds the entry of a literal. -/
structure SymbolTable where
  entries : Array (String × String) := #[]
  positions : Std.HashMap String Nat := {}

namespace SymbolTable

/-- Add an entry, unless the literal has one. -/
def insert (t : SymbolTable) (literal label : String) : SymbolTable :=
  if t.positions.contains literal then t
  else ⟨t.entries.push (literal, upper label), t.positions.insert literal t.entries.size⟩

/-- The table of a list of pairs; of two pairs for one literal the first counts. -/
def ofPairs (pairs : List (String × String)) : SymbolTable :=
  pairs.foldl (fun t p => t.insert p.1 p.2) {}

/-- The label of a literal, in upper case. -/
def label? (t : SymbolTable) (literal : String) : Option String := do
  let position ← t.positions[literal]?
  let entry ← t.entries[position]?
  return entry.2

def size (t : SymbolTable) : Nat := t.entries.size

def isEmpty (t : SymbolTable) : Bool := t.entries.isEmpty

end SymbolTable

/-- A set of words, each with its label. -/
structure KeywordTable where
  labels : Std.HashMap String String := {}

namespace KeywordTable

def insert (t : KeywordTable) (word : String) : KeywordTable :=
  ⟨t.labels.insert word (upper word)⟩

/-- The table of a list of words. -/
def ofWords (words : List String) : KeywordTable :=
  words.foldl insert {}

/-- The upper-case form of a word, if it is a keyword. -/
def label? (t : KeywordTable) (word : String) : Option String := t.labels[word]?

def contains (t : KeywordTable) (word : String) : Bool := t.labels.contains word

def size (t : KeywordTable) : Nat := t.labels.size

def isEmpty (t : KeywordTable) : Bool := t.labels.isEmpty

theorem contains_ofWords {words : List String} {word : String} :
    (ofWords words).contains word = true ↔ word ∈ words := by
  suffices h : ∀ t : KeywordTable,
      (words.foldl insert t).contains word = true ↔ t.contains word = true ∨ word ∈ words by
    rw [ofWords, h]
    simp [contains]
  induction words with
  | nil => simp
  | cons w ws ih =>
    intro t
    rw [List.foldl_cons, ih]
    simp only [contains, insert, Std.HashMap.contains_insert, Bool.or_eq_true, beq_iff_eq, List.mem_cons]
    rw [or_comm (a := w = word), or_assoc, eq_comm (a := w)]

theorem contains_ofWords_of_not_mem {words : List String} {word : String} (h : word ∉ words) :
    (ofWords words).contains word = false :=
  Bool.eq_false_iff.2 fun hc => h (contains_ofWords.1 hc)

/-- A keyword is labelled by its upper-case form. -/
theorem label?_ofWords (words : List String) (word : String) :
    (ofWords words).label? word = if (ofWords words).contains word then some (upper word) else none := by
  suffices h : ∀ t : KeywordTable, (t.label? word = if t.contains word then some (upper word) else none) →
      (words.foldl insert t).label? word = if (words.foldl insert t).contains word then some (upper word) else none by
    exact h {} (by simp [label?, contains])
  induction words with
  | nil => exact fun t ht => ht
  | cons w ws ih =>
    intro t ht
    refine ih (t.insert w) ?_
    simp only [label?, contains, insert, Std.HashMap.getElem?_insert, Std.HashMap.contains_insert] at ht ⊢
    by_cases hw : w = word
    · simp [hw]
    · simp [hw, ht]

end KeywordTable

end LexTree
