import LexTree.Table
import Mathlib.Data.Finset.Card

/-!
# Tables and the lists they are made from

A symbol table finds an entry through the position kept for its literal, a keyword table through a map of words.  Both
answer as a search from the front through everything inserted would.  For symbols this rests on an invariant of
insertion (`SymbolTable.Lists`): the literals stand in the order in which they first came, and the positions are theirs.
-/

namespace LexTree

namespace SymbolTable

variable {t : SymbolTable} {pairs : List (String × String)} {literal label : String}

/-- The table lists the literals of the pairs in the order in which they first came, each with its first label in upper
case, and the positions are those of the entries. -/
structure Lists (t : SymbolTable) (pairs : List (String × String)) : Prop where
  literals : t.entries.toList.map Prod.fst = (pairs.map Prod.fst).eraseDups
  labels : ∀ literal label, (literal, label) ∈ t.entries → (pairs.lookup literal).map upper = some label
  positions : ∀ (literal : String) (i : Nat),
    t.positions[literal]? = some i ↔ ∃ label, t.entries[i]? = some (literal, label)

private theorem lookup_of_not_mem (h : literal ∉ pairs.map Prod.fst) : pairs.lookup literal = none := by
  rw [List.lookup_eq_none_iff]
  intro p hp
  simpa using fun heq : literal = p.1 => h (heq ▸ List.mem_map_of_mem hp)

private theorem lists_empty : Lists {} [] := ⟨rfl, by simp, by simp⟩

/-- A literal has an entry exactly if it was inserted. -/
private theorem Lists.mem_iff (h : Lists t pairs) :
    (∃ label, (literal, label) ∈ t.entries) ↔ literal ∈ pairs.map Prod.fst := by
  rw [← List.mem_eraseDups, ← h.literals]
  simp

private theorem Lists.contains_iff (h : Lists t pairs) :
    t.positions.contains literal = true ↔ literal ∈ pairs.map Prod.fst := by
  rw [Std.HashMap.contains_eq_isSome_getElem?, Option.isSome_iff_exists, ← h.mem_iff]
  simp only [h.positions, Array.mem_iff_getElem?]
  exact exists_comm

private theorem insert_of_mem (h : Lists t pairs) (hmem : literal ∈ pairs.map Prod.fst) (label : String) :
    t.insert literal label = t := by
  rw [insert, if_pos (h.contains_iff.2 hmem)]

private theorem insert_of_not_mem (h : Lists t pairs) (hmem : literal ∉ pairs.map Prod.fst) (label : String) :
    t.insert literal label =
      ⟨t.entries.push (literal, upper label), t.positions.insert literal t.entries.size⟩ := by
  rw [insert, if_neg (mt h.contains_iff.1 hmem)]

/-- A pair goes behind those that came before it. -/
private theorem Lists.insert (h : Lists t pairs) (literal label : String) :
    Lists (t.insert literal label) (pairs ++ [(literal, label)]) := by
  have hold : ∀ k l, (k, l) ∈ t.entries → ((pairs ++ [(literal, label)]).lookup k).map upper = some l := by
    intro k l hmem
    obtain ⟨b, hb, hl⟩ := Option.map_eq_some_iff.1 (h.labels k l hmem)
    rw [List.lookup_append, hb, Option.some_or, Option.map_some, hl]
  by_cases hmem : literal ∈ pairs.map Prod.fst
  · -- the first label wins: neither the entries nor the positions change
    rw [insert_of_mem h hmem]
    refine ⟨?_, hold, h.positions⟩
    rw [h.literals, List.map_append, List.eraseDups_append]
    simp [List.removeAll, hmem]
  · rw [insert_of_not_mem h hmem]
    refine ⟨?_, ?_, ?_⟩
    · rw [Array.toList_push, List.map_append, h.literals, List.map_append, List.eraseDups_append]
      simp [List.removeAll, hmem, List.eraseDups_cons]
    · intro k l hkl
      rcases Array.mem_push.1 hkl with hkl | hkl
      · exact hold k l hkl
      · obtain ⟨rfl, rfl⟩ := Prod.mk.inj hkl
        rw [List.lookup_append, lookup_of_not_mem hmem, Option.none_or, List.lookup_cons_self, Option.map_some]
    · intro k i
      rw [Std.HashMap.getElem?_insert, Array.getElem?_push]
      by_cases hk : literal = k
      · subst hk
        rw [if_pos (by simp), Option.some.injEq, eq_comm (a := t.entries.size)]
        constructor
        · intro hi
          exact ⟨upper label, by rw [if_pos hi]⟩
        · rintro ⟨l, hl⟩
          -- an entry further in front would be one of the literal from before
          by_contra hi
          rw [if_neg hi] at hl
          exact hmem (h.mem_iff.1 ⟨l, Array.mem_of_getElem? hl⟩)
      · rw [if_neg (by simpa using hk), h.positions]
        refine exists_congr fun l => ?_
        by_cases hi : i = t.entries.size
        · rw [if_pos hi, hi, Array.getElem?_size]
          simp [hk]
        · rw [if_neg hi]

private theorem Lists.foldl_insert (h : Lists t pairs) (more : List (String × String)) :
    Lists (more.foldl (fun t p => t.insert p.1 p.2) t) (pairs ++ more) := by
  induction more generalizing t pairs with
  | nil => rwa [List.append_nil]
  | cons p more ih =>
    rw [List.append_cons]
    exact ih (h.insert p.1 p.2)

theorem lists_ofPairs (pairs : List (String × String)) : Lists (ofPairs pairs) pairs :=
  lists_empty.foldl_insert pairs

/-! ### What a listing table answers -/

/-- A look-up finds the first pair. -/
theorem Lists.label?_eq (h : Lists t pairs) (literal : String) :
    t.label? literal = (pairs.lookup literal).map upper := by
  cases hp : t.positions[literal]? with
  | none =>
    have hnot : literal ∉ pairs.map Prod.fst := by
      rw [← h.contains_iff, Std.HashMap.contains_eq_isSome_getElem?, hp]
      simp
    rw [lookup_of_not_mem hnot]
    simp [label?, hp]
  | some i =>
    obtain ⟨label, he⟩ := (h.positions literal i).1 hp
    rw [h.labels literal label (Array.mem_of_getElem? he)]
    simp [label?, hp, he]

/-- No literal has two entries, since it has one position. -/
private theorem Lists.nodup (h : Lists t pairs) : (t.entries.toList.map Prod.fst).Nodup := by
  rw [List.nodup_iff_getElem?_ne_getElem?]
  intro i j hij hj heq
  rw [List.length_map, Array.length_toList] at hj
  have hplace : ∀ k : Nat, (hk : k < t.entries.size) → t.positions[t.entries[k].1]? = some k := by
    intro k hk
    exact (h.positions _ k).2 ⟨t.entries[k].2, Array.getElem?_eq_getElem hk⟩
  have hi : i < t.entries.size := Nat.lt_trans hij hj
  simp only [List.getElem?_map, Array.getElem?_toList, Array.getElem?_eq_getElem hi, Array.getElem?_eq_getElem hj,
    Option.map_some, Option.some.injEq] at heq
  have hsame := hplace i hi
  rw [heq, hplace j hj, Option.some.injEq] at hsame
  omega

private theorem Lists.size_eq (h : Lists t pairs) : t.size = (pairs.map Prod.fst).toFinset.card := by
  have hsame : (t.entries.toList.map Prod.fst).toFinset = (pairs.map Prod.fst).toFinset := by
    ext literal
    rw [List.mem_toFinset, List.mem_toFinset, h.literals, List.mem_eraseDups]
  rw [← hsame, List.toFinset_card_of_nodup h.nodup, List.length_map, Array.length_toList, size]

/-- A pair whose literal came before it changes nothing. -/
private theorem ofPairs_of_repeated {before after : List (String × String)} {p : String × String}
    (h : p.1 ∈ before.map Prod.fst) : ofPairs (before ++ p :: after) = ofPairs (before ++ after) := by
  rw [ofPairs, List.foldl_append, List.foldl_cons, ← ofPairs, insert_of_mem (lists_ofPairs before) h, ofPairs, ofPairs,
    List.foldl_append]

end SymbolTable

/-! ### Keywords -/

namespace KeywordTable

private theorem size_ofWords (words : List String) : (ofWords words).size = words.toFinset.card := by
  have hsame : (ofWords words).labels.keys.toFinset = words.toFinset := by
    ext word
    rw [List.mem_toFinset, List.mem_toFinset, Std.HashMap.mem_keys, Std.HashMap.mem_iff_contains]
    exact contains_ofWords
  rw [← hsame, List.toFinset_card_of_nodup Std.HashMap.nodup_keys, Std.HashMap.length_keys, size]

/-- Only the words count, not their order and not how often they come. -/
private theorem label?_ofWords_congr {words words' : List String} (h : ∀ word, word ∈ words' ↔ word ∈ words)
    (word : String) : (ofWords words').label? word = (ofWords words).label? word := by
  simp only [label?_ofWords, contains_ofWords, h word]

end KeywordTable

/-- Tables answer as a search through everything inserted would.  A symbol table has one entry for each literal, in the
order in which the literals first came; its positions are exactly those of the entries, and so within their bounds; and
a look-up finds the label of the first pair, in upper case.  A keyword table holds exactly the words inserted, each with
its upper-case form.  The sizes are the numbers of different literals and words.  Inserting a literal again changes
nothing, and keywords may also come in any order. -/
theorem tables_search (pairs : List (String × String)) (words : List String) :
    ((SymbolTable.ofPairs pairs).entries.toList.map Prod.fst = (pairs.map Prod.fst).eraseDups ∧
      ((SymbolTable.ofPairs pairs).entries.toList.map Prod.fst).Nodup ∧
      (∀ (literal : String) (i : Nat), (SymbolTable.ofPairs pairs).positions[literal]? = some i ↔
        ∃ label, (SymbolTable.ofPairs pairs).entries[i]? = some (literal, label)) ∧
      (∀ (literal : String) (i : Nat), (SymbolTable.ofPairs pairs).positions[literal]? = some i →
        i < (SymbolTable.ofPairs pairs).entries.size) ∧
      (∀ literal, (SymbolTable.ofPairs pairs).label? literal = (pairs.lookup literal).map upper) ∧
      (∀ literal label, (literal, label) ∈ (SymbolTable.ofPairs pairs).entries →
        (pairs.lookup literal).map upper = some label) ∧
      (SymbolTable.ofPairs pairs).size = (pairs.map Prod.fst).toFinset.card ∧
      ∀ before p after, pairs = before ++ p :: after → p.1 ∈ before.map Prod.fst →
        SymbolTable.ofPairs pairs = SymbolTable.ofPairs (before ++ after)) ∧
    (∀ word, (KeywordTable.ofWords words).contains word = true ↔ word ∈ words) ∧
      (∀ word, (KeywordTable.ofWords words).label? word = if word ∈ words then some (upper word) else none) ∧
      (KeywordTable.ofWords words).size = words.toFinset.card ∧
      ∀ words', (∀ word, word ∈ words' ↔ word ∈ words) →
        (KeywordTable.ofWords words').labels.Equiv (KeywordTable.ofWords words).labels := by
  have h := SymbolTable.lists_ofPairs pairs
  refine ⟨⟨h.literals, h.nodup, h.positions, ?_, h.label?_eq, h.labels, h.size_eq, ?_⟩,
    fun word => KeywordTable.contains_ofWords, ?_, KeywordTable.size_ofWords words, ?_⟩
  · intro literal i hi
    obtain ⟨label, he⟩ := (h.positions literal i).1 hi
    exact (Array.getElem?_eq_some_iff.1 he).1
  · rintro before p after rfl hp
    exact SymbolTable.ofPairs_of_repeated hp
  · intro word
    simp only [KeywordTable.label?_ofWords, KeywordTable.contains_ofWords]
  · intro words' hsame
    exact .of_forall_getElem?_eq (KeywordTable.label?_ofWords_congr hsame)

/-- A literal that comes again with another label, and words that come again and in another order. -/
theorem tables_search_repeated :
    (SymbolTable.ofPairs [("=", "equal"), ("+", "plus"), ("=", "assign")]).label? "=" = some (upper "equal") ∧
      (SymbolTable.ofPairs [("=", "equal"), ("+", "plus"), ("=", "assign")]).size = 2 ∧
      SymbolTable.ofPairs [("=", "equal"), ("+", "plus"), ("=", "assign")] =
        SymbolTable.ofPairs [("=", "equal"), ("+", "plus")] ∧
      (KeywordTable.ofWords ["if", "for", "if"]).size = 2 ∧
      (KeywordTable.ofWords ["for", "if"]).labels.Equiv (KeywordTable.ofWords ["if", "for", "if"]).labels := by
  obtain ⟨⟨-, -, -, -, hlabel, -, hsize, hrepeated⟩, -, -, hwords, hsame⟩ :=
    tables_search [("=", "equal"), ("+", "plus"), ("=", "assign")] ["if", "for", "if"]
  refine ⟨hlabel "=", hsize.trans (by decide), ?_, hwords.trans (by decide), hsame _ ?_⟩
  · exact hrepeated [("=", "equal"), ("+", "plus")] ("=", "assign") [] rfl (by decide)
  · intro word
    simp only [List.mem_cons, List.not_mem_nil, or_false]
    tauto

end LexTree
