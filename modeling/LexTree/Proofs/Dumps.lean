import LexTree.Proofs.Names
import LexTree.Proofs.Quoted
import LexTree.Scope.Dump

/-!
# Reading dumps

A dump tells what it shows.  The tree dump has a line for the label and one for each entry of the walk
(`toList_dump`).  A line tells its entry (`line_inj`): the space in front tells the depth, a leaf begins with a digit
and a scope does not, the place of a scope stands behind the last parenthesis, and the quote that opens the text of a
leaf is known since a quote inside the text stands behind a backslash.  A walk tells its tokens, since a scope ends
where the walk comes back to its level (`Token.entriesList_inj`).  What a label or a symbolic name holds does not
matter, as long as it is on one line.
-/

namespace LexTree

/-! ### Walks -/

namespace Entry

/-- The number of scopes around a leaf or marker. -/
def depth : Entry → Nat
  | leaf depth _ => depth
  | scope depth .. => depth

/-- The symbolic name of a leaf, or the label of a scope. -/
def name : Entry → String
  | leaf _ l => l.name
  | scope _ _ _ label => label

end Entry

mutual

/-- The walk of a token at a depth. -/
def Token.entries (depth : Nat) : Token → List Entry
  | .leaf l => [.leaf depth l]
  | .marker line indent scope => .scope depth line indent scope.label :: scope.entries (depth + 1)

/-- The walk of the tokens of a scope at a depth. -/
def Scope.entries (depth : Nat) : Scope → List Entry
  | ⟨_, ⟨tokens⟩, _⟩ => Token.entriesList depth tokens

/-- The walk of a token sequence at a depth. -/
def Token.entriesList (depth : Nat) : List Token → List Entry
  | [] => []
  | t :: ts => t.entries depth ++ Token.entriesList depth ts

end

mutual

private theorem Token.toList_walkOnto (out : Array Entry) (depth : Nat) :
    (t : Token) → (t.walkOnto out depth).toList = out.toList ++ t.entries depth
  | .leaf l => by simp [Token.walkOnto, Token.entries]
  | .marker line indent scope => by
    rw [Token.walkOnto, Scope.toList_walkOnto _ (depth + 1) scope, Token.entries]
    simp

private theorem Scope.toList_walkOnto (out : Array Entry) (depth : Nat) :
    (s : Scope) → (s.walkOnto out depth).toList = out.toList ++ s.entries depth
  | ⟨_, ⟨tokens⟩, _⟩ => Token.toList_walkListOnto out depth tokens

private theorem Token.toList_walkListOnto (out : Array Entry) (depth : Nat) :
    (ts : List Token) → (Token.walkListOnto out depth ts).toList = out.toList ++ Token.entriesList depth ts
  | [] => by simp [Token.walkListOnto, Token.entriesList]
  | t :: ts => by
    rw [Token.walkListOnto, Token.toList_walkListOnto (t.walkOnto out depth) depth ts,
      Token.toList_walkOnto out depth t, Token.entriesList, List.append_assoc]

end

private theorem Scope.toList_walk (s : Scope) : s.walk.toList = s.entries 0 := Scope.toList_walkOnto #[] 0 s

/-- The walk of a token begins on its own level. -/
private theorem Token.exists_entriesList (depth : Nat) (t : Token) (ts : List Token) :
    ∃ e es, entriesList depth (t :: ts) = e :: es ∧ e.depth = depth := by
  cases t with
  | leaf l => exact ⟨_, _, rfl, rfl⟩
  | marker line indent scope => exact ⟨_, _, rfl, rfl⟩

/-- What comes next, if anything does, lies further out. -/
def Shallow (depth : Nat) (rest : List Entry) : Prop := ∀ e es, rest = e :: es → e.depth < depth

private theorem Shallow.entriesList {depth : Nat} {rest : List Entry} (h : Shallow depth rest) (ts : List Token) :
    Shallow (depth + 1) (Token.entriesList depth ts ++ rest) := by
  intro e es he
  cases ts with
  | nil => exact Nat.lt_succ_of_lt (h e es he)
  | cons t ts =>
    obtain ⟨e', es', hwalk, hdepth⟩ := Token.exists_entriesList depth t ts
    rw [hwalk] at he
    obtain ⟨rfl, -⟩ := List.cons.inj he
    omega

private theorem Shallow.ne {depth : Nat} {rest rest' : List Entry} (h : Shallow depth rest) (t : Token)
    (ts : List Token) : rest ≠ Token.entriesList depth (t :: ts) ++ rest' := by
  obtain ⟨e, es, hwalk, hdepth⟩ := Token.exists_entriesList depth t ts
  intro heq
  rw [hwalk] at heq
  have := h e _ heq
  omega

/-- Tokens are known from their walk, but for the positions kept in their scopes, and so is where the walk ends. -/
theorem Token.entriesList_inj {depth : Nat} {rest rest' : List Entry} :
    (ts us : List Token) → Shallow depth rest → Shallow depth rest' →
      entriesList depth ts ++ rest = entriesList depth us ++ rest' → bareList ts = bareList us ∧ rest = rest'
  | [], [], _, _, h => ⟨rfl, h⟩
  | [], u :: us, hr, _, h => absurd h (hr.ne u us)
  | t :: ts, [], _, hr', h => absurd h.symm (hr'.ne t ts)
  | .leaf l :: ts, .leaf l' :: us, hr, hr', h => by
    obtain ⟨hleaf, hrest⟩ := List.cons.inj h
    cases hleaf
    obtain ⟨hbare, rfl⟩ := entriesList_inj ts us hr hr' hrest
    exact ⟨congrArg (Token.leaf l :: ·) hbare, rfl⟩
  | .leaf _ :: _, .marker .. :: _, _, _, h => by cases (List.cons.inj h).1
  | .marker .. :: _, .leaf _ :: _, _, _, h => by cases (List.cons.inj h).1
  | .marker line indent ⟨label, ⟨inner⟩, _⟩ :: ts, .marker line' indent' ⟨label', ⟨inner'⟩, _⟩ :: us, hr, hr', h => by
    simp only [entriesList, entries, Scope.entries, List.cons_append, List.append_assoc] at h
    obtain ⟨hmarker, hrest⟩ := List.cons.inj h
    cases hmarker
    -- the tokens inside end where the walk comes back to this level
    obtain ⟨hinner, hrest⟩ := entriesList_inj inner inner' (hr.entriesList ts) (hr'.entriesList us) hrest
    obtain ⟨hbare, rfl⟩ := entriesList_inj ts us hr hr' hrest
    simp [bareList, bare, Scope.bare, hinner, hbare]

/-- A sound scope is known from its label and its walk. -/
private theorem Scope.eq_of_walk_eq {a b : Scope} (ha : a.Sound) (hb : b.Sound) (hlabel : a.label = b.label)
    (hwalk : a.walk.toList = b.walk.toList) : a = b := by
  apply Scope.eq_of_bare_eq a b ha hb
  rw [toList_walk, toList_walk] at hwalk
  obtain ⟨label, ⟨ts⟩, children⟩ := a
  obtain ⟨label', ⟨us⟩, children'⟩ := b
  have hnil : Shallow 0 [] := nofun
  obtain ⟨hbare, -⟩ := Token.entriesList_inj ts us hnil hnil (by simpa [Scope.entries] using hwalk)
  obtain rfl : label = label' := hlabel
  rw [Scope.bare, Scope.bare, hbare]

/-! ### Lines -/

/-- Lines, each with a newline behind it. -/
def unlines (ls : List (List Char)) : List Char := ls.flatMap (· ++ ['\n'])

private theorem unlines_inj {ls ls' : List (List Char)} (h : ∀ l ∈ ls, '\n' ∉ l) (h' : ∀ l ∈ ls', '\n' ∉ l)
    (heq : unlines ls = unlines ls') : ls = ls' := by
  induction ls generalizing ls' with
  | nil =>
    cases ls' with
    | nil => rfl
    | cons l ls' => simp [unlines] at heq
  | cons l ls ih =>
    cases ls' with
    | nil => simp [unlines] at heq
    | cons l' ls' =>
      simp only [unlines, List.flatMap_cons, List.append_assoc, List.singleton_append] at heq
      obtain ⟨rfl, hrest⟩ := cut_at_first (h l List.mem_cons_self) (h' l' List.mem_cons_self) heq
      rw [ih (fun m hm => h m (List.mem_cons_of_mem _ hm)) (fun m hm => h' m (List.mem_cons_of_mem _ hm)) hrest]

/-! ### Places -/

private theorem toList_placeText (line indent : UInt32) :
    (placeText line indent).toList = Nat.toDigits 10 line.toNat ++ ':' :: Nat.toDigits 10 indent.toNat := by
  simp [placeText]

private theorem not_mem_placeText {c : Char} (hc : c.isAlphanum = false) (hcolon : c ≠ ':') (line indent : UInt32) :
    c ∉ (placeText line indent).toList := by
  have hdigits : ∀ n, c ∉ Nat.toDigits 10 n := fun n => not_mem_toDigits (by decide) (by decide) hc
  simp [toList_placeText, hdigits, hcolon]

private theorem placeText_inj {line indent line' indent' : UInt32}
    (h : (placeText line indent).toList = (placeText line' indent').toList) : line = line' ∧ indent = indent' := by
  rw [toList_placeText, toList_placeText] at h
  have hcolon : ∀ n, ':' ∉ Nat.toDigits 10 n := fun n => not_mem_toDigits (by decide) (by decide) (by decide)
  obtain ⟨hline, hindent⟩ := cut_at_first (hcolon _) (hcolon _) h
  exact ⟨UInt32.toNat_inj.1 (toDigits_inj (by decide) (by decide) hline),
    UInt32.toNat_inj.1 (toDigits_inj (by decide) (by decide) hindent)⟩

/-! ### Leaves -/

/-- The columns of a leaf, divided by a mark. -/
def Leaf.columns (mark : Char) (l : Leaf) : List Char :=
  (placeText l.line l.indent).toList ++
    mark :: (l.rule.text.toList ++ mark :: (l.name.toList ++ mark :: (quote l.text).toList))

private theorem Leaf.toList_dumpLine (l : Leaf) : l.dumpLine.toList = l.columns ' ' ++ ['\n'] := by
  simp [dumpLine, columns]

private theorem Leaf.toList_flatLine (l : Leaf) : l.flatLine.toList = l.columns '\t' ++ ['\n'] := by
  simp [flatLine, columns]

private theorem Rule.text_inj {r r' : Rule} (h : r.text = r'.text) : r = r' := by
  revert h
  cases r <;> cases r' <;> decide

/-- The marks that divide columns. -/
def marks : List Char := [' ', '\t']

/-- A mark is no letter or digit, and none of the characters that places, quoted texts and lines end with. -/
private theorem apart_of_mem_marks {mark : Char} (h : mark ∈ marks) :
    mark.isAlphanum = false ∧ mark ≠ ':' ∧ mark ≠ '\\' ∧ mark ≠ '"' ∧ mark ≠ '\n' := by
  simp only [marks, List.mem_cons, List.not_mem_nil, or_false] at h
  rcases h with rfl | rfl <;> decide

private theorem Rule.isAlphanum_of_mem_text {r : Rule} {c : Char} (h : c ∈ r.text.toList) : c.isAlphanum = true := by
  have hletters : r.text.toList.all Char.isAlphanum = true := by cases r <;> decide
  exact List.all_eq_true.1 hletters c h

/-- The columns of a leaf tell the leaf, though its name may hold marks and quotes. -/
private theorem Leaf.columns_inj {mark : Char} (hmark : mark ∈ marks) {l l' : Leaf}
    (h : l.columns mark = l'.columns mark) : l = l' := by
  obtain ⟨hword, hcolon, hb, hq, -⟩ := apart_of_mem_marks hmark
  have hplace := not_mem_placeText hword hcolon
  have hrule : ∀ r : Rule, mark ∉ r.text.toList := by
    intro r hmem
    rw [Rule.isAlphanum_of_mem_text hmem] at hword
    cases hword
  -- place and rule are read from the front, the text from the end, and the name is what is left
  obtain ⟨hp, h⟩ := cut_at_first (hplace _ _) (hplace _ _) h
  obtain ⟨hr, h⟩ := cut_at_first (hrule _) (hrule _) h
  obtain ⟨hn, ht⟩ := append_quote_inj hb hq h
  obtain ⟨line, indent, rule, name, text⟩ := l
  obtain ⟨line', indent', rule', name', text'⟩ := l'
  obtain ⟨rfl, rfl⟩ := placeText_inj hp
  obtain rfl := Rule.text_inj (String.toList_inj.1 hr)
  obtain rfl := String.toList_inj.1 hn
  obtain rfl : text = text' := ht
  rfl

private theorem Leaf.newline_not_mem_columns {mark : Char} (hmark : mark ∈ marks) {l : Leaf}
    (h : '\n' ∉ l.name.toList) : '\n' ∉ l.columns mark := by
  obtain ⟨-, -, -, -, hne⟩ := apart_of_mem_marks hmark
  have hplace := not_mem_placeText (c := '\n') (by decide) (by decide) l.line l.indent
  have hrule : '\n' ∉ l.rule.text.toList := by cases l.rule <;> decide
  simp [columns, hplace, hrule, h, hne.symm, toList_quote, newline_not_mem_quoted]

/-- The columns of a leaf begin with a digit. -/
private theorem Leaf.exists_columns (mark : Char) (l : Leaf) :
    ∃ c rest, l.columns mark = c :: rest ∧ c.isDigit = true := by
  cases hdigits : Nat.toDigits 10 l.line.toNat with
  | nil => exact absurd hdigits Nat.toDigits_ne_nil
  | cons c cs =>
    have hc : c.isDigit = true := Nat.isDigit_of_mem_toDigits (by decide) (by decide) (hdigits ▸ List.mem_cons_self)
    exact ⟨c, _, by rw [columns, toList_placeText, hdigits]; rfl, hc⟩

/-! ### Entries -/

namespace Entry

/-- The line of an entry in the tree dump, without the space in front of it and the newline. -/
def body : Entry → List Char
  | leaf _ l => l.columns ' '
  | scope _ line indent label =>
    ['s', 'c', 'o', 'p', 'e', ' '] ++ (label.toList ++ [' '] ++ '(' :: ((placeText line indent).toList ++ [')']))

/-- The line of an entry in the tree dump. -/
def line (e : Entry) : List Char := List.replicate (2 * (e.depth + 1)) ' ' ++ e.body

variable {e e' : Entry}

private theorem exists_body (e : Entry) : ∃ c rest, e.body = c :: rest ∧ c ≠ ' ' := by
  cases e with
  | leaf depth l =>
    obtain ⟨c, rest, hbody, hc⟩ := l.exists_columns ' '
    refine ⟨c, rest, hbody, ?_⟩
    rintro rfl
    cases hc
  | scope depth line indent label => exact ⟨'s', _, rfl, by decide⟩

private theorem eq_of_body_eq (hdepth : e.depth = e'.depth) (h : e.body = e'.body) : e = e' := by
  have hscope : ∀ (l : Leaf) (rest : List Char), l.columns ' ' ≠ ['s', 'c', 'o', 'p', 'e', ' '] ++ rest := by
    intro l rest heq
    obtain ⟨c, rest', hl, hc⟩ := l.exists_columns ' '
    rw [hl] at heq
    obtain rfl : c = 's' := (List.cons.inj heq).1
    cases hc
  cases e with
  | leaf depth l =>
    cases e' with
    | leaf depth' l' =>
      obtain rfl : depth = depth' := hdepth
      rw [Leaf.columns_inj (by decide) h]
    | scope => exact absurd h (hscope _ _)
  | scope depth line indent label =>
    cases e' with
    | leaf => exact absurd h.symm (hscope _ _)
    | scope depth' line' indent' label' =>
      obtain rfl : depth = depth' := hdepth
      have hparen : ∀ line indent, '(' ∉ (placeText line indent).toList ++ [')'] := by
        intro line indent
        simp [not_mem_placeText (c := '(')]
      -- the place stands behind the last parenthesis, whatever the label holds
      obtain ⟨hl, hp⟩ := cut_at_last (hparen _ _) (hparen _ _) (List.append_cancel_left h)
      obtain ⟨rfl, rfl⟩ := placeText_inj (List.append_cancel_right hp)
      rw [String.toList_inj.1 (List.append_cancel_right hl)]

/-- The space in front of a line ends where the line begins. -/
private theorem replicate_append_inj {m n : Nat} {x y : List Char} (hx : ∃ c rest, x = c :: rest ∧ c ≠ ' ')
    (hy : ∃ c rest, y = c :: rest ∧ c ≠ ' ') (h : List.replicate m ' ' ++ x = List.replicate n ' ' ++ y) :
    m = n ∧ x = y := by
  obtain ⟨c, rest, rfl, hc⟩ := hx
  obtain ⟨d, rest', rfl, hd⟩ := hy
  induction m generalizing n with
  | zero =>
    cases n with
    | zero => exact ⟨rfl, h⟩
    | succ n => exact absurd (List.cons.inj h).1 hc
  | succ m ih =>
    cases n with
    | zero => exact absurd (List.cons.inj h).1.symm hd
    | succ n =>
      obtain ⟨rfl, hrest⟩ := ih (List.cons.inj h).2
      exact ⟨rfl, hrest⟩

theorem line_inj (h : e.line = e'.line) : e = e' := by
  obtain ⟨hdepth, hbody⟩ := replicate_append_inj e.exists_body e'.exists_body h
  exact eq_of_body_eq (by omega) hbody

private theorem newline_not_mem_line (h : '\n' ∉ e.name.toList) : '\n' ∉ e.line := by
  have hspace : '\n' ∉ List.replicate (2 * (e.depth + 1)) ' ' :=
    fun hmem => absurd (List.eq_of_mem_replicate hmem) (by decide)
  refine List.not_mem_append hspace ?_
  cases e with
  | leaf depth l => exact Leaf.newline_not_mem_columns (by decide) h
  | scope depth place indent label =>
    have hplace := not_mem_placeText (c := '\n') (by decide) (by decide) place indent
    have hlabel : '\n' ∉ label.toList ++ [' '] := List.not_mem_append h (by decide)
    exact List.not_mem_append (by decide) (List.not_mem_append hlabel (by simp [hplace]))

end Entry

/-! ### Dumps as lines -/

private theorem toList_indentOnto (out : String) (depth : Nat) :
    (indentOnto out depth).toList = out.toList ++ List.replicate (2 * depth) ' ' := by
  induction depth with
  | zero => simp [indentOnto]
  | succ depth ih =>
    rw [indentOnto, Nat.fold_succ, String.toList_append, ← indentOnto, ih, List.append_assoc]
    congr 1
    rw [show 2 * (depth + 1) = 2 * depth + 2 by omega, ← List.replicate_append_replicate]
    rfl

mutual

private theorem Token.toList_dumpOnto (out : String) (depth : Nat) :
    (t : Token) → (t.dumpOnto out (depth + 1)).toList = out.toList ++ unlines ((t.entries depth).map Entry.line)
  | .leaf l => by
    simp [Token.dumpOnto, Token.entries, unlines, Entry.line, Entry.body, Entry.depth, toList_indentOnto,
      Leaf.toList_dumpLine]
  | .marker line indent scope => by
    rw [Token.dumpOnto, Scope.toList_dumpOnto _ (depth + 1) scope, Token.entries]
    simp [unlines, Entry.line, Entry.body, Entry.depth, toList_indentOnto]

private theorem Scope.toList_dumpOnto (out : String) (depth : Nat) :
    (s : Scope) → (s.dumpOnto out (depth + 1)).toList = out.toList ++ unlines ((s.entries depth).map Entry.line)
  | ⟨_, ⟨tokens⟩, _⟩ => Token.toList_dumpListOnto out depth tokens

private theorem Token.toList_dumpListOnto (out : String) (depth : Nat) :
    (ts : List Token) → (Token.dumpListOnto out (depth + 1) ts).toList =
      out.toList ++ unlines ((Token.entriesList depth ts).map Entry.line)
  | [] => by simp [Token.dumpListOnto, Token.entriesList, unlines]
  | t :: ts => by
    rw [Token.dumpListOnto, Token.toList_dumpListOnto (t.dumpOnto out (depth + 1)) depth ts,
      Token.toList_dumpOnto out depth t, Token.entriesList]
    simp [unlines]

end

namespace Scope

/-- The tree dump has a line for the label and one for each entry of the walk. -/
theorem toList_dump (s : Scope) :
    s.dump.toList = unlines (("scope ".toList ++ s.label.toList) :: s.walk.toList.map Entry.line) := by
  rw [dump, toList_dumpOnto, toList_walk]
  simp [unlines]

/-- The flat dump has a line for each leaf. -/
private theorem toList_dumpFlat (s : Scope) :
    s.dumpFlat.toList = unlines (s.flatten.toList.map (Leaf.columns '\t')) := by
  have hfold : ∀ (ls : List Leaf) (out : String),
      (ls.foldl (fun out l => out ++ l.flatLine) out).toList = out.toList ++ unlines (ls.map (Leaf.columns '\t')) := by
    intro ls
    induction ls with
    | nil => simp [unlines]
    | cons l ls ih => simp [ih, unlines, Leaf.toList_flatLine]
  rw [dumpFlat, ← Array.foldl_toList, hfold]
  simp

/-- No label and no symbolic name goes over a line, neither here nor in the scopes inside. -/
structure OneLine (s : Scope) : Prop where
  label : '\n' ∉ s.label.toList
  walk : ∀ e ∈ s.walk, '\n' ∉ e.name.toList

variable {a b s : Scope}

private theorem OneLine.newline_not_mem_lines (h : s.OneLine) :
    ∀ l ∈ ("scope ".toList ++ s.label.toList) :: s.walk.toList.map Entry.line, '\n' ∉ l := by
  intro l hl
  rcases List.mem_cons.1 hl with rfl | hl
  · simp [h.label]
  · obtain ⟨e, he, rfl⟩ := List.mem_map.1 hl
    exact Entry.newline_not_mem_line (h.walk e (Array.mem_toList_iff.1 he))

private theorem OneLine.newline_not_mem_flat (h : s.OneLine) :
    ∀ l ∈ s.flatten.toList.map (Leaf.columns '\t'), '\n' ∉ l := by
  intro l hl
  obtain ⟨leaf, hleaf, rfl⟩ := List.mem_map.1 hl
  rw [flatten_eq_walk, Array.toList_filterMap] at hleaf
  obtain ⟨e, he, hsome⟩ := List.mem_filterMap.1 hleaf
  have hname := h.walk e (Array.mem_toList_iff.1 he)
  cases e with
  | leaf depth l =>
    cases hsome
    exact Leaf.newline_not_mem_columns (by decide) hname
  | scope => cases hsome

/-- A sound scope is known from its tree dump. -/
private theorem eq_of_dump_eq (ha : a.Sound) (hb : b.Sound) (hna : a.OneLine) (hnb : b.OneLine) (h : a.dump = b.dump) :
    a = b := by
  have hlines := congrArg String.toList h
  rw [toList_dump, toList_dump] at hlines
  obtain ⟨hlabel, hwalk⟩ := List.cons.inj (unlines_inj hna.newline_not_mem_lines hnb.newline_not_mem_lines hlines)
  have hinj : Function.Injective Entry.line := fun _ _ => Entry.line_inj
  exact eq_of_walk_eq ha hb (String.toList_inj.1 (List.append_cancel_left hlabel)) (hinj.list_map hwalk)

/-- The leaves of a scope are known from its flat dump. -/
private theorem flatten_eq_of_dumpFlat_eq (hna : a.OneLine) (hnb : b.OneLine) (h : a.dumpFlat = b.dumpFlat) :
    a.flatten = b.flatten := by
  have hlines := congrArg String.toList h
  rw [toList_dumpFlat, toList_dumpFlat] at hlines
  have hinj : Function.Injective (Leaf.columns '\t') := fun _ _ => Leaf.columns_inj (by decide)
  exact Array.toList_inj.1 (hinj.list_map (unlines_inj hna.newline_not_mem_flat hnb.newline_not_mem_flat hlines))

end Scope

/-! ### Scans -/

/-- An entry of a log is a scope nobody has named, or has the name of a leaf of the history. -/
private theorem Event.name_of_mem_logFrom {depth : Nat} {es : List Event} {e : Entry} (h : e ∈ logFrom depth es) :
    e.name = Scope.unknownLabel ∨ ∃ l ∈ es.filterMap leaf?, e.name = l.name := by
  induction es generalizing depth with
  | nil => cases h
  | cons event es ih =>
    rcases List.mem_append.1 h with h | h
    · cases event with
      | leaf l =>
        rw [List.mem_singleton.1 h]
        exact .inr ⟨l, by simp [leaf?], rfl⟩
      | opened line indent =>
        rw [List.mem_singleton.1 h]
        exact .inl rfl
      | closed => cases h
    · rcases ih h with hname | ⟨l, hl, hname⟩
      · exact .inl hname
      · exact .inr ⟨l, (List.sublist_cons_self event es).filterMap leaf? |>.subset hl, hname⟩

private theorem Scope.label_pushAt (s : Scope) (t : Token) (depth : Nat) : (s.pushAt t depth).label = s.label := by
  cases depth with
  | zero => exact label_push s t
  | succ depth =>
    rw [pushAt]
    split <;> rfl

private theorem Scope.label_ofEvents (events : Array Event) : (ofEvents events).label = fileLabel := by
  have hfold : ∀ (es : List Event) (d : EagerDraft), (es.foldl EagerDraft.apply d).root.label = d.root.label := by
    intro es
    induction es with
    | nil => exact fun d => rfl
    | cons e es ih =>
      intro d
      rw [List.foldl_cons, ih]
      cases e with
      | leaf l => exact label_pushAt ..
      | opened line indent => exact label_pushAt ..
      | closed => rfl
  rw [ofEvents_eq_ofEventsEagerly, ofEventsEagerly, hfold]
  rfl

/-- A scan with a bundled language keeps labels and names on one line. -/
private theorem Scope.oneLine_of_scan {L : Language} (hL : L ∈ Bundled.languages) {o : Options} {text : String}
    {out : Output} (h : scan L o text = .ok out) : out.root.OneLine := by
  have hnames := State.names_of_scan h
  obtain ⟨-, -, heads, t, -, -, rfl⟩ := State.scan_eq_ok_iff.1 h
  refine ⟨?_, ?_⟩
  · rw [State.finish, label_ofEvents]
    decide
  · intro e he
    rw [State.finish, ← Array.mem_toList_iff, walk_ofEvents] at he
    rcases Event.name_of_mem_logFrom he with hname | ⟨l, hl, hname⟩
    · rw [hname]
      decide
    · rw [hname]
      rw [← flatten_ofEvents, toList_flatten] at hl
      exact Bundled.one_line hL (hnames l hl)

private theorem Scope.sound_of_scan {L : Language} {o : Options} {text : String} {out : Output}
    (h : scan L o text = .ok out) : out.root.Sound := by
  obtain ⟨-, -, heads, t, -, -, rfl⟩ := State.scan_eq_ok_iff.1 h
  exact (made_ofEvents _).sound

/-- Dumps are unambiguous.  Sound scopes with the same tree dump are equal and scopes with the same flat dump have the
same leaves, whatever the texts of their leaves, as long as labels and names stay on one line.  The trees of bundled
languages are sound and have such labels and names. -/
theorem dumps_unambiguous :
    (∀ a b : Scope, a.Sound → b.Sound → a.OneLine → b.OneLine → a.dump = b.dump → a = b) ∧
      (∀ a b : Scope, a.OneLine → b.OneLine → a.dumpFlat = b.dumpFlat → a.flatten = b.flatten) ∧
      ∀ L ∈ Bundled.languages, ∀ (o : Options) (text : String) (out : Output), scan L o text = .ok out →
        out.root.Sound ∧ out.root.OneLine :=
  ⟨fun _ _ => Scope.eq_of_dump_eq, fun _ _ => Scope.flatten_eq_of_dumpFlat_eq,
    fun _ hL _ _ _ h => ⟨Scope.sound_of_scan h, Scope.oneLine_of_scan hL h⟩⟩

/-- A leaf in a scope whose label ends like a place. -/
def Scope.placed (name text : String) : Scope :=
  .ofTokens #[.marker 2 1 ((Scope.ofTokens #[.leaf ⟨2, 1, .keyword, name, text⟩]).withLabel "a (1:0)")]

private theorem Scope.sound_placed (name text : String) : (placed name text).Sound := by
  have hleaf : (Scope.ofTokens #[.leaf ⟨2, 1, .keyword, name, text⟩]).Sound :=
    sound_ofTokens (by simpa using Token.sound_leaf _)
  exact sound_ofTokens (by simpa using Token.sound_marker (hleaf.withLabel _))

/-- A quote that ends a name is told from one in a text. -/
theorem dumps_unambiguous_quote :
    (Scope.placed "A \"b" "c").dump ≠ (Scope.placed "A" "b \"c").dump ∧
      (Scope.placed "A \"b" "c").dumpFlat ≠ (Scope.placed "A" "b \"c").dumpFlat := by
  have ha : (Scope.placed "A \"b" "c").OneLine := ⟨by decide, by decide⟩
  have hb : (Scope.placed "A" "b \"c").OneLine := ⟨by decide, by decide⟩
  obtain ⟨htree, hflat, -⟩ := dumps_unambiguous
  refine ⟨fun heq => ?_, fun heq => ?_⟩
  · exact absurd (htree _ _ (Scope.sound_placed ..) (Scope.sound_placed ..) ha hb heq) (by decide)
  · exact absurd (hflat _ _ ha hb heq) (by decide)

end LexTree
