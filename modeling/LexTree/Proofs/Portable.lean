import LexTree.Proofs.Margins

/-!
# What a language finds in a longer text

A bundled language finds the same boundary at a place of a text and at that place of a longer one around it, and leaves
notes that say the same (`Bundled.dispatch_within`).  This is shown for each predicate and carried through the order in
which boundaries are tested.  A string or comment has the same form in both texts and so ends at the same places
(`Bundled.opens_within`, `Form.Opens.sameEnd`).
-/

namespace LexTree

/-- The frame, a number of lines further down. -/
def Frame.down (lines : UInt32) (f : Frame) : Frame := { f with line := f.line + lines }

/-- Notes that say the same of a place in a text and of a place in a longer one, some lines further down. -/
structure Notes.Alike (lines : UInt32) (n n' : Notes) : Prop where
  startMarker : n'.startMarker = n.startMarker
  endMarker : n'.endMarker = n.endMarker
  suppressed : n'.suppressed = n.suppressed
  frames : n'.scratch.scope.frames = n.scratch.scope.frames.map (Frame.down lines)

namespace Notes.Alike

variable {lines : UInt32} {n n' : Notes}

private theorem clearMarkers (h : n.Alike lines n') : n.clearMarkers.Alike lines n'.clearMarkers :=
  ⟨rfl, rfl, h.suppressed, h.frames⟩

theorem fresh (h : n.Alike lines n') : n.fresh.Alike lines n'.fresh := ⟨rfl, rfl, rfl, h.frames⟩

private theorem mark (h : n.Alike lines n') (opening closing : String) :
    (n.mark opening closing).Alike lines (n'.mark opening closing) :=
  ⟨rfl, rfl, h.suppressed, h.frames⟩

end Notes.Alike

/-- The predicate gives the same answer in a text and in a longer one. -/
def Predicate.Portable (p : Predicate) : Prop :=
  ∀ {w : Margins} {c : Cursor} {n n' m : Notes} {b : Bool}, w.Fits c.text → c.index < c.text.size →
    n.Alike w.lines n' → p c n = .ok b m → ∃ m', p (c.within w) n' = .ok b m' ∧ m.Alike w.lines m'

private theorem Predicate.portable_never : Portable never := by
  intro w c n n' m b hw hc hn h
  cases h
  exact ⟨n', rfl, hn⟩

/-- Predicates that give the same answers find the same boundary. -/
private theorem Language.firstBoundary_within {L : Language} (hp : ∀ b : Boundary, (L.predicate b.edge).Portable)
    {w : Margins} {c : Cursor} (hw : w.Fits c.text) (hc : c.index < c.text.size) {bs : List Boundary} {n n' m : Notes}
    {found : Option Boundary} (hn : n.Alike w.lines n') (h : L.firstBoundary c bs n = .ok found m) :
    ∃ m', L.firstBoundary (c.within w) bs n' = .ok found m' ∧ m.Alike w.lines m' := by
  induction bs generalizing n n' with
  | nil =>
    cases h
    exact ⟨_, rfl, hn.clearMarkers⟩
  | cons b bs ih =>
    rw [firstBoundary] at h
    split at h
    · rename_i n₁ hyes
      cases h
      obtain ⟨m', hyes', hm⟩ := hp b hw hc hn.clearMarkers hyes
      exact ⟨m', firstBoundary_of_true hyes', hm⟩
    · rename_i n₁ hno
      obtain ⟨n₁', hno', hn₁⟩ := hp b hw hc hn.clearMarkers hno
      rw [firstBoundary_of_false hno']
      exact ih hn₁ h
    · cases h

/-! ### Java -/

namespace Java

private theorem portable_stringStart : stringStart.Portable := by
  intro w c n n' m b hw hc hn h
  unfold stringStart at h ⊢
  rw [Cursor.current?_within (Or.inl hc)]
  split at h
  all_goals cases h
  · exact ⟨_, rfl, hn.mark ..⟩
  · exact ⟨_, rfl, hn.mark ..⟩
  · exact ⟨_, rfl, hn⟩

private theorem portable_commentStart : commentStart.Portable := by
  intro w c n n' m b hw hc hn h
  unfold commentStart at h ⊢
  rw [Cursor.current?_within (Or.inl hc)]
  by_cases hslash : c.current? = some '/'
  · -- a slash is no newline, so the next character is seen as well
    rw [Cursor.peek?_within (hw.sees_succ hslash (by decide))]
    split at h
    all_goals cases h
    · exact ⟨_, rfl, rfl, rfl, hn.suppressed, hn.frames⟩
    · exact ⟨_, rfl, hn.mark ..⟩
    · exact ⟨_, rfl, hn⟩
  · split at h
    · contradiction
    · contradiction
    · cases h
      refine ⟨n', ?_, hn⟩
      split
      · contradiction
      · contradiction
      · rfl

private theorem portable_scopeStart : scopeStart.Portable := by
  intro w c n n' m b hw hc hn h
  unfold scopeStart at h ⊢
  rw [Cursor.current?_within (Or.inl hc)]
  by_cases hbrace : c.current? = some '\x7b'
  · rw [if_pos hbrace] at h ⊢
    cases h
    exact ⟨_, rfl, rfl, hn.endMarker, hn.suppressed, hn.frames⟩
  · rw [if_neg hbrace] at h ⊢
    cases h
    exact ⟨_, rfl, hn⟩

private theorem portable_scopeEnd : scopeEnd.Portable := by
  intro w c n n' m b hw hc hn h
  unfold scopeEnd at h ⊢
  rw [Cursor.current?_within (Or.inl hc)]
  by_cases hbrace : c.current? = some '\x7d'
  · rw [if_pos hbrace] at h ⊢
    cases h
    exact ⟨_, rfl, hn.startMarker, rfl, hn.suppressed, hn.frames⟩
  · rw [if_neg hbrace] at h ⊢
    cases h
    exact ⟨_, rfl, hn⟩

private theorem portable (b : Boundary) : (language.predicate b.edge).Portable := by
  cases b with
  | stringStart => exact portable_stringStart
  | commentStart => exact portable_commentStart
  | scopeStart => exact portable_scopeStart
  | scopeEnd => exact portable_scopeEnd

end Java

/-! ### Python -/

namespace Python

/-- Whether the innermost block ends here does not depend on where lines are counted from. -/
private theorem closesBlock_within {w : Margins} {c : Cursor} {n n' : Notes} (hn : n.Alike w.lines n') :
    closesBlock (c.within w) n' = closesBlock c n := by
  have hline : ∀ f : Frame, (c.within w).line = (f.down w.lines).line ↔ c.line = f.line :=
    fun f => UInt32.add_left_inj _
  unfold closesBlock Scratch.topFrame? Scratch.slot
  simp only [hn.frames, List.head?_map]
  cases n.scratch.scope.frames.head? with
  | none => rfl
  | some f =>
    simp only [Option.map_some, ne_eq, hline]
    rfl

private theorem openingQuote?_within {w : Margins} {c : Cursor} (hw : w.Fits c.text) (hc : c.index < c.text.size) :
    openingQuote? (c.within w) = openingQuote? c := by
  have hline : ∀ q ∈ quotes, '\n' ∉ q.toList := by decide
  rw [openingQuote?_eq_find, openingQuote?_eq_find]
  exact List.find?_congr fun q hq => Cursor.startsWith_within hw (Or.inl hc) (hline q hq)

private theorem portable_stringStart : stringStart.Portable := by
  intro w c n n' m b hw hc hn h
  unfold stringStart at h ⊢
  rw [closesBlock_within hn, openingQuote?_within hw hc]
  by_cases hblock : closesBlock c n = true
  · rw [if_pos hblock] at h ⊢
    cases h
    exact ⟨_, rfl, hn⟩
  · rw [if_neg hblock] at h ⊢
    split at h
    all_goals cases h
    · exact ⟨_, rfl, hn.mark ..⟩
    · exact ⟨_, rfl, hn⟩

private theorem portable_commentStart : commentStart.Portable := by
  intro w c n n' m b hw hc hn h
  unfold commentStart at h ⊢
  rw [Cursor.current?_within (Or.inl hc)]
  by_cases hhash : c.current? = some '#'
  · rw [if_pos hhash] at h ⊢
    cases h
    exact ⟨_, rfl, rfl, rfl, hn.suppressed, hn.frames⟩
  · rw [if_neg hhash] at h ⊢
    cases h
    exact ⟨_, rfl, hn⟩

private theorem endsLine_within {w : Margins} {c : Cursor} (hw : w.Fits c.text) (h : w.Sees c.text (c.index + 1)) :
    endsLine (c.within w) = endsLine c := by
  have hindex : (c.within w).index + 1 = c.index + 1 + w.offset := Nat.add_right_comm ..
  rw [endsLine, endsLine, hindex, Cursor.firstNonBlank?_within hw h]

private theorem portable_scopeStart : scopeStart.Portable := by
  intro w c n n' m b hw hc hn h
  unfold scopeStart at h ⊢
  rw [Cursor.current?_within (Or.inl hc)]
  by_cases hcolon : c.current? = some ':'
  · rw [endsLine_within hw (hw.sees_succ hcolon (by decide))]
    by_cases hends : (decide (c.current? = some ':') && endsLine c) = true
    · rw [if_pos hends] at h ⊢
      cases h
      exact ⟨_, rfl, rfl, hn.endMarker, hn.suppressed, congrArg (List.cons _) hn.frames⟩
    · rw [if_neg hends] at h ⊢
      cases h
      exact ⟨_, rfl, hn⟩
  · rw [decide_eq_false hcolon] at h ⊢
    cases h
    exact ⟨_, rfl, hn⟩

private theorem portable_scopeEnd : scopeEnd.Portable := by
  intro w c n n' m b hw hc hn h
  unfold scopeEnd at h ⊢
  rw [closesBlock_within hn]
  by_cases hblock : closesBlock c n = true
  · -- the frame given up is the same, some lines further down
    rw [if_pos hblock] at h ⊢
    unfold Scratch.popFrame Scratch.slot at h ⊢
    simp only [hn.frames]
    cases hf : n.scratch.scope.frames with
    | nil =>
      simp only [hf] at h
      cases h
    | cons frame frames =>
      simp only [hf] at h
      cases h
      exact ⟨_, rfl, hn.startMarker, hn.endMarker, rfl, rfl⟩
  · rw [if_neg hblock] at h ⊢
    cases h
    exact ⟨_, rfl, hn⟩

private theorem portable (b : Boundary) : (language.predicate b.edge).Portable := by
  cases b with
  | stringStart => exact portable_stringStart
  | commentStart => exact portable_commentStart
  | scopeStart => exact portable_scopeStart
  | scopeEnd => exact portable_scopeEnd

end Python

/-! ### The bundled languages -/

namespace Bundled

variable {L : Language} {w : Margins} {c : Cursor} {n n' m : Notes}

private theorem portable (hL : L ∈ languages) (b : Boundary) : (L.predicate b.edge).Portable := by
  simp only [languages, List.mem_cons, List.not_mem_nil, or_false] at hL
  rcases hL with rfl | rfl | rfl
  · exact Java.portable b
  · exact Python.portable b
  · cases b <;> exact Predicate.portable_never

theorem dispatch_within (hL : L ∈ languages) (hw : w.Fits c.text) (hc : c.index < c.text.size)
    (hn : n.Alike w.lines n') {b : Option Boundary} (h : L.dispatch c n = .ok b m) :
    ∃ m', L.dispatch (c.within w) n' = .ok b m' ∧ m.Alike w.lines m' :=
  Language.firstBoundary_within (portable hL) hw hc hn h

private theorem opening_one_line {forms : Boundary → List Form} (hL : (L, forms) ∈ grammars) (b : Boundary) :
    ∀ f ∈ forms b, '\n' ∉ f.opening.toList := by
  simp only [grammars, List.mem_cons, List.not_mem_nil, or_false, Prod.mk.injEq] at hL
  rcases hL with ⟨rfl, rfl⟩ | ⟨rfl, rfl⟩ <;> cases b <;> decide

/-- A string or comment has the same form in both texts. -/
theorem opens_within (hL : L ∈ languages) (hw : w.Fits c.text) (hc : c.index < c.text.size) {b : Boundary}
    (hb : b.isConstruct = true) (h : L.dispatch c n = .ok (some b) m) (hn : n.suppressed = false) {m' : Notes}
    (h' : L.dispatch (c.within w) n' = .ok (some b) m') (hn' : n'.suppressed = false) :
    ∃ f : Form, f.Opens (L.predicate b.closing) c m ∧ f.Opens (L.predicate b.closing) (c.within w) m' := by
  suffices key : ∀ forms, (L, forms) ∈ grammars →
      ∃ f : Form, f.Opens (L.predicate b.closing) c m ∧ f.Opens (L.predicate b.closing) (c.within w) m' by
    simp only [languages, List.mem_cons, List.not_mem_nil, or_false] at hL
    rcases hL with rfl | rfl | rfl
    · exact key Java.forms (by simp [grammars])
    · exact key Python.forms (by simp [grammars])
    · rw [Dull.dispatch_eq] at h
      cases h
  intro forms hL
  obtain ⟨f, hat, hf⟩ := opens hL hb h hn
  obtain ⟨f', hat', hf'⟩ := opens hL hb h' hn'
  rw [Form.at?_within hw (Or.inl hc) (opening_one_line hL b), hat] at hat'
  cases hat'
  exact ⟨f, hf, hf'⟩

end Bundled

/-- A construct of one form in both texts ends at the same places. -/
theorem Form.Opens.sameEnd {f : Form} {ends : Predicate} {w : Margins} {c : Cursor} {n n' : Notes}
    (h : f.Opens ends c n) (h' : f.Opens ends (c.within w) n') (hw : w.Fits c.text) :
    SameEnd w ends c.text n n' := by
  cases h.asks with
  | delimiter ne_empty one_line asked =>
    cases h'.asks with
    | delimiter _ _ asked' =>
      refine ⟨_, _, asked, asked', ?_⟩
      intro d hd hseen
      refine closesAt_within (hd ▸ hw) ?_ ne_empty one_line
      rcases hseen with hsees | hcloses
      · exact hsees
      · have hlt := lt_length_of_closesAt ne_empty hcloses
        rw [Array.length_toList] at hlt
        exact Or.inl hlt
    | lineEnd opening asked' => exact absurd (by decide : '\n' ∈ "\n".toList) one_line
  | lineEnd opening asked =>
    cases h'.asks with
    | delimiter ne_empty one_line asked' => exact absurd (by decide : '\n' ∈ "\n".toList) one_line
    | lineEnd _ asked' =>
      refine ⟨_, _, asked, asked', ?_⟩
      intro d hd _
      have hline : (d.within w).line = (c.within w).line ↔ d.line = c.line := UInt32.add_left_inj _
      simp only [ne_eq, hline]

end LexTree
