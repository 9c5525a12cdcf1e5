import LexTree.Proofs.Emission
import LexTree.Proofs.Loops
import LexTree.Proofs.Position

/-!
# Strings and comments

What is left behind by the reading of a construct: `verbatim_cases` and `construct_cases` spell out the state and the
leaf, and everything that is known of a construct is read off them.  The other way round, `construct_of_read` gives the
state that a body leads to.  The cursor always comes to rest.
-/

namespace LexTree

namespace State

variable {o : Options} {ends : Predicate} {name : String} {s s' : State} {leaf : Leaf}

/-- The first place where the end of the construct under the cursor is looked for. -/
def inside (s : State) (o : Options) : Cursor := s.cursor.stepsQuiet o (max s.notes.startMarker.length 1)

/-- A construct is read up to its end, and its leaf ends with the closing delimiter; or the text runs out, which is
reported if the closing delimiter is more than white space. -/
theorem verbatim_cases (h : s.verbatim o ends name = .ok leaf s') :
    ∃ body notes, readBody o ends (s.inside o) s.cursor.line "" s.notes = .ok body notes ∧
      leaf.line = s.cursor.line ∧ leaf.indent = s.cursor.indent ∧
      ((body.terminated = true ∧
          leaf.text = s.notes.startMarker ++ body.text ++
            (if body.cursor.line ≠ body.line && notes.endMarker.toList.head? ≠ some '\n' then "\n" else "") ++
            notes.endMarker ∧
          s' = { s with
            cursor := body.cursor
            notes :=
              if !notes.endMarker.isEmpty && body.cursor.current? ≠ notes.endMarker.toList.head? then notes.suppress
              else notes }) ∨
        (body.terminated = false ∧ leaf.text = s.notes.startMarker ++ body.text ∧
          s' =
            if notes.endMarker.toList.any fun c => !isWhiteSpace c then
              report { s with cursor := body.cursor, notes } (.unterminated name) s.cursor.line
            else { s with cursor := body.cursor, notes })) := by
  unfold verbatim at h
  simp only at h
  split at h
  · cases h
  · rename_i body notes hb
    refine ⟨body, notes, hb, ?_⟩
    split at h
    · rename_i ht
      injection h with hl hs
      subst hl hs
      refine ⟨rfl, rfl, Or.inl ⟨ht, rfl, ?_⟩⟩
      split <;> rfl
    · rename_i ht
      injection h with hl hs
      subst hl hs
      exact ⟨rfl, rfl, Or.inr ⟨by simpa using ht, rfl, rfl⟩⟩

/-- A construct is read, its leaf kept if it is included, and its end skipped. -/
theorem construct_cases {included : Bool} (h : s.construct o ends name included = .ok () s') :
    ∃ leaf s₁, s.verbatim o ends name = .ok leaf s₁ ∧
      s' = skipRest (if included then { s₁ with events := s₁.events.push (.leaf leaf) } else s₁) o
        s₁.notes.endMarker.length := by
  unfold construct at h
  split at h
  · cases h
  · rename_i leaf s₁ hv
    injection h with _ h
    subst h
    refine ⟨leaf, s₁, hv, ?_⟩
    split <;> rfl

/-! ### Behind a construct -/

/-- The text of the leaf of a construct with the given delimiters. -/
def bodyText (opening closing : String) (body : Body) : String :=
  if body.terminated then
    opening ++ body.text ++
      (if body.cursor.line ≠ body.line && closing.toList.head? ≠ some '\n' then "\n" else "") ++ closing
  else opening ++ body.text

/-- Whether the cursor has gone past the closing delimiter. -/
def passedEnd (closing : String) (body : Body) : Bool :=
  body.terminated && (!closing.isEmpty && body.cursor.current? ≠ closing.toList.head?)

/-- Whether the text has cut short a construct that had to be closed. -/
def missesEnd (closing : String) (body : Body) : Bool :=
  !body.terminated && closing.toList.any fun c => !isWhiteSpace c

/-- The state behind the body of a construct. -/
def behindBody (s : State) (name : String) (included : Bool) (body : Body) (m : Notes) : State where
  cursor := body.cursor
  notes := if passedEnd m.endMarker body then m.suppress else m
  events :=
    if included then
      s.events.push (.leaf ⟨s.cursor.line, s.cursor.indent, .other, name,
        bodyText s.notes.startMarker m.endMarker body⟩)
    else s.events
  word := s.word
  diagnostics :=
    if missesEnd m.endMarker body then s.diagnostics.push ⟨.unterminated name, s.cursor.line, body.cursor.index⟩
    else s.diagnostics

theorem toList_prefix_bodyText (opening closing : String) (body : Body) :
    opening.toList <+: (bodyText opening closing body).toList := by
  unfold bodyText
  split <;> simp

theorem events_behindBody (s : State) (name : String) (included : Bool) (body : Body) (m : Notes) :
    (s.behindBody name included body m).events.toList = s.events.toList ++
      (if included then [⟨s.cursor.line, s.cursor.indent, .other, name,
        bodyText s.notes.startMarker m.endMarker body⟩] else []).map .leaf := by
  cases included <;> simp [behindBody]

theorem diagnostics_behindBody (s : State) (name : String) (included : Bool) (body : Body) (m : Notes) :
    (s.behindBody name included body m).diagnostics.toList = s.diagnostics.toList ++
      if missesEnd m.endMarker body then [⟨.unterminated name, s.cursor.line, body.cursor.index⟩] else [] := by
  simp only [behindBody]
  split <;> simp

/-- A construct whose body is read without fail leads behind it, and what is left of its end is skipped. -/
theorem construct_of_read {included : Bool} {body : Body} {m : Notes}
    (h : readBody o ends (s.inside o) s.cursor.line "" s.notes = .ok body m) :
    s.construct o ends name included = .ok () ((s.behindBody name included body m).skipRest o m.endMarker.length) := by
  unfold inside at h
  have hverb : s.verbatim o ends name =
      .ok ⟨s.cursor.line, s.cursor.indent, .other, name, bodyText s.notes.startMarker m.endMarker body⟩
        (s.behindBody name false body m) := by
    unfold verbatim bodyText behindBody passedEnd missesEnd
    simp only [h]
    generalize (!m.endMarker.isEmpty && decide (body.cursor.current? ≠ m.endMarker.toList.head?)) = passed
    generalize (m.endMarker.toList.any fun c => !isWhiteSpace c) = misses
    cases body.terminated <;> cases passed <;> cases misses <;> rfl
  have hmarker : (s.behindBody name false body m).notes.endMarker = m.endMarker := by
    unfold behindBody
    cases passedEnd m.endMarker body <;> rfl
  unfold construct
  rw [hverb]
  cases included with
  | true => exact congrArg (fun marker : String => EStateM.Result.ok () (skipRest _ o marker.length)) hmarker
  | false => exact congrArg (fun marker : String => EStateM.Result.ok () (skipRest _ o marker.length)) hmarker

theorem read_of_construct {included : Bool} (h : s.construct o ends name included = .ok () s') :
    ∃ body m, readBody o ends (s.inside o) s.cursor.line "" s.notes = .ok body m ∧
      s' = (s.behindBody name included body m).skipRest o m.endMarker.length := by
  obtain ⟨leaf, s₁, hv, -⟩ := construct_cases h
  obtain ⟨body, m, hb, -⟩ := verbatim_cases hv
  refine ⟨body, m, hb, ?_⟩
  rw [construct_of_read hb] at h
  injection h with _ h
  exact h.symm

/-! ### Rest -/

theorem rests_inside (hc : s.cursor.Countable) (h : s.cursor.Rests o) : (s.inside o).Rests o :=
  Cursor.rests_stepsQuiet hc h _

private theorem countable_of_reaches {c d : Cursor} (hr : c.Reaches d) (hc : c.Countable) : d.Countable := by
  rw [Cursor.Countable, hr.text]
  exact hc

private theorem rests_readBody {c : Cursor} {line : UInt32} {text : String} {notes notes' : Notes} {body : Body}
    (hc : c.Countable) (h : c.Rests o) (hb : readBody o ends c line text notes = .ok body notes') :
    body.cursor.Rests o := by
  have keep : ∀ r r' : Reading, r.cursor.Countable ∧ r.cursor.Rests o → Reading.Turn o ends r r' →
      r'.cursor.Countable ∧ r'.cursor.Rests o := by
    rintro r r' ⟨hc, hr⟩ ⟨n, ch, -, -, rfl⟩
    exact ⟨countable_of_reaches (Cursor.reaches_stepQuiet o r.cursor) hc, Cursor.rests_stepQuiet hc hr.stamps_succ⟩
  obtain ⟨n, ⟨-, hP⟩, -⟩ := Reading.of_readBody keep (r := ⟨c, line, text, notes⟩) ⟨hc, h⟩ hb
  exact hP

private theorem rests_verbatim (hc : s.cursor.Countable) (h : s.cursor.Rests o)
    (hv : s.verbatim o ends name = .ok leaf s') : s'.cursor.Rests o := by
  obtain ⟨body, notes, hb, -, -, hcases⟩ := verbatim_cases hv
  have hbody : body.cursor.Rests o := by
    refine rests_readBody ?_ (rests_inside hc h) hb
    exact countable_of_reaches (Cursor.reaches_stepsQuiet o _ s.cursor) hc
  rcases hcases with ⟨-, -, rfl⟩ | ⟨-, -, rfl⟩
  · exact hbody
  · split <;> exact hbody

theorem rests_skipRest (hc : s.cursor.Countable) (h : s.cursor.Rests o) (length : Nat) :
    (s.skipRest o length).cursor.Rests o := by
  unfold skipRest
  split
  · exact h
  · exact Cursor.rests_stepsQuiet hc h _

theorem rests_construct {included : Bool} (hc : s.cursor.Countable) (h : s.cursor.Rests o)
    (hs : s.construct o ends name included = .ok () s') : s'.cursor.Rests o := by
  obtain ⟨leaf, s₁, hv, rfl⟩ := construct_cases hs
  have h₁ := rests_verbatim hc h hv
  have hc₁ := countable_of_reaches (reaches_verbatim hv).1 hc
  split
  · exact rests_skipRest (s := { s₁ with events := s₁.events.push (.leaf leaf) }) hc₁ h₁ _
  · exact rests_skipRest hc₁ h₁ _

end State

end LexTree
