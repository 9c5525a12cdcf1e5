import LexTree.Proofs.Extent
import LexTree.Proofs.Progress

/-!
# Reports

A step reports at most one problem: a scope end with no scope open, at the place where it was found, or a construct that
the text cuts short, past the end of the text (`step_reports`).  The first moves the cursor on, the second ends the
scan; so the reports of a run are those of its stray scope ends, in the order of the text, and then at most one of a
construct (`Runs.diagnostics_eq`).

In the bundled languages a construct is cut short exactly if it has a closing delimiter and none stands behind its
opening (`step_reports_form`).  The text alone decides this, so the number of its lines does not matter.
-/

namespace LexTree

namespace State

variable {L : Language} {o : Options} {s s' t : State} {heads : List State} {b : Boundary} {n m : Notes} {body : Body}

/-! ### Constructs -/

/-- The step from `s` to `s'` finds a construct, with the notes `n`, and reads its body. -/
structure Reads (L : Language) (o : Options) (s : State) (b : Boundary) (n : Notes) (body : Body) (m : Notes)
    (s' : State) : Prop where
  read : readBody o (L.predicate b.closing) (s.cursor.stepsQuiet o (max n.startMarker.length 1)) s.cursor.line "" n =
    .ok body m
  index : body.cursor.index ≤ s'.cursor.index
  word : s'.word = ""
  events : s'.events.toList = s.events.toList ++ (s.wordLeaves L ++
    if b.included o then [s.constructLeaf b (bodyText n.startMarker m.endMarker body)] else []).map .leaf
  diagnostics : s'.diagnostics.toList = s.diagnostics.toList ++
    if missesEnd m.endMarker body then [⟨.unterminated b.leafName, s.cursor.line, body.cursor.index⟩] else []

theorem step_reads (hb : b.isConstruct = true) (found : L.dispatch s.cursor s.notes.fresh = .ok (some b) n)
    (h : s.step L o = .ok () s') : ∃ body m, Reads L o s b n body m s' := by
  obtain ⟨s₁, hs₁, rfl⟩ := boundary_of_step found h
  rw [boundary_construct hb] at hs₁
  obtain ⟨body, m, hread, rfl⟩ := read_of_construct hs₁
  have hcur : (flush { s with notes := n } L).cursor = s.cursor := cursor_flush ..
  have hnotes : (flush { s with notes := n } L).notes = n := notes_flush ..
  rw [inside, hcur, hnotes] at hread
  refine ⟨body, m, hread, ?_, ?_, ?_, ?_⟩
  · exact Nat.le_trans (reaches_skipRest (behindBody _ _ _ body m) o _).index (index_le_settle ..)
  · obtain ⟨he, -⟩ | ⟨he, -⟩ := settle_cases s.cursor _
    all_goals
      rw [he]
      exact (word_skipRest ..).trans (word_flush ..)
  · rw [events_settle, events_skipRest, events_behindBody, events_flush, hcur, hnotes, List.map_append,
      ← List.append_assoc]
    rfl
  · rw [diagnostics_settle, diagnostics_skipRest, diagnostics_behindBody, diagnostics_flush, hcur]

private theorem Reads.past (h : Reads L o s b n body m s') (hm : missesEnd m.endMarker body = true) :
    s.cursor.text.size ≤ body.cursor.index := by
  have keep : ∀ r r' : Reading, r.cursor.text = s.cursor.text → Reading.Turn o (L.predicate b.closing) r r' →
      r'.cursor.text = s.cursor.text := by
    rintro r r' ht ⟨notes, ch, -, -, rfl⟩
    exact (Cursor.reaches_stepQuiet o r.cursor).text.trans ht
  obtain ⟨n', ht, -, hnone⟩ := Reading.of_readBody keep
    (r := ⟨s.cursor.stepsQuiet o (max n.startMarker.length 1), s.cursor.line, "", n⟩)
    (Cursor.reaches_stepsQuiet o _ s.cursor).text h.read
  have ht : body.cursor.text = s.cursor.text := ht
  rw [← ht]
  exact Array.getElem?_eq_none_iff.1 (hnone (by simpa [missesEnd] using (Bool.and_eq_true_iff.1 hm).1))

/-! ### Steps -/

/-- Whether the step that begins here handles a scope end with no scope open. -/
def strays (L : Language) (s : State) : Bool := s.found L = some .scopeEnd && s.cursor.depth = 0

/-- The report of a scope end with no scope open. -/
def strayReport (s : State) : Diagnostic := ⟨.unbalancedScope, s.cursor.line, s.cursor.index⟩

/-- The step from `s` to `s'` reads a construct that the text cuts short, and reports it by `d`. -/
structure RunsOut (L : Language) (o : Options) (s : State) (d : Diagnostic) (s' : State) : Prop where
  past : s.cursor.text.size ≤ d.index
  left : ¬ s'.Inside
  reads : ∃ b n body m, b.isConstruct = true ∧ L.dispatch s.cursor s.notes.fresh = .ok (some b) n ∧
    Reads L o s b n body m s' ∧ missesEnd m.endMarker body = true ∧
    d = ⟨.unterminated b.leafName, s.cursor.line, body.cursor.index⟩

/-- What the step from `s` to `s'` reports. -/
inductive Reports (L : Language) (o : Options) (s s' : State) : List Diagnostic → Prop
  | nothing (calm : strays L s = false) : Reports L o s s' []
  | stray (stray : strays L s = true) : Reports L o s s' [s.strayReport]
  | cut {d : Diagnostic} (calm : strays L s = false) (out : RunsOut L o s d s') : Reports L o s s' [d]

theorem step_reports (h : s.step L o = .ok () s') :
    ∃ new, s'.diagnostics.toList = s.diagnostics.toList ++ new ∧ Reports L o s s' new := by
  obtain ⟨events, problems, he, -, hp⟩ := emits_step h
  cases he with
  | plain found each => exact ⟨[], hp, .nothing (by simp [strays, found_of_dispatch found])⟩
  | @construct b n problems found hb text cut =>
    have calm : strays L s = false := by
      cases b <;> simp_all [strays, found_of_dispatch found, Boundary.isConstruct]
    obtain ⟨body, m, hreads⟩ := step_reads hb found h
    refine ⟨_, hreads.diagnostics, ?_⟩
    split
    · rename_i hm
      have hpast := hreads.past hm
      refine .cut calm ⟨hpast, ?_, b, n, body, m, hb, found, hreads, hm, rfl⟩
      rw [Inside, text_step h]
      exact Nat.not_lt.2 (Nat.le_trans hpast hreads.index)
    · exact .nothing calm
  | opened found => exact ⟨[], hp, .nothing (by simp [strays, found_of_dispatch found])⟩
  | closed found inner => exact ⟨[], hp, .nothing (by simp [strays, inner])⟩
  | stray found outer => exact ⟨_, hp, .stray (by simp [strays, found_of_dispatch found, outer])⟩

/-! ### Runs -/

/-- The reports of a run are those of its stray scope ends, and then at most one of a construct that its last step has
read. -/
theorem Runs.diagnostics_eq (h : Runs L o s heads t) :
    ∃ cut : Option Diagnostic,
      t.diagnostics.toList = s.diagnostics.toList ++ ((heads.filter (strays L)).map strayReport ++ cut.toList) ∧
      ∀ d ∈ cut, ∃ v, heads.getLast? = some v ∧ v.step L o = .ok () t ∧ RunsOut L o v d t := by
  induction h with
  | done s => exact ⟨none, by simp, by simp⟩
  | @step s s' t heads hs h rest ih =>
    obtain ⟨new, hnew, hreports⟩ := step_reports h
    obtain ⟨cut, hcut, hlast⟩ := ih
    have hlast' : ∀ d ∈ cut, ∃ v, (s :: heads).getLast? = some v ∧ v.step L o = .ok () t ∧ RunsOut L o v d t := by
      intro d hd
      obtain ⟨v, hv, hout⟩ := hlast d hd
      exact ⟨v, by rw [List.getLast?_cons, hv]; rfl, hout⟩
    rw [hnew] at hcut
    cases hreports with
    | nothing calm =>
      refine ⟨cut, ?_, hlast'⟩
      rw [hcut, List.append_nil, List.filter_cons_of_neg (by simp [calm])]
    | stray stray =>
      refine ⟨cut, ?_, hlast'⟩
      rw [hcut, List.filter_cons_of_pos stray, List.map_cons, List.append_assoc s.diagnostics.toList]
      rfl
    | @cut d calm out =>
      -- the scan is over
      cases rest with
      | done _ =>
        refine ⟨some d, ?_, ?_⟩
        · rw [hnew, List.filter_cons_of_neg (by simp [calm])]
          rfl
        · rintro d ⟨⟩
          exact ⟨s, rfl, h, out⟩
      | step hs' _ _ => exact absurd hs' out.left

private theorem RunsOut.isUnterminated {d : Diagnostic} (h : RunsOut L o s d t) : d.problem.isUnterminated = true := by
  obtain ⟨b, n, body, m, -, -, -, -, rfl⟩ := h.reads
  rfl

theorem Runs.text_eq (h : Runs L o s heads t) : (∀ u ∈ heads, u.cursor.text = s.cursor.text) ∧
    t.cursor.text = s.cursor.text :=
  h.invariant (P := fun u => u.cursor.text = s.cursor.text) rfl fun _ _ hu _ hstep => (text_step hstep).trans hu

private theorem Runs.inside (h : Runs L o s heads t) : ∀ u ∈ heads, u.Inside := by
  intro u hu
  obtain ⟨before, after, -, -, hr⟩ := h.of_mem hu
  cases hr with
  | step hs _ _ => exact hs

theorem size_start (text : String) : (start text).cursor.text.size = text.length := by
  simp [start, Cursor.ofString, String.length_toList]

private theorem Runs.index_lt {text : String} (h : Runs L o (start text) heads t) :
    ∀ u ∈ heads, u.cursor.index < text.length := by
  intro u hu
  have hin : u.cursor.index < u.cursor.text.size := h.inside u hu
  rwa [h.text_eq.1 u hu, size_start] at hin

/-- The report of a construct is that of the last step. -/
private theorem Runs.runsOut_of_unterminated {text : String} (h : Runs L o (start text) heads t) {d : Diagnostic}
    (hd : d ∈ t.diagnostics.toList) (hun : d.problem.isUnterminated = true) :
    ∃ v, heads.getLast? = some v ∧ v.step L o = .ok () t ∧ RunsOut L o v d t := by
  obtain ⟨cut, hcut, hlast⟩ := h.diagnostics_eq
  rw [hcut, show (start text).diagnostics = #[] from rfl, List.nil_append, List.mem_append, Option.mem_toList] at hd
  rcases hd with hd | hd
  · obtain ⟨u, -, rfl⟩ := List.mem_map.1 hd
    cases hun
  · exact hlast d hd

/-- The heads of a run stand in the order of the text, and one that handles a stray scope end stands alone. -/
private theorem Runs.ordered (h : Runs L o s heads t) :
    heads.Pairwise fun u v => strays L u = true → u.cursor.index < v.cursor.index := by
  induction h with
  | done s => exact .nil
  | @step s s' t heads hs h rest ih =>
    refine .cons ?_ ih
    intro v hv hstray
    have hle : s'.cursor.index ≤ v.cursor.index := by
      refine (rest.invariant (P := fun u => s'.cursor.index ≤ u.cursor.index) (Nat.le_refl _) ?_).1 v hv
      intro u u' hu _ hstep
      obtain hlt | ⟨heq, -⟩ := step_progress hstep <;> omega
    have hdepth : s.cursor.depth = 0 := by simpa using (Bool.and_eq_true_iff.1 hstray).2
    obtain hlt | ⟨-, hlt⟩ := step_progress h <;> omega

section

variable {text : String}

private theorem Runs.size_getLast (h : Runs L o (start text) heads t) {v : State} (hv : heads.getLast? = some v) :
    v.cursor.text.size = text.length := by
  rw [h.text_eq.1 v (List.mem_of_getLast? hv)]
  exact size_start text

private theorem Runs.of_mem_strayReports (h : Runs L o (start text) heads t) {d : Diagnostic}
    (hd : d ∈ (heads.filter (strays L)).map strayReport) : d.problem = .unbalancedScope ∧ d.index < text.length := by
  obtain ⟨u, hu, rfl⟩ := List.mem_map.1 hd
  exact ⟨rfl, h.index_lt u (List.mem_of_mem_filter hu)⟩

/-- The reports of a scan are those of its stray scope ends, and behind them at most one past the end of the text. -/
private theorem Runs.reports_eq (h : Runs L o (start text) heads t) :
    ∃ cut : Option Diagnostic, t.diagnostics.toList = (heads.filter (strays L)).map strayReport ++ cut.toList ∧
      ∀ d ∈ cut, d.problem.isUnterminated = true ∧ text.length ≤ d.index := by
  obtain ⟨cut, hcut, hlast⟩ := h.diagnostics_eq
  refine ⟨cut, hcut, ?_⟩
  intro d hd
  obtain ⟨v, hv, -, hout⟩ := hlast d hd
  exact ⟨hout.isUnterminated, h.size_getLast hv ▸ hout.past⟩

private theorem Runs.pairwise_index (h : Runs L o (start text) heads t) :
    t.diagnostics.toList.Pairwise fun d d' => d.index < d'.index := by
  obtain ⟨cut, hdiag, hcut⟩ := h.reports_eq
  rw [hdiag, List.pairwise_append]
  refine ⟨?_, ?_, ?_⟩
  · rw [List.pairwise_map, List.pairwise_filter]
    exact h.ordered.imp fun hlt hu _ => hlt hu
  · cases cut <;> simp
  · intro d hd d' hd'
    exact Nat.lt_of_lt_of_le (h.of_mem_strayReports hd).2 (hcut d' (Option.mem_toList.1 hd')).2

private theorem Runs.filter_unbalanced (h : Runs L o (start text) heads t) :
    t.diagnostics.toList.filter (fun d => d.problem = .unbalancedScope) =
      (heads.filter (strays L)).map strayReport := by
  obtain ⟨cut, hdiag, hcut⟩ := h.reports_eq
  have hall : ((heads.filter (strays L)).map strayReport).filter (fun d => d.problem = .unbalancedScope) =
      (heads.filter (strays L)).map strayReport :=
    List.filter_eq_self.2 fun d hd => by simpa using (h.of_mem_strayReports hd).1
  have hnone : cut.toList.filter (fun d => d.problem = .unbalancedScope) = [] := by
    rw [List.filter_eq_nil_iff]
    intro d hd hstray
    have hun := (hcut d (Option.mem_toList.1 hd)).1
    rw [of_decide_eq_true hstray] at hun
    cases hun
  rw [hdiag, List.filter_append, hall, hnone, List.append_nil]

private theorem Runs.countP_unterminated_le (h : Runs L o (start text) heads t) :
    t.diagnostics.toList.countP (fun d => d.problem.isUnterminated) ≤ 1 := by
  obtain ⟨cut, hdiag, -⟩ := h.reports_eq
  have hnone : ((heads.filter (strays L)).map strayReport).countP (fun d => d.problem.isUnterminated) = 0 := by
    rw [List.countP_eq_zero]
    intro d hd
    simp [(h.of_mem_strayReports hd).1, Problem.isUnterminated]
  rw [hdiag, List.countP_append, hnone, Nat.zero_add]
  exact Nat.le_trans List.countP_le_length (by cases cut <;> simp)

private theorem Runs.getLast?_of_unterminated (h : Runs L o (start text) heads t) {d : Diagnostic}
    (hd : d ∈ t.diagnostics.toList) (hun : d.problem.isUnterminated = true) :
    t.diagnostics.toList.getLast? = some d ∧ text.length ≤ d.index := by
  obtain ⟨cut, hdiag, hcut⟩ := h.reports_eq
  rw [hdiag, List.mem_append, Option.mem_toList] at hd
  rcases hd with hd | hd
  · rw [(h.of_mem_strayReports hd).1] at hun
    cases hun
  · obtain rfl : cut = some d := hd
    exact ⟨by rw [hdiag]; simp, (hcut d rfl).2⟩

end

end State

/-! ### Looking for a closing delimiter -/

namespace Form

/-- Whether a construct of a form has a closing delimiter; one that ends with its line has none. -/
def isDelimited : Form → Bool
  | line _ => false
  | quoted _ | block _ _ => true

/-- A construct of a form that opens at `i` has an end in the text. -/
def Ends (f : Form) (cs : List Char) (i : Nat) : Prop := ∃ e, i + f.opening.length ≤ e ∧ f.closesAt cs e = true

end Form

private theorem Cursor.newline_of_stepQuiet {o : Options} {c : Cursor} {e : Nat} (hlo : c.index < e)
    (hhi : e < (c.stepQuiet o).index) : c.text[e]? = some '\n' := by
  fun_induction stepQuiet o c with
  | case1 c next hn ih =>
    have hi : next.index = c.index + 1 := index_advance o c
    have ht : next.text = c.text := text_advance o c
    rw [← ht]
    rcases Nat.lt_or_ge next.index e with hlt | hge
    · exact ih hlt hhi
    · rwa [show e = next.index by omega]
  | case2 c next hn =>
    have hi : next.index = c.index + 1 := index_advance o c
    omega

/-- A construct of a form that opened at `c` is being read, and its end has not been passed. -/
structure Reading.Looks (c : Cursor) (n : Notes) (f : Form) (r : Reading) : Prop where
  notes : r.notes = n
  text : r.cursor.text = c.text
  behind : c.index + f.opening.length ≤ r.cursor.index
  within : r.cursor.index ≤ c.text.size
  unmet : ∀ e, c.index + f.opening.length ≤ e → e < r.cursor.index → f.closesAt c.text.toList e = false

namespace Form.Opens

variable {o : Options} {ends : Predicate} {c : Cursor} {n m : Notes} {f : Form} {line : UInt32} {body : Body}

private theorem looks_inside (hf : f.Opens ends c n) (hne : f.closing ≠ "") (hline : '\n' ∉ f.closing.toList)
    (o : Options)
    (line : UInt32) : Reading.Looks c n f ⟨c.stepsQuiet o (max n.startMarker.length 1), line, "", n⟩ := by
  have hpos := hf.shown.length_pos
  have ht := (Cursor.reaches_stepsQuiet o (f.opening.length - 1) c).text
  have hi := hf.shown.index_stepsQuiet o
  rw [hf.opening]
  have hstep : c.stepsQuiet o (max f.opening.length 1) = (c.stepsQuiet o (f.opening.length - 1)).stepQuiet o := by
    rw [← Cursor.stepsQuiet_succ, show max f.opening.length 1 = f.opening.length - 1 + 1 by omega]
  refine ⟨rfl, (Cursor.reaches_stepsQuiet ..).text, ?_, hf.shown.index_inside_le o, ?_⟩
  · have hlt := Cursor.index_lt_stepQuiet o (c.stepsQuiet o (f.opening.length - 1))
    rw [hstep]
    show _ ≤ (Cursor.stepQuiet ..).index
    omega
  · intro e hlo hhi
    have hhi : e < (c.stepsQuiet o (max f.opening.length 1)).index := hhi
    rw [hstep] at hhi
    have hn := Cursor.newline_of_stepQuiet (by omega) hhi
    rw [ht] at hn
    exact closesAt_of_newline hne hline (by rw [Array.getElem?_toList]; exact hn)

/-- The end of a construct with a closing delimiter is found exactly if it has one, and otherwise the text is read to
its end. -/
private theorem body_ends (hf : f.Opens ends c n) (hd : f.isDelimited = true)
    (hread : readBody o ends (c.stepsQuiet o (max n.startMarker.length 1)) line "" n = .ok body m) :
    (body.terminated = true ∧ f.Ends c.text.toList c.index) ∨
      (body.terminated = false ∧ ¬ f.Ends c.text.toList c.index ∧ body.cursor.index = c.text.size) := by
  cases hf.asks with
  | lineEnd opening asked => cases hd
  | delimiter ne_empty one_line asked =>
    have keep : ∀ r r', Reading.Looks c n f r → Reading.Turn o ends r r' → Reading.Looks c n f r' := by
      rintro r r' ⟨hn, ht, hb, hw, hu⟩ ⟨notes, ch, he, hch, rfl⟩
      rw [hn, asked, ht] at he
      injection he with hno hn'
      have hlt := Cursor.lt_size_of_current hch
      have hstep := Cursor.index_lt_stepQuiet o r.cursor
      refine ⟨hn'.symm, (Cursor.reaches_stepQuiet o r.cursor).text.trans ht, Nat.le_of_lt (Nat.lt_of_le_of_lt hb hstep),
        ?_, ?_⟩
      · rw [← ht]
        exact Cursor.index_stepQuiet_le o hlt
      · -- the end is not under the cursor, and it is no newline
        intro e hlo hhi
        rcases Nat.lt_trichotomy e r.cursor.index with hlt | rfl | hgt
        · exact hu e hlo hlt
        · exact hno
        · have hnl := Cursor.newline_of_stepQuiet hgt hhi
          rw [ht] at hnl
          exact closesAt_of_newline ne_empty one_line (by rw [Array.getElem?_toList]; exact hnl)
    obtain ⟨n', ⟨hn, ht, hb, hw, hu⟩, hend, hnone⟩ :=
      Reading.of_readBody keep (hf.looks_inside ne_empty one_line o line) hread
    have hn : n' = n := hn
    have ht : body.cursor.text = c.text := ht
    rw [hn, asked, ht] at hend
    injection hend with hend _
    cases hterm : body.terminated with
    | true => exact Or.inl ⟨rfl, _, hb, hend.trans hterm⟩
    | false =>
      have hsize : c.text.size ≤ body.cursor.index := ht ▸ Array.getElem?_eq_none_iff.1 (hnone hterm)
      refine Or.inr ⟨rfl, ?_, Nat.le_antisymm hw hsize⟩
      rintro ⟨e, hlo, hcl⟩
      have hlt := lt_length_of_closesAt ne_empty hcl
      rw [Array.length_toList] at hlt
      rw [hu e hlo (Nat.lt_of_lt_of_le hlt hsize)] at hcl
      cases hcl

end Form.Opens

private theorem Bundled.isConstruct_of_at? {L : Language} {forms : Boundary → List Form} (hL : (L, forms) ∈ grammars)
    {b : Boundary} {cs : List Char} {i : Nat} {f : Form} (h : Form.at? (forms b) cs i = some f) :
    b.isConstruct = true := by
  have hmem := List.mem_of_find?_eq_some h
  simp only [grammars, List.mem_cons, List.not_mem_nil, or_false, Prod.mk.injEq] at hL
  rcases hL with ⟨rfl, rfl⟩ | ⟨rfl, rfl⟩
  all_goals
    cases b with
    | stringStart | commentStart => rfl
    | scopeStart | scopeEnd => cases hmem

/-- What can be told from white space is a delimiter. -/
private theorem Bundled.visible_closing {L : Language} {forms : Boundary → List Form} (hL : (L, forms) ∈ grammars)
    {b : Boundary} {f : Form} (hf : f ∈ forms b) :
    (f.closing.toList.any fun ch => !isWhiteSpace ch) = f.isDelimited := by
  simp only [grammars, List.mem_cons, List.not_mem_nil, or_false, Prod.mk.injEq] at hL
  rcases hL with ⟨rfl, rfl⟩ | ⟨rfl, rfl⟩
  all_goals
    revert f
    cases b <;> decide +kernel

namespace State

variable {L : Language} {forms : Boundary → List Form} {o : Options} {text : String} {s s' t : State}
  {heads : List State} {b : Boundary}

/-- The form of the string or comment with a closing delimiter that the step that begins here reads. -/
def delimitedForm? (L : Language) (forms : Boundary → List Form) (s : State) : Option Form :=
  (s.found L).bind fun b => (Form.at? (forms b) s.cursor.text.toList s.cursor.index).filter Form.isDelimited

/-- A construct is reported exactly if it has a closing delimiter and no end in the text, at the end of the text. -/
theorem step_reports_form (hL : (L, forms) ∈ Bundled.grammars) {n : Notes} (hb : b.isConstruct = true)
    (found : L.dispatch s.cursor s.notes.fresh = .ok (some b) n) (h : s.step L o = .ok () s') :
    ∃ f body m, f.Opens (L.predicate b.closing) s.cursor n ∧ Reads L o s b n body m s' ∧
      s.delimitedForm? L forms = (if f.isDelimited then some f else none) ∧
      (missesEnd m.endMarker body = true ↔
        f.isDelimited = true ∧ ¬ f.Ends s.cursor.text.toList s.cursor.index) ∧
      (missesEnd m.endMarker body = true → body.cursor.index = s.cursor.text.size) := by
  obtain ⟨f, hat, hf⟩ := Bundled.opens hL hb found rfl
  obtain ⟨body, m, hreads⟩ := step_reads hb found h
  obtain rfl : m = n := by
    obtain ⟨test, asked⟩ := hf.asks.exists_test
    obtain ⟨body', hread, -⟩ := readBody_of_test (o := o) asked (s.cursor.stepsQuiet o (max n.startMarker.length 1))
      s.cursor.line ""
    cases hread.symm.trans hreads.read
    rfl
  have hvisible := Bundled.visible_closing hL (List.mem_of_find?_eq_some hat)
  refine ⟨f, body, m, hf, hreads, ?_, ?_⟩
  · rw [delimitedForm?, found_of_dispatch found, Option.bind_some, hat, Option.filter_some]
  · rw [missesEnd, hf.closing, hvisible]
    cases hd : f.isDelimited with
    | false => simp
    | true =>
      rcases hf.body_ends hd hreads.read with ⟨hterm, hends⟩ | ⟨hterm, hends, hsize⟩
      · simp [hterm, hends]
      · simp [hterm, hends, hsize]

/-- The heads of steps that read a string or comment with a closing delimiter. -/
def delimiting (L : Language) (forms : Boundary → List Form) (heads : List State) : List State :=
  heads.filter fun u => (u.delimitedForm? L forms).isSome

/-- The construct that the last step has read is the last of its kind, and has no end in the text. -/
private theorem RunsOut.delimiting {d : Diagnostic} (h : RunsOut L o s d t) (hL : (L, forms) ∈ Bundled.grammars)
    (hstep : s.step L o = .ok () t) (hlast : heads.getLast? = some s) :
    d.index = s.cursor.text.size ∧
      ∃ f b text, (State.delimiting L forms heads).getLast? = some s ∧ s.delimitedForm? L forms = some f ∧
        ¬ f.Ends s.cursor.text.toList s.cursor.index ∧
        s.found L = some b ∧ d.problem = .unterminated b.leafName ∧ d.line = s.cursor.line ∧
        f.opening.toList <+: text.toList ∧
        (b.included o = true → (t.finish L).root.flatten.toList.getLast? = some (s.constructLeaf b text)) := by
  obtain ⟨b, n, body, m, hb, found, hreads, hm, rfl⟩ := h.reads
  obtain ⟨f, body', m', hf, hreads', hform, hmiss, hindex⟩ := step_reports_form hL hb found hstep
  obtain ⟨rfl, rfl⟩ : body' = body ∧ m' = m := by
    cases hreads'.read.symm.trans hreads.read
    exact ⟨rfl, rfl⟩
  obtain ⟨hd, hends⟩ := hmiss.1 hm
  rw [if_pos hd] at hform
  refine ⟨hindex hm, f, b, bodyText n.startMarker m'.endMarker body', ?_, hform, hends, found_of_dispatch found, rfl,
    rfl, ?_, ?_⟩
  · obtain ⟨before, rfl⟩ := List.getLast?_eq_some_iff.1 hlast
    rw [State.delimiting, List.filter_append, List.filter_cons_of_pos (by rw [hform]; rfl), List.filter_nil,
      List.getLast?_concat]
  · rw [hf.opening]
    exact toList_prefix_bodyText ..
  · intro hb
    have hflush : t.flush L = t := if_pos (by simp [hreads.word])
    rw [finish, hflush, Scope.flatten_ofEvents, hreads.events, if_pos hb]
    simp [Event.leaf?]

private theorem Runs.unterminated_of_not_ends (h : Runs L o s heads t) (hL : (L, forms) ∈ Bundled.grammars) {u : State}
    (hu : u ∈ heads) {f : Form} (hf : u.delimitedForm? L forms = some f)
    (hends : ¬ f.Ends u.cursor.text.toList u.cursor.index) :
    ∃ d ∈ t.diagnostics.toList, d.problem.isUnterminated = true := by
  obtain ⟨before, after, -, -, ha⟩ := h.of_mem hu
  obtain ⟨b, hfound, hform⟩ := Option.bind_eq_some_iff.1 hf
  obtain ⟨hat, hd⟩ := Option.filter_eq_some_iff.1 hform
  obtain ⟨n, found⟩ := dispatch_of_found hfound
  cases ha with
  | @step _ u' _ _ hin hstep rest =>
    obtain ⟨f', body, m, -, hreads, hf', hmiss, -⟩ :=
      step_reports_form hL (Bundled.isConstruct_of_at? hL hat) found hstep
    obtain ⟨-, rfl⟩ : f'.isDelimited = true ∧ f = f' := by
      rw [hf] at hf'
      split at hf'
      · exact ⟨by assumption, Option.some.inj hf'⟩
      · cases hf'
    obtain ⟨cut, hcut, -⟩ := rest.diagnostics_eq
    refine ⟨⟨.unterminated b.leafName, u.cursor.line, body.cursor.index⟩, ?_, rfl⟩
    rw [hcut, hreads.diagnostics, if_pos (hmiss.2 ⟨hd, hends⟩)]
    simp

/-- A construct is reported exactly if the last one with a closing delimiter has no end in the text. -/
private theorem Runs.unterminated_iff (h : Runs L o (start text) heads t) (hL : (L, forms) ∈ Bundled.grammars) :
    (∃ d ∈ t.diagnostics.toList, d.problem.isUnterminated = true) ↔
      ∃ u f, (delimiting L forms heads).getLast? = some u ∧ u.delimitedForm? L forms = some f ∧
        ¬ f.Ends text.toList u.cursor.index := by
  constructor
  · rintro ⟨d, hd, hun⟩
    obtain ⟨v, hv, hstep, hout⟩ := h.runsOut_of_unterminated hd hun
    obtain ⟨-, f, -, -, hu, hf, hends, -⟩ := hout.delimiting hL hstep hv
    rw [h.text_eq.1 v (List.mem_of_getLast? hv)] at hends
    exact ⟨v, f, hu, hf, hends⟩
  · rintro ⟨u, f, hu, hf, hends⟩
    have hu : u ∈ heads := List.mem_of_mem_filter (List.mem_of_getLast? hu)
    exact h.unterminated_of_not_ends hL hu hf (by rw [h.text_eq.1 u hu]; exact hends)

end State

open State in
/-- Problems are reported in the order of the text.  Each scope end handled with no scope open is reported once, where
it was found; and then there is at most one report more, of the construct that the text cuts short, which stands past
the end of the text.  In the languages with strings and comments it stands at the end of the text.  It is made exactly
if the last string or comment with a closing delimiter has no end in the text, and is of that one; its leaf, if such
leaves are included, is the last. -/
theorem scan_reports {L : Language} {o : Options} {text : String} {out : Output} (h : scan L o text = .ok out) :
    ∃ heads t, Runs L o (start text) heads t ∧ ¬ t.Inside ∧ out = t.finish L ∧
      out.diagnostics.toList.Pairwise (fun d d' => d.index < d'.index) ∧
      out.diagnostics.toList.filter (fun d => d.problem = .unbalancedScope) =
        (heads.filter (strays L)).map strayReport ∧
      (∀ d ∈ out.diagnostics.toList, d.problem = .unbalancedScope → d.index < text.length) ∧
      out.diagnostics.toList.countP (fun d => d.problem.isUnterminated) ≤ 1 ∧
      (∀ d ∈ out.diagnostics.toList, d.problem.isUnterminated = true →
        out.diagnostics.toList.getLast? = some d ∧ text.length ≤ d.index) ∧
      ∀ forms, (L, forms) ∈ Bundled.grammars →
        ((∃ d ∈ out.diagnostics.toList, d.problem.isUnterminated = true) ↔
          ∃ u f, (delimiting L forms heads).getLast? = some u ∧ u.delimitedForm? L forms = some f ∧
            ¬ f.Ends text.toList u.cursor.index) ∧
        ∀ d ∈ out.diagnostics.toList, d.problem.isUnterminated = true → d.index = text.length ∧
          ∃ u f b leafText, (delimiting L forms heads).getLast? = some u ∧ u.delimitedForm? L forms = some f ∧
            u.found L = some b ∧ d.problem = .unterminated b.leafName ∧ d.line = u.cursor.line ∧
            f.opening.toList <+: leafText.toList ∧
            (b.included o = true → out.root.flatten.toList.getLast? = some (u.constructLeaf b leafText)) := by
  obtain ⟨-, -, heads, t, hr, ht, rfl⟩ := scan_eq_ok_iff.1 h
  refine ⟨heads, t, hr, ht, rfl, ?_⟩
  rw [show (t.finish L).diagnostics = (t.flush L).diagnostics from rfl, diagnostics_flush]
  refine ⟨hr.pairwise_index, hr.filter_unbalanced, ?_, hr.countP_unterminated_le,
    fun d hd hun => hr.getLast?_of_unterminated hd hun, fun forms hL => ⟨hr.unterminated_iff hL, ?_⟩⟩
  · intro d hd hstray
    have hmem : d ∈ t.diagnostics.toList.filter (fun d => d.problem = .unbalancedScope) :=
      List.mem_filter.2 ⟨hd, decide_eq_true hstray⟩
    rw [hr.filter_unbalanced] at hmem
    exact (hr.of_mem_strayReports hmem).2
  · intro d hd hun
    obtain ⟨v, hv, hstep, hout⟩ := hr.runsOut_of_unterminated hd hun
    obtain ⟨hindex, f, b, leafText, hu, hf, -, hrest⟩ := hout.delimiting hL hstep hv
    exact ⟨hindex.trans (hr.size_getLast hv), v, f, b, leafText, hu, hf, hrest⟩

open State in
/-- A stray brace, a string that ends, and one that the text cuts short. -/
theorem scan_reports_java :
    ∃ out heads u f b leafText, scan Java.language {} "\x7d 'a'\n\"b" = .ok out ∧
      out.diagnostics.toList = [⟨.unbalancedScope, 1, 0⟩, ⟨.unterminated "STRING", 2, 8⟩] ∧
      out.diagnostics.toList.Pairwise (fun d d' => d.index < d'.index) ∧
      (heads.filter (strays Java.language)).map strayReport = [⟨.unbalancedScope, 1, 0⟩] ∧
      (delimiting Java.language Java.forms heads).getLast? = some u ∧
      u.delimitedForm? Java.language Java.forms = some f ∧ ¬ f.Ends "\x7d 'a'\n\"b".toList u.cursor.index ∧
      out.root.flatten.toList.getLast? = some (u.constructLeaf b leafText) := by
  have hdiag : (scan Java.language {} "\x7d 'a'\n\"b").toOption.map (fun out => out.diagnostics.toList) =
      some [⟨.unbalancedScope, 1, 0⟩, ⟨.unterminated "STRING", 2, 8⟩] := by
    decide +kernel
  cases h : scan Java.language {} "\x7d 'a'\n\"b" with
  | error e =>
    rw [h] at hdiag
    cases hdiag
  | ok out =>
    rw [h] at hdiag
    have hdiag : out.diagnostics.toList = _ := Option.some.inj hdiag
    obtain ⟨heads, t, -, -, -, hordered, hstray, -, -, -, hforms⟩ := scan_reports h
    obtain ⟨hends, hlast⟩ := hforms Java.forms (by simp [Bundled.grammars])
    have hcut : ⟨.unterminated "STRING", 2, 8⟩ ∈ out.diagnostics.toList := by simp [hdiag]
    obtain ⟨u, f, hu, hf, hnever⟩ := hends.1 ⟨_, hcut, rfl⟩
    obtain ⟨-, v, g, b, leafText, hv, -, -, -, -, -, hleaf⟩ := hlast _ hcut rfl
    obtain rfl : u = v := Option.some.inj (hu.symm.trans hv)
    rw [hdiag] at hstray
    exact ⟨out, heads, u, f, b, leafText, rfl, hdiag, hordered, hstray.symm, hu, hf, hnever, hleaf (by cases b <;> rfl)⟩

end LexTree
