import LexTree.Proofs.Carried

/-!
# Scanning a text in two parts

Two texts that meet at the start of a line, outside every scope, can be scanned one by one: the tree of the whole is the
tree of the first followed by the tree of the second, moved down (`scan_append`).  The run over the whole text carries
the run over the first one up to the seam; there the blocks that Python has left open are closed, which changes nothing
in the finished tree; and from there on it carries the run over the second one.
-/

namespace LexTree

/-! ### Moving a tree down -/

mutual

/-- The token, a number of lines further down. -/
def Token.down (lines : UInt32) : Token → Token
  | .leaf l => .leaf (l.down lines)
  | .marker line indent scope => .marker (line + lines) indent (scope.down lines)

/-- The scope with all that is in it, at any depth, a number of lines further down. -/
def Scope.down (lines : UInt32) : Scope → Scope
  | ⟨label, ⟨tokens⟩, children⟩ => ⟨label, ⟨Token.downList lines tokens⟩, children⟩

/-- The token sequence, a number of lines further down. -/
def Token.downList (lines : UInt32) : List Token → List Token
  | [] => []
  | t :: ts => t.down lines :: Token.downList lines ts

end

variable {lines : UInt32}

private theorem Token.downList_eq_map (ts : List Token) : downList lines ts = ts.map (down lines) := by
  induction ts with
  | nil => rfl
  | cons t ts ih => rw [downList, ih, List.map_cons]

private theorem Token.isMarker_down (t : Token) : (t.down lines).isMarker = t.isMarker := by
  cases t <;> rfl

namespace Scope

private theorem toList_tokens_down (s : Scope) :
    (s.down lines).tokens.toList = s.tokens.toList.map (Token.down lines) := by
  obtain ⟨label, ⟨tokens⟩, children⟩ := s
  exact Token.downList_eq_map tokens

private theorem down_push (s : Scope) (t : Token) : (s.push t).down lines = (s.down lines).push (t.down lines) := by
  obtain ⟨label, ⟨tokens⟩, children⟩ := s
  simp [push, down, Token.downList_eq_map, Token.isMarker_down]

private theorem append_push (s other : Scope) (t : Token) : s.append (other.push t) = (s.append other).push t := by
  cases other
  simp [append, push]

end Scope

namespace Draft

/-- The draft moved down, with its outermost tokens behind those of a scope. -/
def downOnto (root : Scope) (lines : UInt32) (d : Draft) : Draft :=
  ⟨root.append (d.root.down lines), d.nested.map fun p => ⟨p.scope.down lines, p.line + lines, p.indent⟩⟩

variable {root : Scope}

private theorem downOnto_push (d : Draft) (t : Token) :
    (d.push t).downOnto root lines = (d.downOnto root lines).push (t.down lines) := by
  obtain ⟨outer, _ | ⟨⟨scope, line, indent⟩, rest⟩⟩ := d
  · simp only [push, downOnto, Scope.down_push, Scope.append_push, List.map_nil]
  · simp only [push, downOnto, Scope.down_push, List.map_cons]

private theorem downOnto_apply (d : Draft) (e : Event) :
    (d.apply e).downOnto root lines = (d.downOnto root lines).apply (e.down lines) := by
  cases e with
  | leaf l => exact downOnto_push d (.leaf l)
  | opened line indent => rfl
  | closed =>
    obtain ⟨outer, _ | ⟨⟨scope, line, indent⟩, rest⟩⟩ := d
    · rfl
    · exact downOnto_push ⟨outer, rest⟩ (.marker line indent scope)

private theorem downOnto_foldl (d : Draft) (es : List Event) :
    (es.foldl apply d).downOnto root lines = (es.map (Event.down lines)).foldl apply (d.downOnto root lines) := by
  induction es generalizing d with
  | nil => rfl
  | cons e es ih => rw [List.foldl_cons, ih, downOnto_apply, List.map_cons, List.foldl_cons]

private theorem closeWith_down (outer : Scope) (t : Token) (nested : List OpenScope) :
    closeWith (root.append (outer.down lines)) (t.down lines)
        (nested.map fun p => ⟨p.scope.down lines, p.line + lines, p.indent⟩) =
      root.append ((closeWith outer t nested).down lines) := by
  induction nested generalizing t with
  | nil => rw [List.map_nil, closeWith, closeWith, Scope.down_push, Scope.append_push]
  | cons p rest ih =>
    rw [List.map_cons, closeWith, closeWith, ← ih, Token.down, Scope.down_push]

private theorem finish_downOnto (d : Draft) : (d.downOnto root lines).finish = root.append (d.finish.down lines) := by
  obtain ⟨outer, _ | ⟨⟨scope, line, indent⟩, rest⟩⟩ := d
  · rfl
  · exact closeWith_down outer (.marker line indent scope) rest

end Draft

/-- Events that go on behind a closed tree, moved down, append their own tree to it. -/
private theorem Draft.finish_foldl_down (root : Scope) (events : Array Event) :
    ((events.toList.map (Event.down lines)).foldl apply ⟨root, []⟩).finish =
      root.append ((Scope.ofEvents events).down lines) := by
  have hstart : (⟨root, []⟩ : Draft) = downOnto root lines {} := rfl
  rw [hstart, ← downOnto_foldl, finish_downOnto, Scope.ofEvents, ofEvents, ← Array.foldl_toList]

/-! ### Languages that leave nothing behind -/

/-- Braces leave no frames behind. -/
private theorem Java.frames_of_dispatch {c : Cursor} {n m : Notes} {b : Option Boundary}
    (h : language.dispatch c n = .ok b m) : m.scratch.scope.frames = n.scratch.scope.frames := by
  rcases dispatch_cases c n with
    ⟨quote, -, -, hd⟩ | ⟨-, hd⟩ | ⟨-, hd⟩ | ⟨-, hd⟩ | ⟨-, hd⟩ | ⟨-, -, hd⟩
  all_goals
    rw [h] at hd
    cases hd
    rfl

/-- Dull opens no scope. -/
private theorem Dull.depth_eq_zero {o : Options} {text : String} {heads : List State} {t : State}
    (h : State.Runs language o (State.start text) heads t) : t.cursor.depth = 0 := by
  refine (h.invariant (P := fun u => u.cursor.depth = 0) rfl ?_).2
  intro u u' hu _ hstep
  have hle := State.depth_step_le hstep
  have hno : State.opensScope language u = false := rfl
  rw [hu, hno] at hle
  exact Nat.le_zero.1 hle

/-! ### Lines -/

/-- The lines of an output can be moved down without leaving the range of line numbers. -/
structure Output.Movable (lines : Nat) (out : Output) : Prop where
  tokens : ∀ e ∈ out.root.walk.toList, e.stamp.line.toNat + lines < UInt32.size
  diagnostics : ∀ d ∈ out.diagnostics.toList, d.line.toNat + lines < UInt32.size

namespace State

variable {L : Language} {o : Options} {heads : List State} {s s' t u v : State} {text A B : String}

private theorem line_of_boundary {b : Boundary} {d : Diagnostic} (h : s.boundary L o b = .ok () s')
    (hd : d ∈ s'.diagnostics.toList) : d ∈ s.diagnostics.toList ∨ d.line = s.cursor.line := by
  by_cases hc : b.isConstruct = true
  · rw [boundary_construct hc] at h
    obtain ⟨leaf, s₁, hv, rfl⟩ := construct_cases h
    have hd : d ∈ s₁.diagnostics.toList := by
      rw [diagnostics_skipRest] at hd
      split at hd <;> exact hd
    obtain ⟨body, notes, -, -, -, ⟨-, -, rfl⟩ | ⟨-, -, rfl⟩⟩ := verbatim_cases hv
    · exact Or.inl hd
    · split at hd
      · rcases Array.mem_push.1 (Array.mem_toList_iff.1 hd) with hmem | rfl
        · exact Or.inl (Array.mem_toList_iff.2 hmem)
        · exact Or.inr rfl
      · exact Or.inl hd
  · cases b with
    | stringStart | commentStart => exact absurd rfl hc
    | scopeStart =>
      rw [eq_of_scopeStart h, diagnostics_skipRest, openScope] at hd
      simp only [diagnostics_delimiter] at hd
      exact Or.inl hd
    | scopeEnd =>
      rw [eq_of_scopeEnd h, diagnostics_skipRest, diagnostics_delimiter, diagnostics_closeScope, List.mem_append] at hd
      refine hd.imp_right fun hd => ?_
      split at hd
      · rw [List.mem_singleton.1 hd]
      · cases hd

/-- What a step reports starts on the line of the cursor. -/
private theorem line_of_reported {d : Diagnostic} (h : s.step L o = .ok () s') (hd : d ∈ s'.diagnostics.toList) :
    d ∈ s.diagnostics.toList ∨ d.line = s.cursor.line := by
  obtain ⟨n, -, rfl⟩ | ⟨b, n, s₁, -, hb, rfl⟩ := step_cases h
  · rw [diagnostics_settle, (frame_plain ..).2] at hd
    exact Or.inl hd
  · rw [diagnostics_settle] at hd
    have hline := line_of_boundary hb hd
    rwa [cursor_flush, diagnostics_flush] at hline

/-- The tokens emitted from the start on stand on lines of the text. -/
private theorem EmitsAt.line_le {cs : List Char} {is : List Nat}
    (h : EmitsAt o cs (start text) is t) : ∀ f ∈ t.stamps, f.line.toNat ≤ 1 + cs.length := by
  obtain ⟨new, hnew, hat⟩ := h
  rw [hnew, show (start text).stamps = [] from rfl, List.nil_append]
  clear hnew
  induction hat with
  | nil => simp
  | @cons i f is new hf _ ih =>
    refine List.forall_mem_cons.2 ⟨?_, ih⟩
    rw [hf.1]
    exact lineAt_le cs i

private theorem Runs.movable {lines : Nat} (h : Runs L o (start text) heads t) (hL : L ∈ Bundled.languages)
    (hlines : lines + text.length < UInt32.size - 1) : (t.finish L).Movable lines := by
  have hlen : text.length < UInt32.size - 1 := by omega
  constructor
  · obtain ⟨hE, ht, hemit⟩ := h.exact_of_start (Or.inl hL) hlen
    have hflush := hE.emitsAt_flush L
    rw [ht] at hflush
    have hle := (hemit.trans hflush).line_le
    rw [String.length_toList] at hle
    intro e he
    -- the stamps of the walk are those of the events
    have hmem : e.stamp ∈ (t.finish L).root.walk.toList.map Entry.stamp := List.mem_map_of_mem he
    rw [show (t.finish L).root = Scope.ofEvents (t.flush L).events from rfl, Scope.walk_ofEvents, Event.log,
      Event.map_stamp_logFrom] at hmem
    have hline := hle _ hmem
    omega
  · rw [show (t.finish L).diagnostics = t.diagnostics from diagnostics_flush ..]
    refine h.invariant_along (P := fun u => ∀ d ∈ u.diagnostics.toList, d.line.toNat + lines < UInt32.size)
      (by simp [start]) ?_
    intro heads u u' hr hu _ hstep d hd
    rcases line_of_reported hstep hd with hold | hline
    · exact hu d hold
    · obtain ⟨hE, ht, -⟩ := hr.exact_of_start (Or.inl hL) hlen
      have hstamp : u.cursor.line.toNat = lineAt u.cursor.text.toList u.cursor.index := hE.stamps.1
      have hle := lineAt_le text.toList u.cursor.index
      rw [← ht, ← hstamp, ht, String.length_toList] at hle
      rw [hline]
      omega

/-! ### At the start of a line -/

/-- Behind a final newline no word is being gathered, and the indent is none. -/
private theorem Exact.behind_newline (h : Exact o u) (hi : u.cursor.index = u.cursor.text.size)
    (hlast : u.cursor.text.toList.getLast? = some '\n') :
    u.word = "" ∧ u.cursor.indent = 0 ∧ u.cursor.line = 1 + UInt32.ofNat (u.cursor.text.toList.count '\n') := by
  have hlen : u.cursor.text.toList.length = u.cursor.index := by rw [Array.length_toList, hi]
  rw [List.getLast?_eq_getElem?, hlen] at hlast
  obtain ⟨hlt, -⟩ := List.getElem?_eq_some_iff.1 hlast
  refine ⟨?_, ?_, ?_⟩
  · -- a word would have to end in the newline
    by_contra hword
    have hpos : 0 < u.word.length := by
      rw [← String.length_toList, List.length_pos_iff]
      exact fun hn => hword (String.toList_eq_nil_iff.1 hn)
    exact h.one_line (u.cursor.index - 1) (by omega) (by omega) hlast
  · have hindent : u.cursor.indent = indentAt o u.cursor.text.toList u.cursor.index := h.stamps.2
    rw [hindent, show u.cursor.index = u.cursor.index - 1 + 1 by omega, indentAt_succ_of_newline hlast,
      List.drop_eq_nil_of_le (by omega)]
    rfl
  · have hline : u.cursor.line.toNat = 1 + (u.cursor.text.toList.take u.cursor.index).count '\n' := h.stamps.1
    rw [List.take_of_length_le (by omega)] at hline
    rw [← UInt32.ofNat_toNat (x := u.cursor.line), hline, UInt32.ofNat_add]
    rfl

private theorem carries_start (A B : String) :
    Carries (.followedBy B) [] [] (start A).fresh (start (A ++ B)).fresh := by
  refine ⟨?_, ⟨rfl, rfl, rfl, rfl⟩, rfl, rfl, rfl⟩
  rw [show (start A).fresh.cursor = Cursor.ofString A from rfl, Cursor.within]
  simp only [Cursor.ofString, Margins.around_followedBy]
  rfl

/-- Nothing is moved if nothing stands before. -/
private theorem Carries.eq_of_before_nil {w : Margins} (h : Carries w [] [] u v) (hw : w.before = []) :
    v.events = u.events ∧ v.diagnostics = u.diagnostics := by
  have hlines : w.lines = 0 := by rw [Margins.lines, hw]; rfl
  have hoffset : w.offset = 0 := by rw [Margins.offset, hw]; rfl
  have hevent : ∀ e : Event, e.down 0 = e := by
    intro e
    cases e <;> simp [Event.down, Leaf.down]
  constructor
  · refine Array.ext' ?_
    rw [h.events, hlines, List.nil_append]
    exact List.map_id'' hevent _
  · refine Array.ext' ?_
    rw [h.diagnostics, hlines, hoffset, List.nil_append]
    exact List.map_id'' (fun d => by simp [Diagnostic.moved]) _

/-- The run over two texts comes to the seam in the state in which the run over the first one ends. -/
private theorem Runs.to_seam (h : Runs L o (start A) heads u) (hL : L ∈ Bundled.languages) (hend : ¬ u.Inside)
    (hcut : u.cut = false) (hlen : A.length + B.length < UInt32.size - 1) (hA : A.toList.getLast? = some '\n')
    {ch : Char} (hB : B.toList.head? = some ch) (hch : Margins.IsContent ch) :
    ∃ heads' v, Runs L o (start (A ++ B)) heads' v ∧
      v.cursor = { (Cursor.ofString B).within (.following A) with depth := u.cursor.depth } ∧
      u.word = "" ∧ v.word = "" ∧ v.events = u.events ∧ v.diagnostics = u.diagnostics := by
  obtain ⟨heads', v, hr, hcarry, hspan⟩ :=
    h.carried hL (by omega) (Margins.fits_followedBy hA hB hch) (carries_start A B) (Or.inr hcut)
  obtain ⟨hE, ht, -⟩ := h.exact_of_start (Or.inl hL) (by omega)
  have htext : u.cursor.text = A.toList.toArray := Array.ext' ht
  have hi : u.cursor.index = u.cursor.text.size := by
    have hne : B.toList ≠ [] := List.ne_nil_of_mem (List.mem_of_head? hB)
    exact Nat.le_antisymm (hspan.resolve_right hne) (Nat.not_lt.1 hend)
  obtain ⟨hword, hindent, hline⟩ := hE.behind_newline hi (ht ▸ hA)
  obtain ⟨hevents, hdiagnostics⟩ := hcarry.eq_of_before_nil rfl
  refine ⟨heads', v, hr, ?_, hword, hcarry.word.trans hword, hevents, hdiagnostics⟩
  rw [show v.cursor = u.cursor.within (.followedBy B) from hcarry.cursor]
  simp only [Cursor.within, Cursor.ofString, hindent, hline, hi, htext, Margins.around_followedBy,
    Margins.around_following]
  simp [Margins.offset, Margins.lines, Margins.followedBy, Margins.following]

/-! ### Closing what is open -/

/-- Two texts meet where the second begins: all scopes are closed, and the first has given its output. -/
structure AtSeam (A B : String) (out : Output) (v : State) : Prop where
  cursor : v.cursor = (Cursor.ofString B).within (.following A)
  frames : v.notes.scratch.scope.frames = []
  word : v.word = ""
  draft : v.draft = ⟨out.root, []⟩
  diagnostics : v.diagnostics = out.diagnostics

private theorem flush_of_word (h : u.word = "") : u.flush L = u := if_pos (by rw [h]; rfl)

private theorem finish_of_word (h : u.word = "") : u.finish L = ⟨u.draft.finish, u.diagnostics⟩ := by
  unfold finish
  rw [flush_of_word h]
  rfl

private theorem draft_of_depth (h : Runs L o (start A) heads u) (hd : u.cursor.depth = 0) :
    u.draft = ⟨u.draft.finish, []⟩ := by
  have hnested : u.draft.nested = [] := List.eq_nil_of_length_eq_zero (by rw [← h.depth_eq.2, hd])
  generalize u.draft = d at *
  obtain ⟨root, nested⟩ := d
  subst hnested
  rfl

private theorem Runs.frames_eq_nil (hL : L = Java.language ∨ L = Dull.language) (h : Runs L o (start A) heads u) :
    u.notes.scratch.scope.frames = [] := by
  refine (h.invariant (P := fun u => u.notes.scratch.scope.frames = []) rfl ?_).2
  intro s s' hs _ hstep
  rcases hL with rfl | rfl
  · obtain ⟨s₁, b, n, hs₁, found, hn⟩ := (Java.honest s).step_ok o
    rw [hstep] at hs₁
    cases hs₁
    rw [hn, Java.frames_of_dispatch found]
    exact hs
  · obtain ⟨s₁, b, n, hs₁, found, hn⟩ := (Dull.honest s).step_ok o
    rw [hstep] at hs₁
    cases hs₁
    rw [Dull.dispatch_eq] at found
    cases found
    rw [hn]
    exact hs

end State

namespace Python

open State

variable {o : Options} {text : String} {heads : List State} {v : State} {ch : Char}

/-- At content without indent, other than a hash or a colon, the innermost open block is closed. -/
private theorem dispatch_at_content {frame : Frame} {frames : List Frame}
    (hf : v.notes.scratch.scope.frames = frame :: frames)
    (hline : v.cursor.line ≠ frame.line) (hindent : v.cursor.indent = 0) (hch : v.cursor.current? = some ch)
    (hhash : ch ≠ '#') (hcolon : ch ≠ ':') :
    ∃ n, language.dispatch v.cursor v.notes.fresh = .ok (some .scopeEnd) n ∧ n.suppressed = true ∧ n.endMarker = "" ∧
      n.scratch.scope.frames = frames := by
  have hcloses : closesBlock v.cursor v.notes.fresh = true := by
    have htop : v.notes.fresh.scratch.topFrame? .scope = some frame := congrArg List.head? hf
    simp [closesBlock, htop, hline, hindent]
  rcases dispatch_cases v.cursor v.notes.fresh with
    ⟨quote, -, hno, -⟩ | ⟨hc, -⟩ | ⟨hc, -, -⟩ | ⟨frame', frames', hf', -, hd⟩ | ⟨-, hno, -⟩
  · rw [hcloses] at hno
    cases hno
  · rw [hch] at hc
    exact absurd (Option.some.inj hc) hhash
  · rw [hch] at hc
    exact absurd (Option.some.inj hc) hcolon
  · obtain ⟨-, rfl⟩ := List.cons.inj (hf.symm.trans hf')
    exact ⟨_, hd, rfl, rfl, rfl⟩
  · rw [hcloses] at hno
    cases hno

/-- There all open blocks are closed, one after the other, and nothing else happens. -/
private theorem close_blocks (hlen : text.length < UInt32.size - 1) (h : Runs language o (start text) heads v)
    (hch : v.cursor.current? = some ch) (hcontent : Margins.IsContent ch) (hhash : ch ≠ '#') (hcolon : ch ≠ ':')
    (hindent : v.cursor.indent = 0) (hword : v.word = "") :
    ∃ heads' v', Runs language o v heads' v' ∧ v'.cursor = { v.cursor with depth := 0 } ∧
      v'.notes.scratch.scope.frames = [] ∧ v'.word = "" ∧ v'.draft = ⟨v.draft.finish, []⟩ ∧
      v'.diagnostics = v.diagnostics := by
  obtain ⟨depth, hdepth⟩ : ∃ depth, v.cursor.depth = depth := ⟨_, rfl⟩
  induction depth generalizing v heads with
  | zero =>
    have hframes : v.notes.scratch.scope.frames = [] := by
      rw [h.lockstep.2, ← List.length_eq_zero_iff, Draft.length_frames, ← h.depth_eq.2, hdepth]
    exact ⟨[], v, .done v, by rw [← hdepth], hframes, hword, draft_of_depth h hdepth, rfl⟩
  | succ depth ih =>
    -- the blocks were opened on earlier lines, since there is content here
    have hlen' : v.draft.frames.length = depth + 1 := by rw [Draft.length_frames, ← h.depth_eq.2, hdepth]
    obtain ⟨frame, frames, hf⟩ := List.exists_cons_of_length_eq_add_one hlen'
    have hline : frame.line < v.cursor.line :=
      (deep_of_runs hlen h).2.line_lt (Cursor.not_idle_of_current hch hcontent.1 hcontent.2 hhash) (by simp [hf])
    obtain ⟨n, found, stays, silent, hn⟩ := dispatch_at_content (h.lockstep.2.trans hf) (UInt32.ne_of_lt hline).symm
      hindent hch hhash hcolon
    have hstep := step_of_dedented (o := o) found stays silent (by omega)
    rw [flush_of_word (by exact hword)] at hstep
    have hdraft : (State.closeScope { v with notes := n }).draft = v.draft.closeScope := by
      have hevents := events_closeScope { v with notes := n }
      rw [Boundary.scopeEvents, if_neg (by exact hdepth ▸ Nat.succ_ne_zero depth)] at hevents
      exact draft_of_events hevents
    have hcur : (State.closeScope { v with notes := n }).cursor = { v.cursor with depth := depth } := by
      rw [cursor_closeScope, hdepth]
      rfl
    have hdiag : (State.closeScope { v with notes := n }).diagnostics = v.diagnostics := by
      simp [State.closeScope, hdepth]
    obtain ⟨heads', v', hr, hcur', hframes, hword', hdraft', hdiag'⟩ :=
      ih (h.snoc (Cursor.lt_size_of_current hch) hstep) (by rw [hcur]; exact hch) (by rw [hcur]; exact hindent)
        (by rw [word_closeScope]; exact hword) (by rw [hcur])
    refine ⟨v :: heads', v', .step (Cursor.lt_size_of_current hch) hstep hr, ?_, hframes, hword', ?_, ?_⟩
    · rw [hcur', hcur]
    · rw [hdraft', hdraft, Draft.finish_closeScope]
    · rw [hdiag', hdiag]

end Python

/-- A text that begins with the given character goes on at the top level behind another one: the first leaves no scope
open, or the second closes what is open. -/
def GoesOn (L : Language) (o : Options) (A : String) (ch : Char) : Prop :=
  L = Dull.language ∨
    L = Java.language ∧ (∀ t, (State.start A).run L o = .ok () t → t.cursor.depth = 0) ∨
    L = Python.language ∧ ch ≠ '#' ∧ ch ≠ ':'

namespace State

variable {L : Language} {o : Options} {heads : List State} {s s' t u v : State} {A B text : String} {ch : Char}

/-- The run over two texts comes to the seam with all scopes closed. -/
private theorem Runs.at_seam (h : Runs L o (start A) heads u) (hL : L ∈ Bundled.languages) (hend : ¬ u.Inside)
    (hcut : u.cut = false) (hlen : A.length + B.length < UInt32.size - 1) (hA : A.toList.getLast? = some '\n')
    (hB : B.toList.head? = some ch) (hch : Margins.IsContent ch) (hon : GoesOn L o A ch) :
    ∃ heads' v, Runs L o (start (A ++ B)) heads' v ∧ AtSeam A B (u.finish L) v := by
  obtain ⟨heads', v, hr, hcur, hword, hword', hevents, hdiag⟩ := h.to_seam hL hend hcut hlen hA hB hch
  have hdraft : v.draft = u.draft := by rw [draft, hevents, draft]
  rw [finish_of_word hword]
  -- without open scopes the seam is where the first run has ended
  have hclosed : u.cursor.depth = 0 → L = Java.language ∨ L = Dull.language →
      AtSeam A B ⟨u.draft.finish, u.diagnostics⟩ v := by
    intro hdepth hL
    refine ⟨?_, hr.frames_eq_nil hL, hword', ?_, hdiag⟩
    · rw [hcur, hdepth]
      rfl
    · rw [hdraft]
      exact draft_of_depth h hdepth
  rcases hon with rfl | ⟨rfl, hdepth⟩ | ⟨rfl, hhash, hcolon⟩
  · exact ⟨heads', v, hr, hclosed (Dull.depth_eq_zero h) (Or.inr rfl)⟩
  · exact ⟨heads', v, hr, hclosed (hdepth u (run_eq_ok_iff.2 ⟨heads, h, hend⟩)) (Or.inl rfl)⟩
  · have hcurrent : v.cursor.current? = some ch := by
      rw [hcur]
      show ((Cursor.ofString B).within (.following A)).current? = some ch
      rw [Cursor.current?_within (Or.inr rfl), Cursor.current?_eq, ← hB, List.head?_eq_getElem?]
      rfl
    have hlen' : (A ++ B).length < UInt32.size - 1 := by rwa [String.length_append]
    obtain ⟨heads'', v', hr', hcur', hframes, hword'', hdraft', hdiag'⟩ :=
      Python.close_blocks hlen' hr hcurrent hch hhash hcolon (by rw [hcur]; rfl) hword'
    refine ⟨_, v', hr.trans hr', ?_, hframes, hword'', ?_, ?_⟩
    · rw [hcur', hcur]
      rfl
    · rw [hdraft', hdraft]
    · rw [hdiag', hdiag]

/-! ### Behind the seam -/

private theorem AtSeam.carries {out : Output} (h : AtSeam A B out v) :
    Carries (.following A) v.events.toList v.diagnostics.toList (start B).fresh v.fresh :=
  ⟨h.cursor, ⟨rfl, rfl, rfl, h.frames⟩, h.word, (List.append_nil _).symm, (List.append_nil _).symm⟩

private theorem frame_flush_fresh (s : State) (L : Language) :
    (s.fresh.flush L).events = (s.flush L).events ∧ (s.fresh.flush L).diagnostics = (s.flush L).diagnostics := by
  unfold flush
  rw [show s.fresh.word = s.word from rfl]
  split <;> exact ⟨rfl, rfl⟩

/-- A run that carries another one from the seam on appends its output, moved. -/
private theorem AtSeam.finish {out : Output} (h : AtSeam A B out v)
    (hcarry : Carries (.following A) v.events.toList v.diagnostics.toList u.fresh t.fresh) :
    (t.finish L).root = out.root.append ((u.finish L).root.down (Margins.following A).lines) ∧
      (t.finish L).diagnostics.toList = out.diagnostics.toList ++
        (u.finish L).diagnostics.toList.map (Diagnostic.moved (Margins.following A).lines A.length) := by
  have hflush := hcarry.flush L
  obtain ⟨hevents, hdiag⟩ := frame_flush_fresh t L
  obtain ⟨hevents', hdiag'⟩ := frame_flush_fresh u L
  constructor
  · have hdraft := hflush.events
    rw [hevents, hevents'] at hdraft
    show (t.flush L).draft.finish = _
    rw [draft_of_events hdraft, h.draft]
    exact Draft.finish_foldl_down out.root _
  · have hall := hflush.diagnostics
    rw [hdiag, hdiag', h.diagnostics, Margins.offset] at hall
    rw [← String.length_toList]
    exact hall

end State

open State in
/-- Texts can be scanned one by one where they meet at the top level.  If the first text ends with a newline and cuts no
construct short, and the second begins with content that goes on outside every scope, then the tokens of the whole are
those of the first followed by those of the second, moved down by the lines of the first, and so are the problems. -/
theorem scan_append {L : Language} {o : Options} {A B : String} {ch : Char} (ho : o.validate = .ok ())
    (hA : A.toList.getLast? = some '\n') (hB : B.toList.head? = some ch) (hch : Margins.IsContent ch)
    (hlen : A.length + B.length < UInt32.size - 1) (hon : GoesOn L o A ch) :
    ∃ outA outB out, scan L o A = .ok outA ∧ scan L o B = .ok outB ∧ scan L o (A ++ B) = .ok out ∧
      (outA.cutShort = false →
        out.root.tokens.toList = outA.root.tokens.toList ++
          outB.root.tokens.toList.map (Token.down (UInt32.ofNat (A.toList.count '\n'))) ∧
        out.diagnostics.toList = outA.diagnostics.toList ++
          outB.diagnostics.toList.map (Diagnostic.moved (UInt32.ofNat (A.toList.count '\n')) A.length) ∧
        outB.Movable (A.toList.count '\n')) := by
  have hL : L ∈ Bundled.languages := by
    rcases hon with rfl | ⟨rfl, -⟩ | ⟨rfl, -⟩ <;> simp [Bundled.languages]
  obtain ⟨headsA, u, hrA, hendA, hscanA⟩ := scan_bundled hL ho A
  obtain ⟨headsB, u', hrB, hendB, hscanB⟩ := scan_bundled hL ho B
  by_cases hcut : (u.finish L).cutShort = false
  · rw [cutShort_finish] at hcut
    obtain ⟨heads, v, hr, hseam⟩ := hrA.at_seam hL hendA hcut hlen hA hB hch hon
    obtain ⟨heads', t, hr', hcarry, -⟩ :=
      hrB.carried hL (by omega) (Margins.fits_following hA _) hseam.carries (Or.inl rfl)
    have hend : ¬ t.Inside := by
      have hcur : t.cursor = u'.cursor.within (.following A) := hcarry.cursor
      have hsize := Margins.size_around (.following A) u'.cursor.text
      have hendB : ¬ u'.cursor.index < u'.cursor.text.size := hendB
      rw [Inside, hcur, Cursor.within]
      simp only [Margins.following, List.length_nil] at hsize ⊢
      omega
    have hscan : scan L o (A ++ B) = .ok (t.finish L) := by
      have hvalid := (scan_eq_ok_iff.1 hscanA).1
      exact scan_eq_ok_iff.2 ⟨hvalid, ho, _, t, hr.trans hr', hend, rfl⟩
    obtain ⟨hroot, hdiag⟩ := hseam.finish (L := L) hcarry
    have hcount : A.toList.count '\n' ≤ A.length := by
      rw [← String.length_toList]
      exact List.count_le_length
    refine ⟨_, _, _, hscanA, hscanB, hscan, fun _ => ⟨?_, hdiag, hrB.movable hL (by omega)⟩⟩
    rw [hroot, Scope.toList_tokens_append, Scope.toList_tokens_down]
    rfl
  · obtain ⟨_, t, _, _, hscan⟩ := scan_bundled hL ho (A ++ B)
    exact ⟨_, _, _, hscanA, hscanB, hscan, fun hno => absurd hno hcut⟩

theorem scan_append_open_block :
    ∃ outA outB out, scan Python.language {} "if a:\n    b\n" = .ok outA ∧
      scan Python.language {} "'c'\n'd" = .ok outB ∧ scan Python.language {} "if a:\n    b\n'c'\n'd" = .ok out ∧
      out.root.tokens.toList = outA.root.tokens.toList ++ outB.root.tokens.toList.map (Token.down 2) ∧
      out.diagnostics.toList = outA.diagnostics.toList ++ outB.diagnostics.toList.map (Diagnostic.moved 2 12) := by
  have hlast : "if a:\n    b\n".toList.getLast? = some '\n' := by decide
  have hhead : "'c'\n'd".toList.head? = some '\'' := by decide
  have hlen : "if a:\n    b\n".length + "'c'\n'd".length < UInt32.size - 1 := by decide
  have hcut : (scan Python.language {} "if a:\n    b\n").toOption.map Output.cutShort = some false := by decide +kernel
  have hon : GoesOn Python.language {} "if a:\n    b\n" '\'' := Or.inr (Or.inr ⟨rfl, by decide, by decide⟩)
  obtain ⟨outA, outB, out, hA, hB, hscan, happ⟩ := scan_append rfl hlast hhead ⟨by decide, by decide⟩ hlen hon
  rw [hA] at hcut
  obtain ⟨htokens, hdiag, -⟩ := happ (Option.some.inj hcut)
  exact ⟨outA, outB, out, hA, hB, hscan, htokens, hdiag⟩

end LexTree
