import FluxFront.Proofs.Flaws
import FluxFront.Proofs.Spans

/-!
# What a parse leaves behind in its tree

A run of the grammar notices errors and builds nodes, and the two belong together: a placeholder or
an empty name is only ever put where an error is counted, and a construct that may not stand where it
stands is recorded when it is read.  `Marked s ms s'` says that the marks `ms` were made in these
ways on the way from the state `s` to the state `s'`.

* **Specification**: a parser is described once, by the marks of its result (`Marks`).  What follows
  for errors and trees is an induction on `Marked` and never looks at the grammar.
* **Base**: behind an error that is counted, anything may have been built.  So a production that fails
  needs no account of its result.
* **Crux**: a run that counted no error was never in a panic, so all it recorded is in its errors
  (`Marked.kinds`) and none of its names or nodes is a stand-in (`Marked.settled`).  And an error is
  only ever counted without being recorded if another one was (`Marked.owned`).
-/

namespace FluxFront

/-- The kinds of the errors in a collection. -/
def Diagnostic.Collection.kinds (c : Diagnostic.Collection) : List Diagnostic.Kind :=
  c.errors.map Diagnostic.kind

/-- A token as a scanner gives it: it was read from some characters unless the text has ended, and the
text of an interpolated string has a part. -/
structure Token.Filled (t : Token) : Prop where
  lexeme : t.kind ≠ .eof → t.lexeme ≠ ""
  parts : t.kind = .interpolatedString → Grammar.partsOf t ≠ []

theorem Token.filled_endAt (here : Location) : (Token.endAt here).Filled :=
  ⟨fun h => absurd rfl h, nofun⟩

namespace Grammar

open Token (Kind)

/-! ## Runs and their marks -/

/-- The marks `ys` are among the marks `xs`, and no fault is lost. -/
structure Covers (xs ys : List Mark) : Prop where
  mem : ∀ m ∈ ys, m ∈ xs
  fault : ∀ k, .fault k ∈ xs → .fault k ∈ ys

theorem Covers.of_iff {xs ys : List Mark} (h : ∀ m, m ∈ ys ↔ m ∈ xs) : Covers xs ys :=
  ⟨fun m => (h m).1, fun _ => (h _).2⟩

/-- Every token ahead is one that a scanner gives. -/
def State.Filled (s : State) : Prop := ∀ t ∈ s.rest, t.Filled

/-- The marks `ms` were made on the way from one state to another. -/
inductive Marked : State → List Mark → State → Prop
  /-- The cursor moves on, and nothing happens to the errors. -/
  | move {s s' : State} (errors : s'.errors = s.errors) (panicking : s'.panicking = s.panicking)
      (failures : s'.failures = s.failures) (filled : s.Filled → s'.Filled)
      (onward : s.Orderly → Onward s s') : Marked s [] s'
  | calm (s : State) : Marked s [] s.calmed
  /-- Something is recorded that the tree does not show. -/
  | remark (s : State) (d : Diagnostic) (h : d.kind ∉ visibleKinds)
      (structural : d.kind.category = .structural) : Marked s [] (s.recorded d)
  /-- Something is recorded that the tree shows. -/
  | fault (s : State) (d : Diagnostic) (structural : d.kind.category = .structural) :
      Marked s [.fault d.kind] (s.recorded d)
  /-- Behind an error at the cursor, anything may stand. -/
  | failure (s : State) (d : Diagnostic) (ms : List Mark) (h : d.kind.category ≠ .structural)
      (span : d.span = some s.current.span) : Marked s ms (s.reported d)
  /-- At a token that no scanner gives, anything may stand. -/
  | unfilled (s : State) (ms : List Mark) (h : ¬ s.current.Filled) : Marked s ms s
  | append {s s₁ s₂ : State} {xs ys : List Mark} (h₁ : Marked s xs s₁) (h₂ : Marked s₁ ys s₂) :
      Marked s (xs ++ ys) s₂
  | covers {s s' : State} {xs ys : List Mark} (h : Marked s xs s') (hc : Covers xs ys) :
      Marked s ys s'

namespace State

theorem Filled.current {s : State} (h : s.Filled) : s.current.Filled := by
  unfold State.current
  cases hr : s.rest with
  | nil => exact Token.filled_endAt _
  | cons t rest => exact h t (by rw [hr]; exact List.mem_cons_self)

theorem filled_halves {t : Token} {rest : List Token} (h : ∀ u ∈ t :: rest, u.Filled) (a b : Span) :
    ∀ u ∈ (⟨.greater, ">", a, none⟩ : Token) :: ⟨.greater, ">", b, none⟩ :: rest, u.Filled := by
  have half : ∀ span, (⟨.greater, ">", span, none⟩ : Token).Filled := fun span =>
    ⟨fun _ => show ">" ≠ "" by decide, nofun⟩
  intro u hu
  rcases List.mem_cons.1 hu with rfl | hu
  · exact half a
  rcases List.mem_cons.1 hu with rfl | hu
  · exact half b
  · exact h u (List.mem_cons_of_mem _ hu)

/-- Recording changes nothing but the errors. -/
theorem recorded_eq (d : Diagnostic) (s : State) :
    s.recorded d = { s with errors := (s.recorded d).errors } := by
  unfold recorded
  split <;> rfl

theorem errors_recorded {s : State} (h : s.panicking = false) (d : Diagnostic) :
    (s.recorded d).errors = s.errors.addError d := by
  unfold recorded
  rw [h]
  rfl

/-- No panic is on, and every token ahead is one that a scanner gives. -/
structure Settled (s : State) : Prop where
  calm : s.panicking = false
  filled : s.Filled

/-- Either no error was counted, or what was recorded says so. -/
def Owned (P : Diagnostic.Collection → Prop) (s : State) : Prop :=
  (s.failures = 0 ∧ s.panicking = false) ∨ P s.errors

end State

namespace Marked

variable {s s' s₁ s₂ : State} {ms xs ys : List Mark}

/-- Neither the cursor nor the errors change. -/
theorem quiet (rest : s'.rest = s.rest) (position : s'.position = s.position)
    (lastEnd : s'.lastEnd = s.lastEnd) (errors : s'.errors = s.errors)
    (panicking : s'.panicking = s.panicking) (failures : s'.failures = s.failures) :
    Marked s [] s' :=
  .move errors panicking failures (fun h t ht => h t (by rwa [rest] at ht))
    fun h => onward_still h rest position lastEnd

theorem refl (s : State) : Marked s [] s := .quiet rfl rfl rfl rfl rfl rfl

theorem advance (s : State) : Marked s [] s.advanced := by
  by_cases hk : s.current.kind = .eof
  · rw [State.advanced_eof hk]
    exact .refl s
  · obtain ⟨t, rest, hr, -, hadv⟩ := State.advanced_cons hk
    refine .move ?_ ?_ ?_ ?_ onward_advanced <;> rw [hadv]
    exact fun h u hu => h u (by rw [hr]; exact List.mem_cons_of_mem _ hu)

theorem split (s : State) : Marked s [] s.splitShift := by
  have hsame : s.splitShift.errors = s.errors ∧ s.splitShift.panicking = s.panicking ∧
      s.splitShift.failures = s.failures := by
    rcases s.splitShift_cases with h | ⟨t, rest, first, second, -, -, -, -, h⟩ <;> rw [h] <;>
      exact ⟨rfl, rfl, rfl⟩
  refine .move hsame.1 hsame.2.1 hsame.2.2 (fun h => ?_) onward_splitShift
  unfold State.splitShift
  split
  · rename_i t rest hr
    split
    · -- both halves are a `>`
      refine State.filled_halves (t := t) ?_ _ _
      rwa [State.Filled, hr] at h
    · exact h
  · exact h

theorem reach (s : State) : Marked s [] s.reached :=
  .move rfl rfl rfl (fun h => h) onward_reached

/-- A run that leaves no mark and goes on. -/
theorem before (h₁ : Marked s [] s₁) (h₂ : Marked s₁ ms s₂) : Marked s ms s₂ := h₁.append h₂

/-- A run that goes on without leaving a mark. -/
theorem andThen (h₁ : Marked s ms s₁) (h₂ : Marked s₁ [] s₂) : Marked s ms s₂ := by
  have h := h₁.append h₂
  rwa [List.append_nil] at h

/-- The token at the cursor is read for a name. -/
theorem word (h : s.current.kind ≠ .eof) : Marked s (blanks [s.current.lexeme]) s.advanced := by
  by_cases hs : s.current.Filled
  · -- the lexeme has characters, so the name leaves no mark
    have hne := hs.lexeme h
    have hb : blanks [s.current.lexeme] = [] := if_neg (by simpa using Ne.symm hne)
    rw [hb]
    exact .advance s
  · exact (Marked.unfilled s _ hs).andThen (.advance s)

theorem stamp (s : State) : Marked s [] s.stamped := .quiet rfl rfl rfl rfl rfl rfl

/-- A node has its own marks and those of its children. -/
theorem around {n : Node} {e : Enclosure} (h : Marked s ms s₁)
    (hm : ∀ m, m ∈ n.marks e ++ n.children.flatMap (Node.trace (e.within n)) ↔ m ∈ ms) :
    Marked s (n.trace e) s₁ := by
  rw [Node.trace_eq]
  exact h.covers (.of_iff hm)

/-- A new node around what was read. -/
theorem node {n : Node} {e : Enclosure} (h : Marked s ms s₁)
    (hm : ∀ m, m ∈ n.marks e ++ n.children.flatMap (Node.trace (e.within n)) ↔ m ∈ ms) :
    Marked s (n.trace e) s₁.stamped := (h.around hm).andThen (.stamp s₁)

/-! ## Errors along a run -/

theorem failures_le (h : Marked s ms s') : s.failures ≤ s'.failures := by
  induction h with
  | move _ _ failures _ _ => exact Nat.le_of_eq failures.symm
  | calm s => exact Nat.le_refl _
  | remark s d =>
    exact Nat.le_of_eq (by rw [s.recorded_eq d])
  | fault s d =>
    exact Nat.le_of_eq (by rw [s.recorded_eq d])
  | failure s d =>
    rw [s.failures_reported d]
    exact Nat.le_succ _
  | unfilled => exact Nat.le_refl _
  | append _ _ ih₁ ih₂ => exact Nat.le_trans ih₁ ih₂
  | covers _ _ ih => exact ih

/-- A run that counted no error stays out of a panic, and all its marks are faults. -/
theorem settled (h : Marked s ms s') (hs : s.Settled) (hf : s'.failures = s.failures) :
    s'.Settled ∧ ∀ m ∈ ms, ∃ k, m = .fault k := by
  induction h with
  | move _ panicking _ filled _ => exact ⟨⟨panicking.trans hs.calm, filled hs.filled⟩, nofun⟩
  | calm s => exact ⟨⟨rfl, hs.filled⟩, nofun⟩
  | remark s d =>
    rw [s.recorded_eq d]
    exact ⟨⟨hs.calm, hs.filled⟩, nofun⟩
  | fault s d =>
    rw [s.recorded_eq d]
    exact ⟨⟨hs.calm, hs.filled⟩, fun m hm => ⟨_, List.mem_singleton.1 hm⟩⟩
  | failure s d =>
    rw [s.failures_reported d] at hf
    omega
  | unfilled s _ h => exact absurd hs.filled.current h
  | append h₁ h₂ ih₁ ih₂ =>
    -- neither half counted an error, as the count never goes down
    have hle₁ := h₁.failures_le
    have hle₂ := h₂.failures_le
    obtain ⟨hs₁, hx⟩ := ih₁ hs (by omega)
    obtain ⟨hs₂, hy⟩ := ih₂ hs₁ (by omega)
    refine ⟨hs₂, fun m hm => ?_⟩
    rcases List.mem_append.1 hm with hm | hm
    · exact hx m hm
    · exact hy m hm
  | covers _ hc ih =>
    obtain ⟨hs', hm⟩ := ih hs hf
    exact ⟨hs', fun m h => hm m (hc.mem m h)⟩

/-- The limit of errors stays what it was. -/
theorem limit_eq (h : Marked s ms s') : s'.errors.limit = s.errors.limit := by
  have recorded : ∀ (s : State) (d : Diagnostic),
      (s.recorded d).errors.limit = s.errors.limit := by
    intro s d
    unfold State.recorded
    split
    · rfl
    · exact Diagnostic.Collection.limit_addError _ _
  induction h with
  | move errors => rw [errors]
  | calm s => rfl
  | remark s d => exact recorded s d
  | fault s d => exact recorded s d
  | failure s d =>
    unfold State.reported
    split
    · rfl
    · exact Diagnostic.Collection.limit_addError _ _
  | unfilled => rfl
  | append _ _ ih₁ ih₂ => exact ih₂.trans ih₁
  | covers _ _ ih => exact ih

/-- A run that counted no error recorded the faults that its marks show. -/
theorem kinds (h : Marked s ms s') (hs : s.Settled) (hf : s'.failures = s.failures)
    (hl : s.errors.limit = none) {k : Diagnostic.Kind} (hk : k ∈ visibleKinds) :
    k ∈ s'.errors.kinds ↔ k ∈ s.errors.kinds ∨ .fault k ∈ ms := by
  have recorded : ∀ (s : State) (d : Diagnostic), s.Settled → s.errors.limit = none →
      (s.recorded d).errors.kinds = s.errors.kinds ++ [d.kind] := by
    intro s d hs hl
    rw [State.errors_recorded hs.calm, Diagnostic.Collection.kinds,
      Diagnostic.Collection.errors_addError_of_limit_none hl]
    exact List.map_append
  induction h with
  | move errors => simp [errors]
  | calm s => simp [State.calmed]
  | remark s d hd =>
    -- the kind that was added is none of those that a tree shows
    have hne : k ≠ d.kind := fun h => hd (h ▸ hk)
    rw [recorded s d hs hl]
    simp [hne]
  | fault s d =>
    rw [recorded s d hs hl]
    simp
  | failure s d =>
    rw [s.failures_reported d] at hf
    omega
  | unfilled s _ h => exact absurd hs.filled.current h
  | append h₁ h₂ ih₁ ih₂ =>
    have hle₁ := h₁.failures_le
    have hle₂ := h₂.failures_le
    have hs₁ := (h₁.settled hs (by omega)).1
    refine (ih₂ hs₁ (by omega) (h₁.limit_eq.trans hl)).trans ?_
    refine (or_congr_left (ih₁ hs (by omega) hl)).trans ?_
    rw [List.mem_append, or_assoc]
  | covers _ hc ih => exact (ih hs hf hl).trans (or_congr_right ⟨hc.fault k, hc.mem _⟩)

/-- What every error offered leaves true, and what every error counted makes true, is true of the
errors once one was counted: while errors are not recorded, one was. -/
theorem owned {P : Diagnostic.Collection → Prop} (offered : ∀ c d, P c → P (c.addError d))
    (failed : ∀ (c : Diagnostic.Collection) (d : Diagnostic), d.kind.category ≠ .structural →
      P (c.addError d))
    (h : Marked s ms s') (hs : s.Owned P) : s'.Owned P := by
  have recorded : ∀ (s : State) (d : Diagnostic), s.Owned P → (s.recorded d).Owned P := by
    intro s d hs
    unfold State.recorded
    split
    · exact hs
    · exact hs.imp id (offered _ d)
  induction h with
  | move errors panicking failures _ _ => rwa [State.Owned, errors, panicking, failures]
  | calm s => exact hs.imp (fun h => ⟨h.1, rfl⟩) id
  | remark s d => exact recorded s d hs
  | fault s d => exact recorded s d hs
  | failure s d _ hd =>
    unfold State.reported
    split
    · -- a panic hides the error, but a panic has an error at its start
      rename_i hp
      rcases hs with ⟨-, hc⟩ | hs
      · rw [hc] at hp
        exact absurd hp (by decide)
      · exact .inr hs
    · exact .inr (failed _ d hd)
  | unfilled => exact hs
  | append _ _ ih₁ ih₂ => exact ih₂ (ih₁ hs)
  | covers _ _ ih => exact ih hs

end Marked

/-! ## Descriptions -/

variable {α β : Type}

/-- From every state, the parser leaves the marks of its result. -/
def Marks (p : Parser α) (marks : α → List Mark) : Prop :=
  ∀ s, After p s fun a s' => Marked s (marks a) s'

/-- A parser that leaves no marks. -/
def Unmarked (p : Parser α) : Prop := ∀ s, After p s fun _ s' => Marked s [] s'

/-- A parser that counts an error, so that anything may stand behind it. -/
def Fails (p : Parser α) : Prop := ∀ s ms, After p s fun _ s' => Marked s ms s'

theorem Fails.unmarked {p : Parser α} (h : Fails p) : Unmarked p := fun s => h s []

theorem Fails.bind {p : Parser α} {q : α → Parser β} (hp : Fails p) (hq : ∀ a, Unmarked (q a)) :
    Fails (p >>= q) := fun s ms =>
  (hp s ms).andThen fun a s₁ h₁ => (hq a s₁).mono fun _ _ h₂ => h₁.andThen h₂

namespace Unmarked

theorem pure (a : α) : Unmarked (Pure.pure a) := fun s => .refl s

theorem bind {p : Parser α} {q : α → Parser β} (hp : Unmarked p) (hq : ∀ a, Unmarked (q a)) :
    Unmarked (p >>= q) := fun s =>
  (hp s).andThen fun a s₁ h₁ => (hq a s₁).mono fun _ _ h₂ => h₁.before h₂

theorem ite {c : Prop} [Decidable c] {p q : Parser α} (hp : Unmarked p) (hq : Unmarked q) :
    Unmarked (if c then p else q) := by
  split
  · exact hp
  · exact hq

/-- A parser that leaves the state as it is leaves no marks. -/
theorem of_same {p : Parser α} (h : ∀ s, (p s).2 = s) : Unmarked p := by
  intro s
  show Marked s [] (p s).2
  rw [h]
  exact .refl s

theorem iterate {step : β → Parser (Option β)} (h : ∀ b, Unmarked (step b)) (b : β) :
    Unmarked (iterate step b) := fun s =>
  After.iterate (I := fun _ s' => Marked s [] s')
    (fun b _ hb => (h b _).mono fun _ _ h' => hb.before h') (.refl s)

end Unmarked

/-! ## Primitives -/

theorem unmarked_advance : Unmarked advance := fun s => Marked.advance s

theorem unmarked_accept (k : Kind) : Unmarked (accept k) := fun s =>
  .check (fun _ => .advance <| .pure (.advance s)) fun _ => .pure (.refl s)

theorem unmarked_acceptAny (ks : List Kind) : Unmarked (acceptAny ks) := fun s =>
  .kind <| .ite (fun _ => .advance <| .pure (.advance s)) fun _ => .pure (.refl s)

theorem unmarked_note (event : Event) : Unmarked (note event) :=
  fun _ => .quiet rfl rfl rfl rfl rfl rfl

theorem unmarked_noteCommitted (what : String) (start : Nat) :
    Unmarked (noteCommitted what start) := fun _ => .quiet rfl rfl rfl rfl rfl rfl

theorem unmarked_calm : Unmarked calm := fun s => Marked.calm s

/-- An error is reported at the cursor. -/
theorem fails_report {kind : Diagnostic.Kind} (h : kind.category ≠ .structural) (message : String)
    (s : State) (ms : List Mark) :
    After (report kind message s.current.span) s fun _ s' => Marked s ms s' :=
  Marked.failure s (.located kind message s.current.span) ms h rfl

theorem fails_reportUnexpected (expected : String) : Fails (reportUnexpected expected) :=
  fun s ms => .current <| .ite (fun _ => fails_report (by decide) _ s ms) fun _ =>
    fails_report (by decide) _ s ms

theorem marks_reportStructural {kind : Diagnostic.Kind} (h : kind.category = .structural)
    (message : String) (span : Span) :
    Marks (reportStructural kind message span) fun _ => [.fault kind] := fun s =>
  Marked.fault s (.located kind message span) h

theorem unmarked_reportStructural {kind : Diagnostic.Kind} (h : kind ∉ visibleKinds)
    (hk : kind.category = .structural) (message : String) (span : Span) :
    Unmarked (reportStructural kind message span) := fun s =>
  Marked.remark s (.located kind message span) h hk

theorem unmarked_consume (k : Kind) (expected : String) : Unmarked (consume k expected) := fun s =>
  .check (fun _ => .advance <| .pure (.advance s)) fun _ =>
    (fails_reportUnexpected expected).unmarked s

theorem unmarked_consumeClosingAngle (expected : String) :
    Unmarked (consumeClosingAngle expected) :=
  Unmarked.bind (p := modify State.splitShift) (fun s => Marked.split s) fun _ =>
    unmarked_consume _ _

/-- A name that is missing is empty. -/
theorem marks_consumeName (expected : String) :
    Marks (consumeName expected) fun name => blanks [name] := by
  intro s
  refine .check (fun hk => .advance <| .pure <| .word (by rw [hk]; decide)) fun _ => ?_
  exact (fails_reportUnexpected expected s (blanks [""])).andThen fun _ _ h => .pure h

/-! ## Loops -/

namespace Marks

theorem many {p : Parser (Option α)} {marks : α → List Mark}
    (h : Marks p fun o => o.toList.flatMap marks) :
    Marks (many p) (List.flatMap marks) := fun s =>
  After.many (I := fun as s' => Marked s (as.flatMap marks) s')
    (fun as _ has => (h _).mono fun o _ h' => by simpa using has.append h') (.refl s)

/-- A round of a loop over items behind commas. -/
theorem behindComma {item : Parser α} {marks : α → List Mark} (h : Marks item marks) (s : State) :
    After (do return some (← item) : Parser (Option α)) s.advanced fun o s' =>
      Marked s (o.toList.flatMap marks) s' := by
  refine (h _).andThen fun a s₁ h₁ => .pure ?_
  simpa using (Marked.advance s).before h₁

theorem commaSeparated {item : Parser α} {marks : α → List Mark} (h : Marks item marks) :
    Marks (commaSeparated item) (List.flatMap marks) := by
  have next : Marks
      (do if ← accept .comma then return some (← item) else return none : Parser (Option α))
      fun o => o.toList.flatMap marks := fun s =>
    .accept (fun _ => h.behindComma s) fun _ => .pure (.refl s)
  intro s
  refine (h s).andThen fun first s₁ h₁ => ?_
  exact (next.many s₁).andThen fun more s₂ h₂ => .pure (h₁.append h₂)

theorem commaTerminated {close : Kind} {item : Parser α} {marks : α → List Mark}
    (h : Marks item marks) : Marks (commaTerminated close item) (List.flatMap marks) := by
  have next : Marks
      (do
        if ← accept .comma then
          if ← checkOrEnd close then return none else return some (← item)
        else return none : Parser (Option α))
      fun o => o.toList.flatMap marks := by
    intro s
    refine .accept (fun _ => .checkOrEnd fun b => ?_) fun _ => .pure (.refl s)
    cases b with
    | true => exact .pure (.advance s)
    | false => exact h.behindComma s
  intro s
  refine .checkOrEnd fun b => ?_
  cases b with
  | true => exact .pure (.refl s)
  | false =>
    refine (h s).andThen fun first s₁ h₁ => ?_
    exact (next.many s₁).andThen fun more s₂ h₂ => .pure (h₁.append h₂)

end Marks

/-! ## Recovery -/

theorem unmarked_expectSemicolon (after : String) : Unmarked (expectSemicolon after) := by
  intro s
  refine .accept (fun _ => .pure (.advance s)) fun _ => .get ?_
  refine ((fails_reportUnexpected _).unmarked s).andThen fun _ s₁ h₁ => .checkAny fun b => ?_
  refine .ite (fun _ => ?_) fun _ => .pure h₁
  exact (unmarked_calm s₁).mono fun _ _ h₂ => h₁.before h₂

theorem unmarked_synchronize : Unmarked synchronize := by
  have last : ∀ start, Unmarked (do
      let stop ← position
      if start < stop then note (.skipped (stop - start) (← current))) := fun start s =>
    .position <| .ite (fun _ => .current <| unmarked_note _ s) fun _ => .pure (.refl s)
  refine Unmarked.bind (.of_same fun _ => rfl) fun start => Unmarked.bind (.iterate (fun _ => ?_) _)
    fun _ => Unmarked.bind (.of_same fun _ => rfl) fun _ => ?_
  · refine Unmarked.bind (.of_same fun _ => rfl) fun _ => .ite (.pure _) ?_
    exact unmarked_advance.bind fun _ => .pure _
  · exact .ite (last start) (unmarked_calm.bind fun _ => last start)

theorem unmarked_recoverAfterItem (before : Nat) : Unmarked (recoverAfterItem before) := by
  intro s
  refine .position <| .atEnd fun _ => .ite (fun _ => .current ?_) fun _ => .get ?_
  · exact ((unmarked_note _).bind fun _ => unmarked_advance.bind fun _ => unmarked_synchronize) s
  · exact .ite (fun _ => unmarked_synchronize s) fun _ => .pure (.refl s)

theorem Marks.bodyItems {close : Kind} {item : Parser (List α)} {marks : α → List Mark}
    (h : Marks item (List.flatMap marks)) : Marks (bodyItems close item) (List.flatMap marks) := by
  have round : Marks (bodyRound close item) fun o => o.toList.flatMap (List.flatMap marks) := by
    intro s
    refine .checkOrEnd fun b => ?_
    cases b with
    | true => exact .pure (.refl s)
    | false =>
      refine .accept (fun _ => .pure (.advance s)) fun _ => .position ?_
      refine (h s).andThen fun items s₁ h₁ => ?_
      refine (unmarked_recoverAfterItem _ s₁).andThen fun _ s₂ h₂ => .pure ?_
      simpa using h₁.andThen h₂
  intro s
  refine (round.many s).andThen fun groups s₁ h₁ => .pure ?_
  simpa [← List.flatMap_id, List.flatMap_assoc] using h₁

end Grammar

end FluxFront
