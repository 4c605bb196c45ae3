import FluxFront.Proofs.Spans
import FluxFront.Proofs.StmtMarks
import FluxFront.Query

/-!
# Trees and diagnostics agree

Every token that a scanner gives was read from some characters, so a parse of a text starts from a
state in which nothing is wrong, and what it leaves behind is known.

* **No silent damage**: a parse without errors has no placeholder and no empty name in its tree
  (`parseTokens_undamaged`).
* **Exactness**: where nothing but misplaced constructs was reported, the reports are those that can
  be told from the tree (`parseTokens_structural`).
-/

namespace FluxFront

/-! ## What a scanner gives -/

namespace Token

/-- What a reading needs for its token to be filled. -/
structure Reading.Filled (r : Reading) : Prop where
  lexeme : r.lexeme ≠ []
  parts : r.kind = .interpolatedString → ∃ texts, r.literal = some (.parts texts) ∧ texts ≠ []

theorem Reading.Filled.of_kind {r : Reading} (hlexeme : r.lexeme ≠ [])
    (hkind : r.kind ≠ .interpolatedString) : r.Filled :=
  ⟨hlexeme, fun h => absurd h hkind⟩

theorem filled_operator {text lexeme rest : List Char} {kind : Kind}
    (h : Kind.matchOperator? text = some (kind, lexeme, rest)) :
    (⟨kind, lexeme, rest, none, []⟩ : Reading).Filled := by
  obtain ⟨hk, rfl, -⟩ := operator_of_match h
  have table : ∀ k ∈ Kind.operators, k ≠ .interpolatedString := by decide
  exact .of_kind (Kind.spelling_ne_nil hk) (table kind hk)

theorem filled_readNumber (here : Location) {c : Char} (hc : c.isDigit = true) (text : List Char) :
    (readNumber here (c :: text)).Filled := by
  have hkind : (readNumber here (c :: text)).kind ≠ .interpolatedString := by
    intro h
    have hk := readNumber_kind here (c :: text)
    rw [h] at hk
    exact absurd hk (by decide)
  refine .of_kind ?_ hkind
  have decimal : (readDecimal here (c :: text)).lexeme ≠ [] := by
    unfold readDecimal
    dsimp only
    have hw : (c :: text).takeWhile isDigitOrMark ≠ [] := by simp [isDigitOrMark, hc]
    split <;> simp [numberReading, hw]
  unfold readNumber
  split
  · split
    · unfold readRadix
      dsimp only
      split <;> simp [numberReading]
    · exact decimal
  · exact decimal

theorem filled_readName (c : Char) (text : List Char) : (readName c text).Filled := by
  refine .of_kind (List.cons_ne_nil _ _) ?_
  show (Kind.ofKeyword? _).getD .identifier ≠ .interpolatedString
  cases h : Kind.ofKeyword? (String.ofList (c :: text.takeWhile Text.continuesName)) with
  | none => decide
  | some k =>
    have hk : k ∈ Kind.keywords := Kind.mem_of_ofKeyword h
    rintro rfl
    exact absurd hk (by decide)

theorem filled_readChar (here : Location) (text : List Char) : (readChar here text).Filled := by
  unfold readChar
  dsimp only
  split <;> exact .of_kind (List.cons_ne_nil _ _) nofun

theorem filled_readToken (here : Location) (c : Char) (text : List Char) :
    (readToken here c text).Filled := by
  unfold readToken
  split
  · rename_i hm
    exact filled_operator hm
  · split
    · exact .of_kind (List.cons_ne_nil _ _) nofun
    · split
      · exact filled_readChar here text
      · split
        · rename_i hc
          exact filled_readNumber here hc text
        · split
          · -- the text is cut at its slots, so there is a part in front of the first
            refine ⟨List.cons_ne_nil _ _, fun _ => ⟨_, rfl, ?_⟩⟩
            simpa using Text.splitSlots_ne_nil _
          · exact filled_readName _ _

theorem filled_readRaw (here : Location) (text : List Char) : (readRaw here text).Filled := by
  refine .of_kind ?_ (by rw [readRaw_kind]; decide)
  unfold readRaw
  dsimp only
  split <;> exact List.cons_ne_nil _ _

/-- The token of a filled reading is filled. -/
theorem Reading.Filled.token {r : Reading} (h : r.Filled) (span : Span) :
    (⟨r.kind, String.ofList r.lexeme, span, r.literal⟩ : Token).Filled := by
  refine ⟨fun _ he => h.lexeme ?_, fun hk => ?_⟩
  · simpa using congrArg String.toList he
  · obtain ⟨texts, hl, hne⟩ := h.parts hk
    simpa [Grammar.partsOf, hl] using hne

theorem Scanner.filled_next (s : Scanner) : s.next.1.Filled := by
  unfold Scanner.next
  dsimp only
  split
  · exact filled_endAt _
  · rename_i c text _
    split
    · exact (filled_readRaw _ _).token _
    · exact (filled_readToken _ _ _).token _

/-- What holds of every next token holds of all tokens. -/
theorem Scanner.forall_run {P : Token → Prop} (hnext : ∀ s : Scanner, P s.next.1) (fuel : Nat)
    (s : Scanner) : ∀ t ∈ (s.run fuel).1, P t := by
  induction fuel generalizing s with
  | zero => exact fun t ht => absurd ht List.not_mem_nil
  | succ fuel ih =>
    unfold Scanner.run
    dsimp only
    split
    · exact List.forall_mem_singleton.2 (hnext s)
    · exact List.forall_mem_cons.2 ⟨hnext s, ih _⟩

/-- Every token of a text is filled. -/
theorem filled_scan (source : String) : ∀ t ∈ (scan source).1, t.Filled :=
  Scanner.forall_run Scanner.filled_next _ _

end Token

namespace Grammar

theorem filled_closeTokens {tokens : List Token} (h : ∀ t ∈ tokens, t.Filled) :
    ∀ t ∈ closeTokens tokens, t.Filled := by
  unfold closeTokens
  split
  · split
    · exact h
    · exact List.forall_mem_append.2 ⟨h, List.forall_mem_singleton.2 (Token.filled_endAt _)⟩
  · exact List.forall_mem_singleton.2 (Token.filled_endAt _)

theorem State.settled_ofTokens {tokens : List Token} (h : ∀ t ∈ tokens, t.Filled)
    (maxErrors : Option Nat) : (State.ofTokens tokens maxErrors).Settled :=
  ⟨rfl, filled_closeTokens h⟩

/-- The marks of a program were made on the way to its last state. -/
theorem marked_parseTokens (tokens : List Token) (config : Config) :
    ∃ s, Marked (.ofTokens tokens config.maxErrors) (parseTokens tokens config).program.trace s
      ∧ (parseTokens tokens config).errors = s.errors := by
  refine ⟨(leveledProgram config (.ofTokens tokens config.maxErrors)).2, ?_, ?_⟩
  · rw [parseTokens_eq rfl]
    exact marks_program config _
  · exact congrArg ParseResult.errors (parseTokens_eq rfl)

end Grammar

/-! ## Errors that must be kept -/

namespace Diagnostic.Collection

/-- Behind an offer there is an error, unless none may be kept. -/
theorem errors_addError_ne_nil (c : Collection) (d : Diagnostic) :
    (c.addError d).limit = some 0 ∨ (c.addError d).errors ≠ [] := by
  rw [limit_addError]
  cases hl : c.limit with
  | none =>
    rw [errors_addError_of_limit_none hl]
    exact .inr (List.append_ne_nil_of_right_ne_nil _ (List.cons_ne_nil _ _))
  | some n =>
    by_cases hn : n = 0
    · exact .inl (congrArg some hn)
    · right
      intro hnil
      unfold addError at hnil
      split at hnil
      · exact List.append_ne_nil_of_right_ne_nil _ (List.cons_ne_nil _ _) hnil
      · -- without room there are errors already, as many as may be kept
        rename_i hroom
        simp only [hasRoom, hl, hnil, List.length_nil, decide_eq_true_eq] at hroom
        omega

theorem mem_addError {c : Collection} {d e : Diagnostic} (h : e ∈ c.errors) :
    e ∈ (c.addError d).errors := by
  unfold addError
  split
  · exact List.mem_append_left _ h
  · exact h

theorem kind_mem_kinds {c : Collection} {d : Diagnostic} (h : d ∈ c.errors) : d.kind ∈ c.kinds :=
  List.mem_map_of_mem h

end Diagnostic.Collection

/-! ## No silent damage -/

/-- **No silent damage.**  If a parse of a text reports no error, and not because it may not keep one,
nothing in its tree stands in for something that is missing. -/
theorem parseTokens_undamaged (source : String) {config : Config} (hmax : config.maxErrors ≠ some 0)
    (hclean : (parseTokens (Token.scan source).1 config).errors.errors = []) :
    (parseTokens (Token.scan source).1 config).program.containsPlaceholder = false ∧
      ∀ n ∈ (parseTokens (Token.scan source).1 config).program.nodes, ∀ name ∈ n.names, name ≠ "" := by
  obtain ⟨s, hrun, herrors⟩ := Grammar.marked_parseTokens (Token.scan source).1 config
  have hsettled := Grammar.State.settled_ofTokens (Token.filled_scan source) config.maxErrors
  -- an error that was counted would have left one behind
  have hnone : s.failures = 0 := by
    have howned := hrun.owned (P := fun c => c.limit = some 0 ∨ c.errors ≠ [])
      (fun c d _ => c.errors_addError_ne_nil d) (fun c d _ => c.errors_addError_ne_nil d)
      (.inl ⟨rfl, rfl⟩)
    rw [herrors] at hclean
    rcases howned with h | h | h
    · exact h.1
    · exact absurd (hrun.limit_eq.symm.trans h) hmax
    · exact absurd hclean h
  have hmarks : ∀ m ∈ (parseTokens (Token.scan source).1 config).program.trace,
      ∃ k, m = .fault k := (hrun.settled hsettled hnone).2
  -- so every node makes no marks but faults, whatever stands around it
  have hnode : ∀ n ∈ (parseTokens (Token.scan source).1 config).program.nodes,
      ∃ e, ∀ m ∈ n.marks e, ∃ k, m = .fault k := by
    intro n hn
    obtain ⟨e, he⟩ := Program.mem_nodes_iff.1 hn
    exact ⟨e, fun m hm => hmarks m (Program.mem_trace.2 ⟨e, n, he, hm⟩)⟩
  constructor
  · unfold Program.containsPlaceholder
    rw [List.any_eq_false]
    intro n hn hole
    obtain ⟨e, he⟩ := hnode n hn
    obtain ⟨k, hk⟩ := he .hole (Node.hole_mem_marks.2 hole)
    exact absurd hk nofun
  · rintro n hn name hname rfl
    obtain ⟨e, he⟩ := hnode n hn
    obtain ⟨k, hk⟩ := he .blank (Node.blank_mem_marks.2 hname)
    exact absurd hk nofun

/-- A text with names of most sorts, read with room for one error. -/
def namedText : String :=
  "object A : B.C { def f(int x) -> int; }; enum E { P = 1, Q }; import \"m\" as M; " ++
  "def g() -> void { for (a, b in xs) { x.y = op<a plus b>; } try { } catch (int z) { } }"

theorem parseTokens_undamaged_namedText :
    (some 1 : Option Nat) ≠ some 0 ∧
      (parseTokens (Token.scan namedText).1 { maxErrors := some 1 }).errors.errors = [] ∧
      (parseTokens (Token.scan namedText).1 { maxErrors := some 1 }).program.containsPlaceholder
        = false ∧
      ∀ n ∈ (parseTokens (Token.scan namedText).1 { maxErrors := some 1 }).program.nodes,
        ∀ name ∈ n.names, name ≠ "" := by
  have hmax : ({ maxErrors := some 1 } : Config).maxErrors ≠ some 0 := by decide
  have hclean : (parseTokens (Token.scan namedText).1 { maxErrors := some 1 }).errors.errors = [] := by
    decide +kernel
  exact ⟨hmax, hclean, @parseTokens_undamaged namedText { maxErrors := some 1 } hmax hclean⟩

/-! ## Exactness -/

namespace Node

variable {e : Enclosure} {n : Node}

theorem misplacedJump_mem_faults : .misplacedJump ∈ n.faults e ↔
    (∃ span id, n = .statement ⟨.breakLoop, span, id⟩ ∧ e.loop = false ∧ e.switch = false)
      ∨ ∃ span id, n = .statement ⟨.continueLoop, span, id⟩ ∧ e.loop = false := by
  fun_cases faults e n <;> grind [Case.faults]

theorem missingDefaultCase_mem_faults : .missingDefaultCase ∈ n.faults e ↔
    ∃ subject cases span id, n = .statement ⟨.switch subject cases, span, id⟩
      ∧ cases.countP Case.isDefault = 0 := by
  fun_cases faults e n <;> grind [Case.faults]

theorem duplicateDefaultCase_mem_faults : .duplicateDefaultCase ∈ n.faults e ↔
    ∃ subject cases span id, n = .statement ⟨.switch subject cases, span, id⟩
      ∧ 2 ≤ cases.countP Case.isDefault := by
  fun_cases faults e n <;> grind [Case.faults]

theorem invalidAssignmentTarget_mem_faults : .invalidAssignmentTarget ∈ n.faults e ↔
    ∃ op target value span id, n = .expression ⟨.assign op target value, span, id⟩
      ∧ target.isAssignable = false := by
  fun_cases faults e n <;> grind [Case.faults]

theorem interpolationMismatch_mem_faults : .interpolationMismatch ∈ n.faults e ↔
    ∃ parts values span id, n = .expression ⟨.interpolated parts values, span, id⟩
      ∧ parts.length ≠ values.length + 1 := by
  fun_cases faults e n <;> grind [Case.faults]

theorem misplacedDeclaration_mem_faults : .misplacedDeclaration ∈ n.faults e ↔
    ∃ decl span id, n = .statement ⟨.misplaced decl, span, id⟩ := by
  fun_cases faults e n <;> grind [Case.faults]

end Node

/-- Where nothing but misplaced constructs was reported, a kind that can be told from the tree was
reported if a node of the tree is wrong about it, and only then. -/
theorem Grammar.mem_kinds_parseTokens {source : String} {config : Config}
    (hmax : config.maxErrors = none)
    (honly : ∀ d ∈ (parseTokens (Token.scan source).1 config).errors.errors,
      d.kind.category = .structural) {k : Diagnostic.Kind} (hk : k ∈ visibleKinds) :
    k ∈ (parseTokens (Token.scan source).1 config).errors.kinds ↔
      ∃ e n, (e, n) ∈ (parseTokens (Token.scan source).1 config).program.enclosed
        ∧ k ∈ n.faults e := by
  obtain ⟨s, hrun, herrors⟩ := marked_parseTokens (Token.scan source).1 config
  have hsettled := State.settled_ofTokens (Token.filled_scan source) config.maxErrors
  rw [herrors] at honly ⊢
  -- an error that was counted would be of another category, and would have been kept
  have hnone : s.failures = 0 := by
    have howned := hrun.owned
      (P := fun c => c.limit ≠ none ∨ ∃ d ∈ c.errors, d.kind.category ≠ .structural)
      (fun c d h => by
        rw [c.limit_addError]
        exact h.imp_right fun ⟨e, he, hc⟩ => ⟨e, Diagnostic.Collection.mem_addError he, hc⟩)
      (fun c d hd => by
        rw [c.limit_addError]
        by_cases hl : c.limit = none
        · rw [Diagnostic.Collection.errors_addError_of_limit_none hl]
          exact .inr ⟨d, List.mem_append_right _ (List.mem_singleton_self d), hd⟩
        · exact .inl hl)
      (.inl ⟨rfl, rfl⟩)
    rcases howned with h | h | ⟨d, hd, hcategory⟩
    · exact h.1
    · exact absurd (hrun.limit_eq.trans hmax) h
    · exact absurd (honly d hd) hcategory
  have hstart : (State.ofTokens (Token.scan source).1 config.maxErrors).errors.kinds = [] := rfl
  rw [hrun.kinds hsettled hnone hmax hk, hstart, Program.mem_trace]
  simp only [List.not_mem_nil, false_or, Node.fault_mem_marks]

/-- **Exactness.**  If a parse of a text that may keep all its errors reports nothing but misplaced
constructs, then it reports

* a misplaced jump if a `break` stands in no loop and no switch or a `continue` in no loop, counted
  up to the nearest function, operator or block inside an expression;
* a missing or a repeated default case if a switch has none or more than one;
* a wrong target if something is assigned to what cannot be assigned to;
* a mismatch if an interpolated string does not have one text more than it has values;
* a misplaced declaration if there is one among the statements;

and each of these only then. -/
theorem parseTokens_structural (source : String) {config : Config} (hmax : config.maxErrors = none)
    (honly : ∀ d ∈ (parseTokens (Token.scan source).1 config).errors.errors,
      d.kind.category = .structural) :
    let r := parseTokens (Token.scan source).1 config
    (.misplacedJump ∈ r.errors.kinds ↔
      (∃ e span id, (e, .statement ⟨.breakLoop, span, id⟩) ∈ r.program.enclosed
        ∧ e.loop = false ∧ e.switch = false)
      ∨ ∃ e span id, (e, .statement ⟨.continueLoop, span, id⟩) ∈ r.program.enclosed
        ∧ e.loop = false) ∧
    (.missingDefaultCase ∈ r.errors.kinds ↔ ∃ subject cases span id,
      .statement ⟨.switch subject cases, span, id⟩ ∈ r.program.nodes
        ∧ cases.countP Case.isDefault = 0) ∧
    (.duplicateDefaultCase ∈ r.errors.kinds ↔ ∃ subject cases span id,
      .statement ⟨.switch subject cases, span, id⟩ ∈ r.program.nodes
        ∧ 2 ≤ cases.countP Case.isDefault) ∧
    (.invalidAssignmentTarget ∈ r.errors.kinds ↔ ∃ op target value span id,
      .expression ⟨.assign op target value, span, id⟩ ∈ r.program.nodes
        ∧ target.isAssignable = false) ∧
    (.interpolationMismatch ∈ r.errors.kinds ↔ ∃ parts values span id,
      .expression ⟨.interpolated parts values, span, id⟩ ∈ r.program.nodes
        ∧ parts.length ≠ values.length + 1) ∧
    (.misplacedDeclaration ∈ r.errors.kinds ↔ ∃ decl span id,
      .statement ⟨.misplaced decl, span, id⟩ ∈ r.program.nodes) := by
  intro r
  have reported : ∀ k ∈ visibleKinds,
      (k ∈ r.errors.kinds ↔ ∃ e n, (e, n) ∈ r.program.enclosed ∧ k ∈ n.faults e) :=
    fun k hk => Grammar.mem_kinds_parseTokens hmax honly hk
  simp only [Program.mem_nodes_iff]
  refine ⟨?_, ?_, ?_, ?_, ?_, ?_⟩
  · rw [reported _ (by decide)]
    simp only [Node.misplacedJump_mem_faults]
    grind
  · rw [reported _ (by decide)]
    simp only [Node.missingDefaultCase_mem_faults]
    grind
  · rw [reported _ (by decide)]
    simp only [Node.duplicateDefaultCase_mem_faults]
    grind
  · rw [reported _ (by decide)]
    simp only [Node.invalidAssignmentTarget_mem_faults]
    grind
  · rw [reported _ (by decide)]
    simp only [Node.interpolationMismatch_mem_faults]
    grind
  · rw [reported _ (by decide)]
    simp only [Node.misplacedDeclaration_mem_faults]
    grind

/-- A text with a jump out of a block inside an expression, a declaration among the statements, a
switch with two default cases and a value too many, where everything else is right. -/
def misplacedText : String :=
  "def f() -> void \x7b while (x) { y = { break; }; } enum E { P } " ++
  "switch (x) { case (default) { continue; } case (default) { break; } } " ++
  "z = i\"a{}b\" : { x; y; }; \x7d"

theorem kinds_misplacedText : (parseTokens (Token.scan misplacedText).1 {}).errors.kinds
    = [.misplacedJump, .misplacedDeclaration, .misplacedJump, .duplicateDefaultCase,
       .interpolationMismatch] := by
  decide +kernel

theorem parseTokens_structural_misplacedText :
    let r := parseTokens (Token.scan misplacedText).1 {}
    (∀ d ∈ r.errors.errors, d.kind.category = .structural) ∧
    ((∃ e span id, (e, .statement ⟨.breakLoop, span, id⟩) ∈ r.program.enclosed
        ∧ e.loop = false ∧ e.switch = false)
      ∨ ∃ e span id, (e, .statement ⟨.continueLoop, span, id⟩) ∈ r.program.enclosed
        ∧ e.loop = false) ∧
    (¬∃ subject cases span id, .statement ⟨.switch subject cases, span, id⟩ ∈ r.program.nodes
        ∧ cases.countP Case.isDefault = 0) ∧
    (∃ subject cases span id, .statement ⟨.switch subject cases, span, id⟩ ∈ r.program.nodes
        ∧ 2 ≤ cases.countP Case.isDefault) ∧
    (¬∃ op target value span id, .expression ⟨.assign op target value, span, id⟩ ∈ r.program.nodes
        ∧ target.isAssignable = false) ∧
    (∃ parts values span id, .expression ⟨.interpolated parts values, span, id⟩ ∈ r.program.nodes
        ∧ parts.length ≠ values.length + 1) ∧
    ∃ decl span id, .statement ⟨.misplaced decl, span, id⟩ ∈ r.program.nodes := by
  have honly : ∀ d ∈ (parseTokens (Token.scan misplacedText).1 {}).errors.errors,
      d.kind.category = .structural := by
    have hall : ∀ k ∈ (parseTokens (Token.scan misplacedText).1 {}).errors.kinds,
        k.category = .structural := by
      rw [kinds_misplacedText]
      decide
    exact fun d hd => hall d.kind (Diagnostic.Collection.kind_mem_kinds hd)
  have hexact := parseTokens_structural misplacedText rfl honly
  simp only [kinds_misplacedText] at hexact
  obtain ⟨jump, missing, duplicate, target, mismatch, misplaced⟩ := hexact
  dsimp only
  refine ⟨honly, jump.1 ?_, ?_, duplicate.1 ?_, ?_, mismatch.1 ?_, misplaced.1 ?_⟩
  · decide
  · exact fun h => absurd (missing.2 h) (by decide)
  · decide
  · exact fun h => absurd (target.2 h) (by decide)
  · decide
  · decide

end FluxFront
