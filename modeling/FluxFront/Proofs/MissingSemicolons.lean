import FluxFront.Proofs.Chains
import FluxFront.Proofs.DeclReading
import FluxFront.Proofs.Forgiving
import FluxFront.Proofs.Limits

/-!
# Missing semicolons

The body of a function in which each line assigns a chain of operands to a name, and some of the semicolons
behind the assignments are missing.

* **Program**: `functionText` writes such a function, with a blank in front of every word of its body.
* **Specification**: every missing semicolon is one error, there are no others, and up to spans and identities
  the function is the one with all semicolons (`parse_missingSemicolons`).
* **Crux**: what stands behind a missing semicolon is a name or the closing brace.  At both of them the panic
  ends at once; and a name with an equals sign behind it starts no declaration, so the next assignment is read
  as one.
-/

namespace FluxFront

open Token (Word Kind Writes legible_keyword legible_isName)

/-! ## Words with blanks between them -/

namespace Token

/-- The word is read as itself in front of a blank and at the end of a text. -/
def Word.Apart (w : Word) : Prop :=
  ∀ rest : List Char, rest = [] ∨ (∃ more, rest = ' ' :: more) → w.Legible rest

/-- Words with a blank in front of each of them. -/
def spaced (ws : List Word) : List Char := ws.flatMap fun w => ' ' :: w.text

theorem writes_spaced {ws : List Word} (h : ∀ w ∈ ws, w.Apart) : Writes false (spaced ws) ws := by
  induction ws with
  | nil => exact .nil
  | cons w more ih =>
    rw [List.forall_mem_cons] at h
    have hrest : spaced more = [] ∨ ∃ text, spaced more = ' ' :: text := by
      cases more with
      | nil => exact .inl rfl
      | cons u us => exact .inr ⟨_, rfl⟩
    exact .blank (by decide) (.word (h.1 _ hrest) nofun (ih h.2))

theorem Word.Apart.of_breaks {w : Word} (h : ∀ rest, Breaks rest → w.Legible rest) : w.Apart := by
  rintro rest (rfl | ⟨more, rfl⟩)
  · exact h [] .nil
  · exact h _ (.blank more)

theorem apart_operator {k : Kind} (hk : k ∈ Kind.operators) : (Word.fixed k).Apart := by
  rintro rest hrest
  apply legible_operator hk
  rintro c text rfl
  rcases hrest with hrest | ⟨more, hrest⟩
  · exact absurd hrest (List.cons_ne_nil _ _)
  · rw [(List.cons.inj hrest).1]
    exact clears_of_not_mem hk (by decide)

end Token

theorem Chain.Operand.apart (o : Chain.Operand) : o.word.Apart := by
  cases o with
  | name text h => exact .of_breaks fun _ => Token.legible_isName h
  | numeral n => exact .of_breaks fun _ => n.legible

theorem Chain.apart (c : Chain) : ∀ w ∈ c.words, w.Apart := by
  have hop : ∀ op : BinaryOp, (Word.fixed op.kind).Apart := by
    intro op
    rcases op.kind_mem with hk | hk
    · exact Token.apart_operator hk
    · rw [hk]
      exact .of_breaks fun _ => Token.legible_keyword (k := .kwIs) (by decide) nofun
  intro w hw
  unfold Chain.words Link.words at hw
  rw [List.mem_cons, List.mem_flatMap] at hw
  rcases hw with rfl | ⟨l, -, hw⟩
  · exact c.first.apart
  · simp only [List.mem_cons, List.not_mem_nil, or_false] at hw
    rcases hw with rfl | rfl
    · exact hop l.op
    · exact l.operand.apart

/-! ## Assignments -/

/-- An assignment to a name, with a semicolon behind it or without. -/
structure Assignment where
  target : String
  isName : Token.isName target = true
  value : Chain
  closed : Bool

namespace Assignment

/-- The assignment with its semicolon. -/
def close (a : Assignment) : Assignment := { a with closed := true }

/-- The semicolon, if it is there. -/
def ending (a : Assignment) : List Word := if a.closed then [.fixed .semicolon] else []

/-- The words of an assignment. -/
def words (a : Assignment) : List Word := .name a.target :: .fixed .equal :: (a.value.words ++ a.ending)

/-- The expression of an assignment, without spans and identities. -/
def expr (a : Assignment) : Expr :=
  ⟨.assign .assign ⟨.identifier a.target, default, default⟩ a.value.expr, default, default⟩

/-- The statement of an assignment, without spans and identities. -/
def stmt (a : Assignment) : Stmt := ⟨.expression a.expr, default, default⟩

/-- How many semicolons are missing. -/
def missing (a : Assignment) : Nat := if a.closed then 0 else 1

theorem missingAlong_eq (as : List Assignment) :
    Grammar.missingAlong missing as = as.countP (!·.closed) := by
  induction as with
  | nil => rfl
  | cons a more ih =>
    rw [Grammar.missingAlong, ih, List.countP_cons, Nat.add_comm, missing]
    cases a.closed <;> rfl

theorem apart (a : Assignment) : ∀ w ∈ a.words, w.Apart := by
  intro w hw
  simp only [words, List.mem_cons, List.mem_append] at hw
  rcases hw with rfl | rfl | hw | hw
  · exact .of_breaks fun _ => Token.legible_isName a.isName
  · exact Token.apart_operator (by decide)
  · exact a.value.apart w hw
  · unfold ending at hw
    split at hw
    · rw [List.mem_singleton.1 hw]
      exact Token.apart_operator (by decide)
    · exact absurd hw List.not_mem_nil

end Assignment

/-- The words in front of the body of the function. -/
def headerWords : List Word :=
  [.fixed .kwDef, .name "f", .fixed .leftParen, .fixed .rightParen, .fixed .arrow, .fixed .kwVoid,
    .fixed .leftBrace]

/-- The words of a function with assignments in its body. -/
def functionWords (as : List Assignment) : List Word :=
  headerWords ++ (as.flatMap Assignment.words ++ [.fixed .rightBrace])

/-- The text of a function with assignments in its body, and a blank in front of every word of it. -/
def functionText (as : List Assignment) : String :=
  "def f() -> void \x7b"
    ++ String.ofList (Token.spaced (as.flatMap Assignment.words ++ [.fixed .rightBrace]))

/-- The function of the assignments, without spans and identities. -/
def functionOf (as : List Assignment) : Decl :=
  ⟨.functionDecl "f" [] ⟨.builtin .void, default, default⟩ (some ⟨as.map Assignment.stmt, default⟩),
    default, default⟩

theorem writes_header {text : List Char} {ws : List Word} (h : Writes false text ws) :
    Writes false ("def f() -> void \x7b".toList ++ text) (headerWords ++ ws) := by
  have hbrace : Writes false ('\x7b' :: text) (.fixed .leftBrace :: ws) :=
    .final (k := .leftBrace) (by decide) (by decide) nofun h
  have hvoid : Writes false (['v', 'o', 'i', 'd', ' '] ++ '\x7b' :: text) (.fixed .kwVoid :: _) :=
    .word (legible_keyword (k := .kwVoid) (by decide) nofun (.blank _)) nofun (.blank (by decide) hbrace)
  have harrow : Writes false ([' ', '-', '>', ' '] ++ _) (.fixed .arrow :: _) :=
    .blank (by decide) (.spaced (k := .arrow) (by decide) nofun hvoid)
  have hclose : Writes false (')' :: _) (.fixed .rightParen :: _) :=
    .final (k := .rightParen) (by decide) (by decide) nofun harrow
  have hopen : Writes false ('(' :: _) (.fixed .leftParen :: _) :=
    .final (k := .leftParen) (by decide) (by decide) nofun hclose
  have hname : Writes false ([' ', 'f'] ++ _) (.name "f" :: _) :=
    .blank (by decide)
      (.word (w := .name "f") (legible_isName (by decide) (.cons (by decide +kernel) _)) nofun hopen)
  have hdef : Writes false (['d', 'e', 'f'] ++ _) (.fixed .kwDef :: _) :=
    .word (legible_keyword (k := .kwDef) (by decide) nofun (.blank _)) nofun hname
  exact hdef

theorem writes_functionText (as : List Assignment) :
    Writes false (functionText as).toList (functionWords as) := by
  have hbody : Writes false (Token.spaced (as.flatMap Assignment.words ++ [.fixed .rightBrace]))
      (as.flatMap Assignment.words ++ [.fixed .rightBrace]) := by
    apply Token.writes_spaced
    intro w hw
    rw [List.mem_append, List.mem_flatMap, List.mem_singleton] at hw
    rcases hw with ⟨a, -, hw⟩ | rfl
    · exact a.apart w hw
    · exact Token.apart_operator (by decide)
  have hheader := writes_header hbody
  rwa [← String.toList_ofList (l := Token.spaced _), ← String.toList_append] at hheader

/-! ## Reading the function -/

namespace Grammar

variable {limit room : Nat} {ws : List Word}

theorem gives_void :
    Gives false (grammar limit (room + 1)).type (.fixed .kwVoid :: .fixed .leftBrace :: ws)
      (.fixed .leftBrace :: ws) fun t => t.bare = ⟨.builtin .void, default, default⟩ := by
  have hinner := grammar_steady limit room
  have hbase : Gives false (baseType (grammar limit room).type) (.fixed .kwVoid :: .fixed .leftBrace :: ws)
      (.fixed .leftBrace :: ws) fun t => t.bare = ⟨.builtin .void, default, default⟩ :=
    .kind (Word.shown_false _) (.here fun start => .advance (Word.shown_false _) nofun fun _ _ =>
      .node fun _ _ => rfl)
  have hmore : ∀ start type, Gives false (modifiedType? (grammar limit room).expression start type)
      (.fixed .leftBrace :: ws) (.fixed .leftBrace :: ws) (· = none) :=
    fun _ _ => .kind (Word.shown_false _) (.pure rfl)
  exact .here fun start => hbase.bind fun type htype =>
    .iterate_stop (round_modifiedType hinner.expression start) (hmore start type) htype

/-- A name in front of an equals sign is skimmed as a type. -/
theorem gives_skim_target {name : String} :
    Gives false (grammar limit (room + 1)).skim (.name name :: .fixed .equal :: ws) (.fixed .equal :: ws)
      fun _ => True := by
  have hsegments : Gives false (many segment?) (.fixed .equal :: ws) (.fixed .equal :: ws) fun _ => True :=
    .many_stop round_segment (.check_neg (Word.shown_false _) nofun (.kindAt fun _ => .pure rfl)) trivial
  have hname : Gives false (qualifiedName "Expected type name") (.name name :: .fixed .equal :: ws)
      (.fixed .equal :: ws) fun _ => True :=
    .consumeName (hsegments.bind fun _ _ => .pure trivial)
  have hbase : Gives false (baseType (grammar limit room).skim) (.name name :: .fixed .equal :: ws)
      (.fixed .equal :: ws) fun _ => True := by
    refine .kind (Word.shown_false _) (.here fun start => hname.bind fun _ _ => ?_)
    refine .bind (.node (R := fun _ => True) fun _ _ => trivial) fun _ _ => ?_
    exact .accept_neg (Word.shown_false _) nofun (.pure trivial)
  have hmore : ∀ start type, Gives false (modifiedType? skippedSize start type) (.fixed .equal :: ws)
      (.fixed .equal :: ws) (· = none) := fun _ _ => .kind (Word.shown_false _) (.pure rfl)
  exact .here fun start => hbase.bind fun type htype =>
    .iterate_stop (round_modifiedType steady_skippedSize start) (hmore start type) trivial

/-- A name in front of an equals sign starts no declaration. -/
theorem gives_declaratorForm_none {name : String} :
    Gives false (declaratorForm (grammar limit (room + 1))) (.name name :: .fixed .equal :: ws)
      (.name name :: .fixed .equal :: ws) (· = none) := by
  have hfollows : Gives false instantiationFollows (.fixed .equal :: ws) (.fixed .equal :: ws) (· = false) := by
    refine .accept_neg (Word.shown_false _) nofun (.bind (Q := (· = true)) (.pure rfl) ?_)
    rintro _ rfl
    exact .kind (Word.shown_false _) (.kindAt fun _ => .kindAt fun _ => .pure rfl)
  refine .probe (probe_declaratorForm (grammar_steady _ _).skim) fun r s hs => .get ?_
  refine (gives_skim_target r s hs).andThen fun type s' hs' => .get ?_
  have hsame : (s'.failures != s.failures) = false := by
    rw [hs'.2.noticed, hs.noticed]
    exact bne_self_eq_false _
  rw [hsame]
  refine .check (fun hk => absurd ((hs'.2.kind (Word.shown_false _)).symm.trans hk) nofun) fun _ => .kindAt ?_
  refine (hfollows r s' hs'.2).andThen ?_
  rintro _ _ ⟨rfl, -⟩
  exact .pure rfl

theorem gives_declarationBody_none {name : String} (context : Context) :
    Gives false (declarationBody (grammar limit (room + 1)) context) (.name name :: .fixed .equal :: ws)
      (.name name :: .fixed .equal :: ws) (· = none) := by
  have hled : Gives false (nameLedDecl (grammar limit (room + 1))) (.name name :: .fixed .equal :: ws)
      (.name name :: .fixed .equal :: ws) (· = none) := by
    refine gives_declaratorForm_none.bind ?_
    rintro _ rfl
    intro r s hs
    exact .current (Gives.note.bind (fun _ _ => .pure rfl) r s hs)
  intro r s hs
  refine .get ?_
  rw [hs.kind (Word.shown_false _)]
  exact hled r s hs

/-- An assignment is read up to a word that goes on with no expression. -/
theorem gives_assignment (a : Assignment) {w : Word} (hw : pull w.kind = 0) :
    Gives false (grammar limit (room + 2)).expression
      (.name a.target :: .fixed .equal :: (a.value.words ++ w :: ws)) (w :: ws) fun e => e.bare = a.expr := by
  have hi := grammar_steady limit (room + 1)
  have htarget : Holds (grammar limit (room + 1)) 18 [.name a.target] fun e => e.form = .identifier a.target :=
    .of_reads hi (Nat.le_refl 18) (fun _ => ⟨_, _, rfl, nofun, rfl⟩) reads_identifier
      fun h => absurd h (by decide)
  have hvalue : ReadsAs (grammar limit room) 1 a.value.words fun e => e.bare = a.value.expr :=
    (a.value.holds (grammar_steady limit room)).reads (Nat.le_refl 1) (strength_pos _)
  have hassign : ReadsAs (grammar limit (room + 1)) 1
      ([.name a.target] ++ .fixed AssignOp.assign.kind :: a.value.words) fun e => e.bare = a.expr := by
    refine (htarget.reads (by decide) (by decide)).assign ?_ hvalue ?_
    · rintro ⟨_, _, _⟩ rfl
      rfl
    · rintro ⟨_, _, _⟩ value rfl hvalue span id
      rw [Expr.bare_assign, hvalue]
      rfl
  exact hassign.expression ⟨w, ws, rfl, by rw [hw]; exact Nat.one_pos⟩

/-- What stands behind an assignment: a name starts the next one, a brace closes the body. -/
def Resumes (w : Word) : Prop := w.kind = .identifier ∨ w.kind = .rightBrace

/-- The semicolon behind an assignment is read or forgiven. -/
theorem forgives_ending (a : Assignment) {w : Word} (hw : Resumes w) (what : String) :
    Forgives a.missing (expectSemicolon what) (a.ending ++ w :: ws) (w :: ws) fun _ => True := by
  have hstart : w.kind ∈ statementStarts ∧ w.kind ≠ .eof := by
    rcases hw with hk | hk <;> · rw [hk]; decide
  unfold Assignment.missing Assignment.ending
  cases a.closed with
  | true => exact (gives_expectSemicolon what).forgives
  | false => exact forgives_expectSemicolon what hstart.1 hstart.2

/-- **An assignment is read with its semicolon or without it**, in front of the next one and at the end of the
body. -/
theorem forgives_assignment (a : Assignment) {w : Word} (hw : Resumes w) (context : Context) :
    Forgives a.missing (blockItem (grammar limit (room + 2)) context) (a.words ++ w :: ws) (w :: ws)
      fun stmts => stmts.map Stmt.bare = [a.stmt] := by
  obtain ⟨v, vs, hv, hpull⟩ : ∃ v vs, a.ending ++ w :: ws = v :: vs ∧ pull v.kind = 0 := by
    unfold Assignment.ending
    cases a.closed with
    | true => exact ⟨_, _, rfl, rfl⟩
    | false => exact ⟨w, ws, rfl, by rcases hw with hk | hk <;> · rw [hk]; rfl⟩
  have hexpr : Gives false (grammar limit (room + 2)).expression
      (.name a.target :: .fixed .equal :: (a.value.words ++ v :: vs)) (v :: vs) fun e => e.bare = a.expr :=
    gives_assignment a hpull
  have hending : Forgives a.missing (expectSemicolon "expression") (a.ending ++ w :: ws) (w :: ws)
      fun _ => True := forgives_ending a hw "expression"
  have hwords : a.words ++ w :: ws = .name a.target :: .fixed .equal :: (a.value.words ++ v :: vs) := by
    rw [← hv, Assignment.words, List.cons_append, List.cons_append, List.append_assoc]
  rw [hv] at hending
  rw [hwords]
  have hstatement : Forgives a.missing (expressionStatement (grammar limit (room + 2)))
      (.name a.target :: .fixed .equal :: (a.value.words ++ v :: vs)) (w :: ws)
      fun stmt => stmt.bare = a.stmt :=
    .here fun start => .behind hexpr fun e he => hending.before fun _ _ => .node fun span id => by
      rw [Stmt.bare_expression, he]
      rfl
  refine .behind (Q := (· = none)) (.kind (Word.shown_false _) (.pure rfl)) ?_
  rintro _ rfl
  refine .behind (gives_declarationBody_none context) ?_
  rintro _ rfl
  exact hstatement.before fun stmt hstmt => .pure (congrArg (fun b => [b]) hstmt)

/-! ## The function and its text -/

/-- The statements between the braces. -/
theorem forgives_block (as : List Assignment) (context : Context) :
    Forgives (as.countP (!·.closed)) (block (grammar limit (room + 3)) context)
      (.fixed .leftBrace :: (as.flatMap Assignment.words ++ .fixed .rightBrace :: ws)) ws
      fun b => b.statements.map Stmt.bare = as.map Assignment.stmt := by
  have hitems : Forgives (missingAlong Assignment.missing as)
      (bodyItems .rightBrace (blockItem (grammar limit (room + 2)) context))
      (as.flatMap Assignment.words ++ .fixed .rightBrace :: ws) (.fixed .rightBrace :: ws)
      fun stmts => stmts.map Stmt.bare = as.map Assignment.stmt := by
    refine .bodyItems (P := fun w => w.kind = .identifier) (steady_blockItem (grammar_steady _ _) context)
      ?_ ?_ as ?_ ?_
    · rfl
    · intro w hw
      rw [hw]
      decide
    · exact fun a _ => ⟨_, _, rfl, rfl⟩
    · intro a _ w us hw
      apply forgives_assignment a
      rcases hw with hw | rfl
      · exact .inl hw
      · exact .inr rfl
  rw [Assignment.missingAlong_eq] at hitems
  have hentry : Forgives (as.countP (!·.closed)) ((grammar limit (room + 3)).items context)
      (as.flatMap Assignment.words ++ .fixed .rightBrace :: ws) (.fixed .rightBrace :: ws)
      fun o => ∃ stmts, o = some stmts ∧ stmts.map Stmt.bare = as.map Assignment.stmt :=
    hitems.map fun stmts hstmts => ⟨stmts, rfl, hstmts⟩
  refine .here fun start => .behind (Q := (· = true))
    (.last (.accept_pos (Word.shown_false _) rfl nofun (.pure rfl))) ?_
  rintro _ rfl
  refine hentry.before ?_
  rintro _ ⟨stmts, rfl, hstmts⟩
  exact .consume (Word.shown_false _) rfl nofun (.spanFrom fun span => .pure hstmts)

theorem forgives_functionDecl (as : List Assignment) :
    Forgives (as.countP (!·.closed)) (functionDecl (grammar limit (room + 3)) .topLevel)
      (functionWords as ++ ws) ws fun d => d.bare = functionOf as := by
  have hwords : functionWords as ++ ws = .fixed .kwDef :: .name "f" :: .fixed .leftParen :: .fixed .rightParen
      :: .fixed .arrow :: .fixed .kwVoid :: .fixed .leftBrace
      :: (as.flatMap Assignment.words ++ .fixed .rightBrace :: ws) := by
    simp [functionWords, headerWords]
  rw [hwords]
  generalize hbody : as.flatMap Assignment.words ++ .fixed .rightBrace :: ws = body
  have hparams : Gives false (parameters (grammar limit (room + 3)))
      (.fixed .leftParen :: .fixed .rightParen :: .fixed .arrow :: .fixed .kwVoid :: .fixed .leftBrace :: body)
      (.fixed .arrow :: .fixed .kwVoid :: .fixed .leftBrace :: body) (· = []) := by
    refine .consume (Word.shown_false _) rfl nofun (.check_pos (Word.shown_false _) rfl ?_)
    refine .bind (Q := (· = [])) (.pure rfl) ?_
    rintro _ rfl
    exact .consume (Word.shown_false _) rfl nofun (.pure rfl)
  have hresult : Gives false (resultType (grammar limit (room + 3)).type)
      (.fixed .arrow :: .fixed .kwVoid :: .fixed .leftBrace :: body) (.fixed .leftBrace :: body)
      fun t => t.bare = ⟨.builtin .void, default, default⟩ :=
    .accept_pos (Word.shown_false _) rfl nofun gives_void
  have hblock : Forgives (as.countP (!·.closed))
      (some <$> block (grammar limit (room + 3)) (Context.functionBody .topLevel))
      (.fixed .leftBrace :: body) ws
      fun o => ∃ b : Block, o = some b ∧ b.statements.map Stmt.bare = as.map Assignment.stmt := by
    rw [← hbody]
    exact (forgives_block as _).map fun b hb => ⟨b, rfl, hb⟩
  refine .here fun start => .behind (Q := fun _ => True)
    (.last (.advance (Word.shown_false _) nofun fun _ _ => .pure trivial)) fun _ _ => ?_
  refine .behind (Q := (· = "f")) (.last (.consumeName (.pure rfl))) ?_
  rintro _ rfl
  refine .behind hparams ?_
  rintro _ rfl
  refine .behind hresult fun result hresult => ?_
  refine .behind (Q := (· = true)) (.last (.check_pos (Word.shown_false _) rfl (.pure rfl))) ?_
  rintro _ rfl
  refine hblock.before ?_
  rintro _ ⟨⟨statements, place⟩, rfl, hstatements⟩
  have hstatements : statements.map Stmt.bare = as.map Assignment.stmt := hstatements
  refine .bind (Q := fun d => d.bare = functionOf as) (.node fun span id => ?_) fun d hd => .pure hd
  rw [Decl.bare_functionDecl, hresult, hstatements]
  rfl

theorem forgives_topLevelItem (config : Config) (as : List Assignment) :
    Forgives (as.countP (!·.closed)) (topLevelItem config (grammar limit (room + 3)))
      (functionWords as ++ ws) ws fun ds => ds.map Decl.bare = [functionOf as] := by
  have hdecl : Forgives (as.countP (!·.closed)) (declarationBody (grammar limit (room + 3)) .topLevel)
      (functionWords as ++ ws) ws fun o => ∃ d, o = some [d] ∧ d.bare = functionOf as := by
    intro r s hr hs
    have hkinds := Ahead.tagged (k := .kwDef) hs (by decide)
    refine .get ?_
    rw [hkinds.1, hkinds.2]
    exact (forgives_functionDecl as).before (fun d hd => .pure ⟨d, rfl, hd⟩) r s hr hs
  refine hdecl.before ?_
  rintro _ ⟨d, rfl, hd⟩
  exact .pure (congrArg (fun b => [b]) hd)

/-- The text is one function and ends behind it. -/
theorem forgives_program (config : Config) (hroom : 3 ≤ config.maxNestingDepth) (as : List Assignment) :
    Forgives (as.countP (!·.closed)) (leveledProgram config) (functionWords as ++ [.eof]) [.eof]
      fun p => p.bare = ⟨[functionOf as], default⟩ := by
  obtain ⟨room, hdepth⟩ : ∃ room, config.maxNestingDepth = room + 3 := ⟨_, (Nat.sub_add_cancel hroom).symm⟩
  have hitems : Forgives (as.countP (!·.closed))
      (bodyItems .eof (topLevelItem config (grammar config.maxNestingDepth config.maxNestingDepth)))
      (functionWords as ++ [.eof]) [.eof] fun ds => ds.map Decl.bare = [functionOf as] := by
    have hone : Forgives (missingAlong (fun _ => as.countP (!·.closed)) [()])
        (bodyItems .eof (topLevelItem config (grammar config.maxNestingDepth (room + 3))))
        ([()].flatMap (fun _ => functionWords as) ++ [.eof]) [.eof]
        fun ds => ds.map Decl.bare = [()].map fun _ => functionOf as := by
      refine .bodyItems (P := fun w => w.kind = .kwDef) (steady_topLevelItem (grammar_steady _ _) config)
        ?_ ?_ [()] ?_ ?_
      · rfl
      · intro w hw
        rw [hw]
        decide
      · exact fun _ _ => ⟨_, _, rfl, rfl⟩
      · exact fun _ _ u us _ => forgives_topLevelItem config as
    rw [hdepth] at hone ⊢
    simpa [missingAlong] using hone
  refine .here fun start => hitems.before fun ds hds => .get fun r s hs => .pure ?_
  rw [Program.bare_eq, hds]

end Grammar

/-- What is read from the text. -/
theorem parse_functionText (as : List Assignment) :
    (parse (functionText as) {}).errors.errors.length = as.countP (!·.closed) ∧
      (∀ d ∈ (parse (functionText as) {}).errors.errors, d.kind = .expectedToken) ∧
      (parse (functionText as) {}).program.bare = ⟨[functionOf as], default⟩ := by
  obtain ⟨hclean, hahead⟩ := Grammar.Ahead.ofText (writes_functionText as) none
  have hprogram := Grammar.forgives_program {} (by decide) as
  obtain ⟨p, s, r, hrun, hp, ⟨ds, hlength, hkinds, hrecord⟩, hend⟩ := hprogram.exists_run rfl hahead
  have htokens : parseTokens (Token.scan (functionText as)).1 {} = ⟨p, s.errors, s.events.reverse⟩ :=
    parseTokens_eq hrun
  have hrecorded : recordedErrors (functionText as) {} = ds := by
    have hds : s.errors.errors = [] ++ ds := congrArg Diagnostic.Collection.errors (hend.recorded.trans hrecord)
    rw [recordedErrors, hclean, htokens, hds, List.nil_append, List.nil_append]
  have herrors : (parse (functionText as) {}).errors.errors = ds.mergeSort Diagnostic.precedes := by
    rw [parse_kept, hrecorded]
    rfl
  refine ⟨?_, ?_, ?_⟩
  · rw [herrors, List.length_mergeSort, hlength]
  · intro d hd
    rw [herrors, List.mem_mergeSort] at hd
    exact hkinds d hd
  · rw [parse_program, htokens]
    exact hp

theorem functionOf_close (as : List Assignment) : functionOf (as.map Assignment.close) = functionOf as := by
  have hstmts : (as.map Assignment.close).map Assignment.stmt = as.map Assignment.stmt := by
    rw [List.map_map]
    rfl
  rw [functionOf, functionOf, hstmts]

/-- **Missing semicolons are forgiven one by one**: in a function whose body is made of assignments of chains
to names, every semicolon that is missing is one error, there are no other errors, and up to spans and
identities the function is the one with all of its semicolons. -/
theorem parse_missingSemicolons (as : List Assignment) :
    let result := parse (functionText as) {}
    let whole := parse (functionText (as.map Assignment.close)) {}
    result.errors.errors.length = as.countP (!·.closed) ∧
      (∀ d ∈ result.errors.errors, d.kind = .expectedToken) ∧
      result.errors.warnings = [] ∧
      result.program.bare = ⟨[functionOf as], default⟩ ∧
      whole.errors.errors = [] ∧
      whole.program.bare = result.program.bare := by
  dsimp only
  obtain ⟨hlength, hkinds, hprogram⟩ := parse_functionText as
  obtain ⟨hnone, -, hwhole⟩ := parse_functionText (as.map Assignment.close)
  have hclosed : (as.map Assignment.close).countP (!·.closed) = 0 := by
    rw [List.countP_map]
    exact List.countP_eq_zero.2 fun _ _ => nofun
  rw [hclosed] at hnone
  rw [functionOf_close] at hwhole
  exact ⟨hlength, hkinds, parse_warnings _ _, hprogram, List.length_eq_zero_iff.1 hnone,
    hwhole.trans hprogram.symm⟩

/-- A hexadecimal literal, a chain of comparisons, and two semicolons out of three that are missing. -/
example :
    let name (text : String) (h : Token.isName text = true) : Chain.Operand := .name text h
    let mask : Token.Numeral := ⟨"0xFF", 255, by decide, rfl⟩
    functionText
        [⟨"x", by decide, ⟨name "a" (by decide), [⟨.less, nofun, name "b" (by decide)⟩,
            ⟨.greater, nofun, name "c" (by decide)⟩]⟩, false⟩,
          ⟨"y", by decide, ⟨.numeral mask, [⟨.is, nofun, name "x" (by decide)⟩]⟩, true⟩,
          ⟨"z", by decide, ⟨name "y" (by decide), []⟩, false⟩]
      = "def f() -> void \x7b x = a < b > c y = 0xFF is x ; z = y \x7d" := by
  rfl

end FluxFront
