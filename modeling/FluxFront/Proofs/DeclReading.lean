import FluxFront.Proofs.DeclWords
import FluxFront.Proofs.TypeReading

/-!
# Reading the words of a declaration

What the productions of declarations do in front of the words of a declaration without code.

* **Specification**: `ReadsDecl` says that in front of the words of a declaration, wherever it may stand,
  the grammar reads just that declaration and has nothing to complain about.
* **Semicolons**: behind a body a semicolon may be left out, and the printer leaves it out.  So what
  follows a declaration must not start with one.
* **Crux**: most declarations are told by their first word.  A variable is told by skimming its type if it
  starts with a name, and otherwise by what does *not* follow its first word (`OpensVariable`).
-/

namespace FluxFront.Grammar

open Token (Kind Word braceWords)

variable {α β : Type} {ws rest after : List Word} {R : β → Prop}

/-! ## Punctuation -/

theorem Gives.semicolon {what : String} {q : Unit → Parser β} (h : Gives true (q ()) ws after R) :
    Gives true (expectSemicolon what >>= q) (.fixed .semicolon :: ws) after R := by
  have hread : Gives true (expectSemicolon what) (.fixed .semicolon :: ws) ws fun _ => True :=
    .accept_pos (shown_fixed (by decide)) rfl nofun (.pure trivial)
  exact hread.bind fun _ _ => h

/-- A semicolon that may be left out is left out. -/
theorem Gives.noSemicolon {q : Bool → Parser β} (hrest : Lacks [.semicolon] rest)
    (h : Gives true (q false) rest after R) : Gives true (accept .semicolon >>= q) rest after R := by
  obtain ⟨w, more, rfl, hw⟩ := hrest
  exact .accept_absent (hw .semicolon (by decide)) h

/-- The keyword that starts a declaration. -/
theorem Gives.keyword {k : Kind} {q : Token → Parser β} (hk : k ≠ .greater ∧ k ≠ .star) (hne : k ≠ .eof)
    (h : ∀ t : Token, t.word = .fixed k → Gives true (q t) ws after R) :
    Gives true (Grammar.advance >>= q) (.fixed k :: ws) after R :=
  .advance (shown_fixed hk) hne h

theorem Gives.arrow {type : Parser Ty} {R : Ty → Prop} (h : Gives true type ws after R) :
    Gives true (resultType type) (.fixed .arrow :: ws) after R :=
  .accept_pos (shown_fixed (by decide)) rfl nofun h

/-! ## Imports, uses, aliases -/

theorem gives_importPath (path : String) : Gives true importPath (.string path :: ws) ws (· = path) := by
  have hshown : (Word.string path).Shown true := fun _ => ⟨nofun, nofun⟩
  refine .check_pos hshown rfl (.advance hshown nofun fun t ht => ?_)
  have hliteral : t.literal = some (.string path) := congrArg Word.literal ht
  rw [hliteral]
  exact .pure rfl

theorem gives_importDecl {path : String} (newName : Option String) :
    Gives true importDecl
      (.fixed .kwImport :: .string path :: (aliasWords newName ++ .fixed .semicolon :: rest)) rest
      fun d => d.bare = ⟨.importFile path newName, default, default⟩ := by
  have hname : Gives true (do
      if ← accept .kwAs then some <$> consumeName "Expected alias after 'as'" else pure none)
      (aliasWords newName ++ .fixed .semicolon :: rest) (.fixed .semicolon :: rest) (· = newName) := by
    cases newName with
    | none => exact .accept_neg (shown_fixed (by decide)) nofun (.pure rfl)
    | some name =>
      refine .accept_pos (shown_fixed (by decide)) rfl nofun ?_
      exact .map (Q := (· = name)) (.last (.consumeName (.pure rfl))) fun _ h => congrArg some h
  refine .here fun start => .keyword (by decide) nofun fun _ _ => ?_
  refine (gives_importPath path).bind ?_
  rintro _ rfl
  refine .choice (hname.bind ?_)
  rintro _ rfl
  exact .semicolon (.node fun _ _ => rfl)

theorem gives_usingDecl (path : QualifiedName) :
    Gives true usingDecl (.fixed .kwUsing :: (path.words ++ .fixed .semicolon :: rest)) rest
      fun d => d.bare = ⟨.usingPath path, default, default⟩ := by
  refine .here fun start => .keyword (by decide) nofun fun _ _ => ?_
  refine (gives_qualifiedName path _ ⟨_, _, rfl, by decide⟩).bind ?_
  rintro _ rfl
  exact .semicolon (.node fun _ _ => rfl)

theorem gives_dataDecl (name : String) (layout : DataLayout) :
    Gives true dataDecl (layout.words ++ .fixed .kwAs :: .name name :: .fixed .semicolon :: rest) rest
      fun d => d.bare = ⟨.data name layout, default, default⟩ := by
  refine .here fun start => (gives_dataLayout layout).bind ?_
  rintro _ rfl
  exact .consume (shown_fixed (by decide)) rfl nofun (.consumeName (.semicolon (.node fun _ _ => rfl)))

/-- A member of an enumeration without a value. -/
theorem gives_enumMember {inner : Level} {m : EnumMember} (h : m.value = none) {w : Word}
    (hw : .equal ∉ w.kind.guises true) :
    Gives true (enumMember inner) (.name m.name :: w :: ws) (w :: ws) fun m' => m'.bare = m.bare := by
  refine .here fun start => .consumeName (.accept_absent hw (.spanFrom fun span => .pure ?_))
  obtain ⟨name, value, span'⟩ := m
  obtain rfl : value = none := h
  rfl

/-! ## Typed names -/

section Types

variable {limit less : Nat}

theorem gives_typeAlias {name : String} {type : Ty} (ht : type.Plain)
    (hroom : Node.size (.type type) ≤ less) :
    Gives true (typeAlias (grammar limit (less + 1)))
      (.fixed .kwType :: .name name :: .fixed .equal :: (type.words ++ .fixed .semicolon :: rest)) rest
      fun d => d.bare = ⟨.typeAlias name type.bare, default, default⟩ := by
  refine .here fun start => .keyword (by decide) nofun fun _ _ => .consumeName ?_
  refine .consume (shown_fixed (by decide)) rfl nofun ?_
  refine (gives_type ht hroom ⟨_, _, rfl, by decide⟩).bind fun type' htype => ?_
  refine .semicolon (.node fun span id => ?_)
  rw [Decl.bare_typeAlias, htype]

/-- A name does not go on with a type. -/
theorem lacks_name {name : String} : Lacks typeGoesOn (.name name :: ws) := by
  have hnone : ∀ k ∈ typeGoesOn, k ∉ Kind.identifier.guises true := by decide
  exact ⟨_, _, rfl, hnone⟩

/-- One parameter. -/
theorem gives_parameter {b : Binding} (h : b.Plain) (hroom : Node.size (.type b.type) ≤ less) :
    Gives true (parameter (grammar limit (less + 1))) (b.words ++ ws) ws fun b' => b'.bare = b.bare := by
  have hwords : b.words ++ ws = b.type.words ++ .name b.name :: ws := by simp [Binding.words]
  rw [hwords]
  refine .here fun start => (gives_type h.type hroom lacks_name).bind fun type' htype => ?_
  refine .consumeName (.spanFrom fun span => .pure ?_)
  rw [Binding.bare, Binding.bare, htype]

/-- The parameters of a function. -/
theorem gives_parameters {params : List Binding} (h : ∀ b ∈ params, b.Plain)
    (hroom : ∀ b ∈ params, Node.size (.type b.type) ≤ less) :
    Gives true (parameters (grammar limit (less + 1)))
      (.fixed .leftParen :: ([Word.fixed .comma].intercalate (params.map Binding.words)
        ++ .fixed .rightParen :: ws)) ws
      fun params' => params'.map Binding.bare = params.map Binding.bare := by
  have hlist : Gives true (do
      if ← check .rightParen then pure [] else commaSeparated (parameter (grammar limit (less + 1))))
      ([Word.fixed .comma].intercalate (params.map Binding.words) ++ .fixed .rightParen :: ws)
      (.fixed .rightParen :: ws) fun params' => params'.map Binding.bare = params.map Binding.bare := by
    refine .commaSeparatedUnless (steady_parameter (grammar_steady _ _)) (by decide) ?_ ?_ ?_
    · exact .last (.check_pos (shown_fixed (by decide)) rfl (.pure rfl))
    · intro b hb us
      obtain ⟨w, more, hw, hstart⟩ := exists_start (h b hb).type
      have hnone : ∀ k ∈ typeStarts, .rightParen ∉ k.guises true := by decide
      rw [Binding.words, hw]
      exact .last (.check_absent (hnone _ hstart) (.pure rfl))
    · intro b hb w us _
      exact gives_parameter (h b hb) (hroom b hb)
  refine .consume (shown_fixed (by decide)) rfl nofun (.choice (hlist.bind fun params' hparams => ?_))
  exact .consume (shown_fixed (by decide)) rfl nofun (.pure hparams)

/-- A prototype, wherever functions may stand. -/
theorem gives_prototype {name : String} {params : List Binding} {result : Ty} {context : Context}
    (hcontext : context.container ≠ .classBody) (hp : ∀ b ∈ params, b.Plain) (hr : result.Plain)
    (hproom : ∀ b ∈ params, Node.size (.type b.type) ≤ less)
    (hrroom : Node.size (.type result) ≤ less) :
    Gives true (functionDecl (grammar limit (less + 1)) context)
      (.fixed .kwDef :: .name name :: .fixed .leftParen
        :: ([Word.fixed .comma].intercalate (params.map Binding.words)
          ++ .fixed .rightParen :: .fixed .arrow :: (result.words ++ .fixed .semicolon :: rest))) rest
      fun d => d.bare = ⟨.functionDecl name (params.map Binding.bare) result.bare none,
        default, default⟩ := by
  refine .here fun start => .keyword (by decide) nofun fun _ _ => .consumeName ?_
  refine (gives_parameters hp hproom).bind fun params' hparams => ?_
  refine (Gives.arrow (gives_type hr hrroom ⟨_, _, rfl, by decide⟩)).bind fun result' hresult => ?_
  refine .check_neg (shown_fixed (by decide)) nofun ?_
  refine .accept_pos (shown_fixed (by decide)) rfl nofun (.bind (Q := (· = none)) (.pure rfl) ?_)
  rintro _ rfl
  have hnode : ∀ span id, Decl.bare ⟨.functionDecl name params' result' none, span, id⟩
      = ⟨.functionDecl name (params.map Binding.bare) result.bare none, default, default⟩ := by
    intro span id
    rw [Decl.bare_prototype, hparams, hresult]
  refine .bind (Q := fun d => d.bare = ⟨.functionDecl name (params.map Binding.bare) result.bare none,
    default, default⟩) (.node hnode) fun d hd => ?_
  rw [if_neg hcontext]
  exact .pure hd

/-- The fields of one line of a struct. -/
theorem gives_structFields {b : Binding} (h : b.Plain) (hroom : Node.size (.type b.type) ≤ less) :
    Gives true (structFields (grammar limit (less + 1)))
      (b.words ++ [.fixed .semicolon] ++ rest) rest fun bs => bs.map Binding.bare = [b.bare] := by
  have hwords : b.words ++ [.fixed .semicolon] ++ rest
      = b.type.words ++ .name b.name :: .fixed .semicolon :: rest := by simp [Binding.words]
  rw [hwords]
  refine .here fun start => (gives_type h.type hroom lacks_name).bind fun type' htype => ?_
  refine .consumeName (.spanFrom fun span => ?_)
  have round : Round True (do
      if ← accept .comma then
        let name ← consumeName "Expected field name after ','"
        let type ← duplicateType type'
        return some { name, type, span := ← spanFrom start : Binding }
      else return none : Parser (Option Binding)) :=
    .accept (k := .comma) nofun ((steady_consumeName _).bind fun _ => (steady_duplicateType _).bind fun _ =>
      (steady_spanFrom _).bind fun _ => .pure _)
  have hnone : Gives true _ (.fixed .semicolon :: rest) (.fixed .semicolon :: rest) (· = []) :=
    .many_stop round (.accept_neg (shown_fixed (by decide)) nofun (.pure rfl)) rfl
  refine hnone.bind ?_
  rintro _ rfl
  refine .semicolon (.pure ?_)
  rw [List.map_cons, List.map_nil, Binding.bare, Binding.bare, htype]

/-- A struct, or its name alone. -/
theorem gives_structDecl {name : String} {fields : List Binding} {isForward : Bool}
    (h : ∀ b ∈ fields, b.Plain) (hroom : ∀ b ∈ fields, Node.size (.type b.type) ≤ less)
    (hn : isForward = true → fields = []) (hrest : Lacks [.semicolon] rest) :
    Gives true (structDecl (grammar limit (less + 1)))
      (.fixed .kwStruct :: .name name :: ((if isForward then [.fixed .semicolon]
        else braceWords (fields.flatMap fun b => b.words ++ [.fixed .semicolon])) ++ rest)) rest
      fun d => d.bare = ⟨.structDecl name (fields.map Binding.bare) isForward, default, default⟩ := by
  refine .here fun start => .keyword (by decide) (by decide) fun _ _ => .consumeName ?_
  cases isForward with
  | true =>
    rw [hn rfl]
    exact .accept_pos (shown_fixed (by decide)) rfl (by decide) (.node fun _ _ => rfl)
  | false =>
    have hfields : Gives true (bodyItems .rightBrace (structFields (grammar limit (less + 1))))
        ((fields.flatMap fun b => b.words ++ [.fixed .semicolon]) ++ .fixed .rightBrace :: rest)
        (.fixed .rightBrace :: rest) fun bs => bs.map Binding.bare = fields.map Binding.bare := by
      refine .bodyItems (steady_structFields (grammar_steady _ _)) (.inl rfl) rfl ?_ ?_
      · intro b hb
        rw [Binding.words, List.append_assoc]
        exact lacks_type (h b hb).type (by decide)
      · intro b hb us _
        exact gives_structFields (h b hb) (hroom b hb)
    have hwords : braceWords (fields.flatMap fun b => b.words ++ [.fixed .semicolon]) ++ rest
        = .fixed .leftBrace :: ((fields.flatMap fun b => b.words ++ [.fixed .semicolon])
          ++ .fixed .rightBrace :: rest) := by simp [braceWords]
    rw [if_neg Bool.false_ne_true, hwords]
    refine .accept_neg (shown_fixed (by decide)) (by decide) ?_
    refine .consume (shown_fixed (by decide)) rfl (by decide) (hfields.bind fun bs hbs => ?_)
    refine .consume (shown_fixed (by decide)) rfl (by decide) (.noSemicolon hrest (.node fun span id => ?_))
    rw [Decl.bare_structDecl, hbs]

end Types

/-- An enumeration whose members have no values. -/
theorem gives_enumDecl {inner : Level} (hi : inner.Steady) {name : String} {members : List EnumMember}
    (h : ∀ m ∈ members, m.value = none) (hrest : Lacks [.semicolon] rest) :
    Gives true (enumDecl inner)
      (.fixed .kwEnum :: .name name
        :: (braceWords ([Word.fixed .comma].intercalate (members.map fun m => [.name m.name])) ++ rest)) rest
      fun d => d.bare = ⟨.enumDecl name (members.map EnumMember.bare), default, default⟩ := by
  have hmembers : Gives true (commaTerminated .rightBrace (enumMember inner))
      ([Word.fixed .comma].intercalate (members.map fun m => [.name m.name]) ++ .fixed .rightBrace :: rest)
      (.fixed .rightBrace :: rest) fun ms => ms.map EnumMember.bare = members.map EnumMember.bare := by
    refine .commaTerminated (steady_enumMember hi) (shown_fixed (by decide)) rfl (by decide) ?_ ?_
    · intro m _
      exact ⟨_, _, rfl, shown_name _, (by decide : Kind.identifier ≠ .rightBrace),
        (by decide : Kind.identifier ≠ .eof)⟩
    · intro m hm w us hw
      refine gives_enumMember (h m hm) ?_
      rcases hw with rfl | rfl <;> decide
  have hwords : braceWords ([Word.fixed .comma].intercalate (members.map fun m => [.name m.name])) ++ rest
      = .fixed .leftBrace :: ([Word.fixed .comma].intercalate (members.map fun m => [.name m.name])
        ++ .fixed .rightBrace :: rest) := by simp [braceWords]
  rw [hwords]
  refine .here fun start => .keyword (by decide) (by decide) fun _ _ => .consumeName ?_
  refine .consume (shown_fixed (by decide)) rfl (by decide) (hmembers.bind fun ms hms => ?_)
  refine .consume (shown_fixed (by decide)) rfl (by decide) (.noSemicolon hrest (.node fun span id => ?_))
  rw [Decl.bare_enumDecl, hms]

/-! ## Inheritance -/

/-- An entry of an inheritance list; only classes exclude. -/
theorem gives_inheritanceEntry {isClass : Bool} {entry : Bool × QualifiedName}
    (h : entry.1 = true → isClass = true) (hrest : Lacks [.dot] rest) :
    Gives true (inheritanceEntry isClass) (entryWords entry ++ rest) rest (· = entry) := by
  obtain ⟨excluded, base⟩ := entry
  have finish : ∀ start, Gives true (do
      let base ← qualifiedName "Expected base name"
      if excluded && !isClass then
        reportStructural .invalidExclusion
          ("Objects cannot exclude members of '" ++ base.display ++ "'") (← spanFrom start)
      return (excluded, base)) (base.words ++ rest) rest (· = (excluded, base)) := by
    intro start
    refine (gives_qualifiedName base _ hrest).bind ?_
    rintro _ rfl
    have hallowed : (excluded && !isClass) = false := by
      cases excluded with
      | false => rfl
      | true => simp [h rfl]
    rw [hallowed]
    exact .pure rfl
  refine .here fun start => ?_
  cases excluded with
  | false => exact .accept_neg (shown_name base.head) nofun (finish start)
  | true => exact .accept_pos (shown_fixed (by decide)) rfl nofun (finish start)

/-- An inheritance list in front of a body or a semicolon. -/
theorem gives_inheritance {isClass : Bool} {entries : List (Bool × QualifiedName)} {w : Word}
    (h : ∀ e ∈ entries, e.1 = true → isClass = true) (hw : w.kind = .leftBrace ∨ w.kind = .semicolon)
    (ws : List Word) :
    Gives true (do
      if ← accept .colon then commaSeparated (inheritanceEntry isClass) else pure [])
      (inheritanceWords entries ++ w :: ws) (w :: ws) (· = entries) := by
  have hnone : ∀ k ∈ [Kind.colon, .comma, .dot], k ∉ w.kind.guises true := by
    rcases hw with hw | hw <;> rw [hw] <;> decide
  unfold inheritanceWords
  cases entries with
  | nil => exact .accept_absent (hnone _ (by decide)) (.pure rfl)
  | cons e more =>
    refine .accept_pos (shown_fixed (by decide)) rfl nofun ?_
    have hlist : Gives true (commaSeparated (inheritanceEntry isClass)) (_ ++ w :: ws) (w :: ws)
        fun es => es.map id = (e :: more).map id :=
      .commaSeparated (steady_inheritanceEntry isClass) (hnone _ (by decide)) (List.cons_ne_nil e more)
        fun a ha u us hu => gives_inheritanceEntry (h a ha) ?_
    · simpa using hlist
    · rcases hu with rfl | rfl
      · exact ⟨_, _, rfl, by decide⟩
      · exact ⟨_, _, rfl, fun k hk => hnone k (by simp_all)⟩

/-! ## Declarations in their places -/

/-- In front of the words of a declaration, the declaration and nothing else is read.  A function may not
stand in a class. -/
def ReadsDecl (limit room : Nat) (d : Decl) : Prop :=
  ∀ context : Context, (context.container = .classBody → d.isFunction = false) →
    ∀ rest, Lacks [.semicolon] rest →
      Gives true (declarationBody (grammar limit room) context) (d.words ++ rest) rest
        fun o => ∃ d', o = some [d'] ∧ d'.bare = d.bare

theorem gives_one {p : Parser Decl} {b : Decl} (h : Gives true p ws after fun d => d.bare = b) :
    Gives true (declarationBody.one p) ws after fun o => ∃ d', o = some [d'] ∧ d'.bare = b :=
  h.bind fun d hd => .pure ⟨d, rfl, hd⟩

/-- The kinds of words with which a declaration starts. -/
def declStarts : List Kind :=
  [.kwImport, .kwUsing, .kwNamespace, .kwClass, .kwObject, .kwStruct, .kwDef, .kwEnum, .kwType,
   .kwTemplate, .kwConst, .kwVolatile] ++ typeStarts

theorem exists_declStart {d : Decl} (h : d.Plain) :
    ∃ w more, d.words = w :: more ∧ w.kind ∈ declStarts := by
  cases h with
  | importFile | usingPath | namespaceDecl | classDecl | objectDecl | structDecl | prototype | enumDecl
  | typeAlias | template => exact ⟨_, _, rfl, by decide⟩
  | data layout =>
    obtain ⟨width, isSigned⟩ := layout
    cases isSigned <;> exact ⟨_, _, rfl, by decide⟩
  | @variableDecl type name qualifiers span id hn ht hq =>
    obtain ⟨w, more, hw, hk⟩ := exists_start ht
    obtain ⟨isConst, isVolatile⟩ := qualifiers
    cases isConst <;> cases isVolatile
    · exact ⟨w, _, by simp [Decl.words, Qualifiers.words, hw]; rfl, List.mem_append_right _ hk⟩
    · exact ⟨_, _, rfl, by decide⟩
    · exact ⟨_, _, rfl, by decide⟩
    · exact ⟨_, _, rfl, by decide⟩

/-- A declaration does not start with a word that ends a body. -/
theorem lacks_decl {d : Decl} (h : d.Plain) : Lacks [.rightBrace, .eof, .semicolon] d.words := by
  have hnone : ∀ k ∈ declStarts, ∀ k' ∈ [Kind.rightBrace, .eof, .semicolon], k' ∉ k.guises true := by
    decide
  obtain ⟨w, more, hw, hk⟩ := exists_declStart h
  exact ⟨w, more, hw, hnone _ hk⟩

section Bodies

variable {limit less : Nat} {members : List Decl}

/-- The declarations between the braces of a body. -/
theorem gives_memberBody {context : Context} {what : String} (hplain : ∀ d ∈ members, d.Plain)
    (h : ∀ d ∈ members, ReadsDecl limit less d)
    (hf : context.container = .classBody → ∀ d ∈ members, d.isFunction = false) :
    Gives true (memberBody (grammar limit (less + 1)) context what)
      (braceWords (Decl.wordsAll members) ++ rest) rest
      fun ds => ds.map Decl.bare = members.map Decl.bare := by
  have hitems : Gives true (membersBody (grammar limit less) context what)
      (members.flatMap Decl.words ++ .fixed .rightBrace :: rest) (.fixed .rightBrace :: rest)
      fun ds => ds.map Decl.bare = members.map Decl.bare := by
    refine .bodyItems (steady_memberItem (grammar_steady _ _) _ _) (.inl rfl) rfl
      (fun d hd => lacks_decl (hplain d hd)) ?_
    intro d hd us hus
    refine (h d hd context (fun hc => hf hc d hd) us hus).bind ?_
    rintro _ ⟨d', rfl, hd'⟩
    exact .pure (congrArg (fun b => [b]) hd')
  have hmembers : Gives true ((grammar limit (less + 1)).members context what)
      (members.flatMap Decl.words ++ .fixed .rightBrace :: rest) (.fixed .rightBrace :: rest)
      fun o => ∃ ds, o = some ds ∧ ds.map Decl.bare = members.map Decl.bare :=
    hitems.map fun ds hds => ⟨ds, rfl, hds⟩
  have hwords : braceWords (Decl.wordsAll members) ++ rest
      = .fixed .leftBrace :: (members.flatMap Decl.words ++ .fixed .rightBrace :: rest) := by
    simp [braceWords, Decl.wordsAll_eq]
  rw [hwords]
  refine .consume (shown_fixed (by decide)) rfl (by decide) (hmembers.bind ?_)
  rintro _ ⟨ds, rfl, hds⟩
  exact .consume (shown_fixed (by decide)) rfl (by decide) (.pure hds)

theorem gives_namespaceDecl {name : String} (hplain : ∀ d ∈ members, d.Plain)
    (h : ∀ d ∈ members, ReadsDecl limit less d) (hrest : Lacks [.semicolon] rest) :
    Gives true (namespaceDecl (grammar limit (less + 1)))
      (.fixed .kwNamespace :: .name name :: (braceWords (Decl.wordsAll members) ++ rest)) rest
      fun d => d.bare = ⟨.namespaceDecl name (members.map Decl.bare), default, default⟩ := by
  have hbody : Gives true (memberBody (grammar limit (less + 1)) (.within .namespaceBody) "namespace")
      (braceWords (Decl.wordsAll members) ++ rest) rest
      fun ds => ds.map Decl.bare = members.map Decl.bare := gives_memberBody hplain h nofun
  refine .here fun start => .keyword (by decide) nofun fun _ _ => .consumeName ?_
  refine .check_pos (w := .fixed .leftBrace) (shown_fixed (by decide)) rfl ?_
  refine hbody.bind fun ds hds => .noSemicolon hrest ?_
  refine .bind (Q := (· = ds)) (.pure rfl) ?_
  rintro _ rfl
  refine .node fun span id => ?_
  rw [Decl.bare_namespaceDecl, hds]

/-- The names in an inheritance list that are not excluded. -/
def basesOf (entries : List (Bool × QualifiedName)) : List QualifiedName :=
  (entries.filter (!·.1)).map (·.2)

/-- The names in an inheritance list that are excluded. -/
def exclusionsOf (entries : List (Bool × QualifiedName)) : List QualifiedName :=
  (entries.filter (·.1)).map (·.2)

theorem basesOf_entries (bases exclusions : List QualifiedName) :
    basesOf (entries bases exclusions) = bases := by
  have hall : bases.filter (fun _ => true) = bases := List.filter_eq_self.2 fun _ _ => rfl
  have hnone : exclusions.filter (fun _ => false) = [] := List.filter_eq_nil_iff.2 fun _ _ => nofun
  simp [basesOf, entries, List.filter_map, Function.comp_def, hall, hnone]

theorem exclusionsOf_entries (bases exclusions : List QualifiedName) :
    exclusionsOf (entries bases exclusions) = exclusions := by
  have hall : exclusions.filter (fun _ => true) = exclusions := List.filter_eq_self.2 fun _ _ => rfl
  have hnone : bases.filter (fun _ => false) = [] := List.filter_eq_nil_iff.2 fun _ _ => nofun
  simp [exclusionsOf, entries, List.filter_map, Function.comp_def, hall, hnone]

/-- A class or an object, or its name alone. -/
theorem gives_classOrObject (isClass : Bool) (name : String) {es : List (Bool × QualifiedName)}
    {isForward : Bool} (hes : ∀ e ∈ es, e.1 = true → isClass = true) (hplain : ∀ d ∈ members, d.Plain)
    (h : ∀ d ∈ members, ReadsDecl limit less d)
    (hf : isClass = true → ∀ d ∈ members, d.isFunction = false) (hn : isForward = true → members = [])
    (hrest : Lacks [.semicolon] rest) :
    Gives true (classOrObject (grammar limit (less + 1)))
      (.fixed (if isClass then .kwClass else .kwObject) :: .name name :: (inheritanceWords es
        ++ ((if isForward then [.fixed .semicolon] else braceWords (Decl.wordsAll members)) ++ rest))) rest
      fun d => d.bare = ⟨if isClass then
          .classDecl name (basesOf es) (exclusionsOf es) (members.map Decl.bare) isForward
        else .objectDecl name (basesOf es) (members.map Decl.bare) isForward, default, default⟩ := by
  have hkind : (if isClass then Kind.kwClass else .kwObject) ≠ .greater ∧
      (if isClass then Kind.kwClass else .kwObject) ≠ .star ∧
      (if isClass then Kind.kwClass else .kwObject) ≠ .eof := by cases isClass <;> decide
  have hnode : ∀ (ds : List Decl) start, ds.map Decl.bare = members.map Decl.bare →
      Gives true (node (Decl.mk (if isClass then .classDecl name (basesOf es) (exclusionsOf es) ds isForward
        else .objectDecl name (basesOf es) ds isForward)) start) rest rest
      fun d => d.bare = ⟨if isClass then
          .classDecl name (basesOf es) (exclusionsOf es) (members.map Decl.bare) isForward
        else .objectDecl name (basesOf es) (members.map Decl.bare) isForward, default, default⟩ := by
    intro ds start hds
    refine .node fun span id => ?_
    cases isClass with
    | true => exact (Decl.bare_classDecl ..).trans (by rw [hds]; rfl)
    | false => exact (Decl.bare_objectDecl ..).trans (by rw [hds]; rfl)
  refine .here fun start => .keyword ⟨hkind.1, hkind.2.1⟩ hkind.2.2 fun t ht => .consumeName ?_
  have hclass : (t.kind == .kwClass) = isClass := by
    have htk : t.kind = if isClass then .kwClass else .kwObject := congrArg Word.kind ht
    rw [htk]
    cases isClass <;> rfl
  rw [hclass]
  cases isForward with
  | true =>
    obtain rfl := hn rfl
    have hlist := gives_inheritance (w := .fixed .semicolon) hes (.inr rfl) rest
    refine .choice (hlist.bind ?_)
    rintro _ rfl
    refine .accept_pos (shown_fixed (by decide)) rfl nofun (.bind (Q := (· = [])) (.pure rfl) ?_)
    rintro _ rfl
    exact hnode [] start rfl
  | false =>
    have hlist := gives_inheritance (w := .fixed .leftBrace) hes (.inl rfl)
      (Decl.wordsAll members ++ [.fixed .rightBrace] ++ rest)
    have hbody : ∀ context what, (context.container = .classBody → isClass = true) →
        Gives true (memberBody (grammar limit (less + 1)) context what)
          (braceWords (Decl.wordsAll members) ++ rest) rest
          fun ds => ds.map Decl.bare = members.map Decl.bare :=
      fun context what hc => gives_memberBody hplain h fun hclass => hf (hc hclass)
    refine .choice (hlist.bind ?_)
    rintro _ rfl
    refine .accept_neg (shown_fixed (by decide)) nofun ?_
    cases isClass with
    | true =>
      refine (hbody (.within .classBody) "class" fun _ => rfl).bind fun ds hds => ?_
      refine .noSemicolon hrest (.bind (Q := (· = ds)) (.pure rfl) ?_)
      rintro _ rfl
      exact hnode _ start hds
    | false =>
      refine (hbody (.within .objectBody) "object" nofun).bind fun ds hds => ?_
      refine .noSemicolon hrest (.bind (Q := (· = ds)) (.pure rfl) ?_)
      rintro _ rfl
      exact hnode _ start hds

/-- The parameters of a template. -/
theorem gives_templateParams {params : List String} :
    Gives true templateParams
      (.fixed .less :: ([Word.fixed .comma].intercalate (params.map fun p => [.name p])
        ++ .fixed .greater :: ws)) ws (· = params) := by
  have hlist : Gives true (do
      if ← checkAny [.greater, .shr] then pure []
      else commaSeparated (consumeName "Expected template parameter name"))
      ([Word.fixed .comma].intercalate (params.map fun p => [.name p]) ++ .fixed .greater :: ws)
      (.fixed .greater :: ws) fun ps => ps.map id = params.map id := by
    refine .commaSeparatedUnless (steady_consumeName _) (by decide) ?_ ?_ ?_
    · exact .last (.checkAny_guises (by decide) (.pure rfl))
    · intro p _ us
      exact .last (.checkAny (shown_name p) (.pure rfl))
    · intro p _ w us _
      exact .last (.consumeName (.pure rfl))
  refine .consume (shown_fixed (by decide)) rfl nofun (.choice (hlist.bind fun ps hps => ?_))
  refine .closingAngle (.pure ?_)
  simpa using hps

/-- A template over one declaration. -/
theorem gives_templateDecl {params : List String} {inner : Decl} {context : Context}
    (h : ReadsDecl limit less inner) (hc : context.container = .classBody → inner.isFunction = false)
    (hrest : Lacks [.semicolon] rest) :
    Gives true (templateDecl (grammar limit (less + 1)) context)
      (.fixed .kwTemplate :: .fixed .less
        :: ([Word.fixed .comma].intercalate (params.map fun p => [.name p])
          ++ .fixed .greater :: (inner.words ++ rest))) rest
      fun ds => ∃ d, ds = [d] ∧ d.bare = ⟨.template params inner.bare, default, default⟩ := by
  refine .here fun start => .keyword (by decide) nofun fun _ _ => gives_templateParams.bind ?_
  intro ps hps
  refine (h context hc rest hrest).bind ?_
  rintro _ ⟨d, rfl, hd⟩
  refine .bind (Q := (· = [d])) (.pure rfl) ?_
  rintro _ rfl
  refine .spanFrom fun span => ?_
  rw [List.mapM_cons, List.mapM_nil]
  refine .bind (Q := fun d' => d'.bare = ⟨.template params inner.bare, default, default⟩)
    (.nodeAt fun id => ?_) ?_
  · rw [Decl.bare_template, hd, hps]
  · intro d' hd'
    exact .pure ⟨d', rfl, hd'⟩

end Bodies

/-! ## Variables -/

section Variables

variable {limit less : Nat}

/-- A type in front of a semicolon is no function pointer. -/
theorem gives_finishFunctionPointer {inner : Level} (type : Ty) :
    Gives true (finishFunctionPointer inner type) (.fixed .semicolon :: ws) (.fixed .semicolon :: ws)
      (· = type) := by
  unfold finishFunctionPointer
  split
  · exact .accept_neg (shown_fixed (by decide)) (by decide) (.pure rfl)
  · exact .pure rfl

/-- A variable without an initial value, behind its name. -/
theorem gives_finishVariables {inner : Level} (hi : inner.Steady) {start : Location}
    {qualifiers : Qualifiers} {type type' : Ty} {name : String} (ht : type'.bare = type.bare) :
    Gives true (finishVariables inner start qualifiers type' name none) (.fixed .semicolon :: ws) ws
      fun ds => ∃ d, ds = [d] ∧
        d.bare = ⟨.variable ⟨type.bare, name, none, qualifiers, none⟩, default, default⟩ := by
  have hfirst : Gives true (declarator inner start qualifiers type' name none) (.fixed .semicolon :: ws)
      (.fixed .semicolon :: ws)
      fun d => d.bare = ⟨.variable ⟨type.bare, name, none, qualifiers, none⟩, default, default⟩ := by
    refine .accept_neg (shown_fixed (by decide)) nofun (.bind (Q := (· = none)) (.pure rfl) ?_)
    rintro _ rfl
    refine .node fun span id => ?_
    rw [Decl.bare_variable, ht]
  have round : Round True (do
      if ← accept .comma then
        let name ← consumeName "Expected variable name after ','"
        let copy ← duplicateType type'
        return some (← declarator inner start qualifiers copy name none)
      else return none) :=
    .accept (k := .comma) nofun ((steady_consumeName _).bind fun _ => (steady_duplicateType _).bind fun _ =>
      (steady_declarator hi _ _ _ _ _).bind fun _ => .pure _)
  have hnone : Gives true _ (.fixed .semicolon :: ws) (.fixed .semicolon :: ws) (· = []) :=
    .many_stop round (.accept_neg (shown_fixed (by decide)) nofun (.pure rfl)) rfl
  refine hfirst.bind fun d hd => hnone.bind ?_
  rintro _ rfl
  exact .semicolon (.pure ⟨d, rfl, hd⟩)

/-- A variable whose declaration starts with a keyword. -/
theorem gives_variableDecl {qualifiers : Qualifiers} {type : Ty} {name : String} (ht : type.Plain)
    (hroom : Node.size (.type type) ≤ less) :
    Gives true (variableDecl (grammar limit (less + 1)))
      (qualifiers.words ++ (type.words ++ .name name :: .fixed .semicolon :: rest)) rest
      fun ds => ∃ d, ds = [d] ∧
        d.bare = ⟨.variable ⟨type.bare, name, none, qualifiers, none⟩, default, default⟩ := by
  refine .here fun start => (gives_qualifiers qualifiers (lacks_type ht (by decide))).bind ?_
  rintro _ rfl
  refine (gives_type ht hroom lacks_name).bind fun type' htype => .consumeName ?_
  refine (gives_finishFunctionPointer type').bind ?_
  rintro _ rfl
  exact gives_finishVariables (grammar_steady _ _) htype

/-- A name in front of a semicolon, behind a type, makes a declaration. -/
theorem gives_declaratorForm {type : Ty} {name : String} (ht : type.Plain)
    (hroom : Node.size (.type type) ≤ less) :
    Gives true (declaratorForm (grammar limit (less + 1)))
      (type.words ++ .name name :: .fixed .semicolon :: rest)
      (type.words ++ .name name :: .fixed .semicolon :: rest) (· = some .named) := by
  refine .probe (probe_declaratorForm (grammar_steady _ _).skim) fun r s hs => .get ?_
  refine (gives_skim ht hroom lacks_name r s hs).andThen fun type' s' hs' => .get ?_
  have hsame : (s'.failures != s.failures) = false := by
    rw [hs'.2.noticed, hs.noticed]
    exact bne_self_eq_false _
  have hshown : ∀ u ∈ [Word.name name], u.Shown true := by simpa using shown_name name
  have hnext : s'.kindAt [Word.name name].length ∈ (Word.fixed .semicolon).kind.guises true :=
    Ahead.kindAt_mem hs'.2 hshown
  have hnext : s'.kindAt 1 = .semicolon := by simpa [Kind.guises] using hnext
  rw [hsame]
  refine .check (fun _ => .kindAt ?_) fun hne => absurd (hs'.2.kind (shown_name name)) hne
  rw [hnext]
  exact .pure rfl

/-- A variable whose declaration starts with a name. -/
theorem gives_nameLedDecl {type : Ty} {name : String} (ht : type.Plain)
    (hroom : Node.size (.type type) ≤ less) :
    Gives true (nameLedDecl (grammar limit (less + 1)))
      (type.words ++ .name name :: .fixed .semicolon :: rest) rest
      fun o => ∃ d, o = some [d] ∧
        d.bare = ⟨.variable ⟨type.bare, name, none, {}, none⟩, default, default⟩ := by
  refine (gives_declaratorForm ht hroom).bind ?_
  rintro _ rfl
  refine .here fun start => .position fun before => ?_
  refine (gives_type ht hroom lacks_name).bind fun type' htype => .consumeName ?_
  refine (gives_finishFunctionPointer type').bind ?_
  rintro _ rfl
  refine Gives.noteCommitted.bind fun _ _ => ?_
  refine (gives_finishVariables (grammar_steady _ _) htype).bind ?_
  rintro _ ⟨d, rfl, hd⟩
  exact .pure ⟨d, rfl, hd⟩

end Variables

/-! ## Telling declarations apart -/

/-- The tokens ahead open a variable: the first is a keyword, but together with the next ones it opens no
declaration of another form. -/
structure OpensVariable (s : State) : Prop where
  start : s.current.kind ∈ variableStarts
  tag : s.current.kind ∈ [Kind.kwClass, .kwObject, .kwStruct, .kwDef] → s.kindAt 1 ≠ .identifier
  layout : dataDeclAhead s = false

/-- The keywords of layouts. -/
def layoutStarts : List Kind := [.kwData, .kwSigned, .kwUnsigned]

theorem kindAt_zero (s : State) : s.kindAt 0 = s.current.kind := by
  unfold State.kindAt State.current
  cases s.rest <;> rfl

/-- A new name for a layout starts like a layout. -/
theorem dataDeclAhead_eq_false {s : State} (h : s.current.kind ∉ layoutStarts) :
    dataDeclAhead s = false := by
  have hsign : [Kind.kwSigned, .kwUnsigned].contains s.current.kind = false := by
    rw [List.contains_eq_mem, decide_eq_false_iff_not]
    exact fun hm => h (List.mem_cons_of_mem _ hm)
  have hdata : (s.current.kind == .kwData) = false :=
    beq_eq_false_iff_ne.2 fun he => h (he ▸ List.mem_cons_self)
  simp only [dataDeclAhead, kindAt_zero, hsign, hdata, Bool.false_eq_true, if_false, Bool.false_and]

section Telling

variable {r : Record} {s : State} {t : Ty}

/-- The kinds of words that are tokens of their own are seen as they are. -/
theorem Ahead.kindAt_shown {pre : List Word} {u : Word} (hs : Ahead r true (pre ++ ws) s)
    (hpre : ∀ v ∈ pre, v.Shown true) (n : Nat) (hn : pre[n]? = some u) : s.kindAt n = u.kind := by
  obtain ⟨hlt, hu⟩ := List.getElem?_eq_some_iff.1 hn
  have hsplit : pre ++ ws = pre.take n ++ u :: (pre.drop (n + 1) ++ ws) := by
    rw [← List.cons_append, ← List.append_assoc, ← hu, ← List.drop_eq_getElem_cons hlt,
      List.take_append_drop]
  rw [hsplit] at hs
  have hmem := hs.kindAt_mem fun v hv => hpre v (List.mem_of_mem_take hv)
  rw [List.length_take_of_le (Nat.le_of_lt hlt)] at hmem
  obtain ⟨hgreater, hstar⟩ := hpre u (List.mem_of_getElem? hn) rfl
  simpa [Kind.guises, hgreater, hstar] using hmem

/-- What stands behind a layout tells its new name from a variable. -/
theorem dataDeclAhead_layout (layout : DataLayout) {w : Word}
    (hs : Ahead r true (layout.words ++ w :: ws) s) :
    ∃ k ∈ w.kind.guises true, dataDeclAhead s = (k == .kwAs) := by
  obtain ⟨width, isSigned⟩ := layout
  have hshown : ∀ v ∈ [Word.fixed .kwData, .fixed .leftBrace, .int width, .fixed .rightBrace],
      v.Shown true := by
    simp only [List.forall_mem_cons]
    exact ⟨shown_fixed (by decide), shown_fixed (by decide), fun _ => ⟨nofun, nofun⟩,
      shown_fixed (by decide), nofun⟩
  cases isSigned with
  | false =>
    have hs : Ahead r true ([Word.fixed .kwData, .fixed .leftBrace, .int width, .fixed .rightBrace]
        ++ w :: ws) s := hs
    have h0 : s.kindAt 0 = .kwData := hs.kindAt_shown hshown 0 rfl
    have h1 : s.kindAt 1 = .leftBrace := hs.kindAt_shown hshown 1 rfl
    have h3 : s.kindAt 3 = .rightBrace := hs.kindAt_shown hshown 3 rfl
    exact ⟨s.kindAt 4, hs.kindAt_mem hshown, by simp [dataDeclAhead, h0, h1, h3]⟩
  | true =>
    have hs : Ahead r true ((.fixed .kwSigned
        :: [Word.fixed .kwData, .fixed .leftBrace, .int width, .fixed .rightBrace]) ++ w :: ws) s := hs
    have hshown := List.forall_mem_cons.2 ⟨shown_fixed (k := .kwSigned) (by decide), hshown⟩
    have h0 : s.kindAt 0 = .kwSigned := hs.kindAt_shown hshown 0 rfl
    have h1 : s.kindAt 1 = .kwData := hs.kindAt_shown hshown 1 rfl
    have h2 : s.kindAt 2 = .leftBrace := hs.kindAt_shown hshown 2 rfl
    have h4 : s.kindAt 4 = .rightBrace := hs.kindAt_shown hshown 4 rfl
    exact ⟨s.kindAt 5, hs.kindAt_mem hshown, by simp [dataDeclAhead, h0, h1, h2, h4]⟩

/-- A keyword that is no tag and no part of a layout opens a variable. -/
theorem OpensVariable.of_kind {k : Kind} (h : s.current.kind = k) (hk : k ∈ variableStarts)
    (htag : k ∉ [Kind.kwClass, .kwObject, .kwStruct, .kwDef]) (hlayout : k ∉ layoutStarts) :
    OpensVariable s := by
  subst h
  exact ⟨hk, fun hm => absurd hm htag, dataDeclAhead_eq_false hlayout⟩

/-- A tag opens a variable if no name stands behind it. -/
theorem OpensVariable.of_tag {k : Kind} (h : s.current.kind = k)
    (hk : k ∈ [Kind.kwClass, .kwObject, .kwStruct, .kwDef]) (hnext : s.kindAt 1 ≠ .identifier) :
    OpensVariable s := by
  have hall : ∀ k ∈ [Kind.kwClass, .kwObject, .kwStruct, .kwDef],
      k ∈ variableStarts ∧ k ∉ layoutStarts := by decide
  subst h
  exact ⟨(hall _ hk).1, fun _ => hnext, dataDeclAhead_eq_false (hall _ hk).2⟩

/-- A type that starts with a keyword opens a variable, unless its keyword is a tag with a name behind. -/
theorem opensVariable (h : t.Plain) (hs : Ahead r true (t.words ++ rest) s)
    (hkind : s.current.kind ≠ .identifier) (hrest : Lacks [.kwAs] rest)
    (htag : t.isTag = true → Lacks [.identifier] rest) : OpensVariable s := by
  induction h generalizing rest with
  | builtin name =>
    have hcurrent : s.current.kind = name.kind := hs.kind (shown_fixed (by cases name <;> decide))
    have hnext : Ty.isTag ⟨.builtin name, default, default⟩ = true → s.kindAt 1 ≠ .identifier := by
      intro hname
      obtain ⟨w, more, rfl, hw⟩ := htag hname
      have hshown : ∀ v ∈ [Word.fixed name.kind], v.Shown true := by
        simpa using shown_fixed (by cases name <;> decide)
      have hmem : s.kindAt 1 ∈ w.kind.guises true := hs.kindAt_mem hshown
      intro he
      rw [he] at hmem
      exact hw .identifier List.mem_cons_self hmem
    cases name with
    | void | auto => exact .of_kind hcurrent (by decide) (by decide) (by decide)
    | anyClass | anyObject | anyStruct => exact .of_tag hcurrent (by decide) (hnext rfl)
  | named h | qualified h ht => exact absurd (hs.kind (shown_name _)) hkind
  | data layout =>
    obtain ⟨w, more, rfl, hw⟩ := hrest
    obtain ⟨k, hk, hahead⟩ := dataDeclAhead_layout layout hs
    have hne : k ≠ .kwAs := fun he => hw .kwAs List.mem_cons_self (he ▸ hk)
    have hcurrent : s.current.kind = .kwSigned ∨ s.current.kind = .kwData := by
      obtain ⟨width, isSigned⟩ := layout
      cases isSigned with
      | false => exact .inr (hs.kind (shown_fixed (by decide)))
      | true => exact .inl (hs.kind (shown_fixed (by decide)))
    refine ⟨?_, ?_, by rw [hahead, beq_eq_false_iff_ne.2 hne]⟩
    · rcases hcurrent with h | h <;> rw [h] <;> decide
    · rcases hcurrent with h | h <;> rw [h] <;> exact fun hm => absurd hm (by decide)
  | function hp hr =>
    have hcurrent : s.current.kind = .kwDef := hs.kind (shown_fixed (by decide))
    have hshown : ∀ v ∈ [Word.fixed .kwDef], v.Shown true := by
      simpa using shown_fixed (by decide)
    have hnext : s.kindAt 1 ∈ (Word.fixed .leftParen).kind.guises true := hs.kindAt_mem hshown
    refine .of_tag hcurrent (by decide) fun he => ?_
    rw [he] at hnext
    exact absurd hnext (by decide)
  | @applied base args _ _ hb hn ha ihb =>
    have hnotag : base.isTag = false := by
      obtain ⟨form, span, id⟩ := base
      cases form <;> first | rfl | exact absurd hn Bool.false_ne_true
    refine ihb (by simpa [Ty.words] using hs) ⟨_, _, rfl, by decide⟩ ?_
    rw [hnotag]
    exact fun h => absurd h Bool.false_ne_true
  | pointer q h hf ih =>
    exact ih (by simpa [Ty.words] using hs) ⟨_, _, rfl, by decide⟩ fun _ => ⟨_, _, rfl, by decide⟩
  | array h hf hsize ih =>
    exact ih (by simpa [Ty.words] using hs) ⟨_, _, rfl, by decide⟩ fun _ => ⟨_, _, rfl, by decide⟩

end Telling

/-- In front of what opens a variable, a variable is read. -/
theorem gives_opened {inner : Level} {context : Context} {R : List Decl → Prop}
    (hopen : ∀ r s, Ahead r true ws s → OpensVariable s) (h : Gives true (variableDecl inner) ws after R) :
    Gives true (declarationBody inner context) ws after fun o => ∃ ds, o = some ds ∧ R ds := by
  have hsome : Gives true (some <$> variableDecl inner) ws after fun o => ∃ ds, o = some ds ∧ R ds :=
    h.map fun ds hds => ⟨ds, rfl, hds⟩
  refine .get fun r s hs => ?_
  obtain ⟨hstart, htag, hlayout⟩ := hopen r s hs
  rw [hlayout]
  simp only [variableStarts, List.mem_cons, List.not_mem_nil, or_false] at hstart
  rcases hstart with hk | hk | hk | hk | hk | hk | hk | hk | hk | hk | hk
  all_goals first
    | rw [hk]
      exact hsome
    | rw [hk] at htag
      rw [beq_eq_false_iff_ne.2 (htag (by decide)), hk]
      exact hsome

section Places

variable {limit less : Nat}

/-- A keyword with a name behind it. -/
theorem Ahead.tagged {r : Record} {halved : Bool} {s : State} {k : Kind} {name : String}
    (hs : Ahead r halved (.fixed k :: .name name :: ws) s) (hk : k ≠ .greater ∧ k ≠ .star) :
    s.current.kind = k ∧ (s.kindAt 1 == .identifier) = true := by
  have hshown : ∀ v ∈ [Word.fixed k], v.Shown halved := by simpa using shown_fixed hk
  have hnext : s.kindAt 1 ∈ (Word.name name).kind.guises halved := hs.kindAt_mem hshown
  have hidentifier : s.kindAt 1 = .identifier := by cases halved <;> exact List.mem_singleton.1 hnext
  exact ⟨hs.kind (shown_fixed hk), by rw [hidentifier]; rfl⟩

/-- A variable. -/
theorem readsDecl_variable {type : Ty} {name : String} {qualifiers : Qualifiers} {span : Span} {id : NodeId}
    (ht : type.Plain) (hq : type.isTag = true → qualifiers ≠ {}) (hroom : Node.size (.type type) ≤ less) :
    ReadsDecl limit (less + 1) ⟨.variable ⟨type, name, none, qualifiers, none⟩, span, id⟩ := by
  intro context _ rest _
  have hwords : Decl.words ⟨.variable ⟨type, name, none, qualifiers, none⟩, span, id⟩ ++ rest
      = qualifiers.words ++ (type.words ++ .name name :: .fixed .semicolon :: rest) := by
    simp [Decl.words]
  have hopened : (∀ r s,
      Ahead r true (qualifiers.words ++ (type.words ++ .name name :: .fixed .semicolon :: rest)) s →
      OpensVariable s) → Gives true (declarationBody (grammar limit (less + 1)) context)
      (qualifiers.words ++ (type.words ++ .name name :: .fixed .semicolon :: rest)) rest
      fun o => ∃ d', o = some [d'] ∧
        d'.bare = ⟨.variable ⟨type.bare, name, none, qualifiers, none⟩, default, default⟩ := by
    intro hopen
    refine (gives_opened hopen (gives_variableDecl ht hroom)).mono ?_
    rintro _ ⟨_, rfl, d', rfl, hd'⟩
    exact ⟨d', rfl, hd'⟩
  rw [hwords, Decl.bare_variable]
  by_cases hplain : qualifiers = {}
  · subst hplain
    obtain ⟨w, more, hw, hstart⟩ := exists_start ht
    by_cases hname : w.kind = .identifier
    · -- a name in front: the type has been skimmed
      refine .get fun r s hs => ?_
      have hs : Ahead r true (w :: (more ++ .name name :: .fixed .semicolon :: rest)) s := by
        simpa [Qualifiers.words, hw] using hs
      rw [hs.kind (by intro _; rw [hname]; decide), hname]
      exact gives_nameLedDecl ht hroom
    · refine hopened fun r s hs => opensVariable ht hs ?_ ⟨_, _, rfl, ?_⟩ fun htag => absurd rfl (hq htag)
      · have hmem : ∀ k ∈ typeStarts, k ≠ .identifier → .identifier ∉ k.guises true := by decide
        have hs : Ahead r true (w :: (more ++ .name name :: .fixed .semicolon :: rest)) s := by
          simpa [Qualifiers.words, hw] using hs
        intro he
        exact hmem _ hstart hname (he ▸ hs.kind_mem)
      · have hnone : ∀ k ∈ [Kind.kwAs], k ∉ Kind.identifier.guises true := by decide
        exact hnone
  · refine hopened fun r s hs => ?_
    obtain ⟨isConst, isVolatile⟩ := qualifiers
    cases isConst with
    | true => exact .of_kind (hs.kind (shown_fixed (by decide))) (by decide) (by decide) (by decide)
    | false =>
      cases isVolatile with
      | true => exact .of_kind (hs.kind (shown_fixed (by decide))) (by decide) (by decide) (by decide)
      | false => exact absurd rfl hplain

/-- **Reading a declaration.**  The words of a declaration are read as the declaration, if there is room
for its nodes. -/
theorem readsDecl {d : Decl} (h : d.Plain) (limit : Nat) :
    ∀ room, Node.size (.declaration d) ≤ room → ReadsDecl limit room d := by
  induction h with
  | @importFile path newName span id h =>
    intro room _ context _ rest _
    refine .get fun r s hs => ?_
    rw [hs.kind (shown_fixed (by decide))]
    simp only [Decl.words, List.cons_append, List.append_assoc, List.nil_append]
    exact gives_one (gives_importDecl newName)
  | @usingPath path span id h =>
    intro room _ context _ rest _
    refine .get fun r s hs => ?_
    rw [hs.kind (shown_fixed (by decide))]
    simp only [Decl.words, List.cons_append, List.append_assoc, List.nil_append]
    exact gives_one (gives_usingDecl path)
  | @namespaceDecl name members span id h hm ih =>
    intro room hroom context _ rest hrest
    obtain ⟨less, rfl, hless⟩ := Node.exists_room hroom
    have hmembers : ∀ d ∈ members, ReadsDecl limit less d :=
      fun d hd => ih d hd less (hless _ (List.mem_map_of_mem hd))
    refine .get fun r s hs => ?_
    rw [hs.kind (shown_fixed (by decide)), Decl.bare_namespaceDecl]
    exact gives_one (gives_namespaceDecl hm hmembers hrest)
  | @classDecl name bases exclusions members isForward span id h hb hm hf hn ih =>
    intro room hroom context _ rest hrest
    obtain ⟨less, rfl, hless⟩ := Node.exists_room hroom
    have hmembers : ∀ d ∈ members, ReadsDecl limit less d :=
      fun d hd => ih d hd less (hless _ (List.mem_map_of_mem hd))
    have hentries : ∀ e ∈ entries bases exclusions, e.1 = true → true = true := fun _ _ _ => rfl
    have hgives := gives_one (gives_classOrObject true name hentries hm hmembers (fun _ => hf) hn hrest)
    rw [basesOf_entries, exclusionsOf_entries] at hgives
    refine .get fun r s hs => ?_
    obtain ⟨hkind, hnamed⟩ := Ahead.tagged hs (by decide)
    rw [hkind, hnamed, Decl.bare_classDecl]
    simp only [Decl.words, List.cons_append, List.append_assoc]
    exact hgives
  | @objectDecl name bases members isForward span id h hb hm hn ih =>
    intro room hroom context _ rest hrest
    obtain ⟨less, rfl, hless⟩ := Node.exists_room hroom
    have hmembers : ∀ d ∈ members, ReadsDecl limit less d :=
      fun d hd => ih d hd less (hless _ (List.mem_map_of_mem hd))
    -- nothing is excluded from an object
    have hentries : ∀ e ∈ entries bases [], e.1 = true → false = true := by simp [entries]
    have hgives := gives_one
      (gives_classOrObject false name hentries hm hmembers (fun hc => absurd hc (by decide)) hn hrest)
    rw [basesOf_entries] at hgives
    refine .get fun r s hs => ?_
    obtain ⟨hkind, hnamed⟩ := Ahead.tagged hs (by decide)
    rw [hkind, hnamed, Decl.bare_objectDecl]
    simp only [Decl.words, List.cons_append, List.append_assoc]
    exact hgives
  | @structDecl name fields isForward span id h hf hn =>
    intro room hroom context _ rest hrest
    obtain ⟨less, rfl, hless⟩ := Node.exists_room hroom
    have hfields : ∀ b ∈ fields, Node.size (.type b.type) ≤ less :=
      fun b hb => hless _ (List.mem_map.2 ⟨b, hb, rfl⟩)
    refine .get fun r s hs => ?_
    obtain ⟨hkind, hnamed⟩ := Ahead.tagged hs (by decide)
    rw [hkind, hnamed, Decl.bare_structDecl]
    simp only [Decl.words, List.cons_append]
    exact gives_one (gives_structDecl hf hfields hn hrest)
  | @prototype name params result span id h hp hr =>
    intro room hroom context hcontext rest _
    obtain ⟨less, rfl, hless⟩ := Node.exists_room hroom
    have hparams : ∀ b ∈ params, Node.size (.type b.type) ≤ less :=
      fun b hb => hless _ (List.mem_append_left _ (List.mem_map.2 ⟨b, hb, rfl⟩))
    have hresult : Node.size (.type result) ≤ less :=
      hless _ (List.mem_append_right _ List.mem_cons_self)
    have houtside : context.container ≠ .classBody := fun hc => absurd (hcontext hc) Bool.false_ne_true.symm
    refine .get fun r s hs => ?_
    obtain ⟨hkind, hnamed⟩ := Ahead.tagged hs (by decide)
    rw [hkind, hnamed, Decl.bare_prototype]
    simp only [Decl.words, List.cons_append, List.append_assoc, List.nil_append]
    exact gives_one (gives_prototype houtside hp hr hparams hresult)
  | @enumDecl name members span id h hm =>
    intro room _ context _ rest hrest
    refine .get fun r s hs => ?_
    rw [hs.kind (shown_fixed (by decide)), Decl.bare_enumDecl]
    exact gives_one (gives_enumDecl (grammar_steady _ _) (fun m hmem => (hm m hmem).2) hrest)
  | @typeAlias name type span id h ht =>
    intro room hroom context _ rest _
    obtain ⟨less, rfl, hless⟩ := Node.exists_room hroom
    refine .get fun r s hs => ?_
    rw [hs.kind (shown_fixed (by decide)), Decl.bare_typeAlias]
    simp only [Decl.words, List.cons_append, List.append_assoc, List.nil_append]
    exact gives_one (gives_typeAlias ht (hless _ List.mem_cons_self))
  | @data name span id layout h =>
    intro room _ context _ rest _
    refine .get fun r s hs => ?_
    have hgives : Gives true (declarationBody.one dataDecl) _ rest _ := gives_one (gives_dataDecl name layout)
    simp only [Decl.words, List.cons_append, List.append_assoc, List.nil_append] at hs ⊢
    obtain ⟨k, hk, hahead⟩ := dataDeclAhead_layout layout hs
    obtain rfl : k = .kwAs := List.mem_singleton.1 hk
    rw [hahead]
    obtain ⟨width, isSigned⟩ := layout
    cases isSigned with
    | false =>
      rw [hs.kind (shown_fixed (by decide))]
      exact hgives
    | true =>
      rw [hs.kind (shown_fixed (by decide))]
      exact hgives
  | @template params inner span id hp hi ih =>
    intro room hroom context hcontext rest hrest
    obtain ⟨less, rfl, hless⟩ := Node.exists_room hroom
    have hinner : ReadsDecl limit less inner := ih less (hless _ List.mem_cons_self)
    refine .get fun r s hs => ?_
    rw [hs.kind (shown_fixed (by decide)), Decl.bare_template]
    simp only [Decl.words, List.cons_append, List.append_assoc]
    refine (gives_templateDecl hinner hcontext hrest).map ?_
    rintro _ ⟨d', rfl, hd'⟩
    exact ⟨d', rfl, hd'⟩
  | variableDecl h ht hq =>
    intro room hroom
    obtain ⟨less, rfl, hless⟩ := Node.exists_room hroom
    exact readsDecl_variable ht hq (hless _ List.mem_cons_self)

end Places

end FluxFront.Grammar
