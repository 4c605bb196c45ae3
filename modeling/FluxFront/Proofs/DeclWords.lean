import FluxFront.Proofs.TypeWords

/-!
# The words of a printed declaration

How declarations without code in them are spelled, and that the scanner reads them so.

* **Fragment**: `Decl.Plain` are the declarations of names, types and bodies of declarations: no function
  has a body and no variable an initial value.
* **Words**: `Decl.words` is the list of words of a declaration.  Indentation and line ends leave no
  trace in it.
* **Composition**: every declaration ends with a semicolon or a brace, so its text may stand in front of
  anything (`Decl.Plain.sets`), and so may a program's.
-/

namespace FluxFront

open Print Token

/-! ## Lines and braces -/

namespace Token

variable {a b : String} {ws us : List Word}

/-- A text spelled another way. -/
theorem Sets.congr (h : Sets a ws) (ht : b.toList = a.toList) (hw : us = ws) : Sets b us := by
  obtain rfl := String.toList_injective ht
  rwa [hw]

/-- A text with a blank behind it. -/
theorem Spells.spaced (h : Spells true a ws) : Sets (a ++ " ") ws := by
  have hall := h.sets (sets_blank (c := ' ') (by decide) rfl) (endsName (a := " ") (by decide +kernel))
  rwa [List.append_nil] at hall

theorem sets_pad (level : Nat) : Sets (pad level) [] := by
  have hall : ∀ n tail us, Writes true tail us → Writes true (List.replicate n ' ' ++ tail) us := by
    intro n tail us ht
    induction n with
    | zero => exact ht
    | succ n ih => exact .blank (by decide) ih
  intro tail us ht
  rw [pad, String.toList_ofList]
  exact hall _ tail us ht

theorem sets_newline : Sets "\n" [] := sets_blank (c := '\n') (by decide) rfl

/-- A line. -/
theorem Spells.line (h : Spells true a ws) (level : Nat) : Sets (pad level ++ a ++ "\n") ws := by
  have hall := ((sets_pad level).before h).sets sets_newline (endsName (by decide +kernel))
  rwa [List.nil_append, List.append_nil] at hall

/-- Lines one below the other. -/
theorem sets_lines {α : Type} {f : α → String} {g : α → List Word} {as : List α} (level : Nat)
    (h : ∀ a ∈ as, Sets (f a) (g a)) :
    Sets (String.join ((as.map f).map fun line => pad level ++ line ++ "\n")) (as.flatMap g) := by
  induction as with
  | nil => exact sets_empty
  | cons a more ih =>
    rw [List.forall_mem_cons] at h
    rw [List.map_cons, List.map_cons, String.join_cons, List.flatMap_cons]
    exact (h.1.spells.line level).append (ih h.2)

/-- The words of a body. -/
def braceWords (ws : List Word) : List Word := .fixed .leftBrace :: (ws ++ [.fixed .rightBrace])

/-- Lines between braces. -/
theorem sets_braced {level : Nat} {lines : List String}
    (h : Sets (String.join (lines.map fun line => pad (level + 1) ++ line ++ "\n")) ws)
    (hempty : lines = [] → ws = []) : Sets (braced level lines) (braceWords ws) := by
  have hopen : Sets "\x7b" [.fixed .leftBrace] := sets_delimiter (k := .leftBrace) (by decide) rfl
  have hclose : Sets "\x7d" [.fixed .rightBrace] := sets_delimiter (k := .rightBrace) (by decide) rfl
  by_cases hlines : lines = []
  · rw [hempty hlines, hlines]
    exact hopen.append hclose
  · have hall := ((hopen.append sets_newline).append h).append ((sets_pad level).append hclose)
    refine hall.congr ?_ (by simp [braceWords])
    simp [braced, hlines]

end Token

/-! ## Plain declarations -/

/-- The words of a typed name. -/
def Binding.words (b : Binding) : List Word := b.type.words ++ [.name b.name]

/-- A typed name with a plain type. -/
structure Binding.Plain (b : Binding) : Prop where
  name : isName b.name = true
  type : b.type.Plain

/-- The entries of an inheritance list: whether each is an exclusion, and its name. -/
def entries (bases exclusions : List QualifiedName) : List (Bool × QualifiedName) :=
  bases.map (false, ·) ++ exclusions.map (true, ·)

/-- The words of an entry of an inheritance list. -/
def entryWords (entry : Bool × QualifiedName) : List Word :=
  (if entry.1 then [.fixed .bang] else []) ++ entry.2.words

/-- The words of an inheritance list. -/
def inheritanceWords (entries : List (Bool × QualifiedName)) : List Word :=
  if entries.isEmpty then []
  else .fixed .colon :: [Word.fixed .comma].intercalate (entries.map entryWords)

/-- The words that give an import another name. -/
def aliasWords : Option String → List Word
  | none => []
  | some name => [.fixed .kwAs, .name name]

/-- Whether a type is a keyword that also starts a declaration. -/
def Ty.isTag (t : Ty) : Bool :=
  match t.form with
  | .builtin .anyClass | .builtin .anyObject | .builtin .anyStruct => true
  | _ => false

namespace Decl

/-- Whether a function is declared, be it by a template. -/
def isFunction : Decl → Bool
  | ⟨.functionDecl _ _ _ _, _, _⟩ => true
  | ⟨.template _ inner, _, _⟩ => inner.isFunction
  | _ => false

/-- A declaration without code: what is named has a name, types are plain, functions have no body,
variables and members of enumerations no value.  What is declared ahead of its body has no members, no
function stands in a class, and a variable does not start like a class, an object or a struct. -/
inductive Plain : Decl → Prop
  | importFile {path : String} {newName : Option String} {span : Span} {id : NodeId}
      (h : ∀ name ∈ newName, isName name = true) : Plain ⟨.importFile path newName, span, id⟩
  | usingPath {path : QualifiedName} {span : Span} {id : NodeId} (h : path.isPlain = true) :
      Plain ⟨.usingPath path, span, id⟩
  | namespaceDecl {name : String} {members : List Decl} {span : Span} {id : NodeId}
      (h : isName name = true) (hm : ∀ d ∈ members, Plain d) :
      Plain ⟨.namespaceDecl name members, span, id⟩
  | classDecl {name : String} {bases exclusions : List QualifiedName} {members : List Decl}
      {isForward : Bool} {span : Span} {id : NodeId} (h : isName name = true)
      (hb : ∀ base ∈ bases ++ exclusions, base.isPlain = true) (hm : ∀ d ∈ members, Plain d)
      (hf : ∀ d ∈ members, d.isFunction = false) (hn : isForward = true → members = []) :
      Plain ⟨.classDecl name bases exclusions members isForward, span, id⟩
  | objectDecl {name : String} {bases : List QualifiedName} {members : List Decl} {isForward : Bool}
      {span : Span} {id : NodeId} (h : isName name = true) (hb : ∀ base ∈ bases, base.isPlain = true)
      (hm : ∀ d ∈ members, Plain d) (hn : isForward = true → members = []) :
      Plain ⟨.objectDecl name bases members isForward, span, id⟩
  | structDecl {name : String} {fields : List Binding} {isForward : Bool} {span : Span} {id : NodeId}
      (h : isName name = true) (hf : ∀ b ∈ fields, b.Plain) (hn : isForward = true → fields = []) :
      Plain ⟨.structDecl name fields isForward, span, id⟩
  | prototype {name : String} {params : List Binding} {result : Ty} {span : Span} {id : NodeId}
      (h : isName name = true) (hp : ∀ b ∈ params, b.Plain) (hr : result.Plain) :
      Plain ⟨.functionDecl name params result none, span, id⟩
  | enumDecl {name : String} {members : List EnumMember} {span : Span} {id : NodeId}
      (h : isName name = true) (hm : ∀ m ∈ members, isName m.name = true ∧ m.value = none) :
      Plain ⟨.enumDecl name members, span, id⟩
  | typeAlias {name : String} {type : Ty} {span : Span} {id : NodeId} (h : isName name = true)
      (ht : type.Plain) : Plain ⟨.typeAlias name type, span, id⟩
  | data {name : String} {span : Span} {id : NodeId} (layout : DataLayout) (h : isName name = true) :
      Plain ⟨.data name layout, span, id⟩
  | template {params : List String} {inner : Decl} {span : Span} {id : NodeId}
      (hp : ∀ p ∈ params, isName p = true) (hi : Plain inner) : Plain ⟨.template params inner, span, id⟩
  | variableDecl {type : Ty} {name : String} {qualifiers : Qualifiers} {span : Span} {id : NodeId}
      (h : isName name = true) (ht : type.Plain) (hq : type.isTag = true → qualifiers ≠ {}) :
      Plain ⟨.variable ⟨type, name, none, qualifiers, none⟩, span, id⟩

mutual

/-- The words of a declaration without code. -/
def words : Decl → List Word
  | ⟨.importFile path newName, _, _⟩ =>
    .fixed .kwImport :: .string path :: (aliasWords newName ++ [.fixed .semicolon])
  | ⟨.usingPath path, _, _⟩ => .fixed .kwUsing :: (path.words ++ [.fixed .semicolon])
  | ⟨.namespaceDecl name members, _, _⟩ =>
    .fixed .kwNamespace :: .name name :: braceWords (wordsAll members)
  | ⟨.classDecl name bases exclusions members isForward, _, _⟩ =>
    .fixed .kwClass :: .name name :: (inheritanceWords (entries bases exclusions)
      ++ if isForward then [.fixed .semicolon] else braceWords (wordsAll members))
  | ⟨.objectDecl name bases members isForward, _, _⟩ =>
    .fixed .kwObject :: .name name :: (inheritanceWords (entries bases [])
      ++ if isForward then [.fixed .semicolon] else braceWords (wordsAll members))
  | ⟨.structDecl name fields isForward, _, _⟩ =>
    .fixed .kwStruct :: .name name :: if isForward then [.fixed .semicolon]
      else braceWords (fields.flatMap fun b => b.words ++ [.fixed .semicolon])
  | ⟨.functionDecl name params result _, _, _⟩ =>
    .fixed .kwDef :: .name name :: .fixed .leftParen
      :: ([Word.fixed .comma].intercalate (params.map Binding.words)
        ++ .fixed .rightParen :: .fixed .arrow :: (result.words ++ [.fixed .semicolon]))
  | ⟨.enumDecl name members, _, _⟩ =>
    .fixed .kwEnum :: .name name
      :: braceWords ([Word.fixed .comma].intercalate (members.map fun m => [.name m.name]))
  | ⟨.typeAlias name type, _, _⟩ =>
    .fixed .kwType :: .name name :: .fixed .equal :: (type.words ++ [.fixed .semicolon])
  | ⟨.data name layout, _, _⟩ => layout.words ++ [.fixed .kwAs, .name name, .fixed .semicolon]
  | ⟨.template params inner, _, _⟩ =>
    .fixed .kwTemplate :: .fixed .less
      :: ([Word.fixed .comma].intercalate (params.map fun p => [.name p])
        ++ .fixed .greater :: inner.words)
  | ⟨.variable ⟨type, name, _, qualifiers, _⟩, _, _⟩ =>
    qualifiers.words ++ (type.words ++ [.name name, .fixed .semicolon])
  | ⟨.operatorDecl _ _ _ _, _, _⟩ | ⟨.asm _, _, _⟩ | ⟨.statement _, _, _⟩ => []

/-- The words of declarations one behind the other. -/
def wordsAll : List Decl → List Word
  | [] => []
  | d :: more => d.words ++ wordsAll more

end

theorem wordsAll_eq (ds : List Decl) : wordsAll ds = ds.flatMap words := by
  induction ds with
  | nil => rfl
  | cons d more ih => rw [wordsAll, ih, List.flatMap_cons]

theorem printList_eq (ds : List Decl) (level : Nat) : printList ds level = ds.map (·.print level) := by
  induction ds with
  | nil => rfl
  | cons d more ih => exact congrArg (d.print level :: ·) ih

end Decl

/-! ## Parts of declarations -/

theorem Binding.printList_eq (bs : List Binding) (level : Nat) :
    printList bs level = bs.map fun b => b.type.print level ++ " " ++ b.name := by
  induction bs with
  | nil => rfl
  | cons b more ih =>
    obtain ⟨name, type, span⟩ := b
    exact congrArg (_ :: ·) ih

theorem Binding.Plain.spells {b : Binding} (h : b.Plain) (level : Nat) :
    Spells true (b.type.print level ++ " " ++ b.name) b.words :=
  (h.type.spells level).spaced.before (spells_name h.name)

theorem spells_alias {newName : Option String} (h : ∀ name ∈ newName, isName name = true) :
    Spells true ((newName.map (" as " ++ ·)).getD "") (aliasWords newName) := by
  cases newName with
  | none => exact spells_empty
  | some name =>
    have has : Sets (" " ++ "as ") ([] ++ [.fixed .kwAs]) :=
      (sets_blank (c := ' ') (by decide) rfl).append (sets_keyword (k := .kwAs) (by decide) nofun (by decide) rfl)
    exact has.before (spells_name (h name rfl))

theorem sets_variableQualifiers (q : Qualifiers) : Sets (variableQualifiers q) q.words := by
  have hconst : Sets (if q.isConst then "const " else "") (if q.isConst then [.fixed .kwConst] else []) := by
    split
    · exact sets_keyword (k := .kwConst) (by decide) nofun (by decide) rfl
    · exact sets_empty
  have hvolatile : Sets (if q.isVolatile then "volatile " else "")
      (if q.isVolatile then [.fixed .kwVolatile] else []) := by
    split
    · exact sets_keyword (k := .kwVolatile) (by decide) nofun (by decide) rfl
    · exact sets_empty
  exact hconst.append hvolatile

/-- An entry of an inheritance list. -/
theorem spells_entry {entry : Bool × QualifiedName} (h : entry.2.isPlain = true) :
    Spells true ((if entry.1 then "!" else "") ++ entry.2.display) (entryWords entry) := by
  obtain ⟨excluded, n⟩ := entry
  cases excluded with
  | false => exact sets_empty.before (QualifiedName.spells h)
  | true =>
    exact .behind (by decide) (by decide) rfl (QualifiedName.spells h)
      (clears_opensName (by decide) (QualifiedName.opensName h))

theorem inheritance_eq (bases exclusions : List QualifiedName) :
    inheritance bases exclusions = if (entries bases exclusions).isEmpty then ""
      else " : " ++ separated ((entries bases exclusions).map fun e =>
        (if e.1 then "!" else "") ++ e.2.display) := by
  have hentries : (entries bases exclusions).isEmpty = (bases.isEmpty && exclusions.isEmpty) := by
    cases bases <;> cases exclusions <;> rfl
  rw [hentries, inheritance]
  simp [entries, Function.comp_def]

/-- An inheritance list is empty or starts with a blank. -/
theorem spells_inheritance {bases exclusions : List QualifiedName}
    (h : ∀ base ∈ bases ++ exclusions, base.isPlain = true) :
    Spells true (inheritance bases exclusions) (inheritanceWords (entries bases exclusions)) ∧
      (inheritance bases exclusions = "" ∨ EndsName (inheritance bases exclusions)) := by
  rw [inheritance_eq, inheritanceWords]
  split
  · exact ⟨spells_empty, .inl rfl⟩
  · have hplain : ∀ e ∈ entries bases exclusions, e.2.isPlain = true := by
      intro e he
      refine h e.2 ?_
      have hnames : (entries bases exclusions).map (·.2) = bases ++ exclusions := by
        simp [entries, Function.comp_def]
      rw [← hnames]
      exact List.mem_map_of_mem he
    have hlist := spells_separated fun e he => spells_entry (hplain e he)
    have hcolon : Sets (" " ++ ": ") ([] ++ [.fixed .colon]) :=
      (sets_blank (c := ' ') (by decide) rfl).append (sets_spaced (k := .colon) (by decide) (by decide) rfl)
    exact ⟨hcolon.before hlist, .inr ((endsName (by decide +kernel)).append _)⟩

/-- The lines of an enumeration. -/
theorem sets_members {members : List EnumMember}
    (h : ∀ m ∈ members, isName m.name = true ∧ m.value = none) (level : Nat) :
    Sets (String.join ((EnumMember.printList members level).map fun line => pad level ++ line ++ "\n"))
      ([Word.fixed .comma].intercalate (members.map fun m => [.name m.name])) := by
  induction members with
  | nil => exact sets_empty
  | cons m more ih =>
    rw [List.forall_mem_cons] at h
    obtain ⟨name, value, span⟩ := m
    obtain ⟨⟨hname, rfl⟩, hmore⟩ := h
    have hname := spells_name hname
    cases more with
    | nil =>
      refine (hname.line level).congr ?_ rfl
      simp [EnumMember.printList, Expr.printOption, initializer]
    | cons m' more =>
      have hline := (hname.closed (k := .comma) (b := ",") (by decide) rfl).spells.line level
      refine (hline.append (ih hmore)).congr ?_ rfl
      simp [EnumMember.printList, Expr.printOption, initializer]

/-- A variable whose type is plain is printed with its name behind the type. -/
theorem print_variable {type : Ty} (h : type.Plain) (name : String) (qualifiers : Qualifiers)
    (level : Nat) :
    Variable.print ⟨type, name, none, qualifiers, none⟩ level
      = variableQualifiers qualifiers ++ type.print level ++ " " ++ name := by
  rw [Variable.print]
  · simp [Expr.printOption, initializer]
  · -- a pointer to a function would be printed around its name
    rintro params result span id q span' id' rfl
    cases h with
    | pointer q h hf => exact absurd hf nofun

/-! ## Scanning a printed declaration -/

namespace Decl

/-- A body of declarations. -/
theorem sets_body {members : List Decl} {level : Nat}
    (h : ∀ d ∈ members, Sets (d.print (level + 1)) d.words) :
    Sets (braced level (printList members (level + 1))) (braceWords (wordsAll members)) := by
  rw [wordsAll_eq, printList_eq]
  refine sets_braced (sets_lines (level + 1) h) fun hempty => ?_
  rw [List.map_eq_nil_iff.1 hempty]
  rfl

/-- A semicolon or a body behind what is declared. -/
theorem sets_forward {head body : String} {ws us : List Word} (isForward : Bool)
    (h : Spells true head ws) (hb : Sets body us) :
    Sets (head ++ (if isForward then ";" else " " ++ body))
      (ws ++ if isForward then [.fixed .semicolon] else us) := by
  cases isForward with
  | true => exact h.closed (b := ";") (by decide) rfl
  | false =>
    refine (h.spaced.append hb).congr ?_ rfl
    simp

/-- **A printed declaration is read as its words.** -/
theorem Plain.sets {d : Decl} (h : d.Plain) : ∀ level, Sets (d.print level) d.words := by
  induction h with
  | @importFile path newName span id h =>
    intro level
    have hhead := (sets_keyword (a := "import ") (k := .kwImport) (by decide) nofun (by decide) rfl).append
      (sets_string path)
    exact (hhead.before (spells_alias h)).closed (b := ";") (by decide) rfl
  | @usingPath path span id h =>
    intro level
    have hhead := sets_keyword (a := "using ") (k := .kwUsing) (by decide) nofun (by decide) rfl
    exact (hhead.before (QualifiedName.spells h)).closed (b := ";") (by decide) rfl
  | @namespaceDecl name members span id h hm ih =>
    intro level
    have hhead := sets_keyword (a := "namespace ") (k := .kwNamespace) (by decide) nofun (by decide) rfl
    exact (hhead.before (spells_name h)).spaced.append (sets_body fun d hd => ih d hd (level + 1))
  | @classDecl name bases exclusions members isForward span id h hb hm hf hn ih =>
    intro level
    have hhead := sets_keyword (a := "class ") (k := .kwClass) (by decide) nofun (by decide) rfl
    obtain ⟨hbases, hends⟩ := spells_inheritance hb
    exact sets_forward isForward ((hhead.before (spells_name h)).append hbases hends)
      (sets_body fun d hd => ih d hd (level + 1))
  | @objectDecl name bases members isForward span id h hb hm hn ih =>
    intro level
    have hhead := sets_keyword (a := "object ") (k := .kwObject) (by decide) nofun (by decide) rfl
    rw [← List.append_nil bases] at hb
    obtain ⟨hbases, hends⟩ := spells_inheritance hb
    exact sets_forward isForward ((hhead.before (spells_name h)).append hbases hends)
      (sets_body fun d hd => ih d hd (level + 1))
  | @structDecl name fields isForward span id h hf hn =>
    intro level
    have hhead := sets_keyword (a := "struct ") (k := .kwStruct) (by decide) nofun (by decide) rfl
    have hfields : Sets (braced level ((Binding.printList fields (level + 1)).map (· ++ ";")))
        (braceWords (fields.flatMap fun b => b.words ++ [.fixed .semicolon])) := by
      rw [Binding.printList_eq, List.map_map]
      refine sets_braced (sets_lines (level + 1) fun b hb => ?_) fun hempty => ?_
      · exact ((hf b hb).spells (level + 1)).closed (b := ";") (by decide) rfl
      · rw [List.map_eq_nil_iff.1 hempty]
        rfl
    exact sets_forward isForward (hhead.before (spells_name h)) hfields
  | @prototype name params result span id h hp hr =>
    intro level
    have hhead := sets_keyword (a := "def ") (k := .kwDef) (by decide) nofun (by decide) rfl
    have hopen := (hhead.before (spells_name h)).closed (k := .leftParen) (b := "(") (by decide) rfl
    have hparams := spells_separated fun b hb => (hp b hb).spells level
    rw [← Binding.printList_eq] at hparams
    have hclosed := (hopen.before hparams).sets sets_arrow (endsName (by decide +kernel))
    have hall := (hclosed.before (hr.spells level)).closed (k := .semicolon) (b := ";") (by decide) rfl
    refine hall.congr ?_ ?_
    · simp [print]
    · simp [words]
  | @enumDecl name members span id h hm =>
    intro level
    have hhead := sets_keyword (a := "enum ") (k := .kwEnum) (by decide) nofun (by decide) rfl
    refine (hhead.before (spells_name h)).spaced.append (sets_braced (sets_members hm (level + 1)) ?_)
    intro hempty
    cases members with
    | nil => rfl
    | cons m more =>
      obtain ⟨name, value, span⟩ := m
      exact absurd hempty nofun
  | @typeAlias name type span id h ht =>
    intro level
    have hhead := sets_keyword (a := "type ") (k := .kwType) (by decide) nofun (by decide) rfl
    have hequal := (hhead.before (spells_name h)).spaced.append
      (sets_spaced (a := "= ") (k := .equal) (by decide) (by decide) rfl)
    have hall := (hequal.before (ht.spells level)).closed (k := .semicolon) (b := ";") (by decide) rfl
    refine hall.congr ?_ ?_
    · simp [print]
    · simp [words]
  | @data name span id layout h =>
    intro level
    have halias : ∀ n ∈ some name, isName n = true := by simpa using h
    have has := (sets_dataLayout layout).before (spells_alias halias)
    have hall := has.closed (k := .semicolon) (b := ";") (by decide) rfl
    refine hall.congr ?_ ?_
    · simp [print]
    · simp [words, aliasWords]
  | @template params inner _ _ hp hi ih =>
    intro level
    have hhead := sets_keyword (a := "template ") (k := .kwTemplate) (by decide) nofun (by decide) rfl
    have hparams := spells_separated (f := fun p => p) fun p hm => spells_name (hp p hm)
    have hstart := head_separated (f := fun p => p) fun p hm => opensName_of_isName (hp p hm)
    rw [List.map_id'] at hparams hstart
    have hangled := (hhead.before (spells_angled hparams hstart)).spaced
    refine (hangled.append (ih level)).congr ?_ ?_
    · simp [print]
    · simp [words]
  | @variableDecl type name qualifiers span id h ht hq =>
    intro level
    have htype := ((sets_variableQualifiers qualifiers).before (ht.spells level)).spaced
    have hall := (htype.before (spells_name h)).closed (k := .semicolon) (b := ";") (by decide) rfl
    refine hall.congr ?_ ?_
    · simp [print, print_variable ht]
    · simp [words]

end Decl

/-- The declarations of a program. -/
theorem sets_declarations {ds : List Decl} (h : ∀ d ∈ ds, d.Plain) (behindBody : Bool) :
    Sets (Print.declarations behindBody ds) (ds.flatMap Decl.words) := by
  induction ds generalizing behindBody with
  | nil => exact sets_empty
  | cons d more ih =>
    rw [List.forall_mem_cons] at h
    have hgap : Sets (if d.hasBody || behindBody then "\n" else "") [] := by
      split
      · exact sets_newline
      · exact sets_empty
    have hall := ((hgap.append (h.1.sets 0)).append sets_newline).append (ih h.2 d.hasBody)
    refine hall.congr rfl ?_
    simp

/-- **A printed program is read as the words of its declarations.** -/
theorem Program.sets_print {p : Program} (h : ∀ d ∈ p.declarations, d.Plain) :
    Sets p.print (p.declarations.flatMap Decl.words) := by
  obtain ⟨ds, span⟩ := p
  cases ds with
  | nil => exact sets_empty
  | cons d more =>
    rw [List.forall_mem_cons] at h
    have hall := ((h.1.sets 0).append sets_newline).append (sets_declarations h.2 d.hasBody)
    refine hall.congr rfl ?_
    simp

end FluxFront
