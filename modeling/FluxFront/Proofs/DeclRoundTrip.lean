import FluxFront.Proofs.DeclReading
import FluxFront.Proofs.ProgramProductions

/-!
# Printed declarations are read back

* **Program**: `Program.print` writes a program, `parse` reads it.
* **Specification**: what is read is the program itself, up to spans and identities, and nothing is
  reported (`parse_print_of_plain`).
* **Room**: one level of nesting for each node is enough.
-/

namespace FluxFront

open Token (Word)

namespace Grammar

variable {config : Config} {d : Decl}

/-- Outside of everything, a declaration is read as such. -/
theorem gives_topLevelItem {rest : List Word} {room : Nat} (h : d.Plain)
    (hroom : Node.size (.declaration d) ≤ room) (hrest : Lacks [.semicolon] rest) :
    Gives true (topLevelItem config (grammar config.maxNestingDepth room)) (d.words ++ rest) rest
      fun ds => ds.map Decl.bare = [d.bare] := by
  refine (readsDecl h config.maxNestingDepth room hroom .topLevel nofun rest hrest).bind ?_
  rintro _ ⟨d', rfl, hd'⟩
  exact .pure (congrArg (fun b => [b]) hd')

/-- A program without code is read up to the end of the text. -/
theorem gives_program (config : Config) {ds : List Decl} (h : ∀ d ∈ ds, d.Plain)
    (hroom : ∀ d ∈ ds, Node.size (.declaration d) ≤ config.maxNestingDepth) :
    Gives true (leveledProgram config) (ds.flatMap Decl.words ++ [.eof]) [.eof]
      fun p => p.declarations.map Decl.bare = ds.map Decl.bare := by
  have hitems : Gives true
      (bodyItems .eof (topLevelItem config (grammar config.maxNestingDepth config.maxNestingDepth)))
      (ds.flatMap Decl.words ++ [.eof]) [.eof] fun ds' => ds'.map Decl.bare = ds.map Decl.bare := by
    refine .bodyItems (steady_topLevelItem (grammar_steady _ _) _) (.inr rfl) rfl ?_ ?_
    · intro d hd
      exact (lacks_decl (h d hd)).mono (by decide)
    · intro d hd rest hrest
      exact gives_topLevelItem (h d hd) (hroom d hd) hrest
  exact .here fun start => hitems.bind fun ds' hds' => .get fun r s hs => .pure hds'

end Grammar

/-- A declaration has no more nodes than the program it stands in. -/
theorem Program.size_le_of_mem {p : Program} {d : Decl} (h : d ∈ p.declarations) :
    Node.size (.declaration d) ≤ p.countNodes := by
  have hsub : (Descent.full.walk (.declaration d)).Sublist p.nodes :=
    List.sublist_flatten_of_mem (List.mem_map_of_mem h)
  exact hsub.length_le

/-- Without errors about characters or tokens there are no errors at all. -/
theorem parse_errors_isEmpty {source : String} {config : Config} (hscan : (Token.scan source).2 = [])
    (hparse : (parseTokens (Token.scan source).1 config).errors.isEmpty = true) :
    (parse source config).errors.isEmpty = true := by
  rw [Diagnostic.Collection.isEmpty, Bool.and_eq_true, List.isEmpty_iff, List.isEmpty_iff] at hparse
  simp [parse, hscan, hparse.1, hparse.2, Diagnostic.Collection.merge, Diagnostic.Collection.empty,
    Diagnostic.Collection.sort, Diagnostic.Collection.isEmpty]

/-- **A program without code is read back from its text**: nothing is reported, and up to spans and
identities the program is as it was. -/
theorem parse_print_of_plain {p : Program} (h : ∀ d ∈ p.declarations, d.Plain) (config : Config)
    (hroom : p.countNodes ≤ config.maxNestingDepth) :
    (parse p.print config).errors.isEmpty = true ∧ (parse p.print config).program.bare = p.bare := by
  have hwrites := Program.sets_print h [] [] .nil
  rw [List.append_nil, List.append_nil] at hwrites
  obtain ⟨hclean, hahead⟩ := Grammar.Ahead.ofText hwrites config.maxErrors
  have hgives := Grammar.gives_program config h
    fun d hd => Nat.le_trans (Program.size_le_of_mem hd) hroom
  obtain ⟨read, s, hrun, hbare, hend⟩ := hgives.exists_run hahead
  have hread := parseTokens_eq hrun
  constructor
  · exact parse_errors_isEmpty hclean (by rw [hread]; exact hend.errors)
  · rw [parse_program, hread, Program.bare_eq, Program.bare_eq, hbare]

/-- A namespace with a template, in which two closing angle brackets meet, a class with a pointer to a
pointer to a constant, a layout with a new name next to a variable of that layout, and a prototype. -/
def mixedProgram : Program :=
  let named (name : String) : Ty := ⟨.named name, default, 0⟩
  let byte : DataLayout := ⟨8, true⟩
  let table : Ty := ⟨.applied (named "Map") [named "K", ⟨.applied (named "List") [named "V"], default, 0⟩],
    default, 0⟩
  let handle : Ty := ⟨.pointer ⟨.pointer (named "Node") {}, default, 0⟩ { isConst := true }, default, 0⟩
  let store : Decl := ⟨.template ["K", "V"]
    ⟨.structDecl "Store" [⟨"table", table, default⟩] false, default, 0⟩, default, 0⟩
  let node : Decl := ⟨.classDecl "Node" [⟨"core", ["Base"]⟩] [⟨"Debug", []⟩]
    [⟨.variable ⟨handle, "next", none, {}, none⟩, default, 0⟩] false, default, 0⟩
  let make : Decl := ⟨.functionDecl "make" [⟨"seed", ⟨.data byte, default, 0⟩, default⟩]
    ⟨.array (named "Node") none, default, 0⟩ none, default, 0⟩
  ⟨[⟨.data "byte" byte, default, 0⟩,
    ⟨.variable ⟨⟨.data byte, default, 0⟩, "zero", none, {}, none⟩, default, 0⟩,
    ⟨.namespaceDecl "app" [store, node, make], default, 0⟩], default⟩

theorem parse_print_mixedProgram :
    (∀ d ∈ mixedProgram.declarations, d.Plain) ∧ mixedProgram.countNodes ≤ 64 ∧
      (parse mixedProgram.print {}).errors.isEmpty = true ∧
      (parse mixedProgram.print {}).program.bare = mixedProgram.bare := by
  have named : ∀ name, Token.isName name = true → Ty.Plain ⟨.named name, default, 0⟩ :=
    fun name h => .named h
  have one : ∀ {α : Type} {P : α → Prop} {a : α}, P a → ∀ x ∈ [a], P x := by simp
  have two : ∀ {α : Type} {P : α → Prop} {a b : α}, P a → P b → ∀ x ∈ [a, b], P x := by
    simp +contextual
  have three : ∀ {α : Type} {P : α → Prop} {a b c : α}, P a → P b → P c → ∀ x ∈ [a, b, c], P x := by
    simp +contextual
  have hplain : ∀ d ∈ mixedProgram.declarations, d.Plain := by
    refine three (.data _ (by decide +kernel)) (.variableDecl (by decide +kernel) (.data _) nofun)
      (.namespaceDecl (by decide +kernel) (three ?_ ?_ ?_))
    · refine .template (two (by decide +kernel) (by decide +kernel))
        (.structDecl (by decide +kernel) (one ⟨by decide +kernel, ?_⟩) nofun)
      exact .applied (named "Map" (by decide +kernel)) rfl (two (named "K" (by decide +kernel))
        (.applied (named "List" (by decide +kernel)) rfl (one (named "V" (by decide +kernel)))))
    · refine .classDecl (by decide +kernel) (two (by decide +kernel) (by decide +kernel)) (one ?_)
        (one rfl) nofun
      exact .variableDecl (by decide +kernel)
        (.pointer _ (.pointer _ (named "Node" (by decide +kernel)) rfl) rfl) nofun
    · exact .prototype (by decide +kernel) (one ⟨by decide +kernel, .data _⟩)
        (.array (named "Node" (by decide +kernel)) rfl nofun)
  have hsize : mixedProgram.countNodes ≤ 64 := by
    simp [mixedProgram, Program.countNodes, Program.nodes, Program.walk, Descent.walk_eq, Descent.full,
      Node.children, Node.ofDecl, Node.ofBindings, Node.ofVariable, Node.ofTy]
  exact ⟨hplain, hsize, parse_print_of_plain hplain {} hsize⟩

end FluxFront
