import FluxFront.Proofs.MirrorProductions

/-!
# Layout does not change what a text means

* **Specification**: two token lists that say the same, token by token, give the same program up to
  its spans, identities included, and errors that say the same, one by one (`parseTokens_layout`).
* **Crux**: where every place is allowed, being alike is being equal without spans, so the two runs of
  the grammar on the two lists mirror each other step by step.
-/

namespace FluxFront

/-! ## What is left without places -/

/-- What a token says, wherever it stands. -/
def Token.content (t : Token) : Token.Kind × String × Option Token.Value :=
  (t.kind, t.lexeme, t.literal)

/-- What a diagnostic says, wherever it points. -/
def Diagnostic.content (d : Diagnostic) : Diagnostic.Kind × String := (d.kind, d.message)

theorem AlikeOn.anywhere_iff {α : Type} [Spanned α] {a a' : α} :
    AlikeOn .anywhere a a' ↔ eraseSpans a = eraseSpans a' := by
  have hcover : Grounds.anywhere.cover = fun _ => default := funext fun _ => if_pos trivial
  constructor
  · intro h
    rw [← h.eq, hcover]
    rfl
  · intro h
    exact ⟨by rw [hcover, ← h]; rfl⟩

theorem alike_of_content {tokens tokens' : List Token}
    (h : tokens.map Token.content = tokens'.map Token.content) : AlikeOn .anywhere tokens tokens' := by
  have herase : ∀ tokens : List Token, eraseSpans tokens
      = (tokens.map Token.content).map fun c => ⟨c.1, c.2.1, default, c.2.2⟩ := by
    intro tokens
    rw [List.map_map]
    rfl
  rw [AlikeOn.anywhere_iff, herase, herase, h]

theorem content_eq_of_alike {ds ds' : List Diagnostic} (h : AlikeOn .anywhere ds ds') :
    ds.map Diagnostic.content = ds'.map Diagnostic.content := by
  have herase : ∀ ds : List Diagnostic,
      (eraseSpans ds).map Diagnostic.content = ds.map Diagnostic.content := by
    intro ds
    rw [eraseSpans, respan_list, List.map_map]
    rfl
  rw [← herase, AlikeOn.anywhere_iff.1 h, herase]

/-- Where the end of one list has to be made sure of, that of the other has to be, too. -/
theorem alike_closeTokens {tokens tokens' : List Token} (h : AlikeOn .anywhere tokens tokens') :
    AlikeOn .anywhere (Grammar.closeTokens tokens) (Grammar.closeTokens tokens') := by
  have hend : ∀ a a' : Location, AlikeOn .anywhere (Token.endAt a) (Token.endAt a') := fun _ _ =>
    .token trivial _
  have hlast : AlikeOn .anywhere tokens.getLast? tokens'.getLast? :=
    h.congr (f := List.getLast?) fun _ _ => (List.getLast?_map ..).symm
  unfold Grammar.closeTokens
  rcases hlast.option_cases with ⟨hnone, hnone'⟩ | ⟨last, hsome, hsome'⟩
  · rw [hnone, hnone']
    infer_instance
  · rw [hsome, hsome']
    dsimp only
    rw [last.alike.token_kind]
    infer_instance

/-! ## Two layouts of the same tokens -/

/-- Whatever the spans of the tokens are, the program is the same without spans, its nodes have the
same identities, and the errors have the same kinds and messages in the same order. -/
theorem parseTokens_layout (config : Config) {tokens tokens' : List Token}
    (h : tokens.map Token.content = tokens'.map Token.content) :
    eraseSpans (parseTokens tokens config).program = eraseSpans (parseTokens tokens' config).program ∧
      (parseTokens tokens config).program.nodes.map Node.id =
        (parseTokens tokens' config).program.nodes.map Node.id ∧
      (parseTokens tokens config).errors.errors.map Diagnostic.content =
        (parseTokens tokens' config).errors.errors.map Diagnostic.content := by
  have hrest := alike_closeTokens (alike_of_content h)
  obtain ⟨hprogram, herrors, -⟩ := parseTokens_alike config hrest fun _ _ _ => ⟨trivial, trivial⟩
  have herase := AlikeOn.anywhere_iff.1 hprogram
  refine ⟨herase, ?_, content_eq_of_alike herrors⟩
  calc (parseTokens tokens config).program.nodes.map Node.id
      = (eraseSpans (parseTokens tokens config).program).nodes.map Node.id :=
        (Program.ids_respan _ _).symm
    _ = (eraseSpans (parseTokens tokens' config).program).nodes.map Node.id := by rw [herase]
    _ = (parseTokens tokens' config).program.nodes.map Node.id := Program.ids_respan _ _

/-- A call whose parenthesis is never closed, on one line and on two. -/
theorem parseTokens_layout_call :
    (Token.scan "f(a>>b").1.map Token.content =
        (Token.scan "f( // open\n  a >> b").1.map Token.content ∧
      eraseSpans (parseTokens (Token.scan "f(a>>b").1 {}).program =
        eraseSpans (parseTokens (Token.scan "f( // open\n  a >> b").1 {}).program ∧
      (parseTokens (Token.scan "f(a>>b").1 {}).program.nodes.map Node.id =
        (parseTokens (Token.scan "f( // open\n  a >> b").1 {}).program.nodes.map Node.id ∧
      (parseTokens (Token.scan "f(a>>b").1 {}).errors.errors.map Diagnostic.content =
        (parseTokens (Token.scan "f( // open\n  a >> b").1 {}).errors.errors.map Diagnostic.content := by
  have h : (Token.scan "f(a>>b").1.map Token.content =
      (Token.scan "f( // open\n  a >> b").1.map Token.content := by decide +kernel
  exact ⟨h, parseTokens_layout {} h⟩

end FluxFront
