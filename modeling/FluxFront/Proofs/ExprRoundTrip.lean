import FluxFront.Proofs.CountedDepth
import FluxFront.Proofs.ExprReading

/-!
# Printed expressions are read back

* **Program**: `Expr.print` writes an expression, the scanner and the grammar read the text.
* **Specification**: what is read has the shape of what was printed, nothing is reported, and nothing is
  left over (`Expr.Plain.parse_print`).  The expression may have any form, also one that no text is read
  as: the printer puts the parentheses that it needs.
* **Room**: two levels of nesting for each node are enough.
-/

namespace FluxFront

open Token (Word)

/-- **An expression is read back from its text**: without a complaint about the text, without an error,
up to the end of the text, and up to spans, identities and parentheses as it was. -/
theorem Expr.Plain.parse_print {e : Expr} (h : e.Plain) (maxErrors : Option Nat) {limit : Nat}
    (hlimit : 2 * e.size ≤ limit) :
    (Token.scan (e.print 0)).2 = [] ∧
      ∃ read s, (Grammar.counted limit (limit + 1)).expression
          (.ofTokens (Token.scan (e.print 0)).1 maxErrors) = (read, s) ∧
        s.errors.isEmpty = true ∧ s.failures = 0 ∧ s.current.kind = .eof ∧ read.shape = e.shape := by
  have hpos : 0 < e.size := Node.size_pos (.expression e)
  obtain ⟨room, rfl⟩ : ∃ room, limit = room + 1 := ⟨limit - 1, by omega⟩
  have hwrites := h.spells 0 [] [] .nil .nil
  rw [List.append_nil, List.append_nil] at hwrites
  obtain ⟨hclean, hahead⟩ := Grammar.Ahead.ofText hwrites maxErrors
  have hreads : Grammar.ReadsAs (Grammar.grammar (room + 1) room) 1 e.words (Grammar.Alike e) :=
    (Grammar.holdsWithin h room (by omega)).reads (Nat.le_refl 1) (Grammar.strength_pos e)
  have hgives : Grammar.Gives false (Grammar.grammar (room + 1) (room + 1)).expression (e.words ++ [.eof])
      [.eof] fun read => read.shape = e.shape := hreads.expression ⟨.eof, [], rfl, by decide⟩
  obtain ⟨read, s, hrun, hshape, hend⟩ := hgives.exists_run hahead
  rw [← (Grammar.reads_counted_start (room + 1)).expression.run_eq rfl rfl] at hrun
  exact ⟨hclean, read, s, hrun, hend.errors, hend.failures, hend.kind (Word.shown_false _), hshape⟩

/-- The product of `a < b > c`, which looks like a cast, and `-(-x)` dereferenced twice. -/
def tangledProduct : Expr :=
  let leaf (name : String) : Expr := ⟨.identifier name, default, 0⟩
  let compared : Expr :=
    ⟨.binary .greater ⟨.binary .less (leaf "a") (leaf "b"), default, 1⟩ (leaf "c"), default, 2⟩
  let negated : Expr :=
    ⟨.unary .negate ⟨.unary .negate (leaf "x") .before, default, 3⟩ .before, default, 4⟩
  ⟨.binary .multiply compared
    ⟨.unary .deref ⟨.unary .deref negated .before, default, 5⟩ .before, default, 6⟩, default, 7⟩

theorem parse_print_tangledProduct :
    tangledProduct.Plain ∧ tangledProduct.print 0 = "(a < b > c) * **- -x" ∧
      2 * tangledProduct.size ≤ 22 ∧
      (Token.scan "(a < b > c) * **- -x").2 = [] ∧
      ∃ read s, (Grammar.counted 22 23).expression
          (.ofTokens (Token.scan "(a < b > c) * **- -x").1 none) = (read, s) ∧
        s.errors.isEmpty = true ∧ s.failures = 0 ∧ s.current.kind = .eof ∧
        read.shape = tangledProduct.shape := by
  have leaf : ∀ name, Token.isName name = true → Expr.Plain ⟨.identifier name, default, 0⟩ :=
    fun name h => .identifier h
  have hplain : tangledProduct.Plain :=
    .binary _ (.binary _ (.binary _ (leaf "a" (by decide +kernel)) (leaf "b" (by decide +kernel)))
      (leaf "c" (by decide +kernel)))
      (.leading _ (.leading _ (.leading _ (.leading _ (leaf "x" (by decide +kernel))))))
  have hprint : tangledProduct.print 0 = "(a < b > c) * **- -x" := by decide +kernel
  have hsize : 2 * tangledProduct.size ≤ 22 := by
    have hwalk : tangledProduct.size = 11 := by
      simp [Expr.size, Expr.nodes, tangledProduct, Descent.walk_eq, Descent.full, Node.children, Node.ofExpr]
    omega
  have h := hplain.parse_print none hsize
  rw [hprint] at h
  exact ⟨hplain, hprint, hsize, h⟩

end FluxFront
