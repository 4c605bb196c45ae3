import FluxFront.Proofs.ProgramProductions
import FluxFront.Proofs.TwinProductions

/-!
# Settings about diagnostics

Two settings of a parse are about diagnostics only: how many errors are kept, and whether statements may
stand outside of functions.

* **Specification**: neither has a say in the tree.  With a limit the errors are the first ones of those
  without a limit; where statements are allowed the errors are those elsewhere, without the errors about
  statements (`parseTokens_diagnostic_settings`).
* **Crux**: going back to a checkpoint cuts the errors to a number that was counted under the limit.  In
  both runs this gives back the errors as they were, so the runs stay side by side.
-/

namespace FluxFront

open Diagnostic (Collection)

namespace Grammar

/-! ## Two ways to keep fewer errors -/

/-- Offering more errors and cutting commute. -/
theorem take_append_take {α : Type} (as bs : List α) (n : Nat) :
    (as.take n ++ bs).take n = (as ++ bs).take n := by
  rw [List.take_append, List.take_append, List.take_take, Nat.min_self, List.length_take]
  congr 2
  omega

/-- The second collection keeps the first `n` errors of the first. -/
structure Capped (n : Nat) (c c' : Collection) : Prop where
  unlimited : c.limit = none
  limited : c'.limit = some n
  errors : c'.errors = c.errors.take n

theorem Capped.addError {n : Nat} {c c' : Collection} (h : Capped n c c') (d : Diagnostic) :
    Capped n (c.addError d) (c'.addError d) := by
  have hle : c'.errors.length ≤ n := by
    rw [h.errors]
    exact List.length_take_le n c.errors
  refine ⟨by rw [c.limit_addError, h.unlimited], by rw [c'.limit_addError, h.limited], ?_⟩
  rw [Collection.errors_addError_of_limit_some h.limited hle,
    Collection.errors_addError_of_limit_none h.unlimited, h.errors]
  exact take_append_take c.errors [d] n

/-- Whether an error is about something else than where a statement stands. -/
def isLasting (d : Diagnostic) : Bool := d.kind ≠ .topLevelStatement

/-- The second collection has all errors of the first, except those about where statements stand. -/
structure Sifted (c c' : Collection) : Prop where
  unlimited : c.limit = none
  unlimited' : c'.limit = none
  errors : c'.errors = c.errors.filter isLasting

theorem Sifted.addError {c c' : Collection} (h : Sifted c c') {d : Diagnostic}
    (hd : d.kind ≠ .topLevelStatement) : Sifted (c.addError d) (c'.addError d) := by
  have hlasting : isLasting d = true := decide_eq_true hd
  refine ⟨by rw [c.limit_addError, h.unlimited], by rw [c'.limit_addError, h.unlimited'], ?_⟩
  rw [Collection.errors_addError_of_limit_none h.unlimited,
    Collection.errors_addError_of_limit_none h.unlimited', h.errors, List.filter_append,
    List.filter_cons_of_pos hlasting, List.filter_nil]

/-- An error about where a statement stands is recorded in the first collection only. -/
theorem Sifted.addOutside {c c' : Collection} (h : Sifted c c') {d : Diagnostic}
    (hd : d.kind = .topLevelStatement) : Sifted (c.addError d) c' := by
  have hlasting : ¬ isLasting d = true := by
    rw [isLasting, hd]
    decide
  refine ⟨by rw [c.limit_addError, h.unlimited], h.unlimited', ?_⟩
  rw [Collection.errors_addError_of_limit_none h.unlimited, h.errors, List.filter_append,
    List.filter_cons_of_neg hlasting, List.filter_nil, List.append_nil]

/-- Runs of which the second keeps at most `n` errors. -/
def capping (n : Nat) : Likeness where
  errors := Capped n
  addError d _ h := h.addError d
  shared _ := true
  ends _ := False

/-- Runs of which the second allows statements everywhere. -/
def sifting : Likeness where
  errors := Sifted
  addError _ hd h := h.addError hd
  shared _ := true
  ends _ := False

/-! ## Parses side by side -/

/-- What two parses of the same tokens have in common if nothing ends the comparison. -/
theorem Twin.parseTokens {L : Likeness} {config config' : Config}
    (h : Twin L (leveledProgram config) (leveledProgram config')) (tokens : List Token) (hends : ∀ e, ¬ L.ends e)
    (hscope : L.scope (.ofTokens tokens config.maxErrors))
    (hstart : L.errors (.empty config.maxErrors) (.empty config'.maxErrors)) :
    (parseTokens tokens config').program = (parseTokens tokens config).program ∧
      L.errors (parseTokens tokens config).errors (parseTokens tokens config').errors := by
  have hlike : L.Like (.ofTokens tokens config.maxErrors) (.ofTokens tokens config'.maxErrors) :=
    ⟨rfl, hstart, rfl⟩
  rw [parseTokens_eq rfl, parseTokens_eq rfl]
  rcases h.alike hscope hlike with ⟨e, -, he⟩ | ⟨hvalue, hafter, -⟩
  · exact absurd he (hends e)
  · exact ⟨hvalue, hafter.errors⟩

/-- A limit on errors. -/
theorem twin_capping (depth n : Nat) (allow : Bool) :
    Twin (capping n) (leveledProgram ⟨depth, allow, none⟩) (leveledProgram ⟨depth, allow, some n⟩) := by
  have hjudge : ∀ span, Twin (capping n) (judgeOutside ⟨depth, allow, none⟩ span)
      (judgeOutside ⟨depth, allow, some n⟩ span) := twin_judgeOutside (fun d h => h.addError d) rfl
  exact twin_programOver (grammar depth depth) (grammar depth depth) hjudge

/-- Statements allowed everywhere. -/
theorem twin_sifting (depth : Nat) :
    Twin sifting (leveledProgram ⟨depth, false, none⟩) (leveledProgram ⟨depth, true, none⟩) := by
  refine twin_programOver (grammar depth depth) (grammar depth depth) fun span => ?_
  constructor
  · exact fun {s} _ => .single (.record _) s
  · intro s s' _ h
    -- what the first run records is what the second leaves out
    refine .inr ⟨rfl, ?_, .refl s'⟩
    show sifting.Like (s.recorded _) s'
    unfold State.recorded
    split
    · exact h
    · exact ⟨h.same, h.errors.addOutside rfl, h.events⟩

end Grammar

/-- **Settings about diagnostics have no say in the tree.**  A limit keeps the first errors, and allowing
statements everywhere takes away just the errors about them. -/
theorem parseTokens_diagnostic_settings (tokens : List Token) (depth : Nat) :
    (∀ allow allow' limit limit', (parseTokens tokens ⟨depth, allow, limit⟩).program =
        (parseTokens tokens ⟨depth, allow', limit'⟩).program) ∧
      (∀ allow n, (parseTokens tokens ⟨depth, allow, some n⟩).errors.errors =
        (parseTokens tokens ⟨depth, allow, none⟩).errors.errors.take n) ∧
      (parseTokens tokens ⟨depth, true, none⟩).errors.errors =
        (parseTokens tokens ⟨depth, false, none⟩).errors.errors.filter (·.kind ≠ .topLevelStatement) := by
  have hcap : ∀ allow n, (parseTokens tokens ⟨depth, allow, some n⟩).program =
      (parseTokens tokens ⟨depth, allow, none⟩).program ∧ Grammar.Capped n
        (parseTokens tokens ⟨depth, allow, none⟩).errors (parseTokens tokens ⟨depth, allow, some n⟩).errors :=
    fun allow n => (Grammar.twin_capping depth n allow).parseTokens tokens (fun _ h => h) trivial
      ⟨rfl, rfl, List.take_nil.symm⟩
  have hsift : (parseTokens tokens ⟨depth, true, none⟩).program =
      (parseTokens tokens ⟨depth, false, none⟩).program ∧ Grammar.Sifted
        (parseTokens tokens ⟨depth, false, none⟩).errors (parseTokens tokens ⟨depth, true, none⟩).errors :=
    (Grammar.twin_sifting depth).parseTokens tokens (fun _ h => h) trivial ⟨rfl, rfl, rfl⟩
  have hall : ∀ allow limit, (parseTokens tokens ⟨depth, allow, limit⟩).program =
      (parseTokens tokens ⟨depth, false, none⟩).program := by
    intro allow limit
    have hunlimited : (parseTokens tokens ⟨depth, allow, limit⟩).program =
        (parseTokens tokens ⟨depth, allow, none⟩).program := by
      cases limit with
      | none => rfl
      | some n => exact (hcap allow n).1
    rw [hunlimited]
    cases allow with
    | false => rfl
    | true => exact hsift.1
  refine ⟨fun allow allow' limit limit' => ?_, fun allow n => (hcap allow n).2.errors, hsift.2.errors⟩
  rw [hall allow limit, hall allow' limit']

end FluxFront
