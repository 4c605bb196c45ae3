import FluxFront.Proofs.StmtTexts

/-!
# No token of an expression is lost

Every token that is read on the way to an expression is found again in it.

* **Specification**: if nothing was reported and the expression is flat, the tokens that were read are
  those it is written as, from left to right and without a gap (`expression_lossless`).
* **States**: a state is over some tokens if they are all it can read, apart from halves of a `>>` and the
  end of the text.  That holds at the start of a run and is kept by every move.
-/

namespace FluxFront.Grammar

open Token (Kind)

/-- Every token ahead is one of the given ones, the half of a `>>`, or the end of the text. -/
def State.Over (tokens : List Token) (s : State) : Prop :=
  ∀ t ∈ s.rest, t ∈ tokens ∨ t.kind = .greater ∨ t.kind = .eof

theorem over_ofTokens (tokens : List Token) (maxErrors : Option Nat) :
    (State.ofTokens tokens maxErrors).Over tokens := by
  intro t ht
  have hclose : t ∈ closeTokens tokens := ht
  unfold closeTokens at hclose
  split at hclose
  · split at hclose
    · exact .inl hclose
    · rcases List.mem_append.1 hclose with hmem | hmem
      · exact .inl hmem
      · exact .inr (.inr (by rw [List.mem_singleton.1 hmem]; rfl))
  · exact .inr (.inr (by rw [List.mem_singleton.1 hclose]; rfl))

/-- A token of a text that was cut is one of the text or the half of a `>>`. -/
theorem Cut.mem {ts us : List Token} (h : Cut ts us) : ∀ u ∈ us, u ∈ ts ∨ u.kind = .greater := by
  induction h with
  | refl => exact fun u hu => .inl hu
  | @cut before behind t first second _ _ hfirst hsecond ih =>
    intro u hu
    rw [List.mem_append, List.mem_cons, List.mem_cons] at hu
    rcases hu with hu | rfl | rfl | hu
    · exact ih u (List.mem_append_left _ hu)
    · exact .inr hfirst
    · exact .inr hsecond
    · exact ih u (List.mem_append_right _ (List.mem_cons_of_mem _ hu))

/-- What is read from a state over some tokens, and what is ahead behind it, is over them, too. -/
theorem Passes.over {s s' : State} {ts tokens : List Token} (h : Passes s ts s') (hs : s.Over tokens) :
    ∀ t ∈ ts ++ s'.rest, t ∈ tokens ∨ t.kind = .greater ∨ t.kind = .eof := by
  intro t ht
  rcases h.between.cut.mem t ht with hmem | hk
  · exact hs t hmem
  · exact .inr (.inl hk)

/-- Every state of a run over some tokens is over them. -/
theorem Moves.over {s s' : State} {tokens : List Token} (h : Moves True s s') (hs : s.Over tokens) :
    s'.Over tokens := by
  obtain ⟨ts, hbehind, -⟩ := h.between
  exact fun t ht => Passes.over ⟨h, hbehind⟩ hs t (List.mem_append_right _ ht)

/-- The tokens that a flat expression was read from are those it is written as, whatever the state.  A run
adds no diagnostic if it reports nothing; in a collection that is full this cannot be told from what is kept,
so it is asked whatever was collected before (`Silent`). -/
theorem expression_lossless (limit fuel : Nat) (source : String) {s : State}
    (hover : s.Over (Token.scan source).1) (hs : s.panicking = false)
    (hsilent : Silent (counted limit fuel).expression s)
    (hflat : ((counted limit fuel).expression s).1.Flat) :
    ∃ ts, ((counted limit fuel).expression s).2.behind = ts.reverse ++ s.behind ∧
      Matches ((counted limit fuel).expression s).1.flatten ts := by
  have hcounts := (twin_counted limit fuel s).expression
  rw [hcounts.silent_congr] at hsilent
  rw [hcounts.run_eq rfl rfl] at hflat ⊢
  obtain ⟨ts, hpass, hts⟩ := Runs.silent (@grammarIn_texts .counted s.skimming (fun _ => rfl) limit _).expression
    hsilent hs fun _ _ _ _ _ h => h.at_cursor rfl
  refine ⟨ts, hpass.behind, hts.spells (fun t ht => ?_) hflat⟩
  rcases hpass.over hover t (List.mem_append_left _ ht) with hmem | hk | hk
  · exact Token.decoded_scan source t hmem
  -- the half of a token and the end of the text carry no value
  · unfold Token.Decoded
    rw [hk]
    trivial
  · unfold Token.Decoded
    rw [hk]
    trivial

/-- The state in front of `f(**p, [&a, 1,])`. -/
def nestedCall : State := .ofTokens (Token.scan "f(**p, [&a, 1,])").1 none

/-- There, thirteen tokens are read for fifteen pieces: `**` stands for two of them, and of the two commas
that may be left out one is. -/
theorem expression_lossless_nestedCall :
    ∃ ts, ((counted 6 7).expression nestedCall).2.behind = ts.reverse ++ nestedCall.behind ∧
      Matches ((counted 6 7).expression nestedCall).1.flatten ts := by
  have hsilent : Silent (counted 6 7).expression nestedCall :=
    (reads_counted_start 6).expression.silent_congr.2 <|
      (silent_iff (fun _ => inferInstance) rfl).2 (by decide +kernel)
  exact expression_lossless 6 7 "f(**p, [&a, 1,])" (over_ofTokens _ _) rfl hsilent
    (Expr.flat_of_isFlat (by decide +kernel))

end FluxFront.Grammar
