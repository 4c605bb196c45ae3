import FluxFront.Proofs.Limits

/-!
# Collections over whole runs

A collection is built by offering errors and warnings, by sorting, and by merging other collections that
were built in the same way.  Errors are offered and sorted in any order, so what is held may be sorted in
front and unsorted behind.

* **Program**: `Collection.build`, the steps on an empty collection with a limit.
* **Specification**: what is held are the first errors offered, as many as the limit lets in, and all
  warnings in the order in which they came.  Right after a sort or a merge the errors are in the stable
  order of their offsets (`Collection.build_accepted`).
* **Finding**: errors without a span go last, but an error that starts at the greatest offset there is
  has the same place in the order, so that it may stay behind them (`Collection.build_tied`).
* **Crux**: what is held is always some front of what was accepted, sorted, and the rest of it as it
  came (`Collection.Holds`).
-/

namespace FluxFront

namespace Diagnostic

/-! ## Errors without a span last -/

/-- The order of starts, where errors without a span go last. -/
def standsBefore (d e : Diagnostic) : Bool :=
  match d.span, e.span with
  | some span, some span' => decide (span.start.offset ≤ span'.start.offset)
  | none, some _ => false
  | _, none => true

theorem standsBefore_trans (a b c : Diagnostic) (hab : a.standsBefore b = true)
    (hbc : b.standsBefore c = true) : a.standsBefore c = true := by
  unfold standsBefore at *
  cases ha : a.span <;> cases hb : b.span <;> cases hc : c.span <;> simp_all
  omega

theorem standsBefore_total (a b : Diagnostic) : (a.standsBefore b || b.standsBefore a) = true := by
  unfold standsBefore
  cases ha : a.span <;> cases hb : b.span <;> simp
  omega

theorem sortKey_le_of_standsBefore {d e : Diagnostic} (hd : d.sortKey ≤ greatestOffset)
    (h : d.standsBefore e = true) : d.sortKey ≤ e.sortKey := by
  unfold standsBefore sortKey at *
  cases hspan : d.span <;> cases hspan' : e.span <;> simp_all

/-- Of two errors at one place the first one goes last just if it alone has no span. -/
theorem standsBefore_of_sortKey_eq {d e : Diagnostic} (h : d.sortKey = e.sortKey) :
    d.standsBefore e = true ↔ ¬ (d.span = none ∧ e.span.isSome) := by
  unfold standsBefore sortKey at *
  cases hspan : d.span <;> cases hspan' : e.span <;> simp_all

/-- The errors at each place are in the order of starts just if none without a span stands before one
that starts at the greatest offset. -/
theorem standingAt_pairwise_iff (ds : List Diagnostic) :
    (∀ key, (standingAt key ds).Pairwise fun d e => d.standsBefore e = true) ↔
      ds.Pairwise fun d e => d.span = none → e.span.isSome → e.sortKey ≠ greatestOffset := by
  constructor
  · intro h
    have hgreatest := List.pairwise_filter.1 (h greatestOffset)
    refine hgreatest.imp fun {d e} hde hnone hsome hkey => ?_
    have hd : d.sortKey = greatestOffset := by
      rw [sortKey, hnone]
    have hbefore := hde (decide_eq_true hd) (decide_eq_true hkey)
    exact (standsBefore_of_sortKey_eq (hd.trans hkey.symm)).1 hbefore ⟨hnone, hsome⟩
  · intro h key
    refine List.pairwise_filter.2 (h.imp fun {d e} hde hd he => ?_)
    have hkeys : d.sortKey = e.sortKey :=
      (of_decide_eq_true hd).trans (of_decide_eq_true he).symm
    rw [standsBefore_of_sortKey_eq hkeys]
    rintro ⟨hnone, hsome⟩
    apply hde hnone hsome
    rw [← hkeys, sortKey, hnone]

/-- The order of places is that of starts, with errors without a span last, just if none of these stands
before an error that starts at the greatest offset. -/
theorem mergeSort_precedes_eq_iff {ds : List Diagnostic}
    (hwords : ∀ d ∈ ds, d.sortKey ≤ greatestOffset) :
    ds.mergeSort precedes = ds.mergeSort standsBefore ↔
      ds.Pairwise fun d e => d.span = none → e.span.isSome → e.sortKey ≠ greatestOffset := by
  rw [← standingAt_pairwise_iff]
  have hpairwise := List.pairwise_mergeSort standsBefore_trans standsBefore_total ds
  constructor
  · intro h key
    rw [← standingAt_mergeSort, h]
    exact hpairwise.filter _
  · intro h
    have hinOrder : InOrder (ds.mergeSort standsBefore) :=
      hpairwise.imp_of_mem fun hd _ hde =>
        sortKey_le_of_standsBefore (hwords _ (List.mem_mergeSort.1 hd)) hde
    apply (inOrder_mergeSort ds).eq_of_at hinOrder
    intro key
    rw [standingAt_mergeSort,
      standingAt_mergeSort_of_pairwise standsBefore_trans standsBefore_total (h key)]

end Diagnostic

namespace Diagnostic.Collection

/-! ## Runs -/

/-- What can be done to a collection.  A collection that is merged was built from an empty one. -/
inductive Step where
  | error (d : Diagnostic)
  | warning (d : Diagnostic)
  | sort
  | merge (limit : Option Nat) (steps : List Step)

mutual

/-- The collection after one step. -/
def Step.apply : Step → Collection → Collection
  | .error d, c => c.addError d
  | .warning d, c => c.addWarning d
  | .sort, c => c.sort
  | .merge limit steps, c => c.merge (applyAll steps (empty limit))

/-- The collection after some steps. -/
def applyAll : List Step → Collection → Collection
  | [], c => c
  | step :: steps, c => applyAll steps (step.apply c)

end

/-- The collection that is built by some steps. -/
def build (limit : Option Nat) (steps : List Step) : Collection := applyAll steps (empty limit)

mutual

/-- The warnings that come with a step. -/
def Step.warned : Step → List Diagnostic
  | .warning d => [d]
  | .merge _ steps => warned steps
  | .error _ | .sort => []

/-- The warnings that come with some steps. -/
def warned : List Step → List Diagnostic
  | [] => []
  | step :: steps => step.warned ++ warned steps

end

namespace Step

/-- The errors that a step offers; a merge offers those of the other collection as it holds them. -/
def offered : Step → List Diagnostic
  | .error d => [d]
  | .merge limit steps => (build limit steps).errors
  | .warning _ | .sort => []

/-- Whether a step leaves the errors sorted. -/
def sorts : Step → Bool
  | .sort | .merge _ _ => true
  | .error _ | .warning _ => false

end Step

/-- The errors that are accepted in a run: the first ones offered. -/
def accepted (limit : Option Nat) (steps : List Step) : List Diagnostic :=
  keep limit (steps.flatMap Step.offered)

/-! ## Limits -/

/-- What has the length of what was kept is kept. -/
theorem keep_of_length {limit : Option Nat} {ds held : List Diagnostic}
    (h : held.length = (keep limit ds).length) : keep limit held = held := by
  cases limit with
  | none => rfl
  | some n =>
    apply List.take_of_length_le
    rw [h]
    exact length_keep_le rfl ds

/-- How much is kept of more errors depends only on how many there are already. -/
theorem keep_append_of_length {limit : Option Nat} {ds held : List Diagnostic}
    (h : held.length = (keep limit ds).length) (es : List Diagnostic) :
    keep limit (held ++ es) = held ++ keep (limit.map (· - (keep limit ds).length)) es := by
  cases limit with
  | none => rfl
  | some n =>
    have hheld : held.take n = held := keep_of_length h
    show (held ++ es).take n = held ++ es.take (n - (keep (some n) ds).length)
    rw [List.take_append, hheld, h]

/-! ## What a collection holds -/

/-- Of the errors offered, those that are kept are held: some front of them sorted, and the rest as they
came. -/
def Holds (c : Collection) (offered : List Diagnostic) : Prop :=
  ∃ front rest, keep c.limit offered = front ++ rest ∧ c.errors = front.mergeSort precedes ++ rest

theorem holds_empty (limit : Option Nat) : Holds (empty limit) [] := by
  refine ⟨[], [], ?_, by rw [List.mergeSort_nil]; rfl⟩
  cases limit with
  | none => rfl
  | some n => exact List.take_nil

namespace Holds

variable {c : Collection} {ds : List Diagnostic} (h : Holds c ds)

include h

theorem perm : c.errors.Perm (keep c.limit ds) := by
  obtain ⟨front, rest, hkept, herrors⟩ := h
  rw [hkept, herrors]
  exact (List.mergeSort_perm front precedes).append_right rest

theorem offer (es : List Diagnostic) : Holds (es.foldl addError c) (ds ++ es) := by
  have hlength : c.errors.length = (keep c.limit ds).length := h.perm.length_eq
  obtain ⟨front, rest, hkept, herrors⟩ := h
  -- the same errors are dropped as if nothing had been sorted
  let more := keep (c.limit.map (· - (keep c.limit ds).length)) es
  refine ⟨front, rest ++ more, ?_, ?_⟩
  · calc keep (es.foldl addError c).limit (ds ++ es)
        = keep c.limit (keep c.limit ds ++ es) := by rw [limit_offer, keep_append]
      _ = keep c.limit ds ++ more := keep_append_of_length rfl es
      _ = front ++ (rest ++ more) := by rw [hkept, List.append_assoc]
  · calc (es.foldl addError c).errors
        = keep c.limit (c.errors ++ es) := errors_offer es (keep_of_length hlength).symm
      _ = c.errors ++ more := keep_append_of_length hlength es
      _ = front.mergeSort precedes ++ (rest ++ more) := by rw [herrors, List.append_assoc]

theorem errors_sort : c.sort.errors = (keep c.limit ds).mergeSort precedes := by
  obtain ⟨front, rest, hkept, herrors⟩ := h
  show c.errors.mergeSort precedes = _
  rw [hkept, herrors, mergeSort_append]

theorem sort : Holds c.sort ds :=
  ⟨keep c.limit ds, [], (List.append_nil _).symm, by rw [h.errors_sort, List.append_nil]⟩

theorem apply (step : Step) : Holds (step.apply c) (ds ++ step.offered) := by
  cases step with
  | error d => exact h.offer [d]
  | warning d =>
    rw [Step.offered, List.append_nil]
    exact h
  | sort =>
    rw [Step.offered, List.append_nil]
    exact h.sort
  | merge limit steps => exact (h.offer (build limit steps).errors).sort

/-- A step that sorts sorts all that was accepted, also what was sorted before. -/
theorem errors_apply {step : Step} (hsorts : step.sorts = true) :
    (step.apply c).errors = (keep c.limit (ds ++ step.offered)).mergeSort precedes := by
  cases step with
  | error d => cases hsorts
  | warning d => cases hsorts
  | sort =>
    rw [Step.offered, List.append_nil]
    exact h.errors_sort
  | merge limit steps =>
    have hmerged := (h.offer (build limit steps).errors).errors_sort
    rwa [limit_offer] at hmerged

end Holds

theorem Step.limit_apply (step : Step) (c : Collection) : (step.apply c).limit = c.limit := by
  cases step with
  | error d => exact limit_addError c d
  | warning d => rfl
  | sort => rfl
  | merge limit steps => exact limit_merge c _

theorem limit_applyAll (steps : List Step) (c : Collection) : (applyAll steps c).limit = c.limit := by
  induction steps generalizing c with
  | nil => rfl
  | cons step steps ih =>
    rw [applyAll, ih, step.limit_apply]

theorem Holds.applyAll {c : Collection} {ds : List Diagnostic} (h : Holds c ds) (steps : List Step) :
    Holds (applyAll steps c) (ds ++ steps.flatMap Step.offered) := by
  induction steps generalizing c ds with
  | nil =>
    rw [List.flatMap_nil, List.append_nil]
    exact h
  | cons step steps ih =>
    rw [List.flatMap_cons, ← List.append_assoc]
    exact ih (h.apply step)

theorem applyAll_concat (steps : List Step) (step : Step) (c : Collection) :
    applyAll (steps ++ [step]) c = step.apply (applyAll steps c) := by
  induction steps generalizing c with
  | nil => rfl
  | cons first steps ih => exact ih (first.apply c)

mutual

theorem Step.warnings_apply (step : Step) (c : Collection) :
    (step.apply c).warnings = c.warnings ++ step.warned := by
  cases step with
  | error d =>
    show (c.addError d).warnings = c.warnings ++ []
    rw [List.append_nil, addError]
    split <;> rfl
  | warning d => rfl
  | sort => exact (List.append_nil _).symm
  | merge limit steps =>
    show (c.merge (build limit steps)).warnings = c.warnings ++ Collection.warned steps
    rw [warnings_merge, build, warnings_applyAll]
    rfl

theorem warnings_applyAll (steps : List Step) (c : Collection) :
    (applyAll steps c).warnings = c.warnings ++ warned steps := by
  cases steps with
  | nil => exact (List.append_nil _).symm
  | cons step steps =>
    show (applyAll steps (step.apply c)).warnings = _
    rw [warnings_applyAll, Step.warnings_apply, List.append_assoc]
    rfl

end

/-! ## Whole runs -/

theorem build_holds (limit : Option Nat) (steps : List Step) :
    Holds (build limit steps) (steps.flatMap Step.offered) :=
  (holds_empty limit).applyAll steps

theorem limit_build (limit : Option Nat) (steps : List Step) : (build limit steps).limit = limit :=
  limit_applyAll steps (empty limit)

/-- **A collection holds the errors that were offered first and all warnings.**  After a step that sorts,
the errors are those that were accepted, put in a stable order.  This is the order of starts with errors
without a span last, just if none of these was accepted before one that starts at the greatest offset. -/
theorem build_accepted (limit : Option Nat) (steps : List Step) :
    (build limit steps).errors.Perm (accepted limit steps) ∧
      (build limit steps).warnings = warned steps ∧
      (∀ step ∈ steps.getLast?, step.sorts = true →
        (build limit steps).errors = (accepted limit steps).mergeSort precedes) ∧
      ((∀ d ∈ accepted limit steps, d.sortKey ≤ greatestOffset) →
        ((accepted limit steps).mergeSort precedes = (accepted limit steps).mergeSort standsBefore ↔
          (accepted limit steps).Pairwise fun d e =>
            d.span = none → e.span.isSome → e.sortKey ≠ greatestOffset)) := by
  refine ⟨?_, warnings_applyAll steps (empty limit), ?_, mergeSort_precedes_eq_iff⟩
  · have hperm := (build_holds limit steps).perm
    rwa [limit_build] at hperm
  · intro step hlast hsorts
    obtain ⟨before, rfl⟩ := List.getLast?_eq_some_iff.1 hlast
    have herrors := (build_holds limit before).errors_apply hsorts
    rw [limit_build] at herrors
    rw [build, applyAll_concat, accepted, List.flatMap_append, List.flatMap_singleton]
    exact herrors

/-- A run with a merge at its end: the third error is dropped, the second one goes to the front. -/
theorem build_accepted_merged :
    let steps : List Step :=
      [.error { kind := .ioError, message := "none" },
        .merge (some 1)
          [.error { kind := .ioError, message := "second", span := some (.single ⟨1, 5, 4⟩) },
            .warning { kind := .ioError, message := "odd" },
            .error { kind := .ioError, message := "third", span := some (.single ⟨1, 1, 0⟩) }]]
    (∀ d ∈ accepted (some 2) steps, d.sortKey ≤ greatestOffset) ∧
      (accepted (some 2) steps).map Diagnostic.message = ["none", "second"] ∧
      (build (some 2) steps).errors = (accepted (some 2) steps).mergeSort standsBefore ∧
      (build (some 2) steps).warnings.map Diagnostic.message = ["odd"] := by
  intro steps
  have hwords : ∀ d ∈ accepted (some 2) steps, d.sortKey ≤ greatestOffset := by decide +kernel
  obtain ⟨-, hwarnings, hsorted, htied⟩ := build_accepted (some 2) steps
  refine ⟨hwords, by decide +kernel, ?_, ?_⟩
  · rw [hsorted _ rfl rfl, (htied hwords).2]
    decide +kernel
  · rw [hwarnings]
    rfl

/-- The error at the greatest offset stays behind the one without a span, and this is not the order of
starts. -/
theorem build_tied :
    let steps : List Step :=
      [.error { kind := .ioError, message := "none" },
        .error { kind := .ioError, message := "max", span := some (.single ⟨1, 1, greatestOffset⟩) },
        .sort]
    (build none steps).errors.map Diagnostic.message = ["none", "max"] ∧
      (build none steps).errors ≠ (accepted none steps).mergeSort standsBefore := by
  intro steps
  have hsorted : (build none steps).errors = (accepted none steps).mergeSort precedes := rfl
  have hinOrder : (accepted none steps).Pairwise fun d e => d.precedes e = true := by decide +kernel
  have hwords : ∀ d ∈ accepted none steps, d.sortKey ≤ greatestOffset := by decide +kernel
  rw [hsorted]
  constructor
  · rw [List.mergeSort_of_pairwise hinOrder]
    rfl
  · rw [Ne, mergeSort_precedes_eq_iff hwords]
    decide +kernel

end Diagnostic.Collection

end FluxFront
