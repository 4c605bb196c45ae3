import FluxFront.Proofs.Positions
import FluxFront.Proofs.Settings

/-!
# A limit on the errors about a text

The errors about the characters of a text are recorded first, then those about its tokens, each as it is
found; a limit is on what is recorded.

* **Specification**: the errors reported are the first `n` that are recorded, and the order of places is
  imposed on these.  They are the first `n` of all errors in the order of places just if none that was
  dropped belongs before one that was kept (`parse_limited`).  So a limit can keep a later error about
  a character and drop an earlier one about a token (`parse_limited_later`).
* **Crux**: sorting is stable, so the sorted list is the only one that is in order and has, place by
  place, the errors as they were (`InOrder.eq_of_at`).  Hence the two sorts on the way are one
  (`mergeSort_keep_append`), and a sorted front can be put before a sorted rest.
-/

namespace FluxFront

namespace Diagnostic

/-! ## Stable order -/

/-- Errors in the order of their places. -/
def InOrder (ds : List Diagnostic) : Prop := ds.Pairwise fun d e => d.sortKey ≤ e.sortKey

/-- The errors at one place, in the order they have. -/
def standingAt (key : Nat) (ds : List Diagnostic) : List Diagnostic := ds.filter (·.sortKey = key)

theorem mem_standingAt {key : Nat} {ds : List Diagnostic} {d : Diagnostic} :
    d ∈ standingAt key ds ↔ d ∈ ds ∧ d.sortKey = key := by
  simp [standingAt]

theorem standingAt_append (key : Nat) (ds es : List Diagnostic) :
    standingAt key (ds ++ es) = standingAt key ds ++ standingAt key es :=
  List.filter_append ..

theorem standingAt_cons (key : Nat) (d : Diagnostic) (ds : List Diagnostic) :
    standingAt key (d :: ds) =
      if d.sortKey = key then d :: standingAt key ds else standingAt key ds := by
  simp [standingAt, List.filter_cons]

theorem inOrder_mergeSort (ds : List Diagnostic) : InOrder (ds.mergeSort precedes) :=
  (List.pairwise_mergeSort precedes_trans precedes_total ds).imp fun h => of_decide_eq_true h

/-- Sorting by any order leaves the errors at one place as they were, if they are in that order. -/
theorem standingAt_mergeSort_of_pairwise {before : Diagnostic → Diagnostic → Bool}
    (htrans : ∀ a b c, before a b = true → before b c = true → before a c = true)
    (htotal : ∀ a b, (before a b || before b a) = true) {key : Nat} {ds : List Diagnostic}
    (h : (standingAt key ds).Pairwise fun d e => before d e = true) :
    standingAt key (ds.mergeSort before) = standingAt key ds := by
  have hsub : (standingAt key ds).Sublist (ds.mergeSort before) :=
    List.sublist_mergeSort htrans htotal h List.filter_sublist
  have hfiltered : (standingAt key (standingAt key ds)).Sublist
      (standingAt key (ds.mergeSort before)) := hsub.filter _
  have honce : standingAt key (standingAt key ds) = standingAt key ds := by
    simp [standingAt]
  rw [honce] at hfiltered
  symm
  apply hfiltered.eq_of_length
  exact ((List.mergeSort_perm ds before).filter _).length_eq.symm

/-- Sorting leaves the errors at one place as they were. -/
theorem standingAt_mergeSort (key : Nat) (ds : List Diagnostic) :
    standingAt key (ds.mergeSort precedes) = standingAt key ds := by
  apply standingAt_mergeSort_of_pairwise precedes_trans precedes_total
  apply List.pairwise_of_forall_mem_list
  intro d hd e he
  rw [mem_standingAt] at hd he
  simp [precedes, hd.2, he.2]

/-- Errors in order are determined by those at each place. -/
theorem InOrder.eq_of_at {ds es : List Diagnostic} (hds : InOrder ds) (hes : InOrder es)
    (h : ∀ key, standingAt key ds = standingAt key es) : ds = es := by
  induction ds generalizing es with
  | nil =>
    cases es with
    | nil => rfl
    | cons e es =>
      have hmem : e ∈ standingAt e.sortKey [] := by
        rw [h, mem_standingAt]
        exact ⟨List.mem_cons_self, rfl⟩
      exact absurd (mem_standingAt.1 hmem).1 List.not_mem_nil
  | cons d ds ih =>
    cases es with
    | nil =>
      have hmem : d ∈ standingAt d.sortKey [] := by
        rw [← h, mem_standingAt]
        exact ⟨List.mem_cons_self, rfl⟩
      exact absurd (mem_standingAt.1 hmem).1 List.not_mem_nil
    | cons e es =>
      have hd : d ∈ e :: es := by
        have hmem : d ∈ standingAt d.sortKey (d :: ds) := mem_standingAt.2 ⟨List.mem_cons_self, rfl⟩
        rw [h] at hmem
        exact (mem_standingAt.1 hmem).1
      have he : e ∈ d :: ds := by
        have hmem : e ∈ standingAt e.sortKey (e :: es) := mem_standingAt.2 ⟨List.mem_cons_self, rfl⟩
        rw [← h] at hmem
        exact (mem_standingAt.1 hmem).1
      -- each of the two heads is not after the other one, so they are the first ones at one place
      have hde : d.sortKey ≤ e.sortKey := by
        rcases List.mem_cons.1 he with rfl | he
        · exact Nat.le_refl _
        · exact (List.pairwise_cons.1 hds).1 e he
      have hed : e.sortKey ≤ d.sortKey := by
        rcases List.mem_cons.1 hd with rfl | hd
        · exact Nat.le_refl _
        · exact (List.pairwise_cons.1 hes).1 d hd
      have hkey : e.sortKey = d.sortKey := Nat.le_antisymm hed hde
      have hheads := h d.sortKey
      rw [standingAt_cons, standingAt_cons, if_pos rfl, if_pos hkey] at hheads
      obtain ⟨rfl, -⟩ := List.cons.inj hheads
      congr 1
      apply ih (List.pairwise_cons.1 hds).2 (List.pairwise_cons.1 hes).2
      intro key
      have hrest := h key
      rw [standingAt_cons, standingAt_cons] at hrest
      by_cases heq : d.sortKey = key
      · rw [if_pos heq, if_pos heq] at hrest
        exact (List.cons.inj hrest).2
      · rw [if_neg heq, if_neg heq] at hrest
        exact hrest

/-- A front that was sorted before may as well be sorted with the rest. -/
theorem mergeSort_append (ds es : List Diagnostic) :
    (ds.mergeSort precedes ++ es).mergeSort precedes = (ds ++ es).mergeSort precedes := by
  apply (inOrder_mergeSort _).eq_of_at (inOrder_mergeSort _)
  intro key
  rw [standingAt_mergeSort, standingAt_mergeSort, standingAt_append, standingAt_append,
    standingAt_mergeSort]

/-- The errors of a front are the first ones in order just if none of the rest belongs before one of
them. -/
theorem mergeSort_take (ds : List Diagnostic) (n : Nat) :
    (ds.take n).mergeSort precedes = (ds.mergeSort precedes).take n ↔
      ∀ d ∈ ds.take n, ∀ e ∈ ds.drop n, d.sortKey ≤ e.sortKey := by
  constructor
  · intro h d hd e he
    have hperm : (ds.take n ++ ds.drop n).Perm (ds.take n ++ (ds.mergeSort precedes).drop n) := by
      calc ds.take n ++ ds.drop n
          = ds := List.take_append_drop n ds
        List.Perm _ (ds.mergeSort precedes) := (List.mergeSort_perm ds precedes).symm
        _ = (ds.take n).mergeSort precedes ++ (ds.mergeSort precedes).drop n := by
          rw [h, List.take_append_drop]
        List.Perm _ (ds.take n ++ (ds.mergeSort precedes).drop n) :=
          (List.mergeSort_perm _ precedes).append_right _
    have hd' : d ∈ (ds.mergeSort precedes).take n := by
      rw [← h]
      exact List.mem_mergeSort.2 hd
    have he' : e ∈ (ds.mergeSort precedes).drop n :=
      ((List.perm_append_left_iff _).1 hperm).mem_iff.1 he
    have hsorted := inOrder_mergeSort ds
    rw [← List.take_append_drop n (ds.mergeSort precedes)] at hsorted
    exact (List.pairwise_append.1 hsorted).2.2 d hd' e he'
  · intro h
    have hsplit : ds.mergeSort precedes =
        (ds.take n).mergeSort precedes ++ (ds.drop n).mergeSort precedes := by
      apply (inOrder_mergeSort ds).eq_of_at
      · apply List.pairwise_append.2 ⟨inOrder_mergeSort _, inOrder_mergeSort _, ?_⟩
        intro d hd e he
        exact h d (List.mem_mergeSort.1 hd) e (List.mem_mergeSort.1 he)
      · intro key
        rw [standingAt_mergeSort, standingAt_append, standingAt_mergeSort, standingAt_mergeSort,
          ← standingAt_append, List.take_append_drop]
    rw [hsplit]
    by_cases hlen : n ≤ ds.length
    · have hfront : ((ds.take n).mergeSort precedes).length = n := by
        rw [List.length_mergeSort, List.length_take_of_le hlen]
      rw [List.take_left' hfront]
    · have hnil : ds.drop n = [] := List.drop_of_length_le (by omega)
      have hlength : ((ds.take n).mergeSort precedes).length ≤ n := by
        rw [List.length_mergeSort]
        exact List.length_take_le n ds
      rw [hnil, List.mergeSort_nil, List.append_nil, List.take_of_length_le hlength]

/-! ## Errors under a limit -/

namespace Collection

/-- What is kept of the errors offered to a collection with a limit. -/
def keep (limit : Option Nat) (ds : List Diagnostic) : List Diagnostic :=
  match limit with
  | none => ds
  | some n => ds.take n

theorem length_keep_le {limit : Option Nat} {n : Nat} (h : limit = some n) (ds : List Diagnostic) :
    (keep limit ds).length ≤ n := by
  rw [h]
  exact List.length_take_le n ds

/-- What was kept once is kept again, in any order. -/
theorem keep_mergeSort (limit : Option Nat) (ds : List Diagnostic) :
    keep limit ((keep limit ds).mergeSort precedes) = (keep limit ds).mergeSort precedes := by
  cases limit with
  | none => rfl
  | some n =>
    apply List.take_of_length_le
    rw [List.length_mergeSort]
    exact length_keep_le rfl ds

/-- What is kept of more errors depends only on those that were kept. -/
theorem keep_append (limit : Option Nat) (ds es : List Diagnostic) :
    keep limit (keep limit ds ++ es) = keep limit (ds ++ es) := by
  cases limit with
  | none => rfl
  | some n => exact Grammar.take_append_take ds es n

/-- Cutting a sorted front and a rest, and cutting them as they were. -/
theorem mergeSort_keep_append (limit : Option Nat) (ds es : List Diagnostic) :
    (keep limit ((keep limit ds).mergeSort precedes ++ keep limit es)).mergeSort precedes =
      (keep limit (ds ++ es)).mergeSort precedes := by
  cases limit with
  | none => exact mergeSort_append ds es
  | some n =>
    have hfront : ((ds.take n).mergeSort precedes).take n = (ds.take n).mergeSort precedes :=
      keep_mergeSort (some n) ds
    have hcut : ((ds.take n).mergeSort precedes ++ es.take n).take n =
        (ds.take n).mergeSort precedes ++ es.take (n - ds.length) := by
      rw [List.take_append, hfront, List.take_take, List.length_mergeSort, List.length_take]
      congr 2
      omega
    show (((ds.take n).mergeSort precedes ++ es.take n).take n).mergeSort precedes =
      ((ds ++ es).take n).mergeSort precedes
    rw [hcut, mergeSort_append, List.take_append]

theorem limit_offer (es : List Diagnostic) (c : Collection) :
    (es.foldl addError c).limit = c.limit := by
  induction es generalizing c with
  | nil => rfl
  | cons e es ih => rw [List.foldl_cons, ih, limit_addError]

/-- Errors offered one after the other. -/
theorem errors_offer (es : List Diagnostic) {c : Collection} {ds : List Diagnostic}
    (h : c.errors = keep c.limit ds) :
    (es.foldl addError c).errors = keep c.limit (ds ++ es) := by
  induction es generalizing c ds with
  | nil => rw [List.append_nil, List.foldl_nil, h]
  | cons e es ih =>
    have hstep : (c.addError e).errors = keep (c.addError e).limit (ds ++ [e]) := by
      rw [limit_addError]
      cases hlimit : c.limit with
      | none =>
        rw [errors_addError_of_limit_none hlimit, h, hlimit]
        rfl
      | some n =>
        have hle : c.errors.length ≤ n := by
          rw [h]
          exact length_keep_le hlimit ds
        rw [errors_addError_of_limit_some hlimit hle, h, hlimit]
        exact keep_append (some n) ds [e]
    rw [List.foldl_cons, ih hstep, limit_addError, List.append_assoc]
    rfl

/-- Merging is offering and sorting. -/
theorem errors_merge {c : Collection} {ds : List Diagnostic} (h : c.errors = keep c.limit ds)
    (other : Collection) :
    (c.merge other).errors = (keep c.limit (ds ++ other.errors)).mergeSort precedes := by
  show (other.errors.foldl addError c).errors.mergeSort precedes = _
  rw [errors_offer other.errors h]

theorem limit_merge (c other : Collection) : (c.merge other).limit = c.limit :=
  limit_offer other.errors c

end Collection

end Diagnostic

/-! ## Texts -/

open Diagnostic (precedes)
open Diagnostic.Collection (keep)

/-- Errors about tokens are cut to their first ones. -/
theorem parseTokens_kept (tokens : List Token) (config : Config) :
    (parseTokens tokens config).errors.errors =
      keep config.maxErrors (parseTokens tokens { config with maxErrors := none }).errors.errors := by
  obtain ⟨depth, allow, limit⟩ := config
  cases limit with
  | none => rfl
  | some n =>
    have hcapped := (Grammar.twin_capping depth n allow).parseTokens tokens (fun _ h => h) trivial
      ⟨rfl, rfl, List.take_nil.symm⟩
    exact hcapped.2.errors

/-- The program does not depend on how many errors are kept. -/
theorem parseTokens_program_unlimited (tokens : List Token) (config : Config) :
    (parseTokens tokens config).program =
      (parseTokens tokens { config with maxErrors := none }).program := by
  obtain ⟨depth, allow, limit⟩ := config
  cases limit with
  | none => rfl
  | some n =>
    have hcapped := (Grammar.twin_capping depth n allow).parseTokens tokens (fun _ h => h) trivial
      ⟨rfl, rfl, List.take_nil.symm⟩
    exact hcapped.1

/-- The errors about a text in the order they are recorded, with no limit on them. -/
def recordedErrors (source : String) (config : Config) : List Diagnostic :=
  (Token.scan source).2 ++
    (parseTokens (Token.scan source).1 { config with maxErrors := none }).errors.errors

/-- Of the errors recorded the first ones are kept, and put in the order of their places. -/
theorem parse_kept (source : String) (config : Config) :
    (parse source config).errors.errors =
      (keep config.maxErrors (recordedErrors source config)).mergeSort precedes := by
  let lexical := (Token.scan source).2
  let first := (Diagnostic.Collection.empty config.maxErrors).merge { errors := lexical }
  have hlimit : first.limit = config.maxErrors := Diagnostic.Collection.limit_merge _ _
  have hempty : (Diagnostic.Collection.empty config.maxErrors).errors = keep config.maxErrors [] := by
    cases config.maxErrors with
    | none => rfl
    | some n => exact List.take_nil.symm
  have hfirst : first.errors = (keep config.maxErrors lexical).mergeSort precedes :=
    Diagnostic.Collection.errors_merge hempty { errors := lexical }
  have hkept : first.errors =
      keep first.limit ((keep config.maxErrors lexical).mergeSort precedes) := by
    rw [hlimit, hfirst, Diagnostic.Collection.keep_mergeSort]
  rw [parse_errors, Diagnostic.Collection.errors_merge hkept, hlimit, parseTokens_kept]
  exact Diagnostic.Collection.mergeSort_keep_append _ _ _

/-- If a limit lets anything be reported and nothing was reported, nothing was recorded. -/
theorem recordedErrors_eq_nil {source : String} {config : Config} (hlimit : config.maxErrors ≠ some 0)
    (h : (parse source config).errors.errors = []) : recordedErrors source config = [] := by
  have hkeep : keep config.maxErrors (recordedErrors source config) = [] := by
    have hlength := congrArg List.length (parse_kept source config)
    rw [h, List.length_nil, List.length_mergeSort] at hlength
    exact List.length_eq_zero_iff.1 hlength.symm
  cases hmax : config.maxErrors with
  | none => rwa [hmax] at hkeep
  | some n =>
    rw [hmax] at hkeep hlimit
    rcases List.take_eq_nil_iff.1 hkeep with rfl | hnil
    · exact absurd rfl hlimit
    · exact hnil

/-- There are no warnings about a text. -/
theorem parse_warnings (source : String) (config : Config) :
    (parse source config).errors.warnings = [] := by
  have hhalves : ∀ t ∈ Grammar.closeTokens (Token.scan source).1,
      Grammar.AllowsHalves .anywhere t := fun _ _ _ => ⟨trivial, trivial⟩
  have halike := parseTokens_alike config (.tokens fun _ _ => trivial) hhalves
  rw [parse_errors, Diagnostic.Collection.warnings_merge, halike.2.2.2,
    Diagnostic.Collection.warnings_merge]
  rfl

/-- All errors, if there is no limit. -/
theorem parse_unlimited (source : String) (config : Config) :
    (parse source { config with maxErrors := none }).errors.errors =
      (recordedErrors source config).mergeSort precedes :=
  parse_kept source { config with maxErrors := none }

/-- The errors under a limit. -/
theorem parse_cut (source : String) (config : Config) (n : Nat) :
    (parse source { config with maxErrors := some n }).errors.errors =
      ((recordedErrors source config).take n).mergeSort precedes :=
  parse_kept source { config with maxErrors := some n }

/-- **A limit keeps the errors that are recorded first**, those about characters before those about
tokens, and puts them in the order of their places.  They are the first ones of all errors in that order
just if no error that was dropped belongs before one that was kept. -/
theorem parse_limited (source : String) (config : Config) (n : Nat) :
    let all := recordedErrors source config
    let unlimited := (parse source { config with maxErrors := none }).errors
    let limited := (parse source { config with maxErrors := some n }).errors
    unlimited.errors = all.mergeSort precedes ∧
      limited.errors = (all.take n).mergeSort precedes ∧
      unlimited.warnings = [] ∧ limited.warnings = [] ∧
      (limited.errors = unlimited.errors.take n ↔
        ∀ d ∈ all.take n, ∀ e ∈ all.drop n, d.sortKey ≤ e.sortKey) := by
  intro all unlimited limited
  have hunlimited : unlimited.errors = all.mergeSort precedes := parse_unlimited source config
  have hlimited : limited.errors = (all.take n).mergeSort precedes := parse_cut source config n
  refine ⟨hunlimited, hlimited, parse_warnings _ _, parse_warnings _ _, ?_⟩
  rw [hunlimited, hlimited]
  exact Diagnostic.mergeSort_take all n

/-- The one error that is kept is about the last character, though an operand is missing before it. -/
theorem parse_limited_later :
    (parse "x = ; $" { maxErrors := some 1 }).errors.errors.map Diagnostic.kind = [.invalidCharacter] ∧
      (parse "x = ; $" { maxErrors := some 1 }).errors.errors ≠
        (parse "x = ; $" { maxErrors := none }).errors.errors.take 1 := by
  constructor
  · decide +kernel
  · intro h
    have hunlimited := parse_unlimited "x = ; $" {}
    have hlimited := parse_cut "x = ; $" {} 1
    -- the errors are recorded in the other order
    have hinOrder := (Diagnostic.mergeSort_take (recordedErrors "x = ; $" {}) 1).1 (by
      rw [← hunlimited, ← hlimited]
      exact h)
    revert hinOrder
    decide +kernel

end FluxFront
