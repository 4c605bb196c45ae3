import Mathlib.Data.List.Basic
import FluxFront.Query
import FluxFront.Proofs.Editing

/-!
# What the checks compare

Identities and spans are checked by visitors with a memory.  Here the memory is gone: what they find
is read off the list of nodes that a walk gives.

* **Specification**: the collector finds the first identity of the walk that stands in it before
  (`Program.duplicateId?_eq`), the checker the first node of the walk that is outside of the node it
  was reached from (`Program.spanViolation?_eq`).
* **Crux**: the checker leaves its stack as it found it, and once it has found a violation it goes on
  without another one.  So what it finds at a node and below is put behind what it knew
  (`SpanChecker.visit_nodes`).
-/

namespace FluxFront

variable {σ : Type}

/-! ## Visitors that do nothing on the way back -/

/-- A visitor that does nothing when it leaves a node takes the nodes in the order of the walk. -/
theorem Visitor.visit_eq_foldl {v : Visitor σ} (h : ∀ n s, v.leave n s = s) (n : Node) (s : σ) :
    v.visit n s = (v.descent.walk n).foldl (fun s m => v.enter m s) s := by
  rw [visit_eq, h, Descent.walk_eq, List.foldl_cons, List.foldl_flatMap]
  refine List.foldl_rel (r := Eq) rfl ?_
  intro c hc s _ hs
  rw [← hs]
  exact visit_eq_foldl h c s
termination_by sizeOf n
decreasing_by exact v.descent.smaller hc

theorem Program.visit_eq_foldl {v : Visitor σ} (h : ∀ n s, v.leave n s = s) (p : Program) (s : σ) :
    p.visit v s = (p.walk v.descent).foldl (fun s m => v.enter m s) s := by
  unfold visit walk
  rw [List.foldl_flatMap]
  congr 1
  funext s d
  exact Visitor.visit_eq_foldl h (.declaration d) s

/-! ## Identities -/

/-- The first member of a list that stands in it before, or is among those already seen. -/
def firstRepeated (seen : List NodeId) : List NodeId → Option NodeId
  | [] => none
  | id :: more => if seen.contains id then some id else firstRepeated (id :: seen) more

section Repeated

variable {seen ids : List NodeId} {id : NodeId}

theorem firstRepeated_cons_of_mem (h : id ∈ seen) : firstRepeated seen (id :: ids) = some id := by
  simp [firstRepeated, h]

theorem firstRepeated_cons_of_not_mem (h : id ∉ seen) :
    firstRepeated seen (id :: ids) = firstRepeated (id :: seen) ids := by
  simp [firstRepeated, h]

/-- Nothing is found if all members differ from one another and from those already seen. -/
theorem firstRepeated_eq_none :
    firstRepeated seen ids = none ↔ ids.Nodup ∧ ∀ id ∈ ids, id ∉ seen := by
  induction ids generalizing seen with
  | nil => simp [firstRepeated]
  | cons id more ih =>
    by_cases hseen : id ∈ seen
    · simp [firstRepeated_cons_of_mem hseen, hseen]
    · rw [firstRepeated_cons_of_not_mem hseen, ih, List.nodup_cons, List.forall_mem_cons]
      simp only [List.mem_cons, not_or]
      constructor
      · rintro ⟨hnodup, hnew⟩
        exact ⟨⟨fun hid => (hnew id hid).1 rfl, hnodup⟩, hseen, fun x hx => (hnew x hx).2⟩
      · rintro ⟨⟨hid, hnodup⟩, -, hnew⟩
        exact ⟨hnodup, fun x hx => ⟨fun hxid => hid (hxid ▸ hx), hnew x hx⟩⟩

/-- What is found was seen already or stands in the list before, and nothing is found in front of it. -/
theorem firstRepeated_eq_some :
    firstRepeated seen ids = some id ↔ ∃ front back, ids = front ++ id :: back ∧
      (id ∈ front ∨ id ∈ seen) ∧ firstRepeated seen front = none := by
  induction ids generalizing seen with
  | nil => simp [firstRepeated]
  | cons first more ih =>
    by_cases hseen : first ∈ seen
    · rw [firstRepeated_cons_of_mem hseen, Option.some_inj]
      constructor
      · rintro rfl
        exact ⟨[], more, rfl, .inr hseen, rfl⟩
      · rintro ⟨_ | ⟨x, front⟩, back, heq, -, hnone⟩
        · exact (List.cons.inj heq).1
        · obtain ⟨rfl, -⟩ := List.cons.inj heq
          rw [firstRepeated_cons_of_mem hseen] at hnone
          cases hnone
    · rw [firstRepeated_cons_of_not_mem hseen, ih]
      constructor
      · rintro ⟨front, back, rfl, hid, hnone⟩
        refine ⟨first :: front, back, rfl, by grind, ?_⟩
        rw [firstRepeated_cons_of_not_mem hseen, hnone]
      · rintro ⟨_ | ⟨x, front⟩, back, heq, hid, hnone⟩
        · obtain ⟨rfl, -⟩ := List.cons.inj heq
          exact absurd (hid.resolve_left List.not_mem_nil) hseen
        · obtain ⟨rfl, rfl⟩ := List.cons.inj heq
          rw [firstRepeated_cons_of_not_mem hseen] at hnone
          exact ⟨front, back, rfl, by grind, hnone⟩

end Repeated

theorem IdCollector.duplicate_foldl (ids : List NodeId) (c : IdCollector) :
    (ids.foldl record c).duplicate = c.duplicate.or (firstRepeated c.seen ids) := by
  induction ids generalizing c with
  | nil => simp [firstRepeated]
  | cons id more ih =>
    obtain ⟨seen, duplicate⟩ := c
    rw [List.foldl_cons, ih]
    cases duplicate with
    | some first => simp [record]
    | none =>
      by_cases hseen : id ∈ seen <;> simp [record, firstRepeated, hseen]

/-- The collector finds the first identity of the walk that stands in it before. -/
theorem Program.duplicateId?_eq (p : Program) :
    p.duplicateId? = firstRepeated [] (p.nodes.map Node.id) := by
  have hfold : p.visit IdCollector.visitor {} = (p.nodes.map Node.id).foldl IdCollector.record {} := by
    rw [visit_eq_foldl (fun _ _ => rfl), List.foldl_map]
    rfl
  rw [duplicateId?, hfold, IdCollector.duplicate_foldl]
  rfl

/-! ## Spans -/

/-- A walk with parents is the walk, with the parents left out. -/
theorem Descent.map_walkWithParents (parent : Span) (n : Node) :
    (full.walkWithParents parent n).map Prod.snd = full.walk n := by
  induction n using Node.descend generalizing parent with
  | h n ih =>
    rw [walkWithParents_eq, walk_eq, List.map_cons, List.map_flatMap]
    show n :: n.children.flatMap _ = n :: n.children.flatMap _
    exact congrArg (n :: ·) (List.flatMap_congr fun c hc => ih c hc n.span)

/-- The first node of a walk that is outside of the span around it, behind that span. -/
def firstOutside (pairs : List (Span × Node)) : Option (Span × Span) :=
  (pairs.find? fun (parent, n) => !parent.contains n.span).map fun (parent, n) => (parent, n.span)

theorem firstOutside_cons (parent : Span) (n : Node) (pairs : List (Span × Node)) :
    firstOutside ((parent, n) :: pairs) =
      if parent.contains n.span then firstOutside pairs else some (parent, n.span) := by
  unfold firstOutside
  cases h : parent.contains n.span <;> simp [h]

theorem firstOutside_append (xs ys : List (Span × Node)) :
    firstOutside (xs ++ ys) = (firstOutside xs).or (firstOutside ys) := by
  unfold firstOutside
  rw [List.find?_append, Option.map_or]

namespace SpanChecker

theorem enter_eq (parent : Span) (above : List Span) (known : Option (Span × Span)) (span : Span) :
    enter ⟨parent :: above, known⟩ span =
      ⟨span :: parent :: above,
        known.or (if parent.contains span then none else some (parent, span))⟩ := by
  cases known <;> rfl

/-- The checker leaves its stack as it was, and puts what it finds behind what it knew. -/
theorem visit_nodes (ns : List Node) (parent : Span) (above : List Span)
    (known : Option (Span × Span)) :
    ns.foldl (fun s n => visitor.visit n s) ⟨parent :: above, known⟩ =
      ⟨parent :: above, known.or (firstOutside (ns.flatMap (Descent.full.walkWithParents parent)))⟩ := by
  induction ns using Node.descendAll generalizing parent above known with
  | nil => simp [firstOutside]
  | cons n more ihn ihs =>
    rw [← List.singleton_append (l := more), List.foldl_append, ihn, ihs, List.flatMap_append,
      firstOutside_append, Option.or_assoc]
  | node n ih =>
    rw [List.foldl_cons, List.foldl_nil, Visitor.visit_eq, List.flatMap_singleton,
      Descent.walkWithParents_eq, firstOutside_cons]
    show leave (n.children.foldl _ (enter _ n.span)) = _
    rw [enter_eq, ih]
    -- a node that is outside comes before whatever is found below it
    cases parent.contains n.span <;> cases known <;> rfl

end SpanChecker

/-- The nodes of a program, each together with the span around it. -/
def Program.nodesWithParents (p : Program) : List (Span × Node) :=
  p.declarations.flatMap fun d => Descent.full.walkWithParents p.span (.declaration d)

/-- The checker finds the first node of the walk that is outside of the span around it. -/
theorem Program.spanViolation?_eq (p : Program) :
    p.spanViolation? = firstOutside p.nodesWithParents := by
  have hvisit := SpanChecker.visit_nodes (p.declarations.map .declaration) p.span [] none
  rw [List.foldl_map, List.flatMap_map, Option.none_or] at hvisit
  exact congrArg SpanChecker.violation hvisit

end FluxFront
