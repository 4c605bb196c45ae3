import FluxFront.Grammar.Program
import FluxFront.Proofs.Covering
import FluxFront.Proofs.WellFormedness

/-!
# Visitors and passes meet the same nodes

A tree can be gone through by a visitor, which looks at it, and by a pass, which gives back an edited
tree.  The two are written separately, over all four sorts of nodes.

* **Specification**: both meet the same nodes in the same order, and a pass that changes no node gives
  back the tree as it was.  So a pass that numbers the nodes consecutively changes nothing else, no number
  is given twice, and a visitor reads the numbers in order (`Program.traversals_agree`).
* **Crux**: a pass that keeps the shape of the tree does at the nodes of the walk, one after the other,
  what it does at a node, and the walk of the edited tree shows the results in this order
  (`Node.walk_edit`).
-/

namespace FluxFront

variable {σ : Type}

/-! ## A pass along the walk -/

/-- What a pass makes of the label of a node, beside the sort of the node. -/
def Edit.meet (k : Edit σ) (n : Node) : StateM σ (NodeSort × Label) :=
  (n.sort, ·) <$> k.label n.sort n.label

theorem Edit.meet_apply (k : Edit σ) (n : Node) (s : σ) :
    k.meet n s = ((n.sort, (k.label n.sort n.label s).1), (k.label n.sort n.label s).2) := rfl

/-- The sort and the label of a node. -/
def Node.mark (n : Node) : NodeSort × Label := (n.sort, n.label)

/-- Editing nodes does at the nodes of the walk, in this order, what the pass does at a node. -/
theorem Node.walk_edit {k : Edit σ} (hk : k.KeepsShape) (ns : List Node) (s : σ) :
    (ns.flatMap Descent.full.walk).mapM k.meet s =
      (((ns.mapM (edit k) s).1.flatMap Descent.full.walk).map mark, (ns.mapM (edit k) s).2) := by
  induction ns using Node.descendAll generalizing s with
  | nil => rfl
  | cons n more ihn ihs =>
    have hsplit : (n :: more).mapM (edit k) s =
        (([n].mapM (edit k) s).1 ++ (more.mapM (edit k) ([n].mapM (edit k) s).2).1,
          (more.mapM (edit k) ([n].mapM (edit k) s).2).2) := by
      rw [← List.singleton_append (l := more), List.mapM_append]
      rfl
    rw [hsplit, List.flatMap_append, List.map_append, ← List.singleton_append (l := more),
      List.flatMap_append, List.mapM_append, StateM.bind_apply, ihn, StateM.bind_apply, ihs]
    rfl
  | node n ih =>
    obtain ⟨hsort, hlabel, hchildren⟩ := n.edited hk s
    have hbelow := ih (k.label n.sort n.label s).2
    rw [hchildren] at hbelow
    have hsingle : [n].mapM (edit k) s = ([(n.edit k s).1], (n.edit k s).2) := by
      rw [List.mapM_cons]
      rfl
    have hmark : (n.edit k s).1.mark = (n.sort, (k.label n.sort n.label s).1) := by
      rw [mark, hsort, hlabel]
    have hwalk : ∀ m, Descent.full.walk m = m :: m.children.flatMap Descent.full.walk :=
      Descent.walk_eq _
    rw [hsingle, List.flatMap_singleton, List.flatMap_singleton, hwalk n, hwalk (n.edit k s).1,
      List.map_cons, hmark, List.mapM_cons, StateM.bind_apply, StateM.bind_apply, Edit.meet_apply,
      hbelow]
    rfl

namespace Program

variable {k : Edit σ}

/-- The declarations of a program are edited one after the other. -/
theorem mapM_edit (k : Edit σ) (p : Program) (s : σ) :
    (p.declarations.map Node.declaration).mapM (Node.edit k) s =
      ((p.edit k s).1.declarations.map Node.declaration, (p.edit k s).2) := by
  rw [List.mapM_map, Node.mapM_declarations]
  rfl

/-- A pass over a program does at its nodes, in the order of the walk, what it does at a node. -/
theorem nodes_edit (hk : k.KeepsShape) (p : Program) (s : σ) :
    p.nodes.mapM k.meet s = ((p.edit k s).1.nodes.map Node.mark, (p.edit k s).2) := by
  have hwalk := Node.walk_edit hk (p.declarations.map Node.declaration) s
  rw [mapM_edit, List.flatMap_map, List.flatMap_map] at hwalk
  exact hwalk

end Program

/-! ## Watching -/

/-- A pass that tells a state about every node, and changes no node. -/
def Edit.watch (f : NodeSort → Label → σ → σ) : Edit σ where
  label sort label := do
    modify (f sort label)
    return label

/-- A visitor that tells a state about every node. -/
def Visitor.watch (f : NodeSort → Label → σ → σ) : Visitor σ where
  enter n := f n.sort n.label

theorem Edit.watch_keepsShape (f : NodeSort → Label → σ → σ) : (Edit.watch f).KeepsShape :=
  ⟨fun _ => rfl, rfl⟩

theorem Edit.mapM_watch (f : NodeSort → Label → σ → σ) (ns : List Node) (s : σ) :
    (ns.mapM (Edit.watch f).meet s).2 = ns.foldl (fun s n => f n.sort n.label s) s := by
  induction ns generalizing s with
  | nil => rfl
  | cons n more ih =>
    rw [List.mapM_cons, List.foldl_cons, ← ih]
    rfl

theorem Edit.watch_leaves (f : NodeSort → Label → σ → σ) : (Edit.watch f).Leaves where
  keeps := Edit.watch_keepsShape f
  label _ _ _ := rfl
  place _ := rfl
  identifier _ := rfl
  typeName _ := rfl

/-- A pass and a visitor that are told of every node are told the same, and the pass gives back the tree
as it was. -/
theorem Program.edit_watch (p : Program) (f : NodeSort → Label → σ → σ) (s : σ) :
    p.edit (.watch f) s = (p, p.visit (.watch f) s) := by
  refine Prod.ext (edit_left (Edit.watch_leaves f) p s) ?_
  calc (p.edit (.watch f) s).2
      = (p.nodes.mapM (Edit.watch f).meet s).2 := by rw [nodes_edit (Edit.watch_keepsShape f)]
    _ = p.nodes.foldl (fun s n => f n.sort n.label s) s := Edit.mapM_watch f p.nodes s
    _ = p.visit (.watch f) s := (visit_eq_foldl (v := .watch f) (fun _ _ => rfl) p s).symm

/-- Takes down the sort and the identity of what is met. -/
def takeDown (sort : NodeSort) (label : Label) (met : List (NodeSort × NodeId)) :
    List (NodeSort × NodeId) :=
  met ++ [(sort, label.id)]

/-- A visitor that takes everything down has the nodes of the walk. -/
theorem Program.visit_takeDown (p : Program) :
    p.visit (.watch takeDown) [] = p.nodes.map fun n => (n.sort, n.id) := by
  have hfold : ∀ (ns : List Node) (met : List (NodeSort × NodeId)),
      ns.foldl (fun met n => takeDown n.sort n.label met) met =
        met ++ ns.map fun n => (n.sort, n.id) := by
    intro ns
    induction ns with
    | nil => simp
    | cons n more ih =>
      intro met
      rw [List.foldl_cons, ih, takeDown, List.append_assoc]
      rfl
  rw [visit_eq_foldl (v := .watch takeDown) (fun _ _ => rfl)]
  exact hfold p.nodes []

/-! ## Numbering -/

theorem Edit.renumber_keepsShape : Edit.renumber.KeepsShape := ⟨fun _ => rfl, rfl⟩

/-- Forgets identities and nothing else. -/
def Edit.unnumbered : Edit Unit where
  label _ label := return { label with id := default }

/-- A program without the identities of its nodes. -/
def Program.unnumbered (p : Program) : Program := ((p.edit .unnumbered).run ()).1

/-- Forgetting identities forgets how the nodes were numbered. -/
theorem Edit.unnumbered_covers_renumber : Edit.unnumbered.Covers Edit.renumber where
  keeps := ⟨fun _ => rfl, rfl⟩
  keeps_first := Edit.renumber_keepsShape
  label _ _ _ _ := rfl
  place _ := rfl
  identifier _ := rfl
  typeName _ := rfl

/-- As long as there are words for them, the nodes get consecutive numbers. -/
theorem Edit.mapM_renumber (ns : List Node) {first : Nat} (h : first + ns.length ≤ 0x100000000) :
    (ns.mapM Edit.renumber.meet (first % 0x100000000)).1.map (·.2.id) =
      List.range' first ns.length := by
  induction ns generalizing first with
  | nil => rfl
  | cons n more ih =>
    rw [List.length_cons] at h
    have hfirst : first % 0x100000000 = first := Nat.mod_eq_of_lt (by omega)
    have hnext : (first % 0x100000000 + 1) % 0x100000000 = (first + 1) % 0x100000000 := by omega
    have hmore := @ih (first + 1) (by omega)
    rw [← hnext] at hmore
    rw [List.mapM_cons, List.length_cons, List.range'_succ]
    show first % 0x100000000 :: ((more.mapM Edit.renumber.meet _).1.map (·.2.id)) = _
    rw [hfirst]
    rw [hfirst] at hmore
    exact congrArg (first :: ·) hmore

namespace Program

/-- The nodes of a numbered program have consecutive numbers. -/
theorem ids_renumber (p : Program) {first : NodeId} (h : first + p.countNodes ≤ 0x100000000) :
    (p.renumber first).nodes.map Node.id = List.range' first p.countNodes := by
  have hnodes := nodes_edit Edit.renumber_keepsShape p (first % 0x100000000)
  have hnumbers := Edit.mapM_renumber p.nodes h
  rw [hnodes, List.map_map] at hnumbers
  exact hnumbers

/-- Numbering the nodes changes nothing but identities. -/
theorem unnumbered_renumber (p : Program) (first : NodeId) :
    (p.renumber first).unnumbered = p.unnumbered :=
  edit_covered Edit.unnumbered_covers_renumber () p _

/-- **Visitors and passes agree.**  They meet the same nodes in the same order, and a pass that only takes
down what it meets gives back the tree as it was.  So a pass that numbers the nodes consecutively, with
words enough for all of them, leaves everything but the identities as it was, no number is given twice, and
a visitor reads the numbers in order. -/
theorem traversals_agree (p : Program) :
    p.edit (.watch takeDown) [] = (p, p.visit (.watch takeDown) []) ∧
    ∀ first : NodeId, first + p.countNodes ≤ 0x100000000 →
      (p.renumber first).unnumbered = p.unnumbered ∧
      (p.renumber first).countNodes = p.countNodes ∧
      (p.renumber first).duplicateId? = none ∧
      ((p.renumber first).visit (.watch takeDown) []).map Prod.snd =
        List.range' first p.countNodes := by
  refine ⟨edit_watch p takeDown [], ?_⟩
  intro first h
  have hids := p.ids_renumber h
  have hcount : (p.renumber first).countNodes = p.countNodes := by
    have hlength := congrArg List.length hids
    rwa [List.length_map, List.length_range'] at hlength
  refine ⟨p.unnumbered_renumber first, hcount, ?_, ?_⟩
  · rw [duplicateId?_eq_none, hids]
    exact List.nodup_range'
  · rw [visit_takeDown, List.map_map]
    exact hids

/-- The last numbers there are words for. -/
theorem traversals_agree_last :
    let p := (parse "for (T[n] a = f(x), b; a < b; ++a) if (a) assert(c); else return g(a)[1];" {}).program
    4294967268 + p.countNodes ≤ 0x100000000 ∧
      (p.renumber 4294967268).duplicateId? = none ∧
      ((p.renumber 4294967268).visit (.watch takeDown) []).map Prod.snd =
        List.range' 4294967268 p.countNodes := by
  intro p
  have hcount : 4294967268 + p.countNodes ≤ 0x100000000 := by decide +kernel
  exact ⟨hcount, ((traversals_agree p).2 4294967268 hcount).2.2⟩

end Program

end FluxFront
