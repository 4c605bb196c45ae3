import Mathlib.Data.List.Basic
import FluxFront.Grammar.Program
import FluxFront.Proofs.Editing
import FluxFront.Query

/-!
# How often a declared name is listed

A template has the name of what it wraps, so the walk that lists names passes a template together with
the declaration it wraps.  It does not look whether that declaration is a template again.

* **Program**: `Program.declaredNames` over `Program.namingDescent`.
* **Finding**: under two templates a name is listed twice (`Program.declaredNames_twice`).
* **Specification**: each declaration that is not reached through a statement has its name listed once,
  and once more for every two templates right around it.  So every name is listed once just if no
  declaration with a name is under two templates (`Program.declaredNames_copies`).
* **Crux**: three walks are compared, one that enters every template, one that passes templates in
  pairs, and one that passes all templates around a declaration at once.  All three go on below the
  declaration inside.
-/

namespace FluxFront

/-! ## Templates around declarations -/

namespace Decl

/-- How many templates are right around what a declaration declares. -/
def templates : Decl → Nat
  | ⟨.template _ inner, _, _⟩ => inner.templates + 1
  | _ => 0

/-- The declaration inside all templates. -/
def core : Decl → Decl
  | ⟨.template _ inner, _, _⟩ => inner.core
  | d => d

/-- The names a declaration is listed under, if it is met at the outermost template around it. -/
def copies (d : Decl) : List String :=
  match d.name? with
  | none => []
  | some name => List.replicate (d.templates / 2 + 1) name

/-- The name that a declaration introduces itself; a template introduces none. -/
def introduced? : Decl → Option String
  | ⟨.template _ _, _, _⟩ => none
  | d => d.name?

theorem sizeOf_core_le (d : Decl) : sizeOf d.core ≤ sizeOf d := by
  fun_induction core d with
  | case1 params inner span id ih =>
    simp
    omega
  | case2 d => exact Nat.le_refl _

/-- The declaration is no template. -/
def Unwrapped (d : Decl) : Prop := ∀ params inner, d.form ≠ .template params inner

theorem template_or_unwrapped (d : Decl) :
    (∃ params inner span id, d = ⟨.template params inner, span, id⟩) ∨ d.Unwrapped := by
  obtain ⟨form, span, id⟩ := d
  cases form
  case template params inner => exact .inl ⟨params, inner, span, id, rfl⟩
  all_goals exact .inr nofun

namespace Unwrapped

variable {d : Decl} (h : d.Unwrapped)

include h

theorem templates_eq : d.templates = 0 := by
  rw [templates]
  exact fun params inner span id heq => h params inner (by rw [heq])

theorem core_eq : d.core = d := by
  rw [core]
  exact fun params inner span id heq => h params inner (by rw [heq])

theorem introduced?_eq : d.introduced? = d.name? := by
  rw [introduced?]
  exact fun params inner span id heq => h params inner (by rw [heq])

end Unwrapped

theorem copies_unwrapped {d : Decl} (h : d.Unwrapped) : d.copies = d.name?.toList := by
  rw [copies, h.templates_eq]
  cases d.name? <;> rfl

/-- One template does not list the name once more. -/
theorem copies_template {params : List String} {inner : Decl} {span : Span} {id : NodeId}
    (h : inner.Unwrapped) : copies ⟨.template params inner, span, id⟩ = inner.name?.toList := by
  have hname : name? ⟨.template params inner, span, id⟩ = inner.name? := rfl
  have hcount : templates ⟨.template params inner, span, id⟩ = 1 := by
    show inner.templates + 1 = 1
    rw [h.templates_eq]
  rw [copies, hname, hcount]
  cases inner.name? <;> rfl

/-- Two more templates list the name once more. -/
theorem copies_template_template {params params' : List String} {inner : Decl} {span span' : Span}
    {id id' : NodeId} :
    copies ⟨.template params ⟨.template params' inner, span', id'⟩, span, id⟩ =
      inner.name?.toList ++ inner.copies := by
  have hname : name? ⟨.template params ⟨.template params' inner, span', id'⟩, span, id⟩ = inner.name? :=
    rfl
  have hcount : templates ⟨.template params ⟨.template params' inner, span', id'⟩, span, id⟩ / 2 + 1 =
      inner.templates / 2 + 1 + 1 := by
    show (inner.templates + 1 + 1) / 2 + 1 = _
    omega
  rw [copies, copies, hname, hcount]
  cases inner.name? <;> rfl

theorem copies_of_name {d : Decl} {name : String} (h : d.name? = some name) :
    d.copies = name :: List.replicate (d.templates / 2) name := by
  rw [copies, h]
  rfl

theorem copies_of_none {d : Decl} (h : d.name? = none) : d.copies = [] := by
  rw [copies, h]

theorem length_filterMap_name?_le (ds : List Decl) :
    (ds.filterMap name?).length ≤ (ds.flatMap copies).length := by
  induction ds with
  | nil => exact Nat.le_refl _
  | cons d rest ih =>
    cases hname : d.name? with
    | none =>
      rw [List.filterMap_cons_none hname, List.flatMap_cons, copies_of_none hname]
      exact ih
    | some name =>
      rw [List.filterMap_cons_some hname, List.flatMap_cons, copies_of_name hname,
        List.length_cons, List.cons_append, List.length_cons, List.length_append]
      omega

/-- No name is listed twice for one declaration just if no declaration with a name is under two
templates. -/
theorem flatMap_copies_eq_iff (ds : List Decl) :
    ds.flatMap copies = ds.filterMap name? ↔ ∀ d ∈ ds, d.name?.isSome → d.templates ≤ 1 := by
  induction ds with
  | nil => simp
  | cons d rest ih =>
    rw [List.flatMap_cons, List.forall_mem_cons, ← ih]
    cases hname : d.name? with
    | none =>
      rw [List.filterMap_cons_none hname, copies_of_none hname]
      simp
    | some name =>
      rw [List.filterMap_cons_some hname, copies_of_name hname, List.cons_append, List.cons_inj_right]
      constructor
      · intro heq
        -- what follows is no shorter than the names, so nothing stands in front of it
        have hle := length_filterMap_name?_le rest
        have hlength := congrArg List.length heq
        rw [List.length_append, List.length_replicate] at hlength
        have hzero : d.templates / 2 = 0 := by omega
        rw [hzero] at heq
        exact ⟨fun _ => by omega, heq⟩
      · rintro ⟨hle, heq⟩
        have hzero : d.templates / 2 = 0 := by
          have := hle rfl
          omega
        rw [hzero, heq]
        rfl

end Decl

/-! ## Three walks -/

namespace Node

/-- The declaration that a node is, if it is one. -/
def declaration? : Node → Option Decl
  | declaration d => some d
  | _ => none

end Node

namespace Descent

/-- To all children, except those of statements. -/
def outside : Descent := .entering (·.sort != .statement)

/-- To what is below the declaration inside all templates, and not below statements. -/
def cores : Descent where
  next
    | .declaration d => (Node.declaration d.core).children
    | .statement _ => []
    | n => n.children
  smaller {c n} h := by
    split at h
    · rename_i d
      have hlt := Node.sizeOf_lt_of_mem_children h
      have hle := d.sizeOf_core_le
      simp at hlt ⊢
      omega
    · simp at h
    · exact Node.sizeOf_lt_of_mem_children h

/-- The declarations met on a walk from a node. -/
def declarations (descent : Descent) (n : Node) : List Decl :=
  (descent.walk n).filterMap Node.declaration?

theorem declarations_declaration (descent : Descent) (d : Decl) :
    descent.declarations (.declaration d) =
      d :: (descent.next (.declaration d)).flatMap descent.declarations := by
  have hmet : Node.declaration? (.declaration d) = some d := rfl
  rw [declarations, walk_eq, List.filterMap_cons_some hmet, List.filterMap_flatMap]
  rfl

theorem declarations_of_none (descent : Descent) {n : Node} (h : n.declaration? = none) :
    descent.declarations n = (descent.next n).flatMap descent.declarations := by
  rw [declarations, walk_eq, List.filterMap_cons_none h, List.filterMap_flatMap]
  rfl

end Descent

theorem Program.namingDescent_next_unwrapped {d : Decl} (h : d.Unwrapped) :
    Program.namingDescent.next (.declaration d) = (Node.declaration d).children := by
  unfold Program.namingDescent
  dsimp only
  split
  · rename_i params inner span id heq
    cases heq
    exact absurd rfl (h params inner)
  · rename_i heq
    cases heq
  · rfl

namespace Node

/-- What is introduced outside of statements are the names of the cores. -/
theorem introduced_outside (n : Node) :
    (Descent.outside.declarations n).filterMap Decl.introduced? =
      (Descent.cores.declarations n).filterMap Decl.name? := by
  induction n using descend with
  | h n ih =>
    have hbelow : (n.children.flatMap Descent.outside.declarations).filterMap Decl.introduced? =
        (n.children.flatMap Descent.cores.declarations).filterMap Decl.name? := by
      rw [List.filterMap_flatMap, List.filterMap_flatMap]
      exact List.flatMap_congr ih
    cases n with
    | statement s =>
      rw [Descent.declarations_of_none _ rfl, Descent.declarations_of_none _ rfl]
      rfl
    | expression e | type t =>
      rw [Descent.declarations_of_none _ rfl, Descent.declarations_of_none _ rfl]
      exact hbelow
    | declaration d =>
      rw [Descent.declarations_declaration, Descent.declarations_declaration]
      rcases d.template_or_unwrapped with ⟨params, inner, span, id, rfl⟩ | hd
      · -- the core of the template is that of the declaration in it
        have hinner := ih (.declaration inner) List.mem_cons_self
        rw [Descent.declarations_declaration Descent.cores] at hinner
        have hnext : Descent.outside.next (.declaration ⟨.template params inner, span, id⟩) =
            [declaration inner] := rfl
        rw [hnext, List.flatMap_singleton, List.filterMap_cons_none rfl, hinner]
        rfl
      · have hout : Descent.outside.next (.declaration d) = (declaration d).children := rfl
        have hcore : Descent.cores.next (.declaration d) = (declaration d).children := by
          show (declaration d.core).children = _
          rw [hd.core_eq]
        rw [hout, hcore, List.filterMap_cons, List.filterMap_cons, hd.introduced?_eq, hbelow]

/-- From some nodes on, the names that are listed are those of the cores, each as often as the
templates around it say. -/
def Listed (ns : List Node) : Prop :=
  (ns.flatMap Program.namingDescent.declarations).filterMap Decl.name? =
    (ns.flatMap Descent.cores.declarations).flatMap Decl.copies

theorem listed_of_forall {ns : List Node} (h : ∀ n ∈ ns, Listed [n]) : Listed ns := by
  rw [Listed, List.filterMap_flatMap, List.flatMap_assoc]
  apply List.flatMap_congr
  intro n hn
  have hone := h n hn
  rwa [Listed, List.flatMap_singleton, List.flatMap_singleton] at hone

/-- Where there is no declaration, both walks go on at the same nodes. -/
theorem listed_of_next {n : Node} {ns : List Node} (hnaming : Program.namingDescent.next n = ns)
    (hcores : Descent.cores.next n = ns) (hnone : n.declaration? = none) (hns : Listed ns) :
    Listed [n] := by
  rw [Listed, List.flatMap_singleton, List.flatMap_singleton, Descent.declarations_of_none _ hnone,
    Descent.declarations_of_none _ hnone, hnaming, hcores]
  exact hns

/-- The name of a declaration that is met is listed in front of what is listed where the walk goes on. -/
theorem listed_declaration {d : Decl} {ns : List Node}
    (hnext : Program.namingDescent.next (.declaration d) = ns) (hns : Listed ns)
    (hcopies : d.copies ++ ((declaration d.core).children.flatMap
        Descent.cores.declarations).flatMap Decl.copies =
      d.name?.toList ++ (ns.flatMap Descent.cores.declarations).flatMap Decl.copies) :
    Listed [.declaration d] := by
  have hcons : ∀ ds : List Decl, (d :: ds).filterMap Decl.name? =
      d.name?.toList ++ ds.filterMap Decl.name? := by
    intro ds
    rw [List.filterMap_cons]
    cases d.name? <;> rfl
  rw [Listed, List.flatMap_singleton, List.flatMap_singleton, Descent.declarations_declaration,
    Descent.declarations_declaration, hnext, hcons, hns, List.flatMap_cons]
  exact hcopies.symm

theorem listed (n : Node) : Listed [n] := by
  -- below two templates the walk goes on further down than at a child
  induction hsize : sizeOf n using Nat.strongRecOn generalizing n with
  | ind size ih =>
    subst hsize
    have hchildren : ∀ m : Node, sizeOf m ≤ sizeOf n → Listed m.children := fun m hm =>
      listed_of_forall fun c hc =>
        ih (sizeOf c) (Nat.lt_of_lt_of_le (sizeOf_lt_of_mem_children hc) hm) c rfl
    cases n with
    | statement s => exact listed_of_next rfl rfl rfl rfl
    | expression e => exact listed_of_next rfl rfl rfl (hchildren _ (Nat.le_refl _))
    | type t => exact listed_of_next rfl rfl rfl (hchildren _ (Nat.le_refl _))
    | declaration d =>
      rcases d.template_or_unwrapped with ⟨params, inner, span, id, rfl⟩ | hd
      · rcases inner.template_or_unwrapped with ⟨params', inner', span', id', rfl⟩ | hinner
        · -- the walk goes on at the declaration that the two templates wrap
          have hlt : sizeOf (declaration inner') < sizeOf (declaration
              ⟨.template params ⟨.template params' inner', span', id'⟩, span, id⟩) := by
            simp
            omega
          have hnext : Program.namingDescent.next
              (.declaration ⟨.template params ⟨.template params' inner', span', id'⟩, span, id⟩) =
              [declaration inner'] := rfl
          apply listed_declaration hnext (ih _ hlt _ rfl)
          rw [Decl.copies_template_template, List.flatMap_singleton,
            Descent.declarations_declaration, List.flatMap_cons, List.append_assoc]
          rfl
        · -- the walk goes on below the declaration that the template wraps
          have hle : sizeOf (declaration inner) ≤
              sizeOf (declaration ⟨.template params inner, span, id⟩) := by
            simp
            omega
          have hnext : Program.namingDescent.next (.declaration ⟨.template params inner, span, id⟩) =
              (declaration inner).children := rfl
          have hcore : Decl.core ⟨.template params inner, span, id⟩ = inner := by
            show inner.core = inner
            rw [hinner.core_eq]
          apply listed_declaration hnext (hchildren _ hle)
          rw [Decl.copies_template hinner, hcore]
          rfl
      · apply listed_declaration (Program.namingDescent_next_unwrapped hd)
          (hchildren _ (Nat.le_refl _))
        rw [Decl.copies_unwrapped hd, hd.core_eq]

end Node

/-! ## Declared names -/

namespace Program

/-- The declarations of a program that a walk meets. -/
def met (p : Program) (descent : Descent) : List Decl := (p.walk descent).filterMap Node.declaration?

theorem met_eq (p : Program) (descent : Descent) :
    p.met descent = (p.declarations.map Node.declaration).flatMap descent.declarations := by
  rw [met, walk, List.filterMap_flatMap, List.flatMap_map]
  rfl

theorem declaredNames_eq_met (p : Program) :
    p.declaredNames = (p.met namingDescent).filterMap Decl.name? := by
  rw [met, List.filterMap_filterMap, declaredNames]
  congr
  funext n
  cases n <;> rfl

/-- The names that a program introduces outside of statements, in source order. -/
def introducedNames (p : Program) : List String := (p.met .outside).filterMap Decl.introduced?

/-- The declarations of a program outside of statements, each with the templates around it. -/
def outline (p : Program) : List Decl := p.met .cores

theorem declaredNames_eq (p : Program) : p.declaredNames = p.outline.flatMap Decl.copies := by
  have hlisted : Node.Listed (p.declarations.map Node.declaration) :=
    Node.listed_of_forall fun n _ => n.listed
  rw [declaredNames_eq_met, outline, met_eq, met_eq]
  exact hlisted

theorem introducedNames_eq (p : Program) : p.introducedNames = p.outline.filterMap Decl.name? := by
  rw [introducedNames, outline, met_eq, met_eq, List.filterMap_flatMap, List.filterMap_flatMap,
    funext Node.introduced_outside]

/-- A name is listed once for its declaration, and once more for every two templates right around it.
So all names are listed once just if every declaration with a name is under at most one template. -/
theorem declaredNames_copies (p : Program) :
    p.declaredNames = p.outline.flatMap Decl.copies ∧
      p.introducedNames = p.outline.filterMap Decl.name? ∧
      (p.declaredNames = p.introducedNames ↔
        ∀ d ∈ p.outline, d.name?.isSome → d.templates ≤ 1) := by
  refine ⟨p.declaredNames_eq, p.introducedNames_eq, ?_⟩
  rw [declaredNames_eq, introducedNames_eq]
  exact Decl.flatMap_copies_eq_iff p.outline

/-- A variable under two templates is listed twice. -/
theorem declaredNames_twice :
    (parse "template <T> template <U> int x;" {}).program.declaredNames = ["x", "x"] ∧
      (parse "template <T> template <U> int x;" {}).program.introducedNames = ["x"] := by
  decide +kernel

end Program

end FluxFront
