import FluxFront.Proofs.Editing

/-!
# Passes that change nothing, and passes that cover what another pass did

What a pass does to a tree is what it does at the nodes and no more.

* **Nothing else**: a pass that leaves every node as it is leaves every tree as it is
  (`Program.edit_left`).
* **Covering**: a pass that gives every node a label of its own making wipes out whatever labels the tree
  had before.  `e.Covers k` says of a pass `e` that it does the same at a node whether or not the pass `k`
  was there before; then it does the same to every tree (`Program.edit_covered`).
* **Instances**: forgetting identities covers numbering, so numbering changes nothing else in a tree.
-/

namespace FluxFront

variable {σ : Type}

/-! ## Running a pass -/

section Running

variable {α β : Type}

theorem StateM.bind_apply (x : StateM σ α) (f : α → StateM σ β) (s : σ) :
    (x >>= f) s = f (x s).1 (x s).2 := rfl

theorem StateM.map_apply (f : α → β) (x : StateM σ α) (s : σ) :
    (f <$> x) s = (f (x s).1, (x s).2) := rfl

theorem StateM.pure_apply (a : α) (s : σ) : (pure a : StateM σ α) s = (a, s) := rfl

end Running

/-! ## Passes that change nothing -/

/-- The pass gives back everything it meets as it was, whatever it does with its state. -/
structure Edit.Leaves (k : Edit σ) : Prop where
  keeps : k.KeepsShape
  label : ∀ sort l s, (k.label sort l s).1 = l
  place : ∀ span, k.place span = span
  identifier : ∀ name, k.identifier name = name
  typeName : ∀ name, k.typeName name = name

section Leaves

set_option linter.unusedSectionVars false

variable {k : Edit σ} (h : k.Leaves)

include h

mutual

theorem Ty.edit_left : ∀ (t : Ty) (s : σ), (t.edit k s).1 = t
  | ⟨form, span, id⟩, s => by
    simp [Ty.edit, StateM.bind_apply, StateM.map_apply, h.keeps.blanks, h.label, Ty.Form.edit_left form]

theorem Ty.Form.edit_left (form : Ty.Form) (s : σ) : (form.edit k s).1 = form := by
  cases form <;>
    simp [Ty.Form.edit, StateM.bind_apply, StateM.map_apply, StateM.pure_apply, h.typeName, Ty.edit_left,
      Ty.editList_left, Expr.editOption_left]

theorem Ty.editList_left : ∀ (ts : List Ty) (s : σ), (Ty.editList k ts s).1 = ts
  | [], s => by simp [Ty.editList, StateM.pure_apply]
  | t :: more, s => by
    simp [Ty.editList, StateM.bind_apply, StateM.map_apply, Ty.edit_left t, Ty.editList_left more]

theorem Ty.editOption_left : ∀ (t : Option Ty) (s : σ), (Ty.editOption k t s).1 = t
  | none, s => by simp [Ty.editOption, StateM.pure_apply]
  | some t, s => by simp [Ty.editOption, StateM.map_apply, Ty.edit_left t]

theorem Expr.editAs_left : ∀ (x : Expr) (s : σ), (x.editAs k none s).1 = x
  | ⟨form, span, id⟩, s => by
    simp [Expr.editAs, StateM.bind_apply, h.keeps.blanks, h.label, Expr.Form.editAs_left form]

/-- What an expression is made of comes back under the label that it is put under. -/
theorem Expr.Form.editAs_left (form : Expr.Form) (label : Label) (s : σ) :
    (form.editAs k label s).1 = ⟨form, label.span, label.id⟩ := by
  cases form <;>
    simp [Expr.Form.editAs, StateM.bind_apply, StateM.map_apply, StateM.pure_apply, h.keeps.ungroups,
      h.identifier, Ty.edit_left, Expr.editAs_left, Expr.editList_left, Entry.editList_left,
      Stmt.editList_left]

theorem Expr.editList_left : ∀ (xs : List Expr) (s : σ), (Expr.editList k xs s).1 = xs
  | [], s => by simp [Expr.editList, StateM.pure_apply]
  | x :: more, s => by
    simp [Expr.editList, StateM.bind_apply, StateM.map_apply, Expr.editAs_left x, Expr.editList_left more]

theorem Expr.editOption_left : ∀ (x : Option Expr) (s : σ), (Expr.editOption k x s).1 = x
  | none, s => by simp [Expr.editOption, StateM.pure_apply]
  | some x, s => by simp [Expr.editOption, StateM.map_apply, Expr.editAs_left x]

theorem Expr.editListOption_left : ∀ (xs : Option (List Expr)) (s : σ),
    (Expr.editListOption k xs s).1 = xs
  | none, s => by simp [Expr.editListOption, StateM.pure_apply]
  | some xs, s => by simp [Expr.editListOption, StateM.map_apply, Expr.editList_left xs]

theorem Entry.editList_left : ∀ (es : List Entry) (s : σ), (Entry.editList k es s).1 = es
  | [], s => by simp [Entry.editList, StateM.pure_apply]
  | ⟨key, value⟩ :: more, s => by
    simp [Entry.editList, StateM.bind_apply, StateM.map_apply, Expr.editAs_left key, Expr.editAs_left value,
      Entry.editList_left more]

theorem Stmt.edit_left : ∀ (x : Stmt) (s : σ), (x.edit k s).1 = x
  | ⟨form, span, id⟩, s => by
    simp [Stmt.edit, StateM.bind_apply, StateM.map_apply, h.label, Stmt.Form.edit_left form]

theorem Stmt.Form.edit_left (form : Stmt.Form) (s : σ) : (form.edit k s).1 = form := by
  cases form <;>
    simp [Stmt.Form.edit, StateM.bind_apply, StateM.map_apply, StateM.pure_apply, Expr.editAs_left,
      Expr.editOption_left, Stmt.edit_left, Stmt.editList_left, Stmt.editOption_left, Block.edit_left,
      Block.editOption_left, Variable.edit_left, Case.editList_left, Handler.editList_left, Decl.edit_left]

theorem Stmt.editList_left : ∀ (xs : List Stmt) (s : σ), (Stmt.editList k xs s).1 = xs
  | [], s => by simp [Stmt.editList, StateM.pure_apply]
  | x :: more, s => by
    simp [Stmt.editList, StateM.bind_apply, StateM.map_apply, Stmt.edit_left x, Stmt.editList_left more]

theorem Stmt.editOption_left : ∀ (x : Option Stmt) (s : σ), (Stmt.editOption k x s).1 = x
  | none, s => by simp [Stmt.editOption, StateM.pure_apply]
  | some x, s => by simp [Stmt.editOption, StateM.map_apply, Stmt.edit_left x]

theorem Block.edit_left : ∀ (b : Block) (s : σ), (b.edit k s).1 = b
  | ⟨statements, span⟩, s => by
    simp [Block.edit, StateM.map_apply, h.place, Stmt.editList_left statements]

theorem Block.editOption_left : ∀ (b : Option Block) (s : σ), (Block.editOption k b s).1 = b
  | none, s => by simp [Block.editOption, StateM.pure_apply]
  | some b, s => by simp [Block.editOption, StateM.map_apply, Block.edit_left b]

theorem Variable.edit_left : ∀ (v : Variable) (s : σ), (v.edit k s).1 = v
  | ⟨type, name, initializer, qualifiers, instantiation⟩, s => by
    simp [Variable.edit, StateM.bind_apply, StateM.map_apply, Ty.edit_left type,
      Expr.editListOption_left instantiation, Expr.editOption_left initializer]

theorem Case.editList_left : ∀ (cs : List Case) (s : σ), (Case.editList k cs s).1 = cs
  | [], s => by simp [Case.editList, StateM.pure_apply]
  | ⟨pattern, body, span⟩ :: more, s => by
    simp [Case.editList, StateM.bind_apply, StateM.map_apply, h.place, Expr.editOption_left pattern,
      Block.edit_left body, Case.editList_left more]

theorem Handler.editList_left : ∀ (hs : List Handler) (s : σ), (Handler.editList k hs s).1 = hs
  | [], s => by simp [Handler.editList, StateM.pure_apply]
  | ⟨exception, binding, body, span⟩ :: more, s => by
    simp [Handler.editList, StateM.bind_apply, StateM.map_apply, h.place, Ty.editOption_left exception,
      Block.edit_left body, Handler.editList_left more]

theorem Decl.edit_left : ∀ (d : Decl) (s : σ), (d.edit k s).1 = d
  | ⟨form, span, id⟩, s => by
    simp [Decl.edit, StateM.bind_apply, StateM.map_apply, h.label, Decl.Form.edit_left form]

theorem Decl.Form.edit_left (form : Decl.Form) (s : σ) : (form.edit k s).1 = form := by
  cases form <;>
    simp [Decl.Form.edit, StateM.bind_apply, StateM.map_apply, StateM.pure_apply, Decl.edit_left,
      Decl.editList_left, Binding.editList_left, Ty.edit_left, Block.edit_left, Block.editOption_left,
      Variable.edit_left, EnumMember.editList_left, Stmt.edit_left]

theorem Decl.editList_left : ∀ (ds : List Decl) (s : σ), (Decl.editList k ds s).1 = ds
  | [], s => by simp [Decl.editList, StateM.pure_apply]
  | d :: more, s => by
    simp [Decl.editList, StateM.bind_apply, StateM.map_apply, Decl.edit_left d, Decl.editList_left more]

theorem Binding.editList_left : ∀ (bs : List Binding) (s : σ), (Binding.editList k bs s).1 = bs
  | [], s => by simp [Binding.editList, StateM.pure_apply]
  | ⟨name, type, span⟩ :: more, s => by
    simp [Binding.editList, StateM.bind_apply, StateM.map_apply, h.place, Ty.edit_left type,
      Binding.editList_left more]

theorem EnumMember.editList_left : ∀ (ms : List EnumMember) (s : σ), (EnumMember.editList k ms s).1 = ms
  | [], s => by simp [EnumMember.editList, StateM.pure_apply]
  | ⟨name, value, span⟩ :: more, s => by
    simp [EnumMember.editList, StateM.bind_apply, StateM.map_apply, h.place, Expr.editOption_left value,
      EnumMember.editList_left more]

end

/-- A pass that changes nothing at the nodes changes nothing: it drops no child and no name. -/
theorem Program.edit_left (p : Program) (s : σ) : (p.edit k s).1 = p := by
  simp [Program.edit, StateM.map_apply, h.place, Decl.editList_left h]

end Leaves

/-! ## Covering -/

/-- Neither pass changes the shape of a tree, and the pass `e` makes the same of everything that it
meets whether or not it went through the pass `k`. -/
structure Edit.Covers (e : Edit Unit) (k : Edit σ) : Prop where
  keeps : e.KeepsShape
  keeps_first : k.KeepsShape
  label : ∀ sort l s u, (e.label sort (k.label sort l s).1 u).1 = (e.label sort l u).1
  place : ∀ span, e.place (k.place span) = e.place span
  identifier : ∀ name, e.identifier (k.identifier name) = e.identifier name
  typeName : ∀ name, e.typeName (k.typeName name) = e.typeName name

section Covers

set_option linter.unusedSectionVars false

variable {e : Edit Unit} {k : Edit σ} (h : e.Covers k) (u : Unit)

include h

mutual

theorem Ty.edit_covered : ∀ (t : Ty) (s : σ), ((t.edit k s).1.edit e u).1 = (t.edit e u).1
  | ⟨form, span, id⟩, s => by
    simp [Ty.edit, StateM.bind_apply, StateM.map_apply, h.keeps.blanks, h.keeps_first.blanks, h.label,
      Ty.Form.edit_covered form]

theorem Ty.Form.edit_covered (form : Ty.Form) (s : σ) :
    ((form.edit k s).1.edit e u).1 = (form.edit e u).1 := by
  cases form <;>
    simp [Ty.Form.edit, StateM.bind_apply, StateM.map_apply, StateM.pure_apply, h.typeName,
      Ty.edit_covered, Ty.editList_covered, Expr.editOption_covered]

theorem Ty.editList_covered : ∀ (ts : List Ty) (s : σ),
    (Ty.editList e (Ty.editList k ts s).1 u).1 = (Ty.editList e ts u).1
  | [], s => by simp [Ty.editList, StateM.pure_apply]
  | t :: more, s => by
    simp [Ty.editList, StateM.bind_apply, StateM.map_apply, Ty.edit_covered t,
      Ty.editList_covered more]

theorem Ty.editOption_covered : ∀ (t : Option Ty) (s : σ),
    (Ty.editOption e (Ty.editOption k t s).1 u).1 = (Ty.editOption e t u).1
  | none, s => by simp [Ty.editOption, StateM.pure_apply]
  | some t, s => by simp [Ty.editOption, StateM.map_apply, Ty.edit_covered t]

theorem Expr.editAs_covered : ∀ (x : Expr) (s : σ),
    ((x.editAs k none s).1.editAs e none u).1 = (x.editAs e none u).1
  | ⟨form, span, id⟩, s => by
    simp [Expr.editAs, StateM.bind_apply, h.keeps.blanks, h.keeps_first.blanks,
      Expr.Form.editAs_covered form, h.label]

theorem Expr.Form.editAs_covered (form : Expr.Form) (l : Label) (s : σ) :
    ((form.editAs k l s).1.editAs e none u).1 = (form.editAs e (e.label .expression l u).1 u).1 := by
  cases form <;>
    simp [Expr.Form.editAs, Expr.editAs, StateM.bind_apply, StateM.map_apply, StateM.pure_apply,
      h.keeps.blanks, h.keeps.ungroups, h.keeps_first.ungroups, h.identifier, Ty.edit_covered,
      Expr.editAs_covered, Expr.editList_covered, Entry.editList_covered, Stmt.editList_covered]

theorem Expr.editList_covered : ∀ (xs : List Expr) (s : σ),
    (Expr.editList e (Expr.editList k xs s).1 u).1 = (Expr.editList e xs u).1
  | [], s => by simp [Expr.editList, StateM.pure_apply]
  | x :: more, s => by
    simp [Expr.editList, StateM.bind_apply, StateM.map_apply, Expr.editAs_covered x,
      Expr.editList_covered more]

theorem Expr.editOption_covered : ∀ (x : Option Expr) (s : σ),
    (Expr.editOption e (Expr.editOption k x s).1 u).1 = (Expr.editOption e x u).1
  | none, s => by simp [Expr.editOption, StateM.pure_apply]
  | some x, s => by simp [Expr.editOption, StateM.map_apply, Expr.editAs_covered x]

theorem Expr.editListOption_covered : ∀ (xs : Option (List Expr)) (s : σ),
    (Expr.editListOption e (Expr.editListOption k xs s).1 u).1 = (Expr.editListOption e xs u).1
  | none, s => by simp [Expr.editListOption, StateM.pure_apply]
  | some xs, s => by simp [Expr.editListOption, StateM.map_apply, Expr.editList_covered xs]

theorem Entry.editList_covered : ∀ (es : List Entry) (s : σ),
    (Entry.editList e (Entry.editList k es s).1 u).1 = (Entry.editList e es u).1
  | [], s => by simp [Entry.editList, StateM.pure_apply]
  | ⟨key, value⟩ :: more, s => by
    simp [Entry.editList, StateM.bind_apply, StateM.map_apply, Expr.editAs_covered key,
      Expr.editAs_covered value, Entry.editList_covered more]

theorem Stmt.edit_covered : ∀ (x : Stmt) (s : σ), ((x.edit k s).1.edit e u).1 = (x.edit e u).1
  | ⟨form, span, id⟩, s => by
    simp [Stmt.edit, StateM.bind_apply, StateM.map_apply, h.label, Stmt.Form.edit_covered form]

theorem Stmt.Form.edit_covered (form : Stmt.Form) (s : σ) :
    ((form.edit k s).1.edit e u).1 = (form.edit e u).1 := by
  cases form <;>
    simp [Stmt.Form.edit, StateM.bind_apply, StateM.map_apply, StateM.pure_apply,
      Expr.editAs_covered, Expr.editOption_covered, Stmt.edit_covered, Stmt.editList_covered,
      Stmt.editOption_covered, Block.edit_covered, Block.editOption_covered, Variable.edit_covered,
      Case.editList_covered, Handler.editList_covered, Decl.edit_covered]

theorem Stmt.editList_covered : ∀ (xs : List Stmt) (s : σ),
    (Stmt.editList e (Stmt.editList k xs s).1 u).1 = (Stmt.editList e xs u).1
  | [], s => by simp [Stmt.editList, StateM.pure_apply]
  | x :: more, s => by
    simp [Stmt.editList, StateM.bind_apply, StateM.map_apply, Stmt.edit_covered x,
      Stmt.editList_covered more]

theorem Stmt.editOption_covered : ∀ (x : Option Stmt) (s : σ),
    (Stmt.editOption e (Stmt.editOption k x s).1 u).1 = (Stmt.editOption e x u).1
  | none, s => by simp [Stmt.editOption, StateM.pure_apply]
  | some x, s => by simp [Stmt.editOption, StateM.map_apply, Stmt.edit_covered x]

theorem Block.edit_covered : ∀ (b : Block) (s : σ), ((b.edit k s).1.edit e u).1 = (b.edit e u).1
  | ⟨statements, span⟩, s => by
    simp [Block.edit, StateM.map_apply, h.place, Stmt.editList_covered statements]

theorem Block.editOption_covered : ∀ (b : Option Block) (s : σ),
    (Block.editOption e (Block.editOption k b s).1 u).1 = (Block.editOption e b u).1
  | none, s => by simp [Block.editOption, StateM.pure_apply]
  | some b, s => by simp [Block.editOption, StateM.map_apply, Block.edit_covered b]

theorem Variable.edit_covered : ∀ (v : Variable) (s : σ),
    ((v.edit k s).1.edit e u).1 = (v.edit e u).1
  | ⟨type, name, initializer, qualifiers, instantiation⟩, s => by
    simp [Variable.edit, StateM.bind_apply, StateM.map_apply, Ty.edit_covered type,
      Expr.editListOption_covered instantiation, Expr.editOption_covered initializer]

theorem Case.editList_covered : ∀ (cs : List Case) (s : σ),
    (Case.editList e (Case.editList k cs s).1 u).1 = (Case.editList e cs u).1
  | [], s => by simp [Case.editList, StateM.pure_apply]
  | ⟨pattern, body, span⟩ :: more, s => by
    simp [Case.editList, StateM.bind_apply, StateM.map_apply, h.place,
      Expr.editOption_covered pattern, Block.edit_covered body, Case.editList_covered more]

theorem Handler.editList_covered : ∀ (hs : List Handler) (s : σ),
    (Handler.editList e (Handler.editList k hs s).1 u).1 = (Handler.editList e hs u).1
  | [], s => by simp [Handler.editList, StateM.pure_apply]
  | ⟨exception, binding, body, span⟩ :: more, s => by
    simp [Handler.editList, StateM.bind_apply, StateM.map_apply, h.place,
      Ty.editOption_covered exception, Block.edit_covered body, Handler.editList_covered more]

theorem Decl.edit_covered : ∀ (d : Decl) (s : σ), ((d.edit k s).1.edit e u).1 = (d.edit e u).1
  | ⟨form, span, id⟩, s => by
    simp [Decl.edit, StateM.bind_apply, StateM.map_apply, h.label, Decl.Form.edit_covered form]

theorem Decl.Form.edit_covered (form : Decl.Form) (s : σ) :
    ((form.edit k s).1.edit e u).1 = (form.edit e u).1 := by
  cases form <;>
    simp [Decl.Form.edit, StateM.bind_apply, StateM.map_apply, StateM.pure_apply,
      Decl.edit_covered, Decl.editList_covered, Binding.editList_covered, Ty.edit_covered,
      Block.edit_covered, Block.editOption_covered, Variable.edit_covered,
      EnumMember.editList_covered, Stmt.edit_covered]

theorem Decl.editList_covered : ∀ (ds : List Decl) (s : σ),
    (Decl.editList e (Decl.editList k ds s).1 u).1 = (Decl.editList e ds u).1
  | [], s => by simp [Decl.editList, StateM.pure_apply]
  | d :: more, s => by
    simp [Decl.editList, StateM.bind_apply, StateM.map_apply, Decl.edit_covered d,
      Decl.editList_covered more]

theorem Binding.editList_covered : ∀ (bs : List Binding) (s : σ),
    (Binding.editList e (Binding.editList k bs s).1 u).1 = (Binding.editList e bs u).1
  | [], s => by simp [Binding.editList, StateM.pure_apply]
  | ⟨name, type, span⟩ :: more, s => by
    simp [Binding.editList, StateM.bind_apply, StateM.map_apply, h.place, Ty.edit_covered type,
      Binding.editList_covered more]

theorem EnumMember.editList_covered : ∀ (ms : List EnumMember) (s : σ),
    (EnumMember.editList e (EnumMember.editList k ms s).1 u).1 = (EnumMember.editList e ms u).1
  | [], s => by simp [EnumMember.editList, StateM.pure_apply]
  | ⟨name, value, span⟩ :: more, s => by
    simp [EnumMember.editList, StateM.bind_apply, StateM.map_apply, h.place,
      Expr.editOption_covered value, EnumMember.editList_covered more]

end

/-- A pass that covers another one does the same to a program before and after it. -/
theorem Program.edit_covered (p : Program) (s : σ) :
    ((p.edit k s).1.edit e u).1 = (p.edit e u).1 := by
  simp [Program.edit, StateM.map_apply, h.place, Decl.editList_covered h]

end Covers

end FluxFront
