import FluxFront.Proofs.StmtTexts
import FluxFront.Tree.Shape

/-!
# Skimmed types

While looking ahead a type is skimmed: it is read as always, but the sizes of its arrays are skipped by
counting brackets.  Where the type can be read without an error, that comes to the same.

* **Specification**: skimming reports nothing, stops in front of the same tokens, and gives the same type
  but for its sizes, all of which are placeholders (`skim_type`).
* **Lockstep**: two states are even if the same tokens lie ahead of them.  `Paced p p' f g` says that from
  even states `p'` does as `p` in every run in which `p` reports nothing: both end even, and their results
  are the same when they are seen through `f` and `g`.
* **Crux**: a size that was read as an expression is a nested text in front of a closing bracket, and
  skipping stops at just this bracket (`Even.skippedSize`), since it can tell neither what the tokens of such
  a text mean nor whether a `>>` in it was read as two brackets.
-/

set_option synthInstance.maxSize 1000

namespace FluxFront

/-! ## Types without sizes -/

namespace Ty

mutual

/-- The type with a placeholder for every array size. -/
def hideSizes : Ty → Ty
  | ⟨.pointer pointee q, span, id⟩ => ⟨.pointer pointee.hideSizes q, span, id⟩
  | ⟨.array element size, span, id⟩ =>
    ⟨.array element.hideSizes (size.map fun e => ⟨.placeholder, e.span, e.id⟩), span, id⟩
  | ⟨.function params result, span, id⟩ =>
    ⟨.function (hideSizesEach params) result.hideSizes, span, id⟩
  | ⟨.applied base args, span, id⟩ => ⟨.applied base.hideSizes (hideSizesEach args), span, id⟩
  | t => t

/-- The types with placeholders for all array sizes. -/
def hideSizesEach : List Ty → List Ty
  | [] => []
  | t :: more => t.hideSizes :: hideSizesEach more

end

theorem hideSizesEach_eq (ts : List Ty) : hideSizesEach ts = ts.map hideSizes := by
  induction ts with
  | nil => rfl
  | cons t more ih => rw [hideSizesEach, ih, List.map_cons]

/-- What is left of a type without places, identities and sizes. -/
def outline (t : Ty) : Ty := t.hideSizes.bare

variable (span : Span) (id : NodeId)

theorem outline_pointer (pointee : Ty) (q : Qualifiers) :
    outline ⟨.pointer pointee q, span, id⟩ = ⟨.pointer pointee.outline q, default, default⟩ := rfl

theorem outline_array (element : Ty) (size : Option Expr) :
    outline ⟨.array element size, span, id⟩ =
      ⟨.array element.outline (size.map fun _ => ⟨.placeholder, default, default⟩), default, default⟩ := by
  cases size <;> rfl

theorem outline_function (params : List Ty) (result : Ty) :
    outline ⟨.function params result, span, id⟩ =
      ⟨.function (params.map outline) result.outline, default, default⟩ := by
  rw [outline, hideSizes, bare_function, hideSizesEach_eq, List.map_map]
  rfl

theorem outline_applied (base : Ty) (args : List Ty) :
    outline ⟨.applied base args, span, id⟩ =
      ⟨.applied base.outline (args.map outline), default, default⟩ := by
  rw [outline, hideSizes, bare_applied, hideSizesEach_eq, List.map_map]
  rfl

end Ty

namespace Grammar

open Token (Kind)

/-! ## Skipping a nested text -/

/-- How many groups a skip is in behind a token, unless it stops there. -/
def skipped (depth : Nat) (t : Token) : Option Nat :=
  match t.kind with
  | .eof => none
  | .leftParen | .leftBracket | .leftBrace => some (depth + 1)
  | .rightParen | .rightBracket | .rightBrace =>
    match depth with
    | 0 => none
    | outer + 1 => some outer
  | _ => some depth

theorem skipInGroup_eq (depth : Nat) (s : State) :
    skipInGroup depth s = match skipped depth s.current with
      | some next => (some next, s.advanced)
      | none => (none, s) := by
  have hkind : ∀ {q : Kind → Parser (Option Nat)}, (kind >>= q) s = q s.current.kind s := rfl
  unfold skipInGroup skipped
  rw [hkind]
  generalize s.current.kind = k
  cases k
  case rightParen | rightBracket | rightBrace => cases depth <;> rfl
  all_goals rfl

/-- How many groups a skip is in behind some tokens, if it passes them. -/
def skippedOver (depth : Nat) (ts : List Token) : Option Nat := ts.foldlM skipped depth

theorem skippedOver_append (depth : Nat) (ts us : List Token) :
    skippedOver depth (ts ++ us) = (skippedOver depth ts).bind (skippedOver · us) := List.foldlM_append

theorem skipped_inner {t : Token} (h : isInner t.kind = true) (depth : Nat) :
    skipped depth t = some depth := by
  unfold skipped
  split
  case h_8 => rfl
  all_goals
    rename_i hk
    rw [hk] at h
    exact absurd h (by decide)

/-- A skip is as deep behind a nested text as in front of it. -/
theorem Nested.skippedOver_eq {b : Brackets} {ts : List Token} (h : Nested b ts) (depth : Nat) :
    skippedOver depth ts = some depth := by
  have group : ∀ {o c : Token} {ts : List Token} {depth}, o.kind ∈ openings → c.kind ∈ closings →
      (∀ depth, skippedOver depth ts = some depth) → skippedOver depth (o :: (ts ++ [c])) = some depth := by
    intro o c ts depth ho hc ih
    simp only [openings, List.mem_cons, List.not_mem_nil, or_false] at ho
    simp only [closings, List.mem_cons, List.not_mem_nil, or_false] at hc
    have hopen : skipped depth o = some (depth + 1) := by
      unfold skipped
      rcases ho with ho | ho | ho <;> rw [ho]
    have hclose : skipped (depth + 1) c = some depth := by
      unfold skipped
      rcases hc with hc | hc | hc <;> rw [hc]
    have hall : skippedOver depth (o :: (ts ++ [c])) =
        (skipped depth o).bind fun d => skippedOver d (ts ++ [c]) := rfl
    rw [hall, hopen, Option.bind_some, skippedOver_append, ih, Option.bind_some]
    exact congrArg (· >>= pure) hclose
  induction h generalizing depth with
  | nil => rfl
  | single ht => exact congrArg (· >>= pure) (skipped_inner ht depth)
  | group hoc _ ih => exact group (mem_of_closing? hoc).1 (mem_of_closing? hoc).2 ih
  | counted _ ho hc _ ih => exact group ho hc ih
  | append _ _ iht ihu => rw [skippedOver_append, iht, Option.bind_some, ihu]

/-- A skip cannot tell a `>>` from two `>`. -/
theorem skippedOver_cut {ts us : List Token} (h : Cut ts us) (depth : Nat) :
    skippedOver depth ts = skippedOver depth us := by
  refine congrFun (h.congr (f := fun ts depth => skippedOver depth ts) ?_) depth
  intro before behind t first second ht hfirst hsecond
  have inner : ∀ {u : Token}, u.kind = .shr ∨ u.kind = .greater → ∀ d, skipped d u = some d := by
    rintro u (hu | hu) <;> exact skipped_inner (by rw [hu]; rfl)
  funext depth
  rw [skippedOver_append, skippedOver_append]
  congr 1
  funext d
  show (skipped d t >>= fun d => skippedOver d behind) =
    skipped d first >>= fun d => skipped d second >>= fun d => skippedOver d behind
  rw [inner (.inl ht), inner (.inr hfirst)]
  show skippedOver d behind = skipped d second >>= fun d => skippedOver d behind
  rw [inner (.inr hsecond)]
  rfl

/-! ## Two runs in lockstep -/

/-- The same tokens lie ahead of both states, and their loops may be as long. -/
structure Even (s s' : State) : Prop where
  rest : s'.rest = s.rest
  bound : s'.bound = s.bound

/-- No error was noticed between two states. -/
structure Unnoticed (s s' : State) : Prop where
  errors : s'.errors = s.errors
  failures : s'.failures = s.failures
  panicking : s'.panicking = s.panicking

theorem Unnoticed.trans {s s₁ s₂ : State} (h₁ : Unnoticed s s₁) (h₂ : Unnoticed s₁ s₂) :
    Unnoticed s s₂ where
  errors := h₂.errors.trans h₁.errors
  failures := h₂.failures.trans h₁.failures
  panicking := h₂.panicking.trans h₁.panicking

theorem Even.current {s s' : State} (h : Even s s') : s'.current = s.current := by
  unfold State.current
  rw [h.rest]

theorem Even.advanced {s s' : State} (h : Even s s') :
    Even s.advanced s'.advanced ∧ Unnoticed s' s'.advanced := by
  by_cases hk : s.current.kind = .eof
  · rw [State.advanced_eof hk, State.advanced_eof (by rw [h.current, hk])]
    exact ⟨h, rfl, rfl, rfl⟩
  · obtain ⟨t, rest, hrest, -, hadv⟩ := State.advanced_cons hk
    obtain ⟨t', rest', hrest', -, hadv'⟩ := State.advanced_cons (s := s') (by rwa [h.current])
    rw [hadv, hadv']
    refine ⟨⟨?_, h.bound⟩, rfl, rfl, rfl⟩
    exact (List.cons.inj (hrest'.symm.trans (h.rest.trans hrest))).2

theorem Even.splitShift {s s' : State} (h : Even s s') :
    Even s.splitShift s'.splitShift ∧ Unnoticed s' s'.splitShift := by
  unfold State.splitShift
  rw [h.rest]
  split
  · split
    · exact ⟨⟨rfl, h.bound⟩, rfl, rfl, rfl⟩
    · exact ⟨h, rfl, rfl, rfl⟩
  · exact ⟨h, rfl, rfl, rfl⟩

theorem State.current_of_rest {s : State} {t : Token} {rest : List Token} (h : s.rest = t :: rest) :
    s.current = t := by
  unfold State.current
  rw [h]
  rfl

/-- A skip stops at the bracket that closes its group. -/
theorem skipInGroup_loop {before rest : List Token} {c : Token} (hc : skipped 0 c = none)
    {depth fuel : Nat} (hskip : skippedOver depth before = some 0) {s : State}
    (hrest : s.rest = before ++ c :: rest) (hfuel : before.length < fuel) :
    (iterateUpTo fuel skipInGroup depth s).2.rest = c :: rest ∧
      (iterateUpTo fuel skipInGroup depth s).2.bound = s.bound ∧
      Unnoticed s (iterateUpTo fuel skipInGroup depth s).2 := by
  induction before generalizing depth fuel s with
  | nil =>
    obtain rfl : depth = 0 := Option.some.inj hskip
    obtain ⟨fuel, rfl⟩ := Nat.exists_eq_add_one.2 hfuel
    rw [iterateUpTo_succ, skipInGroup_eq, State.current_of_rest hrest, hc]
    exact ⟨hrest, rfl, rfl, rfl, rfl⟩
  | cons t before ih =>
    obtain ⟨fuel, rfl⟩ := Nat.exists_eq_add_one.2 (Nat.zero_lt_of_lt hfuel)
    have hcurrent : s.current = t := State.current_of_rest hrest
    obtain ⟨next, hnext, hskip⟩ := Option.bind_eq_some_iff.1
      (show (skipped depth t).bind (skippedOver · before) = some 0 from hskip)
    have hk : s.current.kind ≠ .eof := by
      intro hk
      unfold skipped at hnext
      rw [← hcurrent, hk] at hnext
      exact absurd hnext nofun
    obtain ⟨t', rest', hrest', -, hadv⟩ := State.advanced_cons hk
    have hstep : s.advanced.rest = before ++ c :: rest := by
      rw [hadv]
      exact (List.cons.inj (hrest'.symm.trans hrest)).2
    have hbound : s.advanced.bound = s.bound := by rw [hadv]
    have hun : Unnoticed s s.advanced := by
      rw [hadv]
      exact ⟨rfl, rfl, rfl⟩
    rw [iterateUpTo_succ, skipInGroup_eq, hcurrent, hnext]
    obtain ⟨hend, hendBound, hendUn⟩ := ih hskip hstep (Nat.lt_of_succ_lt_succ hfuel)
    exact ⟨hend, hendBound.trans hbound, hun.trans hendUn⟩

/-- Where a nested text was read up to a closing bracket, skipping comes to the same bracket. -/
theorem Even.skippedSize {b : Brackets} {s s' s₁ : State} (he : Even s s') {ts : List Token}
    (hpass : Passes s ts s₁) (hts : Nested b ts) (hk : s₁.current.kind = .rightBracket) :
    Even s₁ (Grammar.skippedSize s').2 ∧ Unnoticed s' (Grammar.skippedSize s').2 := by
  obtain ⟨c, rest, hrest, hc, -⟩ := State.advanced_cons (s := s₁) (by rw [hk]; decide)
  rw [← hc] at hk
  have hstop : skipped 0 c = none := by
    unfold skipped
    rw [hk]
  -- the bracket is no half of a token
  have whole : ∀ {first : Token} {behind : List Token}, s₁.rest = first :: behind →
      first.kind ≠ .greater := by
    intro first behind hfirst hgreater
    rw [← (List.cons.inj (hrest.symm.trans hfirst)).1, hk] at hgreater
    exact absurd hgreater (by decide)
  cases hpass.between with
  | both _ hs₁ _ _ hfirst => exact absurd hfirst (whole hs₁)
  | second _ hs₁ _ hsecond => exact absurd hsecond (whole hs₁)
  | @whole before hbefore hcut =>
    have hskip : skippedOver 0 before = some 0 := by rw [skippedOver_cut hcut, hts.skippedOver_eq]
    have hrest' : s'.rest = before ++ c :: rest := by rw [he.rest, hbefore, hrest]
    have hfuel : before.length < s'.rest.length := by
      rw [hrest', List.length_append, List.length_cons]
      omega
    obtain ⟨hend, hbound, hun⟩ := skipInGroup_loop hstop hskip hrest' hfuel
    refine ⟨⟨?_, ?_⟩, hun.errors, hun.failures, hun.panicking⟩
    · rw [hrest]
      exact hend
    · rw [hpass.moves.since.bound, ← he.bound]
      exact hbound

/-- From even states, wherever the first parser reports nothing, neither does the second, both end even,
and what they give is the same if it is seen through `f` and `g`. -/
def Paced {α β γ : Type} (p : Parser α) (p' : Parser β) (f : α → γ) (g : β → γ) : Prop :=
  ∀ s s', Even s s' → Clean s (p s).2 →
    g (p' s').1 = f (p s).1 ∧ Even (p s).2 (p' s').2 ∧ Unnoticed s' (p' s').2

namespace Paced

variable {α β γ α₁ β₁ γ₁ : Type} {f : α → γ} {g : β → γ} {f₁ : α₁ → γ₁} {g₁ : β₁ → γ₁}

theorem pure {a : α} {b : β} (h : g b = f a) : Paced (Pure.pure a) (Pure.pure b) f g :=
  fun _ _ he _ => ⟨h, he, rfl, rfl, rfl⟩

theorem andThen {p : Parser α} {p' : Parser β} {q : α → Parser α₁} {q' : β → Parser β₁}
    [n : Moving p] [m : ∀ a, Moving (q a)] (h : Paced p p' f g)
    (hnext : ∀ a b, g b = f a → Paced (q a) (q' b) f₁ g₁) : Paced (p >>= q) (p' >>= q') f₁ g₁ := by
  intro s s' he hc
  have h₁ := n.moves s
  have h₂ := (m (p s).1).moves (p s).2
  obtain ⟨hvalue, heven, hun⟩ := h s s' he (hc.first h₁ h₂)
  obtain ⟨hvalue₂, heven₂, hun₂⟩ := hnext _ _ hvalue _ _ heven (hc.second h₁ h₂)
  exact ⟨hvalue₂, heven₂, hun.trans hun₂⟩

theorem pureThen {a : α} {b : β} {q : α → Parser α₁} {q' : β → Parser β₁} (h : Paced (q a) (q' b) f₁ g₁) :
    Paced (Pure.pure a >>= q) (Pure.pure b >>= q') f₁ g₁ := h

theorem ite {c : Prop} [Decidable c] {p q : Parser α} {p' q' : Parser β} (yes : c → Paced p p' f g)
    (no : ¬ c → Paced q q' f g) : Paced (if c then p else q) (if c then p' else q') f g := by
  split
  · exact yes ‹_›
  · exact no ‹_›

/-- Runs that are never clean. -/
theorem broken {p : Parser α} {p' : Parser β} (h : ∀ s, ¬ Clean s (p s).2) : Paced p p' f g :=
  fun s _ _ hc => absurd hc (h s)

/-- Looking at something that is the same in front of the same tokens. -/
theorem view {v : State → α} (hv : ∀ s s', Even s s' → v s' = v s) :
    Paced (fun s => (v s, s) : Parser α) (fun s => (v s, s) : Parser α) id id :=
  fun s s' he _ => ⟨hv s s' he, he, rfl, rfl, rfl⟩

/-- A loop in which every step of the first run has one of the second. -/
theorem iterate {step : α → Parser (Option α)} {step' : β → Parser (Option β)} [m : ∀ a, Moving (step a)]
    (h : ∀ a b, g b = f a → Paced (step a) (step' b) (Option.map f) (Option.map g)) {a : α} {b : β}
    (hab : g b = f a) : Paced (Grammar.iterate step a) (Grammar.iterate step' b) f g := by
  have run : ∀ fuel a b, g b = f a → Paced (iterateUpTo fuel step a) (iterateUpTo fuel step' b) f g := by
    intro fuel
    induction fuel with
    | zero => exact fun _ _ hab => pure hab
    | succ fuel ih =>
      intro a b hab
      refine andThen (m := fun o => ?_) (h a b hab) fun o o' ho => ?_
      · cases o with
        | none => infer_instance
        | some next => exact Twin.iterateUpTo fuel next
      · cases o with
        | none =>
          cases o' with
          | none => exact pure hab
          | some _ => exact absurd ho nofun
        | some next =>
          cases o' with
          | none => exact absurd ho nofun
          | some next' => exact ih next next' (Option.some.inj ho)
  intro s s' he hc
  have hbound : Grammar.iterate step' b s' = iterateUpTo s.bound step' b s' := by
    rw [← he.bound]
    rfl
  rw [hbound]
  exact run s.bound a b hab s s' he hc

theorem many {p : Parser (Option α)} {p' : Parser (Option β)} [n : Moving p]
    (h : Paced p p' (Option.map f) (Option.map g)) :
    Paced (Grammar.many p) (Grammar.many p') (List.map f) (List.map g) := by
  have heq : Grammar.many p = Grammar.iterate (fun as => do return (← p).map fun a => as ++ [a]) [] :=
    funext fun s => (iterate_append p [] s).symm
  have heq' : Grammar.many p' = Grammar.iterate (fun bs => do return (← p').map fun b => bs ++ [b]) [] :=
    funext fun s => (iterate_append p' [] s).symm
  rw [heq, heq']
  refine iterate (fun as bs hab => andThen h fun o o' ho => pure ?_) rfl
  cases o with
  | none =>
    cases o' with
    | none => rfl
    | some _ => exact absurd ho nofun
  | some a =>
    cases o' with
    | none => exact absurd ho nofun
    | some b =>
      show some ((bs ++ [b]).map g) = some ((as ++ [a]).map f)
      rw [List.map_append, List.map_append, hab, List.map_singleton, List.map_singleton,
        Option.some.inj ho]

end Paced

/-- A parser that does the same in front of the same tokens as long as it reports nothing. -/
class Sighted {α : Type} (p : Parser α) : Prop where
  moving : Moving p
  paced : Paced p p id id

namespace Sighted

variable {α β : Type}

instance (a : α) : Sighted (pure a) := ⟨inferInstance, .pure rfl⟩

instance {p : Parser α} {q : α → Parser β} [hp : Sighted p] [hq : ∀ a, Sighted (q a)] :
    Sighted (p >>= q) where
  moving := hp.moving.andThen fun a => (hq a).moving
  paced := by
    refine .andThen (n := hp.moving) (m := fun a => (hq a).moving) hp.paced ?_
    rintro a _ rfl
    exact (hq _).paced

instance {c : Prop} [Decidable c] {p q : Parser α} [Sighted p] [Sighted q] :
    Sighted (if c then p else q) := by
  split <;> infer_instance

instance {step : α → Parser (Option α)} [h : ∀ a, Sighted (step a)] (a : α) : Sighted (iterate step a) where
  moving := by
    have hmoving : ∀ a, Moving (step a) := fun a => (h a).moving
    infer_instance
  paced := by
    refine .iterate (m := fun a => (h a).moving) ?_ rfl
    rintro a _ rfl
    rw [Option.map_id]
    exact (h _).paced

instance {p : Parser (Option α)} [h : Sighted p] : Sighted (many p) where
  moving := by
    have hmoving := h.moving
    infer_instance
  paced := by
    have hpaced : Paced p p (Option.map id) (Option.map id) := by
      rw [Option.map_id]
      exact h.paced
    have hmany := Paced.many (n := h.moving) hpaced
    rwa [List.map_id_fun] at hmany

instance : Sighted current := ⟨inferInstance, .view fun _ _ he => he.current⟩
instance : Sighted kind := ⟨inferInstance, .view fun _ _ he => congrArg Token.kind he.current⟩
instance : Sighted here := ⟨inferInstance, .view fun _ _ he => congrArg (·.span.start) he.current⟩
instance (n : Nat) : Sighted (kindAt n) := ⟨inferInstance, .view fun s s' he => by
  unfold State.kindAt
  rw [he.rest]⟩

instance (k : Kind) : Sighted (check k) := by
  unfold check
  infer_instance

instance (ks : List Kind) : Sighted (checkAny ks) := by
  unfold checkAny
  infer_instance

instance : Sighted advance := by
  have hmove : Sighted (modify State.advanced : Parser Unit) :=
    ⟨.move .advance fun h => h.change _ State.advanced_aside, fun s s' he _ => ⟨rfl, he.advanced⟩⟩
  unfold advance
  infer_instance

instance (k : Kind) : Sighted (accept k) := by
  unfold accept
  infer_instance

instance (ks : List Kind) : Sighted (acceptAny ks) := by
  unfold acceptAny
  infer_instance

instance (kind : Diagnostic.Kind) (message : String) (span : Span) :
    Sighted (report kind message span) :=
  ⟨inferInstance, .broken fun _ => Clean.not_reported (.refl _)⟩

instance (expected : String) : Sighted (reportUnexpected expected) := by
  unfold reportUnexpected
  infer_instance

instance (k : Kind) (expected : String) : Sighted (consume k expected) := by
  unfold consume
  infer_instance

instance (expected : String) : Sighted (consumeName expected) := by
  unfold consumeName
  infer_instance

instance (expected : String) : Sighted (consumeClosingAngle expected) := by
  have hmove : Sighted (modify State.splitShift : Parser Unit) :=
    ⟨.move .split fun h => h.change _ State.splitShift_aside, fun s s' he _ => ⟨rfl, he.splitShift⟩⟩
  unfold consumeClosingAngle
  infer_instance

instance : Sighted segment? := by
  unfold segment?
  infer_instance

instance (expected : String) : Sighted (qualifiedName expected) := by
  unfold qualifiedName
  infer_instance

instance : Sighted qualifiers := by
  have hround : ∀ q, Sighted (qualifier? q) := fun q => by
    have hnext : ∀ o : Option Kind, Sighted (match o with
        | some .kwConst => pure (some { q with isConst := true })
        | some _ => pure (some { q with isVolatile := true })
        | none => pure none : Parser (Option Qualifiers)) := fun o => by
      split <;> infer_instance
    unfold qualifier?
    infer_instance
  unfold qualifiers
  infer_instance

instance : Sighted dataLayout := by
  have hwidth : Sighted bitWidth := by
    have hvalue : ∀ token : Token, Sighted (match token.literal with
        | some (.int width) => pure width
        | _ => pure 0 : Parser UInt64) := fun token => by
      split <;> infer_instance
    unfold bitWidth
    infer_instance
  unfold dataLayout
  infer_instance

end Sighted

/-! ## Types in lockstep -/

namespace Paced

variable {α β γ α₁ β₁ γ₁ : Type} {f : α → γ} {g : β → γ}

/-- Behind something that is the same for both. -/
theorem sighted {p : Parser α₁} [h : Sighted p] {q : α₁ → Parser α} {q' : α₁ → Parser β}
    [m : ∀ a, Moving (q a)] (hnext : ∀ a, Paced (q a) (q' a) f g) : Paced (p >>= q) (p >>= q') f g :=
  .andThen (n := h.moving) h.paced fun a _ ha => by
    obtain rfl := ha
    exact hnext _

theorem report {kind : Diagnostic.Kind} {message : String} {span : Span} {q : Unit → Parser α}
    {p' : Parser β} [m : ∀ u, Moving (q u)] : Paced (Grammar.report kind message span >>= q) p' f g :=
  .broken fun _ => Clean.not_reported ((m ()).moves _)

theorem nodeAt {build : Span → NodeId → α} {build' : Span → NodeId → β} {span span' : Span}
    (h : ∀ span span' id id', g (build' span' id') = f (build span id)) :
    Paced (Grammar.nodeAt build span) (Grammar.nodeAt build' span') f g :=
  fun _ _ he _ => ⟨h _ _ _ _, ⟨he.rest, he.bound⟩, rfl, rfl, rfl⟩

theorem node {build : Span → NodeId → α} {build' : Span → NodeId → β} {start start' : Location}
    (h : ∀ span span' id id', g (build' span' id') = f (build span id)) :
    Paced (Grammar.node build start) (Grammar.node build' start') f g :=
  fun _ _ he _ => ⟨h _ _ _ _, ⟨he.rest, he.bound⟩, rfl, rfl, rfl⟩

theorem commaSeparated {p : Parser α} {p' : Parser β} [Moving p] (h : Paced p p' f g) :
    Paced (Grammar.commaSeparated p) (Grammar.commaSeparated p') (List.map f) (List.map g) := by
  refine .andThen h fun a b hab => .andThen (.many (f := f) (g := g) ?_) fun as bs habs => .pure ?_
  · refine .sighted fun accepted => .ite (fun _ => ?_) fun _ => .pure rfl
    exact .andThen h fun a b hab => .pure (congrArg some hab)
  · rw [List.map_cons, List.map_cons, hab, habs]

/-- A size and its closing bracket, where the size is read by the first parser and skipped by the
second. -/
theorem size {b : Brackets} {size : Parser Expr} [n : Moving size] (hsize : ReadsSize b size)
    {expected : String} {q : Option Expr → Parser α} {q' : Option Expr → Parser β} [m : ∀ e, Moving (q e)]
    (hnext : ∀ e span id, Paced (q (some e)) (q' (some ⟨.placeholder, span, id⟩)) f g) :
    Paced (some <$> size >>= fun e => consume .rightBracket expected >>= fun _ => q e)
      (some <$> skippedSize >>= fun e => consume .rightBracket expected >>= fun _ => q' e) f g := by
  intro s s' he hc
  have rest : ∀ e, Moving (consume .rightBracket expected >>= fun _ => q (some e)) := inferInstance
  have h₁ := n.moves s
  have h₂ := (rest (size s).1).moves (size s).2
  have hc₂ := hc.second h₁ h₂
  obtain ⟨ts, hpass, hts⟩ := hsize s (hc.first h₁ h₂)
  -- behind the size the first run finds its bracket, or it would have to report its absence
  have hbracket : Runs (consume .rightBracket expected >>= fun _ => q (some (size s).1)) (size s).2
      fun _ _ _ => (size s).2.current.kind = .rightBracket := .consume (by decide) fun hk => .moved fun _ => hk
  obtain ⟨_, _, hk⟩ := hbracket hc₂
  obtain ⟨heven, hun⟩ := he.skippedSize hpass (hts hk) hk
  have hlast : Paced (consume .rightBracket expected >>= fun _ => q (some (size s).1))
      (consume .rightBracket expected >>= fun _ => q' (some (skippedSize s').1)) f g :=
    .sighted fun _ => hnext _ _ _
  obtain ⟨hvalue, heven, hun₂⟩ := hlast _ _ heven hc₂
  exact ⟨hvalue, heven, hun.trans hun₂⟩

end Paced

section Types

variable {type type' : Parser Ty} [Moving type] (h : Paced type type' Ty.outline Ty.bare)
include h

theorem paced_typeList {close : Kind} :
    Paced (typeList type close) (typeList type' close) (List.map Ty.outline) (List.map Ty.bare) :=
  .sighted fun _ => .ite (fun _ => .pure rfl) fun _ => .commaSeparated h

theorem paced_resultType : Paced (resultType type) (resultType type') Ty.outline Ty.bare := by
  have hspan : Paced emptySpan emptySpan (fun _ => ()) fun _ => () :=
    fun _ _ he _ => ⟨rfl, ⟨he.rest, he.bound⟩, rfl, rfl, rfl⟩
  exact .sighted fun _ => .ite (fun _ => h) fun _ => .andThen hspan fun _ _ _ => .nodeAt fun _ _ _ _ => rfl

theorem paced_functionType : Paced (functionType type) (functionType type') Ty.outline Ty.bare := by
  refine .sighted fun start => .sighted fun _ => .sighted fun _ => ?_
  refine .andThen (paced_typeList h) fun params params' hparams => .sighted fun _ => ?_
  refine .andThen (paced_resultType h) fun result result' hresult => .node fun span span' id id' => ?_
  rw [Ty.outline_function, Ty.bare_function, hparams, hresult]

theorem paced_namedType : Paced (namedType type) (namedType type') Ty.outline Ty.bare := by
  refine .sighted fun start => .sighted fun name => ?_
  have hbase : Paced (node (Ty.mk (if name.isSimple then .named name.head else .qualified name)) start)
      (node (Ty.mk (if name.isSimple then .named name.head else .qualified name)) start)
      Ty.outline Ty.bare := by
    refine .node fun _ _ _ _ => ?_
    split <;> rfl
  refine .andThen hbase fun base base' hbase => .sighted fun _ => .ite (fun _ => ?_) fun _ => .pure hbase
  have close : ∀ args args', args'.map Ty.bare = args.map Ty.outline → Paced (do
      consumeClosingAngle "Expected '>' after template arguments"
      node (Ty.mk (.applied base args)) start) (do
      consumeClosingAngle "Expected '>' after template arguments"
      node (Ty.mk (.applied base' args')) start) Ty.outline Ty.bare := fun args args' hargs =>
    .sighted fun _ => .node fun _ _ _ _ => by
      rw [Ty.outline_applied, Ty.bare_applied, hbase, hargs]
  refine .sighted fun _ => .ite (fun _ => close [] [] rfl) fun _ => ?_
  exact .andThen (.commaSeparated h) close

theorem paced_baseType : Paced (baseType type) (baseType type') Ty.outline Ty.bare := by
  have builtin : ∀ name, Paced (builtinType name) (builtinType name) Ty.outline Ty.bare := fun name =>
    .sighted fun _ => .sighted fun _ => .node fun _ _ _ _ => rfl
  refine .sighted (m := fun k => by split <;> infer_instance) fun k => ?_
  split
  case h_1 | h_2 | h_3 | h_4 | h_5 => exact builtin _
  case h_6 | h_7 | h_8 => exact .sighted fun _ => .sighted fun _ => .node fun _ _ _ _ => rfl
  case h_9 => exact paced_functionType h
  case h_10 => exact paced_namedType h
  case h_11 => exact .sighted fun _ => .report

omit [Moving type] h in
theorem paced_pointerTo {t t' : Ty} (ht : t'.bare = t.outline) {start : Location} :
    Paced (pointerTo t start) (pointerTo t' start) Ty.outline Ty.bare :=
  .sighted fun _ => .node fun _ _ _ _ => by rw [Ty.outline_pointer, Ty.bare_pointer, ht]

omit [Moving type] h in
theorem paced_modifiedType {b : Brackets} {size : Parser Expr} [Moving size] (hsize : ReadsSize b size)
    {start : Location} {t t' : Ty} (ht : t'.bare = t.outline) :
    Paced (modifiedType? size start t) (modifiedType? skippedSize start t')
      (Option.map Ty.outline) (Option.map Ty.bare) := by
  refine .sighted (m := fun k => by split <;> infer_instance) fun k => ?_
  split
  case h_1 => exact .sighted fun _ => .andThen (paced_pointerTo ht) fun _ _ h => .pure (congrArg some h)
  case h_2 =>
    have hinner : Paced (node (Ty.mk (.pointer t {})) start) (node (Ty.mk (.pointer t' {})) start)
        Ty.outline Ty.bare := .node fun _ _ _ _ => by rw [Ty.outline_pointer, Ty.bare_pointer, ht]
    refine .sighted fun _ => .andThen hinner fun _ _ hinner => ?_
    exact .andThen (paced_pointerTo hinner) fun _ _ h => .pure (congrArg some h)
  case h_3 =>
    have close : ∀ {size size' : Option Expr},
        size'.map Expr.bare = size.map (fun _ => ⟨.placeholder, default, default⟩) →
        Paced (do return some (← node (Ty.mk (.array t size)) start))
          (do return some (← node (Ty.mk (.array t' size')) start)) (Option.map Ty.outline)
          (Option.map Ty.bare) := by
      intro size size' hsize
      have harray : Paced (node (Ty.mk (.array t size)) start) (node (Ty.mk (.array t' size')) start)
          Ty.outline Ty.bare := .node fun _ _ _ _ => by rw [Ty.outline_array, Ty.bare_array, ht, hsize]
      exact .andThen harray fun _ _ h => .pure (congrArg some h)
    refine .sighted fun _ => .sighted fun _ => .ite (fun _ => ?_) fun _ => ?_
    · exact .pureThen (.sighted fun _ => close rfl)
    · exact .size hsize fun _ _ _ => close rfl
  case h_4 => exact .pure rfl

/-- Skimming keeps pace with reading. -/
theorem paced_typeBody {b : Brackets} {size : Parser Expr} [Moving size] (hsize : ReadsSize b size) :
    Paced (typeBody size type) (typeBody skippedSize type') Ty.outline Ty.bare := by
  refine .sighted fun start => .andThen (paced_baseType h) fun base base' hbase => ?_
  exact .iterate (fun t t' ht => paced_modifiedType hsize ht) hbase

end Types

theorem paced_grammarIn (limit room : Nat) (skimming : Bool) :
    Paced (grammarIn (Level.full limit) skimming room).type (grammarIn (Level.full limit) skimming room).skim
      Ty.outline Ty.bare := by
  induction room with
  | zero =>
    -- without room no run is clean
    have refused : ∀ s, Runs (refuseNode limit (Ty.mk .placeholder)) s fun _ _ _ => False :=
      fun s => .refuseNode
    exact .broken fun s hc => by
      obtain ⟨_, _, hfalse⟩ := refused s hc
      exact hfalse
  | succ room ih =>
    have hcounted : skimming = true → Brackets.counted = .counted := fun _ => rfl
    exact paced_typeBody ih (readsSize_sizeIn hcounted (grammarIn_texts hcounted limit room))

/-- Where a type can be read without an error, skimming it reports nothing, stops in front of the same
tokens, and gives the same type with placeholders for its array sizes.  A run adds no diagnostic if it
reports nothing; in a collection that is full this cannot be told from what is kept, so it is asked whatever
was collected before (`Silent`). -/
theorem skim_type (limit fuel : Nat) {s : State} (hs : s.panicking = false)
    (hsilent : Silent (counted limit fuel).type s) :
    Silent (counted limit fuel).skim s
      ∧ ((counted limit fuel).skim s).2.failures = s.failures
      ∧ ((counted limit fuel).skim s).2.rest = ((counted limit fuel).type s).2.rest
      ∧ ((counted limit fuel).skim s).1.bare = ((counted limit fuel).type s).1.hideSizes.bare := by
  have hcounts := twin_counted limit fuel s
  rw [hcounts.type.silent_congr] at hsilent
  rw [hcounts.skim.silent_congr, hcounts.type.run_eq rfl rfl, hcounts.skim.run_eq rfl rfl]
  generalize min fuel (limit - s.depth) = room at hsilent ⊢
  have hmoving : Moving (grammarIn (Level.full limit) s.skimming room).type := inferInstance
  obtain ⟨hvalue, errors, events, hstate⟩ := hmoving.holding {} s
  have hrun := fun s' he =>
    paced_grammarIn limit room s.skimming (s.holding {}) s' he (hsilent.clean hs)
  obtain ⟨hskim, heven, hun⟩ := hrun s ⟨rfl, rfl⟩
  refine ⟨fun c => (hrun (s.holding c) ⟨rfl, rfl⟩).2.2.errors, hun.failures, ?_, ?_⟩
  · rw [heven.rest, hstate]
  · rw [hskim, hvalue]
    rfl

/-- The state in front of `A<B<C>>[{ (D<E<F>>) g; }]*`. -/
def sizedType : State := .ofTokens (Token.scan "A<B<C>>[\x7b (D<E<F>>) g; \x7d]*").1 none

/-- There, reading the type splits a `>>` in its size, too, and skimming it does not. -/
theorem skim_type_sizedType :
    ((counted 9 10).type sizedType).2.splits.length = 2 ∧ ((counted 9 10).skim sizedType).2.splits.length = 1 ∧
      ((counted 9 10).skim sizedType).2.failures = sizedType.failures ∧
      ((counted 9 10).skim sizedType).2.rest = ((counted 9 10).type sizedType).2.rest ∧
      ((counted 9 10).skim sizedType).1.bare = ((counted 9 10).type sizedType).1.hideSizes.bare := by
  have hsilent : Silent (counted 9 10).type sizedType :=
    (reads_counted_start 9).type.silent_congr.2 <|
      (silent_iff (fun _ => inferInstance) rfl).2 (by decide +kernel)
  obtain ⟨-, hfailures, hrest, htype⟩ := skim_type 9 10 (s := sizedType) rfl hsilent
  exact ⟨by decide +kernel, by decide +kernel, hfailures, hrest, htype⟩

end Grammar

end FluxFront
