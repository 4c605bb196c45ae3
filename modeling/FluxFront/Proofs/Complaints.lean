import FluxFront.Proofs.Readings

/-!
# Which token a complaint is about

The complaints about a text come in one list.  Their places tell which of them were made while a token
was read.

* **Program**: a gap and the reading behind it complain about their own characters.
* **Specification**: a diagnostic is about a token if it starts at a character of the token
  (`Diagnostic.StartsIn`).
* **Crux**: a reading complains about its lexeme only (`startsIn_reading`), and gaps and lexemes do not
  overlap.  So the complaints of one reading are the ones about its token
  (`exists_reading_of_mem_scan`).
-/

namespace FluxFront

/-! ## Diagnostics at characters of a span -/

theorem Location.offset_lt_next (a : Location) (c : Char) : a.offset < (a.next c).offset := by
  have hpos := c.utf8Size_pos
  unfold Location.next
  split <;> dsimp only <;> omega

theorem Location.offset_lt_after {a : Location} {text : List Char} (h : text ≠ []) :
    a.offset < (a.after text).offset := by
  obtain ⟨c, text, rfl⟩ := List.exists_cons_of_ne_nil h
  exact Nat.lt_of_lt_of_le (offset_lt_next a c) (le_after _ text).2

/-- The diagnostic starts at a character of the span. -/
def Diagnostic.StartsIn (d : Diagnostic) (span : Span) : Prop :=
  ∃ s, d.span = some s ∧ span.start.offset ≤ s.start.offset ∧ s.start.offset < span.stop.offset

namespace Diagnostic.StartsIn

variable {d : Diagnostic} {a b a' b' : Location}

theorem widen (h : d.StartsIn ⟨a, b⟩) (ha : a' ≤ a) (hb : b ≤ b') : d.StartsIn ⟨a', b'⟩ := by
  obtain ⟨s, hs, hstart, hstop⟩ := h
  exact ⟨s, hs, Nat.le_trans ha.2 hstart, Nat.lt_of_lt_of_le hstop hb.2⟩

/-- A diagnostic does not start in front of a place and behind it. -/
theorem not_behind (h : d.StartsIn ⟨a, b⟩) (hb : b.offset ≤ a'.offset) : ¬ d.StartsIn ⟨a', b'⟩ := by
  rintro ⟨s', hs', hstart, -⟩
  obtain ⟨s, hs, -, hstop⟩ := h
  obtain rfl : s = s' := Option.some.inj (hs.symm.trans hs')
  exact absurd hstop (Nat.not_lt.2 (Nat.le_trans hb hstart))

/-- A diagnostic about the whole of some characters starts at the first of them. -/
theorem of_span {here : Location} {text : List Char} (h : text ≠ [])
    (hspan : d.span = some ⟨here, here.after text⟩) : d.StartsIn ⟨here, here.after text⟩ :=
  ⟨_, hspan, Nat.le_refl _, Location.offset_lt_after h⟩

end Diagnostic.StartsIn

namespace Token

/-! ## Complaints about gaps -/

/-- A complaint about a gap starts at a character of the gap, or at the mark of the comment that the gap
starts in. -/
theorem startsIn_skipGap (mode : GapMode) (here : Location) (afterAsm : Bool) (text : List Char)
    {start : Location} (hstart : start ≤ here)
    (hopen : ∀ opened, mode = .blockComment opened → start ≤ opened ∧ opened.offset < here.offset) :
    ∀ d ∈ (skipGap mode here afterAsm text).errors,
      d.StartsIn ⟨start, (skipGap mode here afterAsm text).here⟩ := by
  have past : ∀ {a : Location} (c : Char), start ≤ a → start ≤ a.next c :=
    fun c h => Location.le_trans h (Location.le_next _ c)
  have later : ∀ {a b : Location} (c : Char), a.offset < b.offset → a.offset < (b.next c).offset :=
    fun c h => Nat.lt_of_lt_of_le h (Location.le_next _ c).2
  have unopened {mode : GapMode} {a : Location} (hmode : mode = .blank ∨ mode = .lineComment)
      (opened : Location) (h : mode = .blockComment opened) :
      start ≤ opened ∧ opened.offset < a.offset := by
    subst h
    rcases hmode with hmode | hmode <;> cases hmode
  fun_induction skipGap mode here afterAsm text with
  | case1 opened here afterAsm =>
    refine List.forall_mem_singleton.2 ⟨_, rfl, ?_, ?_⟩
    · exact (hopen opened rfl).1.2
    · exact (hopen opened rfl).2
  | case2 => exact List.forall_mem_nil _
  | case3 here afterAsm c rest ih =>
    refine ih (past c hstart) (unopened ?_)
    split
    · exact .inl rfl
    · exact .inr rfl
  | case4 opened here afterAsm rest ih => exact ih (past _ (past _ hstart)) (unopened (.inl rfl))
  | case5 opened here afterAsm c rest _ ih =>
    refine ih (past c hstart) ?_
    rintro _ ⟨rfl⟩
    exact ⟨(hopen opened rfl).1, later c (hopen opened rfl).2⟩
  | case6 here afterAsm rest ih => exact ih (past _ (past _ hstart)) (unopened (.inr rfl))
  | case7 here afterAsm rest ih =>
    refine ih (past _ (past _ hstart)) ?_
    rintro _ ⟨rfl⟩
    exact ⟨hstart, later _ (Location.offset_lt_next _ _)⟩
  | case8 here afterAsm c rest _ _ _ ih => exact ih (past c hstart) (unopened (.inl rfl))
  | case9 => exact List.forall_mem_nil _
  | case10 here afterAsm c rest _ _ _ _ g error =>
    rename_i ih
    refine List.forall_mem_cons.2 ⟨⟨_, rfl, hstart.2, ?_⟩, ih (past c hstart) (unopened (.inl rfl))⟩
    exact Nat.lt_of_lt_of_le (Location.offset_lt_next here c) (le_skipGap _ _ _ _).2

/-! ## Complaints about readings -/

theorem startsIn_escapeErrors (here : Location) (c : Char) :
    ∀ d ∈ escapeErrors here c, d.StartsIn ⟨here, here.next c⟩ := by
  unfold escapeErrors
  split
  · exact List.forall_mem_nil _
  · exact List.forall_mem_singleton.2 (.of_span (List.cons_ne_nil c []) rfl)

theorem startsIn_readQuoted (quote : Char) (here : Location) (text : List Char) :
    ∀ d ∈ (readQuoted quote here text).errors,
      d.StartsIn ⟨here, here.after (readQuoted quote here text).taken⟩ := by
  fun_induction readQuoted quote here text with
  | case1 | case2 | case3 => exact List.forall_mem_nil _
  | case4 here e behind _ q =>
    rename_i ih
    refine List.forall_mem_append.2 ⟨fun d hd => ?_, fun d hd => ?_⟩
    · exact (startsIn_escapeErrors _ e d hd).widen (Location.le_next _ _) (Location.le_after _ _)
    · refine (ih d hd).widen ?_ (Location.le_refl _)
      exact Location.le_trans (Location.le_next _ _) (Location.le_next _ _)
  | case5 here c text _ _ q =>
    rename_i ih
    exact fun d hd => (ih d hd).widen (Location.le_next _ _) (Location.le_refl _)

theorem startsIn_readString {kind : Kind} {decode : List Char → Value} {opening : List Char}
    (hne : opening ≠ []) (here : Location) (text : List Char) :
    ∀ d ∈ (readString kind decode opening here text).errors,
      d.StartsIn ((readString kind decode opening here text).span here) := by
  refine List.forall_mem_append.2 ⟨fun d hd => ?_, ?_⟩
  · refine (startsIn_readQuoted '"' _ text d hd).widen (Location.le_after here opening) ?_
    rw [← Location.after_append]
    exact Location.le_refl _
  · split
    · exact List.forall_mem_nil _
    · exact List.forall_mem_singleton.2 (.of_span (List.append_ne_nil_of_left_ne_nil hne _) rfl)

theorem startsIn_readChar (here : Location) (text : List Char) :
    ∀ d ∈ (readChar here text).errors, d.StartsIn ((readChar here text).span here) := by
  have body : ∀ d ∈ (readCharBody (here.next '\'') text).2.2.2,
      d.StartsIn ⟨here, (here.next '\'').after (readCharBody (here.next '\'') text).1⟩ := by
    fun_cases readCharBody (here.next '\'') text with
    | case3 e behind =>
      intro d hd
      refine (startsIn_escapeErrors _ e d hd).widen ?_ (Location.le_refl _)
      exact Location.le_trans (Location.le_next _ _) (Location.le_next _ _)
    | case1 | case2 | case4 | case5 => exact List.forall_mem_nil _
  unfold readChar
  split
  rename_i taken behind value errors hbody
  rw [hbody] at body
  split
  rename_i close rest _
  have hbody' : ∀ d ∈ errors, d.StartsIn ⟨here, here.after ('\'' :: (taken ++ close))⟩ := by
    intro d hd
    refine (body d hd).widen (Location.le_refl _) ?_
    rw [Location.after_cons, Location.after_append]
    exact Location.le_after _ _
  dsimp only
  split
  · exact hbody'
  · refine List.forall_mem_append.2 ⟨hbody', List.forall_mem_singleton.2 ?_⟩
    exact .of_span (List.cons_ne_nil _ _) rfl

theorem startsIn_numberReading {kind : Kind} {here : Location} {lexeme rest : List Char} {value : Value}
    {valid : Bool} (hne : lexeme ≠ []) :
    ∀ d ∈ (numberReading kind here lexeme rest value valid).errors,
      d.StartsIn ((numberReading kind here lexeme rest value valid).span here) := by
  cases valid with
  | true => exact List.forall_mem_nil _
  | false => exact List.forall_mem_singleton.2 (.of_span hne rfl)

theorem startsIn_readNumber {here : Location} {text : List Char}
    (hne : (readNumber here text).lexeme ≠ []) :
    ∀ d ∈ (readNumber here text).errors, d.StartsIn ((readNumber here text).span here) := by
  have decimal : (readDecimal here text).lexeme ≠ [] →
      ∀ d ∈ (readDecimal here text).errors, d.StartsIn ((readDecimal here text).span here) := by
    unfold readDecimal
    dsimp only
    split <;> exact startsIn_numberReading
  revert hne
  fun_cases readNumber here text with
  | case1 mark behind radix =>
    unfold readRadix
    dsimp only
    split <;> exact startsIn_numberReading
  | case2 | case3 => exact decimal

theorem reading_lexeme_ne_nil (raw : Bool) (here : Location) (c : Char) (text : List Char) :
    (reading raw here c text).lexeme ≠ [] := by
  unfold reading
  split
  · exact (filled_readRaw here text).lexeme
  · exact (filled_readToken here c text).lexeme

/-- What is complained about in a reading starts at a character of its lexeme. -/
theorem startsIn_reading (raw : Bool) (here : Location) (c : Char) (text : List Char) :
    ∀ d ∈ (reading raw here c text).errors, d.StartsIn ((reading raw here c text).span here) := by
  unfold reading
  split
  · have hne := (filled_readRaw here text).lexeme
    revert hne
    unfold readRaw
    dsimp only
    split
    · exact fun hne => List.forall_mem_singleton.2 (.of_span hne rfl)
    · exact fun _ => List.forall_mem_nil _
  · unfold readToken
    split
    · exact List.forall_mem_nil _
    · split
      · exact startsIn_readString (List.cons_ne_nil _ _) here text
      · split
        · exact startsIn_readChar here text
        · split
          · rename_i hc
            exact startsIn_readNumber (filled_readNumber here hc text).lexeme
          · split
            · exact startsIn_readString (List.cons_ne_nil _ _) here _
            · exact List.forall_mem_nil _

/-! ## Complaints about a text -/

namespace Scanner.Emits

variable {s : Scanner} {tokens : List Token} {errors : List Diagnostic}

/-- A gap is in front of what is read behind it. -/
theorem startsIn_gap {here : Location} {rest : List Char} {raw : Bool}
    (hgap : s.gap = ⟨rest, here, raw, errors⟩) :
    s.here ≤ here ∧ ∀ d ∈ errors, d.StartsIn ⟨s.here, here⟩ := by
  have hle := le_skipGap .blank s.here s.afterAsm s.rest
  have hstarts := startsIn_skipGap .blank s.here s.afterAsm s.rest (Location.le_refl _) nofun
  rw [show skipGap .blank s.here s.afterAsm s.rest = _ from hgap] at hle hstarts
  exact ⟨hle, hstarts⟩

/-- Nothing that a scanner gives, and nothing that it complains about, lies behind it. -/
theorem ahead (h : s.Emits tokens errors) :
    (∀ t ∈ tokens, s.here.offset ≤ t.span.start.offset) ∧
      ∀ d ∈ errors, ∃ stop, d.StartsIn ⟨s.here, stop⟩ := by
  induction h with
  | done hgap =>
    obtain ⟨hle, hstarts⟩ := startsIn_gap hgap
    exact ⟨List.forall_mem_singleton.2 hle.2, fun d hd => ⟨_, hstarts d hd⟩⟩
  | @token s c text here raw _ _ _ hgap _ ih =>
    obtain ⟨hle, hstarts⟩ := startsIn_gap hgap
    have hbehind : s.here ≤ here.after (reading raw here c text).lexeme :=
      Location.le_trans hle (Location.le_after _ _)
    refine ⟨List.forall_mem_cons.2 ⟨hle.2, fun t ht => Nat.le_trans hbehind.2 (ih.1 t ht)⟩, ?_⟩
    rw [List.forall_mem_append, List.forall_mem_append]
    refine ⟨⟨fun d hd => ⟨_, hstarts d hd⟩, fun d hd => ?_⟩, fun d hd => ?_⟩
    · exact ⟨_, (startsIn_reading raw here c text d hd).widen hle (Location.le_refl _)⟩
    · obtain ⟨stop, hstop⟩ := ih.2 d hd
      exact ⟨stop, hstop.widen hbehind (Location.le_refl _)⟩

/-- The complaints about a token are those of its reading. -/
theorem exists_reading_errors (h : s.Emits tokens errors) : ∀ t ∈ tokens,
    (∃ stop, t = endAt stop) ∨ ∃ raw here c text before after,
      t = (reading raw here c text).token here ∧
      errors = before ++ (reading raw here c text).errors ++ after ∧
      ∀ d ∈ before ++ after, ¬ d.StartsIn t.span := by
  induction h with
  | done => exact List.forall_mem_singleton.2 (.inl ⟨_, rfl⟩)
  | @token s c text here raw errors more tokens hgap hmore ih =>
    obtain ⟨-, hstarts⟩ := startsIn_gap hgap
    refine List.forall_mem_cons.2 ⟨.inr ⟨raw, here, c, text, errors, more, rfl, rfl, ?_⟩, ?_⟩
    · rw [List.forall_mem_append]
      refine ⟨fun d hd => (hstarts d hd).not_behind (Nat.le_refl _), fun d hd hd' => ?_⟩
      obtain ⟨stop, hstop⟩ := hmore.ahead.2 d hd
      exact hd'.not_behind (Nat.le_refl _) hstop
    · intro t ht
      refine (ih t ht).imp_right ?_
      rintro ⟨raw', here', c', text', before, after, hread, rfl, hother⟩
      refine ⟨raw', here', c', text', errors ++ (reading raw here c text).errors ++ before, after,
        hread, by simp, ?_⟩
      have hahead : here.offset ≤ t.span.start.offset :=
        Nat.le_trans (Location.le_after here _).2 (hmore.ahead.1 t ht)
      simp only [List.forall_mem_append] at hother ⊢
      refine ⟨⟨⟨fun d hd => (hstarts d hd).not_behind hahead, fun d hd => ?_⟩, hother.1⟩, hother.2⟩
      exact (startsIn_reading raw here c text d hd).not_behind (hmore.ahead.1 t ht)

end Scanner.Emits

/-- A token of a text that is not its end comes of a reading.  What is said about the whole token is said
in that reading, and where nothing is said about a character of the token, the reading says nothing. -/
theorem exists_reading_of_mem_scan {source : String} {t : Token} (ht : t ∈ (scan source).1)
    (hkind : t.kind ≠ .eof) : ∃ raw here c text, t = (reading raw here c text).token here ∧
      (scan source).2.filter (·.span = some t.span) =
        (reading raw here c text).errors.filter (·.span = some t.span) ∧
      ((∀ d ∈ (scan source).2, ¬ d.StartsIn t.span) → (reading raw here c text).errors = []) := by
  rcases (emits_scan source).exists_reading_errors t ht with ⟨stop, rfl⟩ |
    ⟨raw, here, c, text, before, after, rfl, herrors, hother⟩
  · exact absurd rfl hkind
  refine ⟨raw, here, c, text, rfl, ?_, fun hquiet => List.eq_nil_iff_forall_not_mem.2 fun d hd => ?_⟩
  · have hne := reading_lexeme_ne_nil raw here c text
    have hnone : ∀ ds : List Diagnostic, (∀ d ∈ ds, d ∈ before ++ after) →
        ds.filter (·.span = some ((reading raw here c text).token here).span) = [] := fun ds hds =>
      List.filter_eq_nil_iff.2 fun d hd hspan =>
        hother d (hds d hd) (.of_span hne (of_decide_eq_true hspan))
    rw [herrors, List.filter_append, List.filter_append,
      hnone before fun _ => List.mem_append_left _, hnone after fun _ => List.mem_append_right _,
      List.nil_append, List.append_nil]
  · refine hquiet d ?_ (startsIn_reading raw here c text d hd)
    rw [herrors]
    exact List.mem_append_left _ (List.mem_append_right _ hd)

end Token

end FluxFront
