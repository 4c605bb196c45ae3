import FluxFront.Token.Scanner

/-!
# Spellings

Kinds and their spellings stand in three tables: the one that messages show, the one that keywords are
looked up in, and the branches that tell operators by their characters.

* **Specification**: a keyword is the one whose symbol the text is (`ofKeyword_eq_find`), and an operator
  is the first one of a table, longest spellings first, that the text starts with
  (`matchOperator_eq_search`).
* **Crux**: only operators with the same first character can stand at one place, and of these there are
  four at most, so each branch is compared with a short table of its own (`search_cons`).
-/

namespace FluxFront.Token

namespace Kind

/-! ## Spellings -/

/-- The characters of a kind that has a spelling. -/
def spelling (k : Kind) : List Char := (k.symbol.getD "").toList

theorem spelling_of_symbol {k : Kind} {spelling : String} (h : k.symbol = some spelling) :
    k.spelling = spelling.toList := by
  rw [Kind.spelling, h]
  rfl

/-! ## Keywords -/

/-- The table of keywords has every keyword at its symbol. -/
theorem keywordTable_eq : keywordTable = keywords.map fun k => (k.symbol.getD "", k) := by
  decide

/-- A look-up in a table of symbols finds the kind with the symbol. -/
theorem lookup_symbols {ks : List Kind} (hks : ∀ k ∈ ks, k.symbol.isSome = true) (text : String) :
    (ks.map fun k => (k.symbol.getD "", k)).lookup text = ks.find? fun k => k.symbol == some text := by
  induction ks with
  | nil => rfl
  | cons k ks ih =>
    obtain ⟨hk, hks⟩ := List.forall_mem_cons.1 hks
    obtain ⟨symbol, hs⟩ := Option.isSome_iff_exists.1 hk
    rw [List.map_cons, List.lookup_cons, List.find?_cons, ih hks, hs]
    by_cases he : text = symbol
    · simp [he]
    · simp [beq_eq_false_iff_ne.2 he, beq_eq_false_iff_ne.2 (Ne.symm he)]

/-- The keyword with a spelling is the one whose symbol it is. -/
theorem ofKeyword_eq_find (text : String) :
    ofKeyword? text = keywords.find? fun k => k.symbol == some text := by
  rw [ofKeyword?, keywordTable_eq]
  exact lookup_symbols (by decide) text

theorem mem_of_ofKeyword {text : String} {k : Kind} (h : ofKeyword? text = some k) : k ∈ keywords :=
  List.mem_of_find?_eq_some (ofKeyword_eq_find text ▸ h)

theorem symbol_of_ofKeyword {text : String} {k : Kind} (h : ofKeyword? text = some k) :
    k.symbol = some text := by
  rw [ofKeyword_eq_find] at h
  have hp := List.find?_some h
  exact beq_iff_eq.1 hp

theorem ofKeyword_of_symbol {text : String} {k : Kind} (hk : k ∈ keywords) (h : k.symbol = some text) :
    (ofKeyword? text).isSome = true := by
  rw [ofKeyword_eq_find, List.find?_isSome]
  exact ⟨k, hk, beq_iff_eq.2 h⟩

theorem isKeyword_iff {k : Kind} : k.isKeyword = true ↔ k ∈ keywords := by
  cases k <;> decide

/-! ## Operators -/

/-- The first of some kinds that a text starts with, its spelling, and the text behind. -/
def search (ks : List Kind) (text : List Char) : Option (Kind × List Char × List Char) :=
  ks.findSome? fun k => (Text.behind? k.spelling text).map fun rest => (k, k.spelling, rest)

theorem search_append (ks ks' : List Kind) (text : List Char) :
    search (ks ++ ks') text = (search ks text).or (search ks' text) := List.findSome?_append

/-- Nothing is found if no spelling is a start of the text. -/
theorem search_eq_none_iff {ks : List Kind} {text : List Char} :
    search ks text = none ↔ ∀ k ∈ ks, ¬ k.spelling <+: text := by
  rw [search, List.findSome?_eq_none_iff]
  refine forall_congr' fun k => forall_congr' fun _ => ?_
  rw [Option.map_eq_none_iff, Text.behind?_eq_none_iff]

/-- Only kinds that start with the first character of a text are found at its front. -/
theorem search_cons {ks : List Kind} (hks : ∀ k ∈ ks, k.spelling ≠ []) (c : Char) (text : List Char) :
    search ks (c :: text) = search (ks.filter (·.spelling.head? == some c)) (c :: text) := by
  induction ks with
  | nil => rfl
  | cons k ks ih =>
    obtain ⟨hk, hks⟩ := List.forall_mem_cons.1 hks
    obtain ⟨d, more, hd⟩ := List.exists_cons_of_ne_nil hk
    rw [← List.singleton_append, search_append, ih hks, List.filter_append, search_append]
    congr 1
    by_cases he : d = c
    · have hkeep : [k].filter (·.spelling.head? == some c) = [k] := by simp [hd, he]
      rw [hkeep]
    · have hdrop : [k].filter (·.spelling.head? == some c) = [] := by simp [hd, he]
      have hno : search [k] (c :: text) = none := by simp [search, hd, Text.behind?, he]
      rw [hdrop, hno]
      rfl

theorem takeChar_pos {α : Type} (p q : Taking α) (taken : List Char) (c : Char) (rest : List Char) :
    (do if ← takeChar c then p else q) (taken, c :: rest) = p (taken ++ [c], rest) := by
  simp [takeChar, bind, StateT.bind]

theorem takeChar_neg {α : Type} (p q : Taking α) (taken : List Char) {c : Char} {text : List Char}
    (h : text.head? ≠ some c) : (do if ← takeChar c then p else q) (taken, text) = q (taken, text) := by
  cases text with
  | nil => simp [takeChar, bind, StateT.bind]
  | cons d rest =>
    have hd : d ≠ c := fun he => h (congrArg some he)
    simp [takeChar, bind, StateT.bind, hd]

/-- Behind some characters of an operator, a branch tells which of some kinds it is.  All of them
start with these characters, and one is spelled with no others. -/
structure Branch (p : Taking (Option Kind)) (taken : List Char) (ks : List Kind) : Prop where
  start : ∀ k ∈ ks, taken <+: k.spelling
  hit : ∃ k ∈ ks, k.spelling = taken
  run : ∀ text, ((p (taken, text)).1.map fun k => (k, (p (taken, text)).2)) = search ks (taken ++ text)

theorem Branch.one {k : Kind} {taken : List Char} (h : k.spelling = taken) :
    Branch (return some k) taken [k] := by
  refine ⟨by simp [h], ⟨k, List.mem_singleton_self k, h⟩, fun text => ?_⟩
  rw [search, List.findSome?_singleton, h, Text.behind?_eq_some_iff.2 rfl]
  rfl

/-- The kinds behind one more character come first. -/
theorem Branch.more {p q : Taking (Option Kind)} {taken : List Char} {c : Char} {ks ks' : List Kind}
    (hp : Branch p (taken ++ [c]) ks) (hq : Branch q taken ks') :
    Branch (do if ← takeChar c then p else q) taken (ks ++ ks') := by
  refine ⟨fun k hk => ?_, ?_, fun text => ?_⟩
  · rcases List.mem_append.1 hk with hk | hk
    · exact (List.prefix_append _ _).trans (hp.start k hk)
    · exact hq.start k hk
  · obtain ⟨k, hk, hs⟩ := hq.hit
    exact ⟨k, List.mem_append_right ks hk, hs⟩
  rw [search_append]
  by_cases hc : text.head? = some c
  · obtain ⟨rest, rfl⟩ := List.head?_eq_some_iff.1 hc
    have hsplit : taken ++ [c] ++ rest = taken ++ c :: rest := by simp
    -- one of the longer kinds is found
    have hsome : (search ks (taken ++ c :: rest)).isSome = true := by
      rw [Option.isSome_iff_ne_none, ne_eq, search_eq_none_iff]
      obtain ⟨k, hk, hs⟩ := hp.hit
      exact fun h => h k hk ⟨rest, by rw [hs, hsplit]⟩
    rw [takeChar_pos, hp.run, hsplit, Option.or_of_isSome hsome]
  · have hnone : search ks (taken ++ text) = none := by
      refine search_eq_none_iff.2 fun k hk hpre => hc ?_
      obtain ⟨rest, hrest⟩ := (hp.start k hk).trans hpre
      rw [List.append_assoc, List.append_right_inj] at hrest
      rw [← hrest]
      rfl
    rw [takeChar_neg p q taken hc, hq.run, hnone, Option.none_or]

theorem Branch.finds {p : Taking (Option Kind)} {taken : List Char} {ks ks' : List Kind}
    (h : Branch p taken ks) (hks : ks' = ks) (text : List Char) :
    ((p (taken, text)).1.map fun k => (k, (p (taken, text)).2)) = search ks' (taken ++ text) :=
  hks ▸ h.run text

/-- Every operator starts with one of the characters operators start with. -/
theorem spelling_of_operator {k : Kind} (hk : k ∈ operators) :
    ∃ c more, k.spelling = c :: more ∧ c ∈ operatorStarts := by
  have table : ∀ k ∈ operators, k.spelling.head? ∈ operatorStarts.map some := by decide
  obtain ⟨c, hc, he⟩ := List.mem_map.1 (table k hk)
  obtain ⟨more, hmore⟩ := List.head?_eq_some_iff.1 he.symm
  exact ⟨c, more, hmore, hc⟩

theorem spelling_ne_nil {k : Kind} (hk : k ∈ operators) : k.spelling ≠ [] := by
  obtain ⟨c, more, hmore, -⟩ := spelling_of_operator hk
  simp [hmore]

/-- The branches give the first operator of the table that the text starts with. -/
theorem matchOperator_eq_search (text : List Char) :
    matchOperator? text = search operators text := by
  cases text with
  | nil => decide
  | cons c text =>
    rw [search_cons fun k => spelling_ne_nil]
    show ((operatorFrom c ([c], text)).1.map fun k => (k, (operatorFrom c ([c], text)).2)) = _
    unfold operatorFrom
    split
    case h_14 | h_23 | h_24 =>
      exact Branch.finds (.more (.one rfl) (.more (.one rfl) (.one rfl))) (by decide) text
    case h_15 =>
      exact Branch.finds (.more (.one rfl) (.more (.one rfl) (.more (.one rfl) (.one rfl)))) (by decide) text
    case h_16 | h_21 | h_22 =>
      exact Branch.finds (.more (.more (.one rfl) (.one rfl)) (.more (.one rfl) (.one rfl))) (by decide) text
    case h_17 | h_18 | h_19 | h_20 | h_25 =>
      exact Branch.finds (.more (.one rfl) (.one rfl)) (by decide) text
    case h_26 =>
      have hc : c ∉ operatorStarts := by simp_all [operatorStarts]
      have hnone : operators.filter (·.spelling.head? == some c) = [] := by
        refine List.filter_eq_nil_iff.2 fun k hk he => hc ?_
        obtain ⟨d, more, hmore, hd⟩ := spelling_of_operator hk
        rw [hmore, List.head?_cons, beq_iff_eq, Option.some_inj] at he
        exact he ▸ hd
      rw [hnone]
      rfl
    all_goals exact Branch.finds (.one rfl) (by decide) text

end Kind

/-! ## Matches -/

theorem matchOperator_eq_none_iff {text : List Char} :
    Kind.matchOperator? text = none ↔ ∀ k ∈ Kind.operators, ¬ k.spelling <+: text := by
  rw [Kind.matchOperator_eq_search, Kind.search_eq_none_iff]

/-- A match is the first operator of the table that the text starts with. -/
theorem matchOperator_eq_some_iff {text lexeme rest : List Char} {kind : Kind} :
    Kind.matchOperator? text = some (kind, lexeme, rest) ↔
      lexeme = kind.spelling ∧ text = kind.spelling ++ rest ∧ ∃ before behind,
        Kind.operators = before ++ kind :: behind ∧ ∀ other ∈ before, ¬ other.spelling <+: text := by
  rw [Kind.matchOperator_eq_search, Kind.search, List.findSome?_eq_some_iff]
  constructor
  · rintro ⟨before, k, behind, hsplit, hmatch, hbefore⟩
    obtain ⟨rest', htext, he⟩ := Option.map_eq_some_iff.1 hmatch
    obtain ⟨rfl, rfl, rfl⟩ : k = kind ∧ k.spelling = lexeme ∧ rest' = rest := by simpa using he
    refine ⟨rfl, Text.behind?_eq_some_iff.1 htext, before, behind, hsplit, fun other hother => ?_⟩
    exact Text.behind?_eq_none_iff.1 (Option.map_eq_none_iff.1 (hbefore other hother))
  · rintro ⟨rfl, htext, before, behind, hsplit, hbefore⟩
    refine ⟨before, kind, behind, hsplit, ?_, fun other hother => ?_⟩
    · rw [Text.behind?_eq_some_iff.2 htext, Option.map_some]
    · rw [Text.behind?_eq_none_iff.2 (hbefore other hother), Option.map_none]

/-- What a match takes off the text is the spelling of an operator. -/
theorem operator_of_match {text lexeme rest : List Char} {kind : Kind}
    (h : Kind.matchOperator? text = some (kind, lexeme, rest)) :
    kind ∈ Kind.operators ∧ lexeme = kind.spelling ∧ text = lexeme ++ rest := by
  obtain ⟨rfl, htext, before, behind, hsplit, -⟩ := matchOperator_eq_some_iff.1 h
  exact ⟨by simp [hsplit], rfl, htext⟩

end FluxFront.Token
