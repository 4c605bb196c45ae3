import FluxFront.Grammar.Expr
import FluxFront.Proofs.Integers
import Mathlib.Data.List.DropRight

/-!
# Literals without their decoded values

* **Program**: the lexer decodes a literal.  A token that comes without the decoded value is decoded
  from its spelling, where quotes or marks `0b` are trimmed and everything else is taken as it stands.
* **Specification**: the literals whose spelling shows their value (`Token.ShowsValue`).  If the lexer
  says nothing about a literal, the two decodings agree exactly on these (`literal_undecoded`).
* **Crux**: an escape sequence is longer than the character that it stands for (`Escaped.length_lt`).
  Where trimming makes up for that, it has taken the quote of the last sequence and left its backslash
  (`Escaped.exists_last`).
-/

namespace FluxFront

namespace Token

/-- The token without its decoded value. -/
def undecoded (t : Token) : Token := { t with literal := none }

/-- The value of a literal can be seen in its spelling: an integer has decimal digits only, nothing is
escaped, and bits have no separators and a mark in lower case.  The integer zero and an escaped backslash
are what the spelling is taken for if it shows nothing. -/
def ShowsValue (t : Token) : Prop :=
  match t.kind with
  | .intLiteral => (∀ c ∈ t.lexeme.toList, c.isDigit = true) ∨ t.literal = some (.int 0)
  | .charLiteral => '\\' ∉ t.lexeme.toList ∨ t.literal = some (.char '\\')
  | .stringLiteral => '\\' ∉ t.lexeme.toList
  | .bitLiteral => ['0', 'b'] <+: t.lexeme.toList ∧ '_' ∉ t.lexeme.toList
  | _ => True

/-! ## Escape sequences -/

/-- The inside of a quoted text, and the characters that it stands for. -/
inductive Escaped (quote : Char) : List Char → List Char → Prop
  | nil : Escaped quote [] []
  | plain {c : Char} {body value : List Char} (hquote : c ≠ quote) (hescape : c ≠ '\\')
      (h : Escaped quote body value) : Escaped quote (c :: body) (c :: value)
  | escape (e : Char) {body value : List Char} (h : Escaped quote body value) :
      Escaped quote ('\\' :: e :: body) (unescape e :: value)

namespace Escaped

variable {quote : Char} {body value : List Char}

theorem length_le (h : Escaped quote body value) : value.length ≤ body.length := by
  induction h with
  | nil => exact Nat.le_refl _
  | plain _ _ _ ih => exact Nat.succ_le_succ ih
  | escape e _ ih => exact Nat.succ_le_succ (Nat.le_succ_of_le ih)

/-- An escape sequence is longer than its character. -/
theorem length_lt (h : Escaped quote body value) (hmem : '\\' ∈ body) : value.length < body.length := by
  induction h with
  | nil => exact absurd hmem List.not_mem_nil
  | plain _ hescape _ ih =>
    exact Nat.succ_lt_succ (ih ((List.mem_cons.1 hmem).resolve_left (Ne.symm hescape)))
  | escape e h _ => exact Nat.succ_lt_succ (Nat.lt_succ_of_le h.length_le)

/-- Without escape sequences, a text stands for itself. -/
theorem eq_of_not_mem (h : Escaped quote body value) (hmem : '\\' ∉ body) :
    value = body ∧ quote ∉ body := by
  induction h with
  | nil => exact ⟨rfl, List.not_mem_nil⟩
  | plain hquote _ _ ih =>
    obtain ⟨hvalue, hbody⟩ := ih fun hm => hmem (List.mem_cons_of_mem _ hm)
    exact ⟨congrArg _ hvalue, List.not_mem_cons_of_ne_of_not_mem (Ne.symm hquote) hbody⟩
  | escape => exact absurd List.mem_cons_self hmem

/-- A quote at the end of the inside is an escaped one. -/
theorem exists_last (h : Escaped quote body value) (hq : quote ≠ '\\') {front : List Char}
    (hlast : body = front ++ [quote]) :
    (∃ front', front = front' ++ ['\\']) ∧ ∃ value', value = value' ++ [unescape quote] := by
  induction h generalizing front with
  | nil => exact absurd hlast.symm (List.append_ne_nil_of_right_ne_nil _ (List.cons_ne_nil _ _))
  | plain hquote _ _ ih =>
    cases front with
    | nil => exact absurd (List.cons.inj hlast).1 hquote
    | cons c front =>
      obtain ⟨⟨front', rfl⟩, ⟨value', rfl⟩⟩ := ih (List.cons.inj hlast).2
      exact ⟨⟨_ :: front', rfl⟩, ⟨_ :: value', rfl⟩⟩
  | escape e h ih =>
    match front with
    | [] => exact absurd (List.cons.inj hlast).1.symm hq
    | [c] =>
      obtain ⟨rfl, hrest⟩ := List.cons.inj hlast
      obtain ⟨rfl, rfl⟩ := List.cons.inj hrest
      cases h
      exact ⟨⟨[], rfl⟩, ⟨[], rfl⟩⟩
    | c :: d :: front =>
      obtain ⟨⟨front', rfl⟩, ⟨value', rfl⟩⟩ := ih (List.cons.inj (List.cons.inj hlast).2).2
      exact ⟨⟨c :: d :: front', rfl⟩, ⟨_ :: value', rfl⟩⟩

/-- The inside of a quoted text does not start with its quote. -/
theorem trimBoth_eq (h : Escaped quote body value) (hq : quote ≠ '\\') :
    Text.trimBoth (· == quote) (quote :: (body ++ [quote])) = body.rdropWhile (· == quote) := by
  unfold Text.trimBoth List.rdropWhile
  have hfront : (quote :: (body ++ [quote])).dropWhile (· == quote) =
      if body = [] then [] else body ++ [quote] := by
    cases h with
    | nil => simp
    | plain hquote _ _ => simp [hquote]
    | escape e _ => simp [Ne.symm hq]
  rw [hfront]
  split
  · rename_i hnil
    rw [hnil]
  · simp

/-- Trimming the quotes decodes a text exactly if nothing is escaped in it. -/
theorem rdropWhile_eq_iff (h : Escaped quote body value) (hq : quote ≠ '\\')
    (hself : unescape quote = quote) :
    body.rdropWhile (· == quote) = value ↔ '\\' ∉ body := by
  have hkeeps : ('\\' == quote) ≠ true := by simpa using Ne.symm hq
  constructor
  · intro htrim hmem
    obtain ⟨front, c, rfl⟩ :=
      (List.eq_nil_or_concat' body).resolve_left (List.ne_nil_of_mem hmem)
    by_cases hc : c = quote
    -- the trimmed text ends with a backslash, the value with a quote
    · subst hc
      obtain ⟨⟨front', rfl⟩, ⟨value', rfl⟩⟩ := h.exists_last hq rfl
      rw [List.rdropWhile_concat_pos _ _ _ (by simp),
        List.rdropWhile_concat, if_neg hkeeps, hself] at htrim
      exact hq (List.cons.inj (List.append_inj' htrim rfl).2).1.symm
    -- nothing is trimmed, and the value is shorter
    · rw [List.rdropWhile_concat_neg _ _ _ (by simpa using hc)] at htrim
      exact absurd (h.length_lt hmem) (by rw [htrim]; exact Nat.lt_irrefl _)
  · intro hmem
    obtain ⟨rfl, hquote⟩ := h.eq_of_not_mem hmem
    rw [List.rdropWhile_eq_self_iff]
    exact fun hne hlast => hquote (eq_of_beq hlast ▸ List.getLast_mem hne)

end Escaped

/-- Up to the closing quote, a text between quotes is the inside of it. -/
theorem escaped_readQuoted {quote : Char} {here : Location} {text : List Char}
    (hclosed : (readQuoted quote here text).closed = true) :
    ∃ body, (readQuoted quote here text).taken = body ++ [quote] ∧
      Escaped quote body (readQuoted quote here text).value := by
  fun_induction readQuoted quote here text with
  | case1 | case3 => exact absurd hclosed Bool.false_ne_true
  | case2 => exact ⟨[], rfl, .nil⟩
  | case4 here e behind _ q ih =>
    obtain ⟨body, htaken, hbody⟩ := ih hclosed
    exact ⟨_, congrArg ('\\' :: e :: ·) htaken, .escape e hbody⟩
  | case5 here c text hquote hescape q ih =>
    obtain ⟨body, htaken, hbody⟩ := ih hclosed
    exact ⟨_, congrArg (c :: ·) htaken, .plain hquote hescape hbody⟩

/-- The character between two quotes is spelled by the inside. -/
theorem escaped_readCharBody {here : Location} {text : List Char} {c : Char}
    (hc : (readCharBody here text).2.2.1 = some c) :
    Escaped '\'' (readCharBody here text).1 [c] := by
  revert hc
  fun_cases readCharBody here text with
  | case1 | case2 | case4 => exact fun hc => absurd hc (Option.some_ne_none c).symm
  | case3 e behind =>
    rintro ⟨rfl⟩
    exact .escape e .nil
  | case5 d text hescape hquote =>
    rintro ⟨rfl⟩
    exact .plain hquote hescape .nil

/-! ## Readings without complaints -/

theorem readString_quiet {here : Location} {text : List Char}
    (h : (readString .stringLiteral stringValue ['"'] here text).errors = []) :
    ∃ body value rest, readString .stringLiteral stringValue ['"'] here text =
      ⟨.stringLiteral, '"' :: (body ++ ['"']), rest, some (stringValue value), []⟩ ∧
        Escaped '"' body value := by
  have hclosed : (readQuoted '"' (here.after ['"']) text).closed = true := by
    by_contra hopen
    have hunterminated := (List.append_eq_nil_iff.1 h).2
    rw [if_neg hopen] at hunterminated
    exact absurd hunterminated (List.cons_ne_nil _ _)
  obtain ⟨body, htaken, hbody⟩ := escaped_readQuoted hclosed
  refine ⟨body, _, (readQuoted '"' (here.after ['"']) text).rest, ?_, hbody⟩
  rw [← htaken, ← h]
  rfl

theorem readChar_quiet {here : Location} {text : List Char} (h : (readChar here text).errors = []) :
    ∃ body value rest, readChar here text =
      ⟨.charLiteral, '\'' :: (body ++ ['\'']), rest, some (.char value), []⟩ ∧
        Escaped '\'' body [value] := by
  have malformed : ∀ {errors : List Diagnostic} {d : Diagnostic}, errors ++ [d] ≠ [] :=
    List.append_ne_nil_of_right_ne_nil _ (List.cons_ne_nil _ _)
  have hescaped := @escaped_readCharBody (here.next '\'') text
  revert h
  unfold readChar
  split
  rename_i taken behind value errors hbody
  rw [hbody] at hescaped
  split
  rename_i close rest hclose
  dsimp only
  split
  · rename_i c first others
    intro h
    have hone : first :: others = ['\''] := by
      split at hclose
      · exact (congrArg Prod.fst hclose).symm
      · exact absurd (congrArg Prod.fst hclose) nofun
    rw [hone, show errors = [] from h]
    exact ⟨taken, c, rest, rfl, hescaped rfl⟩
  · exact fun h => absurd h malformed

theorem numberReading_quiet {kind : Kind} {here : Location} {lexeme rest : List Char} {value : Value}
    {valid : Bool} (h : (numberReading kind here lexeme rest value valid).errors = []) :
    numberReading kind here lexeme rest value valid = ⟨kind, lexeme, rest, some value, []⟩ ∧
      valid = true := by
  cases valid with
  | true => exact ⟨rfl, rfl⟩
  | false => exact absurd h (List.cons_ne_nil _ _)

theorem readNumber_int {here : Location} {text : List Char}
    (hkind : (readNumber here text).kind = .intLiteral) (h : (readNumber here text).errors = []) :
    ∃ lexeme rest v, readNumber here text = ⟨.intLiteral, lexeme, rest, some (.int v), []⟩ ∧
      (positional lexeme).Valid ∧ v.toNat = (positional lexeme).value := by
  obtain ⟨lexeme, rest, hread⟩ := readNumber_integer hkind
  rw [hread] at h ⊢
  have hvalid : (positional lexeme).Valid := by
    by_contra hinvalid
    obtain ⟨message, hreading⟩ := integerReading_invalid hinvalid here rest
    rw [hreading] at h
    exact absurd h (List.cons_ne_nil _ _)
  obtain ⟨v, hv, hreading⟩ := integerReading_valid hvalid here rest
  exact ⟨lexeme, rest, v, hreading, hvalid, hv⟩

theorem readNumber_bits {here : Location} {text : List Char}
    (hkind : (readNumber here text).kind = .bitLiteral) (h : (readNumber here text).errors = []) :
    ∃ mark body rest, (mark = 'b' ∨ mark = 'B') ∧ readNumber here text =
      ⟨.bitLiteral, '0' :: mark :: body, rest, some (.bits (String.ofList (plainDigits body))), []⟩ ∧
        ∀ c ∈ plainDigits body, digitValue c < 2 := by
  have decimal : (readDecimal here text).kind ≠ .bitLiteral := by
    unfold readDecimal
    dsimp only
    split <;> exact nofun
  revert hkind h
  fun_cases readNumber here text with
  | case1 mark behind radix hradix =>
    unfold readRadix
    dsimp only
    split
    · rename_i hbits
      subst hbits
      intro _ h
      obtain ⟨hreading, hvalid⟩ := numberReading_quiet h
      have hmark : mark = 'b' ∨ mark = 'B' := by
        unfold radixOf? at hradix
        split at hradix <;> simp_all
      obtain ⟨m, hm⟩ := Option.isSome_iff_exists.1 hvalid
      obtain ⟨-, hdigits, -⟩ :=
        (natural_eq_some_iff (n := ⟨2, plainDigits (behind.takeWhile isAlphanumOrMark)⟩) (by simp)).1 hm
      exact ⟨mark, _, _, hmark, hreading, hdigits⟩
    · exact fun hkind => absurd (show Kind.intLiteral = .bitLiteral from hkind) (by decide)
  | case2 | case3 => exact fun hkind => absurd hkind decimal

end Token

namespace Grammar

open Token

/-! ## Two decodings -/

/-- A literal is what its token stands for. -/
theorem literal_form (s : State) : (literal s).1.form = .literal (literalOf s.current) := rfl

variable {span : Span} {body : List Char}

theorem undecoded_string {value : List Char} (h : Escaped '"' body value) :
    let t : Token := ⟨.stringLiteral, String.ofList ('"' :: (body ++ ['"'])), span, some (stringValue value)⟩
    literalOf t.undecoded = literalOf t ↔ t.ShowsValue := by
  intro t
  have hlexeme : t.lexeme.toList = '"' :: (body ++ ['"']) := String.toList_ofList
  have htrim : literalOf t.undecoded = .string (String.ofList (body.rdropWhile (· == '"'))) := by
    rw [← h.trimBoth_eq (by decide), ← hlexeme]
    rfl
  rw [htrim, show literalOf t = .string (String.ofList value) from rfl, Literal.string.injEq,
    String.ofList_inj, h.rdropWhile_eq_iff (by decide) rfl]
  show _ ↔ '\\' ∉ t.lexeme.toList
  rw [hlexeme]
  simp

theorem undecoded_char {value : Char} (h : Escaped '\'' body [value]) :
    let t : Token := ⟨.charLiteral, String.ofList ('\'' :: (body ++ ['\''])), span, some (.char value)⟩
    literalOf t.undecoded = literalOf t ↔ t.ShowsValue := by
  intro t
  have hlexeme : t.lexeme.toList = '\'' :: (body ++ ['\'']) := String.toList_ofList
  have htrim : literalOf t.undecoded = .char ((body.rdropWhile (· == '\'')).headD '\x00') := by
    rw [← h.trimBoth_eq (by decide), ← hlexeme]
    rfl
  rw [htrim, show literalOf t = .char value from rfl, Literal.char.injEq]
  show _ ↔ '\\' ∉ t.lexeme.toList ∨ some (Value.char value) = some (.char '\\')
  rw [hlexeme, Option.some.injEq, Value.char.injEq]
  cases h with
  | plain hquote hescape h =>
    cases h
    have hkept : [value].rdropWhile (· == '\'') = [value] := by simp [hquote]
    simp [hkept, Ne.symm hescape]
  | escape e h =>
    cases h
    have hhead : (['\\', e].rdropWhile (· == '\'')).headD '\x00' = '\\' := by
      rw [show ['\\', e] = ['\\'] ++ [e] from rfl, List.rdropWhile_concat]
      split <;> rfl
    rw [hhead]
    simp [eq_comm]

theorem dropLeadingPairs_of_not_mem {a b : Char} {text : List Char} (h : b ∉ text) :
    Text.dropLeadingPairs a b text = text := by
  match text with
  | [] | [_] => rfl
  | x :: y :: rest =>
    rw [Text.dropLeadingPairs, if_neg]
    rintro ⟨-, rfl⟩
    exact h (List.mem_cons_of_mem _ List.mem_cons_self)

theorem undecoded_bits {mark : Char} (hmark : mark = 'b' ∨ mark = 'B')
    (h : ∀ c ∈ plainDigits body, digitValue c < 2) :
    let t : Token := ⟨.bitLiteral, String.ofList ('0' :: mark :: body), span,
      some (.bits (String.ofList (plainDigits body)))⟩
    literalOf t.undecoded = literalOf t ↔ t.ShowsValue := by
  intro t
  have hlexeme : t.lexeme.toList = '0' :: mark :: body := String.toList_ofList
  have htrim : literalOf t.undecoded =
      .bits (String.ofList (Text.dropLeadingPairs '0' 'b' ('0' :: mark :: body))) := by
    rw [← hlexeme]
    rfl
  rw [htrim, show literalOf t = .bits (String.ofList (plainDigits body)) from rfl, Literal.bits.injEq,
    String.ofList_inj]
  show _ ↔ ['0', 'b'] <+: t.lexeme.toList ∧ '_' ∉ t.lexeme.toList
  rw [hlexeme]
  rcases hmark with rfl | rfl
  · have hnone : 'b' ∉ body := fun hm => absurd (h 'b' (List.mem_filter.2 ⟨hm, rfl⟩)) (by decide)
    have hdrop : Text.dropLeadingPairs '0' 'b' ('0' :: 'b' :: body) = body := by
      rw [Text.dropLeadingPairs, if_pos ⟨rfl, rfl⟩, dropLeadingPairs_of_not_mem hnone]
    rw [hdrop, eq_comm]
    simp [plainDigits, List.forall_mem_ne']
  · have hdrop : Text.dropLeadingPairs '0' 'b' ('0' :: 'B' :: body) = '0' :: 'B' :: body := by
      rw [Text.dropLeadingPairs, if_neg (by decide)]
    have hlonger : '0' :: 'B' :: body ≠ plainDigits body := by
      intro he
      have hle : (plainDigits body).length ≤ body.length := List.length_filter_le _ _
      rw [← he, List.length_cons, List.length_cons] at hle
      omega
    rw [hdrop]
    simp [hlonger]

theorem undecoded_int {lexeme : List Char} (hvalid : (positional lexeme).Valid) {v : UInt64}
    (hv : v.toNat = (positional lexeme).value) :
    let t : Token := ⟨.intLiteral, String.ofList lexeme, span, some (.int v)⟩
    literalOf t.undecoded = literalOf t ↔ t.ShowsValue := by
  intro t
  have hlexeme : t.lexeme.toList = lexeme := String.toList_ofList
  have hread : literalOf t.undecoded = .int ((Decimal.signedWord? lexeme).getD 0) := by
    rw [← hlexeme]
    rfl
  rw [hread, show literalOf t = .int v from rfl, Literal.int.injEq]
  show _ ↔ (∀ c ∈ t.lexeme.toList, c.isDigit = true) ∨ some (Value.int v) = some (.int 0)
  rw [hlexeme, Option.some.injEq, Value.int.injEq]
  have hunsigned : Decimal.signedWord? lexeme = Decimal.word? 10 lexeme := by
    unfold Decimal.signedWord?
    split
    · exact absurd (hvalid.digits '+' List.mem_cons_self) (Nat.not_lt.2 (Nat.le_add_right 10 6))
    · rfl
  rw [hunsigned]
  by_cases hdigits : ∀ c ∈ lexeme, c.isDigit = true
  · have hmarks : ∀ c ∈ lexeme, isDigitOrMark c = true := fun c hc =>
      Bool.or_eq_true_iff.2 (.inl (hdigits c hc))
    have hplain : plainDigits lexeme = lexeme := by
      refine List.filter_eq_self.2 fun c hc => ?_
      have hdigit := hdigits c hc
      rw [bne_iff_ne]
      rintro rfl
      exact absurd hdigit (by decide)
    rw [positional_of_marks hmarks, hplain] at hvalid hv
    rw [(word_eq_some_iff (n := ⟨10, lexeme⟩) (by simp)).2 ⟨hvalid, hv⟩]
    exact iff_of_true rfl (.inl hdigits)
  · have hnone : Decimal.word? 10 lexeme = none := by
      refine Option.eq_none_iff_forall_ne_some.2 fun w hw => hdigits fun c hc => ?_
      exact digitValue_lt_ten.1
        (((word_eq_some_iff (n := ⟨10, lexeme⟩) (by simp)).1 hw).1.digits c hc)
    rw [hnone, or_iff_right hdigits]
    exact eq_comm

/-- **Literals without their decoded values.**  A literal of a text that nothing is said about is built
from its token with or without the decoded value alike exactly if its spelling shows the value. -/
theorem literal_undecoded {source : String} {t : Token} (ht : t ∈ (scan source).1)
    (hkind : t.kind ∈ [Kind.intLiteral, .bitLiteral, .charLiteral, .stringLiteral])
    (hquiet : ∀ d ∈ (scan source).2, ¬ d.StartsIn t.span) {s s' : State} (hs : s.current = t)
    (hs' : s'.current = t.undecoded) :
    (literal s').1.form = (literal s).1.form ↔ t.ShowsValue := by
  rw [literal_form, literal_form, hs, hs', Expr.Form.literal.injEq]
  obtain ⟨raw, here, c, text, rfl, -, hclean⟩ := exists_reading_of_mem_scan ht fun h => by
    rw [h] at hkind
    exact absurd hkind (by decide)
  have hclean := hclean hquiet
  rcases reading_of_value hkind with ⟨-, h⟩ | ⟨-, h⟩ | ⟨-, h⟩
  · have hk : (readNumber here (c :: text)).kind ∈
        [Kind.intLiteral, .bitLiteral, .charLiteral, .stringLiteral] := h ▸ hkind
    rw [h] at hclean ⊢
    have hnumber := readNumber_kind here (c :: text)
    by_cases hint : (readNumber here (c :: text)).kind = .intLiteral
    · obtain ⟨lexeme, rest, v, hread, hvalid, hv⟩ := readNumber_int hint hclean
      rw [hread]
      exact undecoded_int hvalid hv
    -- of the kinds in question, a number that is no integer has the one of bits
    · have hbit : (readNumber here (c :: text)).kind = .bitLiteral := by
        generalize (readNumber here (c :: text)).kind = k at hk hnumber hint
        revert k
        decide
      obtain ⟨mark, body, rest, hmark, hread, hdigits⟩ := readNumber_bits hbit hclean
      rw [hread]
      exact undecoded_bits hmark hdigits
  · rw [h] at hclean ⊢
    obtain ⟨body, value, rest, hread, hbody⟩ := readChar_quiet hclean
    rw [hread]
    exact undecoded_char hbody
  · rw [h] at hclean ⊢
    obtain ⟨body, value, rest, hread, hbody⟩ := readString_quiet hclean
    rw [hread]
    exact undecoded_string hbody

/-- Bits are decoded alike from their spelling, and a string with an escape sequence is not. -/
theorem literal_undecoded_bits :
    let bits : Token := ⟨.bitLiteral, "0b10", ⟨⟨1, 1, 0⟩, ⟨1, 5, 4⟩⟩, some (.bits "10")⟩
    let string : Token :=
      ⟨.stringLiteral, "\"\\n\"", ⟨⟨1, 6, 5⟩, ⟨1, 10, 9⟩⟩, some (.string "\n")⟩
    let start (t : Token) : State := .ofTokens [t] none
    (bits ∈ (scan "0b10 \"\\n\"").1 ∧ string ∈ (scan "0b10 \"\\n\"").1) ∧
      (scan "0b10 \"\\n\"").2 = [] ∧
      (literal (start bits.undecoded)).1.form = (literal (start bits)).1.form ∧
      (literal (start string.undecoded)).1.form ≠ (literal (start string)).1.form := by
  intro bits string start
  have hmem : bits ∈ (scan "0b10 \"\\n\"").1 ∧ string ∈ (scan "0b10 \"\\n\"").1 := by decide +kernel
  have hclean : (scan "0b10 \"\\n\"").2 = [] := by decide +kernel
  have hquiet : ∀ span, ∀ d ∈ (scan "0b10 \"\\n\"").2, ¬ d.StartsIn span := by
    intro span
    rw [hclean]
    exact List.forall_mem_nil _
  refine ⟨hmem, hclean, ?_, ?_⟩
  · refine (literal_undecoded hmem.1 (by decide) (hquiet _) (s := start bits) rfl rfl).2 ?_
    exact ⟨by decide, by decide⟩
  · refine mt (literal_undecoded hmem.2 (by decide) (hquiet _) (s := start string) rfl rfl).1 ?_
    exact not_not_intro (by decide)

/-- Without its decoded value, a hexadecimal integer is zero. -/
theorem literal_undecoded_hexadecimal :
    let t : Token := ⟨.intLiteral, "0x1F", ⟨⟨1, 1, 0⟩, ⟨1, 5, 4⟩⟩, some (.int 31)⟩
    t ∈ (scan "0x1F;").1 ∧ (scan "0x1F;").2 = [] ∧
      (literal (.ofTokens [t] none)).1.form = .literal (.int 31) ∧
      (literal (.ofTokens [t.undecoded] none)).1.form = .literal (.int 0) := by
  refine ⟨?_, ?_, rfl, rfl⟩
  · decide +kernel
  · decide +kernel

end Grammar

end FluxFront
