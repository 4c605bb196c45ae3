import FluxFront.Proofs.ExprWords
import FluxFront.Proofs.Integers
import Mathlib.Data.List.Infix

/-!
# Printed leaves are read back

* **Program**: the printer writes characters and texts between quotes, numbers with their digits, and
  raw text between braces.
* **Specification**: what is printed for a value is scanned as just the token with the value
  (`ScansAs`).
* **Crux**: a slot is written as it stands, so a text with slots is escaped part by part or as a whole
  alike (`escape_splitSlots`).  Raw text that closes the braces it opens, and no other ones, is left at the
  brace of the printer (`takeRaw_closes`).
-/

namespace FluxFront

namespace Token

/-! ## Single tokens -/

/-- The whole of a text is one token with a value, and nothing is said about it. -/
def ScansAs (text : String) (kind : Kind) (value : Value) : Prop :=
  scan text =
    ([⟨kind, text, ⟨.start, placeBehind text.toList⟩, some value⟩, endAt (placeBehind text.toList)], [])

/-- The token of a spelling. -/
theorem Reading.token_toList {kind : Kind} {lexeme : String} {rest : List Char} {literal : Option Value}
    {here : Location} : (Reading.mk kind lexeme.toList rest literal []).token here =
      ⟨kind, lexeme, ⟨here, here.after lexeme.toList⟩, literal⟩ := by
  unfold token
  rw [String.ofList_toList]
  rfl

namespace Scanner

variable {s : Scanner} {here : Location} {raw : Bool} {c : Char} {text : List Char} {tokens : List Token}

theorem emits_end (here : Location) (afterAsm : Bool) :
    (Scanner.mk [] here afterAsm).Emits [endAt here] [] := .done rfl

/-- A reading without complaints, in front of what is read behind it. -/
theorem Emits.reads {r : Reading} (hgap : s.gap = ⟨c :: text, here, raw, []⟩)
    (hread : reading raw here c text = r) (hquiet : r.errors = [])
    (hmore : (r.behind here).Emits tokens []) : s.Emits (r.token here :: tokens) [] := by
  subst hread
  have h := Emits.token hgap hmore
  rwa [hquiet] at h

end Scanner

/-- A word that is legible at the end of a text is the only token of its spelling. -/
theorem Word.Legible.scansAs {w : Word} (h : w.Legible []) {text : String} {value : Value}
    (htext : text.toList = w.text) (hvalue : w.literal = some value) : ScansAs text w.kind value := by
  obtain ⟨c, rest, hsplit⟩ := List.exists_cons_of_ne_nil h.nonempty
  have hgap : (Scanner.ofString text).gap = ⟨c :: rest, .start, false, []⟩ := by
    have hgap := h.gap .start
    rw [List.append_nil, ← htext] at hgap
    rw [← hsplit, ← htext]
    exact hgap
  have hread : reading false .start c rest = ⟨w.kind, text.toList, [], some value, []⟩ := by
    rw [htext, ← hvalue]
    exact h.reads .start c rest (by rw [List.append_nil, hsplit])
  have hemits := Scanner.Emits.reads hgap hread rfl (Scanner.emits_end _ _)
  rw [Reading.token_toList] at hemits
  unfold ScansAs
  rw [show placeBehind text.toList = Location.after .start text.toList from placeBehind_append [] _]
  exact scan_eq hemits

/-! ## Bits -/

/-- The word of a bit literal. -/
def Word.bits (digits : String) : Word :=
  ⟨.bitLiteral, '0' :: 'b' :: digits.toList, some (.bits digits)⟩

theorem legible_bits {digits : String} (hne : digits ≠ "")
    (hdigits : ∀ c ∈ digits.toList, c = '0' ∨ c = '1') {rest : List Char} (h : Breaks rest) :
    (Word.bits digits).Legible rest := by
  have hdigit : ∀ c ∈ digits.toList,
      isAlphanumOrMark c = true ∧ (c != '_') = true ∧ digitValue c < 2 := by
    intro c hc
    rcases hdigits c hc with rfl | rfl <;> decide
  obtain ⟨htake, hdrop⟩ := takeWhile_break (fun c hc => (hdigit c hc).1)
    fun c text hc => isAlphanumOrMark_of_break (h c text hc).1
  have hplain : plainDigits digits.toList = digits.toList :=
    List.filter_eq_self.2 fun c hc => (hdigit c hc).2.1
  have hvalue : (Decimal.natural? 2 digits.toList).isSome = true := by
    rw [Option.isSome_iff_exists]
    refine ⟨_, (natural_eq_some_iff (n := ⟨2, digits.toList⟩) (by simp)).2 ⟨?_, ?_, rfl⟩⟩
    · exact fun he => hne (String.toList_eq_nil_iff.1 he)
    · exact fun c hc => (hdigit c hc).2.2
  refine legible_number rfl (by decide) ⟨nofun, nofun⟩ fun here => ?_
  have hmark : radixOf? 'b' = some 2 := rfl
  refine (readNumber_marked hmark here (digits.toList ++ rest)).trans ?_
  unfold readRadix
  rw [htake, hdrop]
  dsimp only
  rw [if_pos rfl, hplain, hvalue, String.ofList_toList]
  rfl

/-! ## Interpolated strings -/

/-- The word of an interpolated string. -/
def Word.parts (text : List Char) : Word :=
  ⟨.interpolatedString, 'i' :: '"' :: (text.flatMap (Print.escapeChar '"') ++ ['"']),
    some (partsValue text)⟩

theorem legible_parts (text rest : List Char) : (Word.parts text).Legible rest := by
  refine ⟨List.cons_ne_nil _ _, fun here => ?_, fun here c behind hsplit => ?_, nofun, nofun⟩
  · exact skipGap_start (c := 'i') (by decide +kernel) (by decide +kernel) (fun he => absurd he (by decide))
      here false
  · obtain ⟨rfl, rfl⟩ := List.cons.inj hsplit
    unfold readToken
    have htext : ('"' :: (text.flatMap (Print.escapeChar '"') ++ ['"'])).append rest =
        '"' :: (text.flatMap (Print.escapeChar '"') ++ '"' :: rest) :=
      congrArg _ (List.append_assoc _ _ _)
    rw [matchOperator_none (by decide)]
    dsimp only
    rw [if_neg (by decide), if_neg (by decide), if_neg (by decide), htext]
    show readString .interpolatedString partsValue ['i', '"'] here _ = _
    unfold readString
    rw [readQuoted_escape]
    rfl

/-- A slot is not escaped: the parts of a text are escaped as the text is. -/
theorem escape_splitSlots (text : List Char) :
    ['{', '}'].intercalate ((Text.splitSlots text).map (·.flatMap (Print.escapeChar '"'))) =
      text.flatMap (Print.escapeChar '"') := by
  fun_induction Text.splitSlots text with
  | case1 rest ih =>
    rw [List.map_cons, List.intercalate_cons_of_ne_nil (by simpa using Text.splitSlots_ne_nil rest), ih]
    rfl
  | case2 c rest _ ih =>
    cases hparts : Text.splitSlots rest with
    | nil => exact absurd hparts (Text.splitSlots_ne_nil rest)
    | cons part parts =>
      rw [hparts] at ih
      rw [List.flatMap_cons, ← ih]
      cases parts with
      | nil => simp [Text.consPart]
      | cons next parts => simp [Text.consPart, List.intercalate_cons_cons]
  | case3 => rfl

/-- The quoted text of an interpolated string. -/
def interpolation (parts : List String) : String :=
  "i\"" ++ "\x7b\x7d".intercalate (parts.map (Print.escape '"')) ++ "\""

/-- Behind the quoted text, the values are printed if there are any slots. -/
theorem interpolated_eq (parts values : List String) :
    ∃ more, Print.interpolated parts values = interpolation parts ++ more ∧
      (more = "" ∨ [':', '{'] <+: more.toList) := by
  unfold Print.interpolated
  dsimp only
  split
  · exact ⟨"", String.append_empty.symm, .inl rfl⟩
  · refine ⟨":\x7b" ++ " ".intercalate (values.map (· ++ ";")) ++ "\x7d", ?_, .inr ?_⟩
    · show interpolation parts ++ ":\x7b" ++ _ ++ _ = _
      rw [String.append_assoc, String.append_assoc, String.append_assoc]
    · simp

theorem toList_interpolation (text : String) :
    (interpolation ((Text.splitSlots text.toList).map String.ofList)).toList =
      (Word.parts text.toList).text := by
  have hescape : (((Text.splitSlots text.toList).map String.ofList).map (Print.escape '"')).map String.toList =
      (Text.splitSlots text.toList).map (·.flatMap (Print.escapeChar '"')) := by
    rw [List.map_map, List.map_map]
    refine List.map_congr_left fun part _ => ?_
    simp [Print.escape]
  unfold interpolation
  rw [String.toList_append, String.toList_append, String.toList_intercalate, hescape,
    show "\x7b\x7d".toList = ['{', '}'] from rfl, escape_splitSlots]
  rfl

/-! ## Raw text -/

/-- The text closes `depth` braces that were open in front of it and all braces that it opens. -/
structure Closes (depth : Nat) (text : List Char) : Prop where
  front : ∀ front, front <+: text → front.count '}' ≤ front.count '{' + depth
  whole : text.count '}' = text.count '{' + depth

/-- What is open behind a character is closed by the characters behind it. -/
theorem Closes.tail {depth behind : Nat} {c : Char} {text : List Char} (h : Closes depth (c :: text))
    (hbehind : [c].count '{' + depth = [c].count '}' + behind) : Closes behind text := by
  have hcount (x : Char) (text : List Char) : ([c] ++ text).count x = [c].count x + text.count x :=
    List.count_append
  rw [← List.singleton_append] at h
  refine ⟨fun front hfront => ?_, ?_⟩
  · have hle := h.front ([c] ++ front) (List.cons_prefix_cons.2 ⟨rfl, hfront⟩)
    have hopened := hcount '{' front
    have hclosed := hcount '}' front
    omega
  · have hwhole := h.whole
    have hopened := hcount '{' text
    have hclosed := hcount '}' text
    omega

/-- Raw text that closes what is open is taken as a whole, in front of what is taken behind it. -/
theorem takeRaw_closes {depth : Nat} {text : List Char} (h : Closes depth text) (rest : List Char) :
    takeRaw depth (text ++ rest) = (takeRaw 0 rest).map (text ++ ·) id := by
  induction text generalizing depth with
  | nil =>
    obtain rfl : depth = 0 := by simpa using h.whole.symm
    rfl
  | cons c text ih =>
    rw [List.cons_append, takeRaw.eq_def]
    dsimp only
    split
    · rename_i hclose
      subst hclose
      have hdepth := h.front ['}'] ⟨text, rfl⟩
      cases depth with
      | zero => exact absurd hdepth (by decide)
      | succ outer =>
        dsimp only
        rw [ih (h.tail (by simp [Nat.add_comm]))]
        rfl
    · rename_i hclose
      have hbehind : [c].count '{' + depth = [c].count '}' + if c = '{' then depth + 1 else depth := by
        by_cases hopen : c = '{'
        · subst hopen
          simp [Nat.add_comm]
        · simp [hopen, hclose]
      rw [ih (h.tail hbehind)]
      rfl

/-- Characters of a class around a text are trimmed with those of the text. -/
theorem trimBoth_between {p : Char → Bool} {c d : Char} (hc : p c = true) (hd : p d = true)
    (text : List Char) : Text.trimBoth p (c :: (text ++ [d])) = Text.trimBoth p text := by
  unfold Text.trimBoth
  rw [List.dropWhile_cons_of_pos hc, List.dropWhile_append]
  split
  · rename_i hempty
    rw [List.isEmpty_iff.1 hempty]
    simp [hd]
  · simp [hd]

/-- The block behind the keyword of raw assembly. -/
def asmBlock (raw : String) : String := "\x7b " ++ raw ++ " \x7d"

theorem toList_asmBlock (raw : String) :
    (asmBlock raw).toList = '{' :: ' ' :: (raw.toList ++ [' ', '}']) := by
  simp [asmBlock]

theorem toList_asm (raw : String) : (Print.asm raw).toList = "asm ".toList ++ (asmBlock raw).toList := by
  simp [Print.asm, asmBlock]

/-- The printed block is read with its raw text. -/
theorem readRaw_asmBlock {raw : String} (htrim : Text.trimBlanks raw.toList = raw.toList)
    (hcloses : Closes 0 raw.toList) (here : Location) :
    readRaw here (' ' :: (raw.toList ++ [' ', '}'])) =
      ⟨.asmBlock, (asmBlock raw).toList, [], some (.string raw), []⟩ := by
  have htake : takeRaw 0 (' ' :: (raw.toList ++ [' ', '}'])) = (' ' :: (raw.toList ++ [' ']), ['}']) := by
    rw [takeRaw, if_neg (by decide), if_neg (by decide), takeRaw_closes hcloses]
    rfl
  have hvalue : Text.trimBlanks (' ' :: (raw.toList ++ [' '])) = raw.toList :=
    (trimBoth_between (by decide) (by decide) _).trans htrim
  unfold readRaw
  rw [htake]
  dsimp only
  rw [hvalue, String.ofList_toList, toList_asmBlock]
  simp

/-- The keyword in front of a blank. -/
theorem readToken_asm (here : Location) (rest : List Char) :
    readToken here 'a' (['s', 'm'] ++ ' ' :: rest) = ⟨.kwAsm, "asm".toList, ' ' :: rest, none, []⟩ := by
  have hstarts : Text.startsName 'a' = true := by decide +kernel
  have hcontinues : ∀ d ∈ ['s', 'm'], Text.continuesName d = true :=
    forall_mem_of_all (by decide +kernel)
  have hkind : (Kind.ofKeyword? (String.ofList ['a', 's', 'm'])).getD .identifier = .kwAsm := by
    decide +kernel
  have hname := readToken_name hstarts hcontinues (.blank rest) here
  rwa [hkind] at hname

/-- Printed raw assembly is its keyword and its block. -/
theorem scan_asm {raw : String} (htrim : Text.trimBlanks raw.toList = raw.toList)
    (hcloses : Closes 0 raw.toList) :
    scan (Print.asm raw) =
      ([⟨.kwAsm, "asm", ⟨.start, placeBehind "asm".toList⟩, none⟩,
        ⟨.asmBlock, asmBlock raw, ⟨placeBehind "asm ".toList, placeBehind (Print.asm raw).toList⟩,
          some (.string raw)⟩,
        endAt (placeBehind (Print.asm raw).toList)], []) := by
  have hblock := readRaw_asmBlock htrim hcloses (placeBehind "asm ".toList)
  generalize hrest : ' ' :: (raw.toList ++ [' ', '}']) = rest at hblock
  have hsource : (Print.asm raw).toList = 'a' :: (['s', 'm'] ++ ' ' :: '{' :: rest) := by
    rw [toList_asm, toList_asmBlock, hrest]
    rfl
  -- the keyword, then the block behind a blank
  have hgap : (Scanner.ofString (Print.asm raw)).gap =
      ⟨'a' :: (['s', 'm'] ++ ' ' :: '{' :: rest), .start, false, []⟩ := by
    show skipGap .blank .start false (Print.asm raw).toList = _
    rw [hsource]
    exact skipGap_start (by decide +kernel) (by decide +kernel) (fun he => absurd he (by decide)) _ _
  have hblank : (Scanner.mk (' ' :: '{' :: rest) (placeBehind "asm".toList) true).gap =
      ⟨'{' :: rest, placeBehind "asm ".toList, true, []⟩ := by
    show skipGap .blank (placeBehind "asm".toList) true (' ' :: '{' :: rest) = _
    rw [skipGap_blank (by decide)]
    exact skipGap_start (by decide +kernel) (by decide +kernel) (fun he => absurd he (by decide)) _ _
  have hbehind := Scanner.Emits.reads hblank (show reading true _ '{' rest = _ from hblock) rfl
    (Scanner.emits_end _ _)
  have hemits := Scanner.Emits.reads hgap (readToken_asm .start _) rfl hbehind
  rw [Reading.token_toList, Reading.token_toList] at hemits
  rw [toList_asm, placeBehind_append "asm ".toList]
  exact scan_eq hemits

/-! ## Leaves -/

/-- **Printed leaves are read back.**  A printed text, character, word or bit literal is one token with
its value, and the parts between the slots of a text are printed as one interpolated string with these
parts.  Raw text without blanks at its ends, in which no brace is closed that was not opened and none is
left open, is printed as the keyword and one block with the raw text. -/
theorem scan_leaves :
    (∀ text : String, ScansAs (Print.literal (.string text)) .stringLiteral (.string text)) ∧
    (∀ c : Char, ScansAs (Print.literal (.char c)) .charLiteral (.char c)) ∧
    (∀ n : UInt64, ScansAs (Print.literal (.int n)) .intLiteral (.int n)) ∧
    (∀ digits : String, digits ≠ "" → (∀ c ∈ digits.toList, c = '0' ∨ c = '1') →
      ScansAs (Print.literal (.bits digits)) .bitLiteral (.bits digits)) ∧
    (∀ (text : String) (values : List String),
      let parts := (Text.splitSlots text.toList).map String.ofList
      (∃ more, Print.interpolated parts values = interpolation parts ++ more ∧
        (more = "" ∨ [':', '{'] <+: more.toList)) ∧
      ScansAs (interpolation parts) .interpolatedString (.parts parts)) ∧
    (∀ raw : String, Text.trimBlanks raw.toList = raw.toList → Closes 0 raw.toList →
      scan (Print.asm raw) =
        ([⟨.kwAsm, "asm", ⟨.start, placeBehind "asm".toList⟩, none⟩,
          ⟨.asmBlock, asmBlock raw, ⟨placeBehind "asm ".toList, placeBehind (Print.asm raw).toList⟩,
            some (.string raw)⟩,
          endAt (placeBehind (Print.asm raw).toList)], [])) := by
  have plain : ∀ value : Literal, value.isPlain = true → ∀ v, value.word.literal = some v →
      ScansAs (Print.literal value) value.word.kind v := fun value h _ hv =>
    (Expr.legible_literal h .nil).scansAs (Expr.text_literal h) hv
  refine ⟨fun text => ?_, fun c => ?_, fun n => ?_, fun digits hne hdigits => ?_,
    fun text values => ⟨interpolated_eq _ values, ?_⟩, fun raw => scan_asm⟩
  · exact plain (.string text) rfl _ rfl
  · exact plain (.char c) rfl _ rfl
  · exact plain (.int n) rfl _ rfl
  · exact (legible_bits hne hdigits .nil).scansAs (by simp [Print.literal, Word.bits]) rfl
  · exact (legible_parts text.toList []).scansAs (toList_interpolation text) rfl

/-- Two bits, and raw text with nested braces. -/
theorem scan_leaves_nested :
    ScansAs "0b01" .bitLiteral (.bits "01") ∧
      (scan "asm \x7b \x7b\x7bx\x7d\x7d \x7d").1.map Token.literal =
        [none, some (.string "\x7b\x7bx\x7d\x7d"), none] := by
  have hcloses : Closes 0 "\x7b\x7bx\x7d\x7d".toList := by
    have hfront : ∀ front ∈ ['{', '{', 'x', '}', '}'].inits, front.count '}' ≤ front.count '{' + 0 := by
      decide
    exact ⟨fun front h => hfront front ((List.mem_inits _ _).2 h), by decide⟩
  refine ⟨scan_leaves.2.2.2.1 "01" (by decide) (forall_mem_of_all (by decide)), ?_⟩
  rw [show "asm \x7b \x7b\x7bx\x7d\x7d \x7d" = Print.asm "\x7b\x7bx\x7d\x7d" from rfl,
    scan_leaves.2.2.2.2.2 _ (by decide) hcloses]
  rfl

end Token

end FluxFront
