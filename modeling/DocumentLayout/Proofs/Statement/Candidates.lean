import DocumentLayout.Proofs.Statement.Lexemes
import DocumentLayout.Proofs.Text.Lines

/-!
# Candidates

A lexeme that opens a candidate can be told from the characters of the text: a statement keyword
stands there with white space behind it. So a text that splits into statements opens with such a
keyword, gaps and empty lines apart.
-/

namespace DocumentLayout

/-- The token of the keyword that a statement of this kind starts with. -/
def StatementKind.token : StatementKind → Statement.Token
  | .import => .import
  | .export => .export

namespace Statement

/-! ## Keywords -/

/-- A text that starts with a statement keyword and white space behind it. -/
def StartsKeyword (text : Text) : Prop :=
  ∃ kind c rest, text = StatementKind.keyword kind ++ c :: rest ∧ Text.isSpace c = true

theorem opensLine_iff {text : Text} :
    opensLine text = true ↔ StartsKeyword (Text.trimIndent text) := by
  unfold opensLine
  rw [List.any_eq_true]
  constructor
  · rintro ⟨kind, -, hkind⟩
    obtain ⟨c, hhead, hspace⟩ := (Option.any_eq_true _ _).1 hkind
    obtain ⟨rest, hrest, hc⟩ := Option.bind_eq_some_iff.1 hhead
    obtain ⟨more, rfl⟩ := List.head?_eq_some_iff.1 hc
    exact ⟨kind, c, more, (List.append_eq_of_isPrefixOf?_eq_some hrest).symm, hspace⟩
  · rintro ⟨kind, c, rest, htext, hspace⟩
    refine ⟨kind, by cases kind <;> simp, ?_⟩
    rw [htext, Text.dropPrefix?_append]
    exact hspace

theorem isWordRest_of_mem_keyword {kind : StatementKind} {c : Char} (h : c ∈ kind.keyword) :
    Token.isWordRest c = true := by
  have hall : kind.keyword.all Token.isWordRest = true := by cases kind <;> decide
  exact List.all_eq_true.1 hall c h

-- A keyword is a word, so it does not start with a gap.
theorem keyword_eq_cons (kind : StatementKind) :
    ∃ c rest, kind.keyword = c :: rest ∧ Token.isWordStart c = true ∧ Token.isGap c = false := by
  cases kind
  · exact ⟨'i', "mport".toList, rfl, by decide, by decide⟩
  · exact ⟨'e', "xport".toList, rfl, by decide, by decide⟩

theorem StartsKeyword.dropWhile_eq {text : Text} (h : StartsKeyword text) :
    text.dropWhile Token.isGap = text := by
  obtain ⟨kind, c, rest, rfl, -⟩ := h
  obtain ⟨d, letters, hkeyword, -, hgap⟩ := keyword_eq_cons kind
  rw [hkeyword, List.cons_append, List.dropWhile_cons_of_neg (by simp [hgap])]

theorem isSpace_of_isGap {c : Char} (h : Token.isGap c = true) : Text.isSpace c = true := by
  simp only [Token.isGap, Bool.or_eq_true, beq_iff_eq] at h
  rcases h with ((rfl | rfl) | rfl) | rfl <;> decide

theorem isGap_of_isIndent {c : Char} (h : Text.isIndent c = true) : Token.isGap c = true := by
  simp only [Text.isIndent, Bool.or_eq_true, beq_iff_eq] at h
  rcases h with rfl | rfl <;> decide

theorem StartsKeyword.trimIndent_eq {text : Text} (h : StartsKeyword text) :
    Text.trimIndent text = text := by
  obtain ⟨kind, c, rest, rfl, -⟩ := h
  obtain ⟨d, letters, hkeyword, -, hgap⟩ := keyword_eq_cons kind
  have hindent : Text.isIndent d ≠ true := fun hindent => by
    rw [isGap_of_isIndent hindent] at hgap
    exact absurd hgap (by decide)
  rw [hkeyword]
  exact List.dropWhile_cons_of_neg hindent

-- Such a text has no indentation, and is a text that the locator takes for a keyword line.
instance (text : Text) : Decidable (StartsKeyword text) :=
  decidable_of_iff (Text.trimIndent text = text ∧ opensLine text = true)
    ⟨fun ⟨htrim, hopens⟩ => htrim ▸ opensLine_iff.1 hopens,
      fun h => ⟨h.trimIndent_eq, opensLine_iff.2 (h.trimIndent_eq.symm ▸ h)⟩⟩

/-- The code points of white space. -/
def spaceCodes : List Nat :=
  List.range' 9 5 ++ List.range' 0x2000 11 ++
    [0x20, 0x85, 0xA0, 0x1680, 0x2028, 0x2029, 0x202F, 0x205F, 0x3000]

theorem toNat_mem_spaceCodes {c : Char} (h : Text.isSpace c = true) : c.toNat ∈ spaceCodes := by
  simp only [Text.isSpace, Bool.or_eq_true, Bool.and_eq_true, decide_eq_true_eq, beq_iff_eq] at h
  simp only [spaceCodes, List.mem_append, List.mem_range'_1, List.mem_cons, List.not_mem_nil,
    or_false]
  omega

theorem isWordRest_of_isSpace {c : Char} (h : Text.isSpace c = true) :
    Token.isWordRest c = false := by
  have hcodes : ∀ code ∈ spaceCodes, Token.isWordRest (Char.ofNat code) = false := by decide
  rw [← Char.ofNat_toNat c]
  exact hcodes _ (toNat_mem_spaceCodes h)

theorem ofWord_eq_token {word : Text} {kind : StatementKind} :
    Token.ofWord word = kind.token ↔ word = kind.keyword := by
  by_cases himport : word = "import".toList
  · subst himport
    cases kind <;> decide +kernel
  by_cases hexport : word = "export".toList
  · subst hexport
    cases kind <;> decide +kernel
  -- The words behind the two keywords in the table have tokens of their own.
  have hother : Token.ofWord word ≠ .import ∧ Token.ofWord word ≠ .export := by
    unfold Token.ofWord
    rw [if_neg himport, if_neg hexport]
    split_ifs <;> exact ⟨nofun, nofun⟩
  cases kind
  · exact iff_of_false hother.1 himport
  · exact iff_of_false hother.2 hexport

/-! ## Lexemes and their characters -/

theorem Token.longest_cases (c : Char) (rest : Text) :
    (∃ word, longest c rest = (some (ofWord word), word)) ∨
      (∃ text, longest c rest = (some .string, text) ∨ longest c rest = (none, text)) ∨
      longest c rest = (ofMark? c, [c]) := by
  unfold longest
  split
  · exact .inl ⟨_, rfl⟩
  · split
    · obtain ⟨body, closed⟩ := stringBody c rest
      refine .inr (.inl ⟨c :: body, ?_⟩)
      cases closed
      · exact .inr rfl
      · exact .inl rfl
    · exact .inr (.inr rfl)

theorem Token.ofMark?_ne_token (c : Char) (kind : StatementKind) :
    ofMark? c ≠ some kind.token := by
  fun_cases ofMark? c <;> cases kind <;> simp [StatementKind.token]

theorem Token.ofMark?_eq_newline {c : Char} (h : ofMark? c = some .newline) : c = '\n' := by
  revert h
  fun_cases ofMark? c <;> simp

theorem Token.ofWord_ne_newline (word : Text) : ofWord word ≠ .newline := by
  fun_cases ofWord word <;> simp

-- Only a keyword has the token of one, and only a line feed that of a line break.
theorem Token.longest_of_keyword {c : Char} {rest : Text} {kind : StatementKind}
    (h : (longest c rest).1 = some kind.token) : (longest c rest).2 = kind.keyword := by
  rcases longest_cases c rest with ⟨word, hword⟩ | ⟨text, hstring | hnone⟩ | hmark
  · rw [hword] at h ⊢
    exact ofWord_eq_token.1 (Option.some.inj h)
  · rw [hstring] at h
    cases kind <;> simp [StatementKind.token] at h
  · simp [hnone] at h
  · rw [hmark] at h
    exact absurd h (ofMark?_ne_token c kind)

theorem Token.longest_of_newline {c : Char} {rest : Text}
    (h : (longest c rest).1 = some .newline) : (longest c rest).2 = ['\n'] := by
  rcases longest_cases c rest with ⟨word, hword⟩ | ⟨text, hstring | hnone⟩ | hmark
  · rw [hword] at h
    exact absurd (Option.some.inj h) (ofWord_ne_newline word)
  · simp [hstring] at h
  · simp [hnone] at h
  · rw [hmark] at h ⊢
    rw [ofMark?_eq_newline h]

namespace Lexeme

theorem gap_cut (c : Char) (rest : Text) : (cut c rest).1.gap.all Token.isGap = true :=
  List.all_takeWhile

theorem ofTrimmed_eq_cons {text : Text} {lexeme : Lexeme} {lexemes : List Lexeme}
    (h : ofTrimmed text = lexeme :: lexemes) :
    ∃ c rest, text = c :: rest ∧ lexeme = (cut c rest).1 ∧ lexemes = ofTrimmed (cut c rest).2 := by
  cases text with
  | nil => simp [ofTrimmed] at h
  | cons c rest =>
    rw [ofTrimmed] at h
    obtain ⟨rfl, rfl⟩ := List.cons.inj h
    exact ⟨c, rest, rfl, rfl, rfl⟩

theorem is_keyword_iff {lexeme : Lexeme} :
    (lexeme.is .import || lexeme.is .export) = true ↔
      ∃ kind : StatementKind, lexeme.token = some kind.token := by
  simp only [is, Bool.or_eq_true, beq_iff_eq]
  constructor
  · rintro (h | h)
    · exact ⟨.import, h⟩
    · exact ⟨.export, h⟩
  · rintro ⟨kind, h⟩
    cases kind
    · exact .inl h
    · exact .inr h

/-- A lexeme that opens a candidate is a keyword with white space behind it. -/
theorem startsKeyword_of_opens {text : Text} {lexeme : Lexeme} {lexemes : List Lexeme}
    (h : ofTrimmed text = lexeme :: lexemes) (hopens : lexeme.opens lexemes = true) :
    StartsKeyword text := by
  obtain ⟨c, rest, rfl, rfl, rfl⟩ := ofTrimmed_eq_cons h
  obtain ⟨hkeyword, hspaced⟩ := Bool.and_eq_true_iff.1 hopens
  obtain ⟨kind, hkind⟩ := is_keyword_iff.1 hkeyword
  have htext : (cut c rest).1.text = kind.keyword := Token.longest_of_keyword hkind
  have hall := span_cut c rest
  rw [span, htext, List.append_assoc] at hall
  -- The white space is the gap of the keyword, or else the lexeme behind it starts with it.
  unfold isSpaced at hspaced
  split at hspaced
  case h_1 d gap hgap =>
    have hd : Token.isGap d = true := by
      have := gap_cut c rest
      rw [hgap] at this
      simp only [List.all_cons, Bool.and_eq_true] at this
      exact this.1
    rw [hgap] at hall
    exact ⟨kind, d, _, hall.symm, isSpace_of_isGap hd⟩
  case h_2 next more hgap hnext =>
    obtain ⟨d, behind, hbehind, rfl, -⟩ := ofTrimmed_eq_cons hnext
    obtain ⟨e, he, hspace⟩ := (Option.any_eq_true _ _).1 hspaced
    have hfirst : e = d := by
      obtain ⟨letters, hletters⟩ := Token.longest_eq_cons d behind
      rw [show (cut d behind).1.text = d :: letters from hletters] at he
      exact (Option.some.inj he).symm
    rw [hgap, hbehind] at hall
    exact ⟨kind, d, behind, hall.symm, hfirst ▸ hspace⟩
  case h_3 => simp at hspaced

end Lexeme

/-! ## Texts that split into statements -/

theorem candidates_of_opens {atLineStart : Bool} {lexeme : Lexeme} {lexemes : List Lexeme}
    (h : (atLineStart && lexeme.opens lexemes) = true) :
    candidates atLineStart (lexeme :: lexemes) =
      ([], (lexeme :: (candidates (lexeme.is .newline) lexemes).1) ::
        (candidates (lexeme.is .newline) lexemes).2) := by
  simp [candidates, h]

theorem candidates_of_not_opens {atLineStart : Bool} {lexeme : Lexeme} {lexemes : List Lexeme}
    (h : (atLineStart && lexeme.opens lexemes) = false) :
    candidates atLineStart (lexeme :: lexemes) =
      (lexeme :: (candidates (lexeme.is .newline) lexemes).1,
        (candidates (lexeme.is .newline) lexemes).2) := by
  simp [candidates, h]

/-- Behind its first gap a text that splits into statements has a keyword, or ends its line. -/
theorem startsKeyword_of_split? {text : Text} {statements : List Statement}
    (h : split? text = some statements) :
    StartsKeyword (text.dropWhile Token.isGap) ∨
      ∃ rest, text.dropWhile Token.isGap = '\n' :: rest := by
  unfold split? at h
  cases hlexemes : Lexeme.ofText text with
  | nil => simp [hlexemes, candidates] at h
  | cons lexeme lexemes =>
    cases hopens : lexeme.opens lexemes with
    | true => exact .inl (Lexeme.startsKeyword_of_opens hlexemes hopens)
    | false =>
      -- The first lexeme stands in front of all candidates, so it is a line break.
      rw [hlexemes, candidates_of_not_opens (by simp [hopens])] at h
      dsimp only at h
      split at h
      · rename_i hfront
        have hnewline : lexeme.is .newline = true := by
          simp only [List.all_cons, Bool.and_eq_true] at hfront
          exact hfront.1
        obtain ⟨c, rest, htext, rfl, -⟩ := Lexeme.ofTrimmed_eq_cons hlexemes
        have hfeed : (Lexeme.cut c rest).1.text = ['\n'] :=
          Token.longest_of_newline (beq_iff_eq.1 hnewline)
        have hall := Lexeme.span_cut c rest
        rw [Lexeme.span, hfeed] at hall
        exact .inr ⟨_, htext.trans hall.symm⟩
      · simp at h

end Statement

end DocumentLayout
