import DocumentLayout.Proofs.Statement.Continuation
import DocumentLayout.Proofs.Statement.Splitting

/-!
# Spelling

The symbols of a statement may stand side by side or apart, on one line or on several: only words
need something between them. However they are spaced, the same symbols are read back. A text with a
statement keyword in front of such symbols, and no keyword among them, is one candidate.
-/

namespace DocumentLayout

namespace Statement

/-! ## Symbols -/

/-- Whether a text is a word of ASCII letters, digits, `_` and `$` that starts with no digit. -/
def Token.isWord : Text → Bool
  | [] => false
  | c :: rest => isWordStart c && rest.all isWordRest

structure Word where
  text : Text
  isWord : Token.isWord text = true

/-- The characters that are symbols of their own. -/
inductive Mark where
  | braceOpen
  | braceClose
  | star
  | comma
  | semicolon
  deriving DecidableEq, Repr, Inhabited

namespace Mark

def char : Mark → Char
  | braceOpen => '{'
  | braceClose => '}'
  | star => '*'
  | comma => ','
  | semicolon => ';'

def token : Mark → Token
  | braceOpen => .braceOpen
  | braceClose => .braceClose
  | star => .star
  | comma => .comma
  | semicolon => .semicolon

end Mark

/-- The name of a module as a statement gives it: a text in quotes that are not inside of it, on one
line and without backslashes. -/
structure Source where
  quote : Char
  inside : Text
  isQuote : Token.isQuote quote = true
  isPlain : ∀ c ∈ inside, c ≠ quote ∧ c ≠ '\\' ∧ c ≠ '\n'

namespace Source

def text (source : Source) : Text := source.quote :: (source.inside ++ [source.quote])

theorem feed_not_mem_text (source : Source) : '\n' ∉ source.text := by
  have hquote : '\n' ≠ source.quote := by
    intro hfeed
    have := source.isQuote
    rw [← hfeed] at this
    exact absurd this (by decide)
  simp only [text, List.mem_cons, List.mem_append, List.not_mem_nil, or_false, not_or]
  exact ⟨hquote, fun hmem => (source.isPlain _ hmem).2.2 rfl, hquote⟩

end Source

/-- A symbol of a statement as it is written. -/
inductive Symbol where
  | word (w : Word)
  | mark (m : Mark)
  | source (name : Source)

namespace Symbol

def text : Symbol → Text
  | word w => w.text
  | mark m => [m.char]
  | source name => name.text

def token : Symbol → Token
  | word w => .ofWord w.text
  | mark m => m.token
  | source _ => .string

/-- The tokens of symbols. -/
def tokens (symbols : List Symbol) : List (Option Token) :=
  symbols.map fun symbol => some symbol.token

@[simp] theorem tokens_nil : tokens [] = [] := rfl

@[simp] theorem tokens_cons (symbol : Symbol) (symbols : List Symbol) :
    tokens (symbol :: symbols) = some symbol.token :: tokens symbols := rfl

@[simp] theorem tokens_append (front back : List Symbol) :
    tokens (front ++ back) = tokens front ++ tokens back := List.map_append

/-- Whether a symbol runs on when the character of a word stands directly behind it. -/
def isWord : Symbol → Bool
  | word _ => true
  | _ => false

end Symbol

theorem Token.isWord_iff {text : Text} :
    isWord text = true ↔ ∃ c rest, text = c :: rest ∧ isWordStart c = true ∧
      rest.all isWordRest = true := by
  cases text with
  | nil => simp [isWord]
  | cons c rest => simp [isWord]

theorem Token.isSpace_of_isWord {text : Text} (h : isWord text = true) :
    ∀ c ∈ text, Text.isSpace c = false := by
  obtain ⟨first, rest, rfl, hfirst, hrest⟩ := isWord_iff.1 h
  intro c hc
  have hword : isWordRest c = true := by
    rcases List.mem_cons.1 hc with rfl | hc
    · exact isWordRest_of_isWordStart hfirst
    · exact List.all_eq_true.1 hrest c hc
  cases hspace : Text.isSpace c with
  | false => rfl
  | true => simp [isWordRest_of_isSpace hspace] at hword

namespace Symbol

theorem feed_not_mem_text (symbol : Symbol) : '\n' ∉ symbol.text := by
  cases symbol with
  | word w =>
    intro hmem
    exact absurd (Token.isSpace_of_isWord w.isWord _ hmem) (by decide)
  | mark m => cases m <;> decide
  | source name => exact name.feed_not_mem_text

-- A symbol starts with a character that is no white space, and only a word with one of a word.
theorem text_eq_cons (symbol : Symbol) :
    ∃ c rest, symbol.text = c :: rest ∧ Text.isSpace c = false ∧
      (symbol.isWord = false → Token.isWordRest c = false) := by
  cases symbol with
  | word w =>
    obtain ⟨c, rest, htext, -, -⟩ := Token.isWord_iff.1 w.isWord
    refine ⟨c, rest, htext, Token.isSpace_of_isWord w.isWord c ?_, nofun⟩
    exact htext ▸ List.mem_cons_self ..
  | mark m => cases m <;> exact ⟨_, [], rfl, by decide, fun _ => by decide⟩
  | source name =>
    have hquote := name.isQuote
    simp only [Token.isQuote, Bool.or_eq_true, beq_iff_eq] at hquote
    refine ⟨name.quote, _, rfl, ?_, fun _ => ?_⟩ <;> rcases hquote with h | h <;> rw [h] <;>
      decide

theorem isSpace_of_getLast?_text {symbol : Symbol} {c : Char}
    (h : symbol.text.getLast? = some c) : Text.isSpace c = false := by
  cases symbol with
  | word w => exact Token.isSpace_of_isWord w.isWord c (List.mem_of_getLast? h)
  | mark m =>
    obtain ⟨d, rest, hd, hspace, -⟩ := text_eq_cons (.mark m)
    obtain ⟨rfl, rfl⟩ : m.char = d ∧ [] = rest := List.cons.inj hd
    obtain rfl : m.char = c := by simpa [text] using h
    exact hspace
  | source name =>
    obtain ⟨d, rest, hd, hspace, -⟩ := text_eq_cons (.source name)
    obtain ⟨rfl, -⟩ : name.quote = d ∧ name.inside ++ [name.quote] = rest := List.cons.inj hd
    obtain rfl : name.quote = c := by
      rw [text, Source.text, ← List.cons_append, List.getLast?_concat] at h
      exact Option.some.inj h
    exact hspace

end Symbol

/-! ## Reading a symbol -/

/-- The tokens of a text without the line breaks. -/
def tokens (text : Text) : List (Option Token) :=
  ((Lexeme.ofText text).filter fun lexeme => !lexeme.is .newline).map (·.token)

theorem tokens_nil : tokens [] = [] := by
  simp [tokens, Lexeme.ofText, Lexeme.ofTrimmed]

theorem Token.stringBody_append_quote {quote : Char} {inside : Text}
    (h : ∀ c ∈ inside, c ≠ quote ∧ c ≠ '\\' ∧ c ≠ '\n') (hquote : quote ≠ '\\') (rest : Text) :
    stringBody quote (inside ++ quote :: rest) = (inside ++ [quote], true) := by
  induction inside with
  | nil =>
    rw [List.nil_append, List.nil_append, stringBody, if_pos rfl]
    · exact fun _ hback => absurd hback hquote
    · exact fun _ _ hback => absurd hback hquote
  | cons c inside ih =>
    obtain ⟨⟨hc, hback, hfeed⟩, hinside⟩ := List.forall_mem_cons.1 h
    rw [List.cons_append, List.cons_append, stringBody, if_neg hc, if_neg hfeed, ih hinside]
    · exact fun _ hslash => absurd hslash hback
    · exact fun _ _ hslash => absurd hslash hback

-- A symbol is the longest lexeme at its start, unless a word runs on behind it.
theorem Symbol.longest_eq {symbol : Symbol} {rest : Text}
    (hstop : symbol.isWord = true → ∀ c ∈ rest.head?, Token.isWordRest c = false) :
    ∃ c more, symbol.text = c :: more ∧ Token.isGap c = false ∧
      Token.longest c (more ++ rest) = (some symbol.token, symbol.text) := by
  obtain ⟨c, more, htext, hspace, -⟩ := symbol.text_eq_cons
  have hgap : Token.isGap c = false := by
    cases hgap : Token.isGap c with
    | false => rfl
    | true => simp [isSpace_of_isGap hgap] at hspace
  refine ⟨c, more, htext, hgap, ?_⟩
  cases symbol with
  | word w =>
    obtain ⟨d, letters, hletters, hd, hall⟩ := Token.isWord_iff.1 w.isWord
    obtain ⟨rfl, rfl⟩ : d = c ∧ letters = more := List.cons.inj (hletters.symm.trans htext)
    have hend : (letters ++ rest).takeWhile Token.isWordRest = letters := by
      rw [List.takeWhile_append_of_pos (List.all_eq_true.1 hall)]
      cases rest with
      | nil => simp
      | cons e rest =>
        rw [List.takeWhile_cons_of_neg (by simp [hstop rfl e rfl]), List.append_nil]
    rw [Token.longest, if_pos hd, hend, token, text, hletters]
  | mark m =>
    obtain ⟨rfl, rfl⟩ : m.char = c ∧ [] = more := List.cons.inj htext
    cases m <;> rfl
  | source name =>
    obtain ⟨rfl, rfl⟩ : name.quote = c ∧ name.inside ++ [name.quote] = more :=
      List.cons.inj htext
    have hquote := name.isQuote
    have hstart : Token.isWordStart name.quote = false := by
      simp only [Token.isQuote, Bool.or_eq_true, beq_iff_eq] at hquote
      rcases hquote with h | h <;> rw [h] <;> decide
    have hback : name.quote ≠ '\\' := by
      rintro hback
      rw [hback] at hquote
      exact absurd hquote (by decide)
    rw [Token.longest, if_neg (by simp [hstart]), if_pos hquote, List.append_assoc,
      List.singleton_append, Token.stringBody_append_quote name.isPlain hback]
    rfl

namespace Lexeme

theorem ofText_of_longest {c : Char} {more rest : Text} {token : Option Token}
    (hgap : Token.isGap c = false)
    (h : Token.longest c (more ++ rest) = (token, c :: more)) :
    ofText (c :: more ++ rest) = ⟨token, c :: more, rest.takeWhile Token.isGap⟩ :: ofText rest := by
  have hdrop : (c :: (more ++ rest)).drop (c :: more).length = rest := by
    rw [← List.cons_append, List.drop_left]
  rw [ofText, List.cons_append, List.dropWhile_cons_of_neg (by simp [hgap]), ofTrimmed, cut, h]
  dsimp only
  rw [hdrop, ofText]

theorem ofText_symbol {symbol : Symbol} {rest : Text}
    (hstop : symbol.isWord = true → ∀ c ∈ rest.head?, Token.isWordRest c = false) :
    ofText (symbol.text ++ rest) =
      ⟨some symbol.token, symbol.text, rest.takeWhile Token.isGap⟩ :: ofText rest := by
  obtain ⟨c, more, htext, hgap, hlongest⟩ := Symbol.longest_eq hstop
  rw [htext] at hlongest ⊢
  exact ofText_of_longest hgap hlongest

end Lexeme

theorem Symbol.token_ne_newline (symbol : Symbol) : symbol.token ≠ .newline := by
  cases symbol with
  | word w => exact Token.ofWord_ne_newline w.text
  | mark m => cases m <;> simp [token, Mark.token]
  | source name => simp [token]

theorem tokens_symbol {symbol : Symbol} {rest : Text}
    (hstop : symbol.isWord = true → ∀ c ∈ rest.head?, Token.isWordRest c = false) :
    tokens (symbol.text ++ rest) = some symbol.token :: tokens rest := by
  have hnewline := symbol.token_ne_newline
  rw [tokens, Lexeme.ofText_symbol hstop, List.filter_cons_of_pos (by simp [Lexeme.is, hnewline]),
    List.map_cons, tokens]

/-! ## Spaces between symbols -/

/-- Whether a text is made of spaces, tabs and line feeds. -/
def isSpacing (gap : Text) : Bool := gap.all fun c => Text.isIndent c || c == '\n'

theorem tokens_feed (rest : Text) : tokens ('\n' :: rest) = tokens rest := by
  rw [tokens, Lexeme.ofText, List.dropWhile_cons_of_neg (by decide), Lexeme.ofTrimmed_feed,
    List.filter_cons_of_neg (by simp [Lexeme.is]), tokens, Lexeme.ofText]

/-- What is read does not depend on the spacing in front of it. -/
theorem tokens_spacing {gap : Text} (h : isSpacing gap = true) (rest : Text) :
    tokens (gap ++ rest) = tokens rest := by
  induction gap with
  | nil => rfl
  | cons c gap ih =>
    simp only [isSpacing, List.all_cons, Bool.and_eq_true, Bool.or_eq_true, beq_iff_eq] at h
    rw [List.cons_append]
    rcases h.1 with hindent | rfl
    · -- The lexer skips the character, as it does the rest of the gap.
      rw [← ih h.2, tokens, Lexeme.ofText,
        List.dropWhile_cons_of_pos (isGap_of_isIndent hindent), tokens, Lexeme.ofText]
    · rw [tokens_feed, ih h.2]

theorem isSpace_of_isSpacing {gap : Text} (h : isSpacing gap = true) :
    ∀ c ∈ gap, Text.isSpace c = true := by
  intro c hc
  have hc := List.all_eq_true.1 h c hc
  simp only [Bool.or_eq_true, beq_iff_eq] at hc
  rcases hc with hindent | rfl
  · exact Text.isSpace_of_isIndent hindent
  · decide

/-- Symbols in a row with any spacing between them. Between two words there is some. -/
inductive Spells : List Symbol → Text → Prop
  | last (symbol : Symbol) : Spells [symbol] symbol.text
  | next {symbol other : Symbol} {symbols : List Symbol} {gap text : Text}
      (hgap : isSpacing gap = true)
      (hapart : symbol.isWord = true → other.isWord = true → gap ≠ [])
      (h : Spells (other :: symbols) text) :
      Spells (symbol :: other :: symbols) (symbol.text ++ gap ++ text)

namespace Spells

theorem exists_eq_append {symbol : Symbol} {symbols : List Symbol} {text : Text}
    (h : Spells (symbol :: symbols) text) : ∃ rest, text = symbol.text ++ rest := by
  cases h with
  | last => exact ⟨[], (List.append_nil _).symm⟩
  | @next _ other symbols gap text hgap hapart h => exact ⟨gap ++ text, List.append_assoc ..⟩

/-- The symbols are read back, and nothing else is. -/
theorem tokens_eq {symbols : List Symbol} {text : Text} (h : Spells symbols text) :
    tokens text = Symbol.tokens symbols := by
  induction h with
  | last symbol =>
    have hone := @tokens_symbol symbol [] (by simp)
    rwa [List.append_nil, tokens_nil] at hone
  | @next symbol other symbols gap text hgap hapart h ih =>
    rw [List.append_assoc, tokens_symbol, tokens_spacing hgap, ih]
    · rfl
    intro hword c hc
    -- Behind a word there is spacing, or a symbol that is no word.
    cases gap with
    | cons d gap =>
      obtain rfl : d = c := by simpa using hc
      exact isWordRest_of_isSpace (isSpace_of_isSpacing hgap d (List.mem_cons_self ..))
    | nil =>
      obtain ⟨d, more, hd, -, hrest⟩ := other.text_eq_cons
      obtain ⟨rest, rfl⟩ := h.exists_eq_append
      obtain rfl : d = c := by simpa [hd] using hc
      refine hrest (Bool.eq_false_iff.2 fun hother => ?_)
      exact hapart hword hother rfl

theorem getLast?_text {symbols : List Symbol} {text : Text} (h : Spells symbols text) :
    ∃ c, text.getLast? = some c ∧ Text.isSpace c = false := by
  induction h with
  | last symbol =>
    obtain ⟨d, more, hd, -, -⟩ := symbol.text_eq_cons
    have hne : symbol.text ≠ [] := by simp [hd]
    exact ⟨_, List.getLast?_eq_some_getLast hne,
      Symbol.isSpace_of_getLast?_text (List.getLast?_eq_some_getLast hne)⟩
  | next _ _ _ ih =>
    obtain ⟨c, hc, hspace⟩ := ih
    exact ⟨c, by rw [List.getLast?_append, hc]; rfl, hspace⟩

/-- Symbols with a single space between any two of them. -/
theorem spells_intercalate {symbols : List Symbol} (h : symbols ≠ []) :
    Spells symbols ([' '].intercalate (symbols.map Symbol.text)) := by
  induction symbols with
  | nil => exact absurd rfl h
  | cons symbol symbols ih =>
    cases symbols with
    | nil =>
      rw [List.map_singleton, List.intercalate_singleton]
      exact .last symbol
    | cons other symbols =>
      rw [List.map_cons, List.map_cons, List.intercalate_cons_cons, ← List.map_cons]
      exact .next (by decide) (by simp) (ih (by simp))

end Spells

/-! ## One candidate -/

-- Without keywords there are no candidates.
theorem candidates_of_closed {lexemes : List Lexeme}
    (h : ∀ lexeme ∈ lexemes, ∀ kind : StatementKind, lexeme.token ≠ some kind.token)
    (atLineStart : Bool) : candidates atLineStart lexemes = (lexemes, []) := by
  induction lexemes generalizing atLineStart with
  | nil => rfl
  | cons lexeme rest ih =>
    obtain ⟨hlexeme, hrest⟩ := List.forall_mem_cons.1 h
    have hclosed : lexeme.opens rest = false := by
      refine Bool.eq_false_iff.2 fun hopens => ?_
      obtain ⟨kind, hkind⟩ := Lexeme.is_keyword_iff.1 (Bool.and_eq_true_iff.1 hopens).1
      exact hlexeme kind hkind
    rw [candidates_of_not_opens (by simp [hclosed]), ih hrest]

-- Nor are there any without line breaks when none may start at once.
theorem candidates_of_unbroken {lexemes : List Lexeme}
    (h : ∀ lexeme ∈ lexemes, lexeme.is .newline = false) :
    candidates false lexemes = (lexemes, []) := by
  induction lexemes with
  | nil => rfl
  | cons lexeme rest ih =>
    obtain ⟨hlexeme, hrest⟩ := List.forall_mem_cons.1 h
    rw [candidates_of_not_opens (by simp), hlexeme, ih hrest]

theorem is_newline_of_not_mem {text : Text} (h : '\n' ∉ text) :
    ∀ lexeme ∈ Lexeme.ofTrimmed text, lexeme.is .newline = false := by
  intro lexeme hlexeme
  refine Bool.eq_false_iff.2 fun hnewline => h ?_
  have htext := (Lexeme.isRead_of_mem hlexeme).text_of_newline hnewline
  have hmem : '\n' ∈ Lexeme.spans (Lexeme.ofTrimmed text) :=
    Lexeme.mem_spans hlexeme (by simp [htext])
  rwa [Lexeme.spans_ofTrimmed] at hmem

-- A line break has a token of its own, so what is no keyword among the tokens is none at all.
theorem ne_token_of_tokens {lexemes : List Lexeme} {kind : StatementKind}
    (h : some kind.token ∉ (lexemes.filter fun lexeme => !lexeme.is .newline).map (·.token)) :
    ∀ lexeme ∈ lexemes, lexeme.token ≠ some kind.token := by
  intro lexeme hlexeme htoken
  refine h (List.mem_map.2 ⟨lexeme, List.mem_filter.2 ⟨hlexeme, ?_⟩, htoken⟩)
  cases kind <;> simp [Lexeme.is, htoken, StatementKind.token]

/-- A text that opens with a statement keyword, has no other one at the start of a line and has the
shape of a statement is one statement. -/
theorem split?_of_tokens {text : Text} {token : Option Token} {others : List (Option Token)}
    {shape : Shape} (hstarts : StartsKeyword text) (htokens : tokens text = token :: others)
    (hothers : (∀ kind : StatementKind, some kind.token ∉ others) ∨ '\n' ∉ text)
    (hshape : shape? (token :: others) = some shape) :
    split? text = some [ofShape shape text] := by
  have hlexemes : Lexeme.ofText text = Lexeme.ofTrimmed text := by
    rw [Lexeme.ofText, hstarts.dropWhile_eq]
  obtain ⟨lexeme, lexemes, hall, hopens⟩ := Lexeme.exists_opens_of_startsKeyword hstarts
  have hgroup : tokens text = ((lexeme :: lexemes).filter fun lexeme =>
      !lexeme.is .newline).map (·.token) := by rw [tokens, hlexemes, hall]
  -- The first lexeme is the keyword, so it is the first of the tokens.
  obtain ⟨kind, hkind⟩ := Lexeme.is_keyword_iff.1 (Bool.and_eq_true_iff.1 hopens).1
  have hnewline : lexeme.is .newline = false := by
    cases kind <;> simp [Lexeme.is, hkind, StatementKind.token]
  have hrest : (lexemes.filter fun lexeme => !lexeme.is .newline).map (·.token) = others := by
    rw [htokens, List.filter_cons_of_pos (by simp [hnewline]), List.map_cons] at hgroup
    exact (List.cons.inj hgroup).2.symm
  have hclosed : candidates false lexemes = (lexemes, []) := by
    rcases hothers with hothers | hfeed
    · exact candidates_of_closed (fun lexeme hlexeme kind =>
        ne_token_of_tokens (hrest ▸ hothers kind) lexeme hlexeme) false
    · refine candidates_of_unbroken fun other hother => is_newline_of_not_mem hfeed other ?_
      exact hall ▸ List.mem_cons_of_mem _ hother
  have hspans : Lexeme.spans (lexeme :: lexemes) = text := by
    rw [← hall, Lexeme.spans_ofTrimmed]
  rw [split?, hlexemes, hall, candidates_of_opens (by simp [hopens]), hnewline, hclosed]
  simp only [List.all_nil, ↓reduceIte]
  rw [candidateShape?, ← hgroup, htokens, hshape, Option.map_some, settle, hspans]

end Statement

/-! ## Blocks of one text -/

namespace Text

theorem cutAt?_of_not_infix {mark text : Text} (h : ¬ mark <:+: text) :
    cutAt? mark text = none := by
  cases hcut : cutAt? mark text with
  | none => rfl
  | some parts => exact absurd ⟨parts.1, parts.2, (eq_of_cutAt? hcut).symm⟩ h

theorem trimEnd_of_getLast? {text : Text} {c : Char} (h : text.getLast? = some c)
    (hspace : isSpace c = false) : trimEnd text = text := by
  obtain ⟨front, rfl⟩ := List.getLast?_eq_some_iff.1 h
  rw [trimEnd_append (List.mem_singleton_self c) hspace, trimEnd, List.reverse_singleton,
    List.dropWhile_cons_of_neg (by simp [hspace]), List.reverse_singleton]

end Text

/-- A text without empty lines that ends on a line is the block in front of the next empty line. -/
theorem StatementBlock.read?_of_split? {text : Text} {statements : List Statement}
    (hsplit : Statement.split? text = some statements) (hsingle : ¬ separator <:+: text)
    (hlast : text.getLast? ≠ some '\n') (rest : Text) :
    read? (text ++ '\n' :: '\n' :: rest) = some ⟨text, statements⟩ := by
  have hcut : Text.cutAt? ['\n', '\n'] (text ++ ['\n']) = none := by
    refine Text.cutAt?_of_not_infix fun hpart => ?_
    rcases List.infix_concat_iff.1 hpart with ⟨front, hfront⟩ | hpart
    · -- The text would end with the first of two line feeds.
      rw [List.append_cons front '\n' ['\n']] at hfront
      obtain ⟨rfl, -⟩ := List.append_inj' hfront rfl
      simp at hlast
    · exact hsingle hpart
  rw [read?, separator, Text.cutAt?_feed_feed hcut, Option.bind_some]
  dsimp only
  rw [hsplit, Option.map_some]

namespace Statement

/-- A text that is a statement keyword, some spacing and then the symbols, without an empty line. -/
structure Writes (kind : StatementKind) (symbols : List Symbol) (text : Text) : Prop where
  symbols : ∃ gap rest, text = kind.keyword ++ gap ++ rest ∧ gap ≠ [] ∧ isSpacing gap = true ∧
    Spells symbols rest
  single : ¬ StatementBlock.separator <:+: text

namespace Writes

variable {kind : StatementKind} {symbols : List Symbol} {text : Text}

theorem startsKeyword (h : Writes kind symbols text) : StartsKeyword text := by
  obtain ⟨gap, rest, rfl, hne, hgap, -⟩ := h.symbols
  obtain ⟨c, gap, rfl⟩ := List.exists_cons_of_ne_nil hne
  exact ⟨kind, c, gap ++ rest, by simp, isSpace_of_isSpacing hgap c (List.mem_cons_self ..)⟩

theorem tokens_eq (h : Writes kind symbols text) :
    tokens text = some kind.token :: Symbol.tokens symbols := by
  obtain ⟨gap, rest, rfl, hne, hgap, hspells⟩ := h.symbols
  have hword : Token.isWord kind.keyword = true := by cases kind <;> decide
  have hkeyword := @tokens_symbol (.word ⟨kind.keyword, hword⟩) (gap ++ rest) ?_
  · rw [show (Symbol.word ⟨kind.keyword, hword⟩).token = kind.token from ofWord_eq_token.2 rfl]
      at hkeyword
    rw [List.append_assoc]
    exact hkeyword.trans (by rw [tokens_spacing hgap, hspells.tokens_eq])
  · obtain ⟨c, gap, rfl⟩ := List.exists_cons_of_ne_nil hne
    intro _ d hd
    obtain rfl : c = d := by simpa using hd
    exact isWordRest_of_isSpace (isSpace_of_isSpacing hgap c (List.mem_cons_self ..))

theorem getLast?_text (h : Writes kind symbols text) :
    ∃ c, text.getLast? = some c ∧ Text.isSpace c = false := by
  obtain ⟨gap, rest, rfl, -, -, hspells⟩ := h.symbols
  obtain ⟨c, hc, hspace⟩ := hspells.getLast?_text
  exact ⟨c, by rw [List.getLast?_append, hc]; rfl, hspace⟩

/-- A text of the shape of a statement, without a keyword that may start another one, is read as
that one statement in front of an empty line. -/
theorem read?_eq_some (h : Writes kind symbols text)
    (hothers : (∀ other : StatementKind, some other.token ∉ Symbol.tokens symbols) ∨ '\n' ∉ text)
    {shape : Shape} (hshape : shape? (some kind.token :: Symbol.tokens symbols) = some shape)
    (rest : Text) :
    StatementBlock.read? (text ++ '\n' :: '\n' :: rest) =
      some ⟨text, [⟨shape.kind, shape.isDefaultExport, text⟩]⟩ := by
  obtain ⟨c, hlast, hspace⟩ := h.getLast?_text
  have hsplit := split?_of_tokens h.startsKeyword h.tokens_eq hothers hshape
  rw [ofShape, Text.trimEnd_of_getLast? hlast hspace] at hsplit
  refine StatementBlock.read?_of_split? hsplit h.single (fun hfeed => ?_) rest
  obtain rfl : c = '\n' := Option.some.inj (hlast.symm.trans hfeed)
  exact absurd hspace (by decide)

/-- The symbols with single spaces between them. -/
def spaced (kind : StatementKind) (symbols : List Symbol) : Text :=
  kind.keyword ++ [' '] ++ [' '].intercalate (symbols.map Symbol.text)

theorem feed_not_mem_spaced (kind : StatementKind) (symbols : List Symbol) :
    '\n' ∉ spaced kind symbols := by
  intro hmem
  have hkeyword : '\n' ∉ kind.keyword ++ [' '] := by cases kind <;> decide
  rcases List.mem_append.1 hmem with hmem | hmem
  · exact hkeyword hmem
  · rcases Text.mem_of_mem_intercalate hmem with hmem | ⟨piece, hpiece, hmem⟩
    · simp at hmem
    · obtain ⟨symbol, -, rfl⟩ := List.mem_map.1 hpiece
      exact symbol.feed_not_mem_text hmem

theorem of_spaced (kind : StatementKind) (h : symbols ≠ []) :
    Writes kind symbols (spaced kind symbols) where
  symbols := ⟨_, _, rfl, by simp, by decide, Spells.spells_intercalate h⟩
  single hpart := feed_not_mem_spaced kind symbols
    (hpart.subset (List.mem_cons_self .. : '\n' ∈ StatementBlock.separator))

end Writes

end Statement

end DocumentLayout
