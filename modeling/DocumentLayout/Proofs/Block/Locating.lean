import DocumentLayout.Proofs.Block.Pieces
import DocumentLayout.Proofs.Statement.Candidates

/-!
# Locating statement blocks

The tokenizer of statement blocks looks at the first line before it reads anything. That saves work
and hides no block, with one exception: the look goes over spaces and tabs only, and reading also
goes over form feeds in front of a keyword. A document without a form feed in front of a keyword has
the same tree or the same error without the look.
-/

namespace DocumentLayout

/-! ## Parsing without a locator -/

/-- A tokenizer that is asked everywhere. -/
def Tokenizer.unlocated (tokenizer : Tokenizer) : Tokenizer :=
  { tokenizer with locate := fun _ => .always }

/-- A parser whose tokenizer of this name is asked everywhere. -/
def Parser.unlocated (name : Text) (parser : Parser) : Parser :=
  ⟨parser.tokenizers.map fun tokenizer =>
    if tokenizer.name = name then tokenizer.unlocated else tokenizer⟩

/-! ## Keywords behind a form feed -/

namespace Statement

-- A keyword stands on one line, so it does not matter what follows the line.
theorem startsKeyword_line_iff {line : Text} (h : '\n' ∉ line) (rest : Text) :
    StartsKeyword (line ++ '\n' :: rest) ↔
      ∃ kind more, line = StatementKind.keyword kind ++ more ∧
        more.head?.all Text.isSpace = true := by
  constructor
  · rintro ⟨kind, c, behind, htext, hspace⟩
    rcases List.append_eq_append_iff.1 htext with ⟨letters, hkeyword, hrest⟩ | ⟨more, rfl, hrest⟩
    · cases letters with
      | nil => exact ⟨kind, [], by simpa using hkeyword.symm, rfl⟩
      | cons d letters =>
        -- The line feed would be a letter of the keyword.
        obtain ⟨rfl, -⟩ := List.cons.inj hrest
        have hfeed : '\n' ∈ kind.keyword := by simp [hkeyword]
        have := isWordRest_of_mem_keyword hfeed
        simp [Token.isWordRest] at this
    · refine ⟨kind, more, rfl, ?_⟩
      cases more with
      | nil => rfl
      | cons d more =>
        obtain ⟨rfl, -⟩ := List.cons.inj hrest
        exact hspace
  · rintro ⟨kind, more, rfl, hspace⟩
    cases more with
    | nil => exact ⟨kind, '\n', rest, by simp, by decide⟩
    | cons c more => exact ⟨kind, c, more ++ '\n' :: rest, by simp, by simpa using hspace⟩

-- A line that opens with a keyword behind its indentation, whatever follows it.
theorem opensLine_line_iff {line : Text} (h : '\n' ∉ line) (rest : Text) :
    opensLine (line ++ '\n' :: rest) = true ↔
      ∃ kind more, Text.trimIndent line = StatementKind.keyword kind ++ more ∧
        more.head?.all Text.isSpace = true := by
  have htrim : Text.trimIndent (line ++ '\n' :: rest) = Text.trimIndent line ++ '\n' :: rest :=
    Text.dropWhile_append_cons (by decide) line rest
  rw [opensLine_iff, htrim,
    startsKeyword_line_iff fun hmem => h ((Text.trimIndent_suffix line).subset hmem)]

theorem opensLine_line {line : Text} (h : '\n' ∉ line) (rest other : Text) :
    opensLine (line ++ '\n' :: rest) = opensLine (line ++ '\n' :: other) := by
  rw [Bool.eq_iff_iff, opensLine_line_iff h, opensLine_line_iff h]

/-- Only the first line of a text decides whether the text opens with a keyword. -/
theorem opensLine_append_feed (text rest other : Text) :
    opensLine (text ++ '\n' :: rest) = opensLine (text ++ '\n' :: other) := by
  rcases Text.line_cases text with hfeed | ⟨line, more, hline, rfl⟩
  · exact opensLine_line hfeed rest other
  · rw [List.append_assoc, List.append_assoc, List.cons_append, List.cons_append]
    exact opensLine_line hline _ _

theorem not_isBlank_of_opensLine {text : Text} {line : Line} {lines : List Line}
    (hlines : Line.ofText text = line :: lines) (h : opensLine text = true) :
    line.isBlank = false := by
  have hkeyword : ∃ kind, ∀ c ∈ StatementKind.keyword kind, c ∈ line.text := by
    rcases Text.line_cases text with hfeed | ⟨front, rest, hfront, rfl⟩
    · obtain ⟨kind, c, rest, htrim, -⟩ := opensLine_iff.1 h
      have hne : text ≠ [] := by
        rintro rfl
        simp [Line.ofText] at hlines
      rw [Line.ofText_of_not_mem hne hfeed] at hlines
      obtain ⟨rfl, -⟩ := List.cons.inj hlines
      exact ⟨kind, fun d hd =>
        (Text.trimIndent_suffix text).subset (htrim ▸ List.mem_append_left _ hd)⟩
    · obtain ⟨kind, more, htrim, -⟩ := (opensLine_line_iff hfront rest).1 h
      rw [Line.ofText_line hfront] at hlines
      obtain ⟨rfl, -⟩ := List.cons.inj hlines
      exact ⟨kind, fun d hd =>
        (Text.trimIndent_suffix front).subset (htrim ▸ List.mem_append_left _ hd)⟩
  -- The letters of the keyword are no white space.
  obtain ⟨kind, hkind⟩ := hkeyword
  obtain ⟨c, letters, hletters, -⟩ := keyword_eq_cons kind
  refine List.all_eq_false.2 ⟨c, hkind c (by simp [hletters]), fun hspace => ?_⟩
  have hmem : c ∈ StatementKind.keyword kind := by simp [hletters]
  have hrest := isWordRest_of_mem_keyword hmem
  rw [isWordRest_of_isSpace hspace] at hrest
  exact absurd hrest (by decide)

/-- Whether a form feed or another gap that is no indentation stands in front of a statement keyword
somewhere in a text, with nothing but gaps between them. -/
def hidesKeyword : Text → Bool
  | [] => false
  | c :: rest =>
    (Token.isGap c && !Text.isIndent c && opensLine (rest.dropWhile Token.isGap ++ ['\n'])) ||
      hidesKeyword rest

-- A keyword ends the gap where it ends the indentation.
theorem dropWhile_isGap_of_startsKeyword {text : Text} (h : StartsKeyword (Text.trimIndent text)) :
    text.dropWhile Token.isGap = Text.trimIndent text := by
  have hindent : ∀ c ∈ text.takeWhile Text.isIndent, Token.isGap c = true := fun c hc =>
    isGap_of_isIndent (List.all_eq_true.1 List.all_takeWhile c hc)
  obtain ⟨kind, c, rest, htrim, -⟩ := h
  obtain ⟨d, letters, hkeyword, -, hgap⟩ := keyword_eq_cons kind
  conv_lhs => rw [← @List.takeWhile_append_dropWhile _ Text.isIndent text]
  rw [List.dropWhile_append_of_pos hindent, show text.dropWhile Text.isIndent = _ from htrim,
    htrim, hkeyword, List.cons_append, List.dropWhile_cons_of_neg (by simp [hgap])]

-- Where nothing is hidden, a keyword behind a gap is a keyword behind indentation.
theorem isIndent_of_hidesKeyword {text : Text} (hhides : hidesKeyword text = false)
    (h : StartsKeyword (text.dropWhile Token.isGap)) :
    (text.takeWhile Token.isGap).all Text.isIndent = true := by
  induction text with
  | nil => rfl
  | cons c rest ih =>
    rw [hidesKeyword, Bool.or_eq_false_iff] at hhides
    cases hgap : Token.isGap c with
    | false => rw [List.takeWhile_cons_of_neg (by simp [hgap])]; rfl
    | true =>
      rw [List.dropWhile_cons_of_pos hgap] at h
      rw [List.takeWhile_cons_of_pos hgap, List.all_cons, ih hhides.2 h, Bool.and_true]
      cases hindent : Text.isIndent c with
      | true => rfl
      | false =>
        have hopens : opensLine (rest.dropWhile Token.isGap ++ ['\n']) = true := by
          obtain ⟨kind, d, more, hrest, hspace⟩ := h
          have hkeyword : StartsKeyword (rest.dropWhile Token.isGap ++ ['\n']) :=
            ⟨kind, d, more ++ ['\n'], by simp [hrest], hspace⟩
          rwa [opensLine_iff, StartsKeyword.trimIndent_eq hkeyword]
        rw [hgap, hindent, hopens] at hhides
        exact absurd hhides.1 (by decide)

theorem hidesKeyword_suffix {text rest : Text} (h : rest <:+ text)
    (hhides : hidesKeyword text = false) : hidesKeyword rest = false := by
  obtain ⟨front, rfl⟩ := h
  induction front with
  | nil => exact hhides
  | cons c front ih =>
    rw [List.cons_append, hidesKeyword, Bool.or_eq_false_iff] at hhides
    exact ih hhides.2

-- A keyword stands on one line with what hides it, so texts hide what their lines hide.
theorem hidesKeyword_append_feed (text rest : Text) :
    hidesKeyword (text ++ '\n' :: rest) = (hidesKeyword text || hidesKeyword rest) := by
  induction text with
  | nil => simp [hidesKeyword, Token.isGap]
  | cons c text ih =>
    rw [List.cons_append, hidesKeyword, hidesKeyword, ih, Text.dropWhile_append_cons (by decide),
      List.append_assoc, List.cons_append, opensLine_append_feed _ _ [], Bool.or_assoc]

theorem hidesKeyword_toText {lines : List Line} (h : ∀ line ∈ lines, line.IsWhole) :
    hidesKeyword (Line.toText lines) = lines.any fun line => hidesKeyword line.text := by
  induction lines with
  | nil => rfl
  | cons line lines ih =>
    rw [Line.toText_cons_of_whole (h line (List.mem_cons_self ..)), hidesKeyword_append_feed,
      ih fun other hother => h other (List.mem_cons_of_mem _ hother), List.any_cons]

theorem hidesKeyword_content (pieces : List Text) :
    hidesKeyword (Block.content pieces) = pieces.any hidesKeyword := by
  unfold Block.content
  induction pieces with
  | nil => rfl
  | cons piece pieces ih =>
    cases pieces with
    | nil => simp
    | cons next more =>
      rw [List.intercalate_cons_cons, List.append_assoc, List.singleton_append,
        hidesKeyword_append_feed, ih]
      rfl

end Statement

/-! ## The locator -/

namespace Block

theorem locateStatement_eq_at_zero {text : Text} :
    locateStatement text = .at 0 ↔ Statement.StartsKeyword (Text.trimIndent text) := by
  rw [← Statement.opensLine_iff]
  unfold locateStatement
  cases Statement.opensLine text with
  | true => simp
  | false =>
    -- Behind the first line there is a line feed at least.
    simp only [Bool.false_eq_true, if_false, iff_false]
    split <;> simp

-- Behind its first gap a text with a statement block has a keyword, or ends its line.
theorem startsKeyword_of_statement {text : Text} {claim : Claim} (h : statement text = some claim)
    (hline : ∀ line lines, Line.ofText text = line :: lines → line.isBlank = false) :
    Statement.StartsKeyword (text.dropWhile Statement.Token.isGap) := by
  obtain ⟨block, hread, -⟩ := Option.map_eq_some_iff.1 h
  obtain ⟨⟨raw, rest⟩, hcut, hsplit⟩ := Option.bind_eq_some_iff.1 hread
  obtain ⟨statements, hstatements, -⟩ := Option.map_eq_some_iff.1 hsplit
  have htext : text = raw ++ '\n' :: '\n' :: rest := by
    simpa [StatementBlock.separator] using Text.eq_of_cutAt? hcut
  have hdrop : text.dropWhile Statement.Token.isGap =
      raw.dropWhile Statement.Token.isGap ++ '\n' :: '\n' :: rest := by
    rw [htext, Text.dropWhile_append_cons (by decide)]
  rcases Statement.startsKeyword_of_split? hstatements with
    ⟨kind, c, more, hraw, hspace⟩ | ⟨more, hraw⟩
  · exact ⟨kind, c, more ++ '\n' :: '\n' :: rest, by rw [hdrop, hraw]; simp, hspace⟩
  · -- The first line would hold a gap only.
    have hgap : ∀ c ∈ text.takeWhile Statement.Token.isGap, Statement.Token.isGap c = true :=
      List.all_eq_true.1 List.all_takeWhile
    have hfeed : '\n' ∉ text.takeWhile Statement.Token.isGap := fun hmem =>
      absurd (hgap _ hmem) (by decide)
    have hlines := Line.ofText_line hfeed (more ++ '\n' :: '\n' :: rest)
    rw [← List.cons_append, ← hraw, ← hdrop, List.takeWhile_append_dropWhile] at hlines
    have hblank : Text.isBlank (text.takeWhile Statement.Token.isGap) = true :=
      List.all_eq_true.2 fun c hc => Statement.isSpace_of_isGap (hgap c hc)
    rw [show Text.isBlank _ = Line.isBlank ⟨_, true⟩ from rfl, hline _ _ hlines] at hblank
    exact absurd hblank (by decide)

/-- The locator answers for the start of a text with a keyword behind a gap when the gap is
indentation, and for a later line otherwise. -/
theorem locateStatement_iff_isIndent {text : Text}
    (h : Statement.StartsKeyword (text.dropWhile Statement.Token.isGap)) :
    locateStatement text = .at 0 ↔
      (text.takeWhile Statement.Token.isGap).all Text.isIndent = true := by
  rw [locateStatement_eq_at_zero]
  constructor
  · intro hkeyword
    -- What is left behind the gap is what is left behind the indentation, so both are the same.
    have hsame : text.takeWhile Statement.Token.isGap = text.takeWhile Text.isIndent := by
      have hwhole : text.takeWhile Statement.Token.isGap ++ Text.trimIndent text =
          text.takeWhile Text.isIndent ++ Text.trimIndent text := by
        conv_lhs => rw [← Statement.dropWhile_isGap_of_startsKeyword hkeyword]
        rw [List.takeWhile_append_dropWhile]
        exact List.takeWhile_append_dropWhile.symm
      exact List.append_cancel_right hwhole
    rw [hsame]
    exact List.all_takeWhile
  · intro hindent
    have htrim : Text.trimIndent text = text.dropWhile Statement.Token.isGap := by
      conv_lhs => rw [← @List.takeWhile_append_dropWhile _ Statement.Token.isGap text]
      unfold Text.trimIndent
      rw [List.dropWhile_append_of_pos (List.all_eq_true.1 hindent)]
      exact Statement.StartsKeyword.trimIndent_eq h
    rw [htrim]
    exact h

end Block

/-! ## Readers without the locator -/

namespace Outline

/-- A statement block at the start of a text, whatever the locator says. -/
def unlocatedStatement? (text : Text) : Option Outline := (Block.statement text).map leaf

/-- The readers of a document with that of statement blocks asked everywhere. -/
def unlocatedReaders : List (Text → Option Outline) :=
  readers.dropLast.dropLast ++ [unlocatedStatement?, ofLines? Block.paragraph]

theorem statement?_eq_unlocated {text : Text} (hhides : Statement.hidesKeyword text = false)
    (hline : ∀ line lines, Line.ofText text = line :: lines → line.isBlank = false) :
    statement? text = unlocatedStatement? text := by
  unfold statement? unlocatedStatement?
  cases hclaim : Block.statement text with
  | none => simp
  | some claim =>
    have hkeyword := Block.startsKeyword_of_statement hclaim hline
    have hindent := Statement.isIndent_of_hidesKeyword hhides hkeyword
    rw [(Block.locateStatement_iff_isIndent hkeyword).2 hindent]
    rfl

-- Blank lines are taken before the reader of statement blocks is asked.
theorem not_isBlank_of_readers {text : Text} {line : Line} {lines : List Line}
    (h : readers.dropLast.dropLast.findSome? (· text) = none)
    (hlines : Line.ofText text = line :: lines) : line.isBlank = false := by
  have hblank : ofLines? Block.blankLines text = none :=
    List.findSome?_eq_none_iff.1 h _ (List.mem_cons_self ..)
  cases hline : line.isBlank with
  | false => rfl
  | true =>
    rw [ofLines?, hlines, Block.blankLines, List.takeWhile_cons_of_pos hline] at hblank
    simp at hblank

theorem findSome?_unlocatedReaders {text : Text} (hhides : Statement.hidesKeyword text = false) :
    unlocatedReaders.findSome? (· text) = read? text := by
  rw [read?, readers_eq_append, unlocatedReaders, List.findSome?_append, List.findSome?_append]
  cases hfront : readers.dropLast.dropLast.findSome? (· text) with
  | some outline => rfl
  | none =>
    have hstatement := statement?_eq_unlocated hhides fun line lines =>
      not_isBlank_of_readers hfront
    simp only [List.findSome?_cons, hstatement]

/-- Contents hide no keyword when the text around them hides none. -/
theorem hidesKeyword_of_mem_contents {text content : Text} {outline : Outline}
    (hhides : Statement.hidesKeyword text = false)
    (h : read? (text ++ Parser.terminator) = some outline) (hmem : content ∈ outline.contents) :
    Statement.hidesKeyword content = false := by
  obtain ⟨pieces, rfl, hpieces⟩ := endLines_of_mem_contents h hmem
  have hlines : Statement.hidesKeyword
      (Line.toText (Line.ofText (text ++ Parser.terminator))) = false := by
    rw [Line.toText_ofText, Parser.terminator, Statement.hidesKeyword_append_feed, hhides]
    rfl
  rw [Statement.hidesKeyword_toText fun line => Parser.isWhole_of_mem, List.any_eq_false] at hlines
  rw [Statement.hidesKeyword_content, List.any_eq_false]
  intro piece hpiece
  obtain ⟨line, hline, hsuffix⟩ := hpieces piece hpiece
  rw [Statement.hidesKeyword_suffix hsuffix (by simpa using hlines line hline)]
  exact Bool.false_ne_true

end Outline

/-! ## Parsing without the locator -/

namespace Parser

-- The one tokenizer of that name is that of statement blocks.
theorem document_unlocated_tokenizers :
    ((document []).unlocated statementTokenizer.name).tokenizers =
      standardTokenizers.dropLast ++
        [statementTokenizer.unlocated, .ofLines "paragraph" Block.paragraph] := by
  have hnames : ∀ name ∈ standard.names, name ≠ statementTokenizer.name := by decide +kernel
  have hsame : ∀ tokenizer ∈ standardTokenizers,
      (if tokenizer.name = statementTokenizer.name then tokenizer.unlocated else tokenizer) =
        tokenizer :=
    fun tokenizer h => if_neg (hnames _ (List.mem_map_of_mem h))
  have hlast : .ofLines "paragraph" Block.paragraph ∈ standardTokenizers := by
    simp [standardTokenizers]
  unfold unlocated
  dsimp only
  rw [document_nil_tokenizers, List.map_append, List.map_cons, List.map_singleton, if_pos rfl,
    hsame _ hlast,
    List.map_congr_left fun tokenizer h => hsame tokenizer (List.dropLast_subset _ h), List.map_id']

theorem reads_unlocatedStatement :
    statementTokenizer.unlocated.Reads Outline.unlocatedStatement? := by
  intro cursor text
  rw [if_pos (show (statementTokenizer.unlocated.locate text).allowsAttempt = true from rfl)]
  unfold Parser.statementTokenizer Tokenizer.unlocated Outline.unlocatedStatement?
  cases h : Block.statement text <;>
    simp [h, Outline.consume, Outline.contents, Outline.claim, Outline.block?, Outline.length,
      pure, Except.pure, Except.map]

theorem document_unlocated_reads :
    List.Forall₂ Tokenizer.Reads ((document []).unlocated statementTokenizer.name).tokenizers
      Outline.unlocatedReaders := by
  rw [document_unlocated_tokenizers]
  simp only [standardTokenizers, Outline.unlocatedReaders, Outline.readers,
    List.dropLast_cons_cons, List.dropLast_singleton, List.cons_append, List.nil_append,
    List.forall₂_cons, Tokenizer.reads_ofLines, Tokenizer.reads_blockQuote, Tokenizer.reads_list,
    reads_unlocatedStatement, true_and, List.Forall₂.nil]

theorem outlines_unlocated {text : Text} (hhides : Statement.hidesKeyword text = false) :
    Outlines ((document []).unlocated statementTokenizer.name).tokenizers
      (text ++ terminator) := by
  intro outline hread
  have hterminator : Statement.hidesKeyword (text ++ terminator) = false := by
    rw [terminator, Statement.hidesKeyword_append_feed, hhides]
    rfl
  rw [← Outline.findSome?_unlocatedReaders hterminator] at hread
  exact claimAt?_of_forall₂ document_unlocated_reads hread

theorem blocksWithin_unlocated {text : Text} (hhides : Statement.hidesKeyword text = false)
    (room depth : Nat) :
    blocksWithin ((document []).unlocated statementTokenizer.name).tokenizers room depth text =
      blocksWithin (document []).tokenizers room depth text :=
  blocksWithin_eq_of_outlines (fun hhides hsuffix => Statement.hidesKeyword_suffix hsuffix hhides)
    Outline.hidesKeyword_of_mem_contents outlines_unlocated hhides room depth

-- The tokenizer of blank lines is asked before that of statement blocks.
theorem not_isBlank_of_claimAt? {cursor : Cursor} {text : Text} {line : Line} {lines : List Line}
    (h : claimAt? cursor text standardTokenizers.dropLast = .ok none)
    (hlines : Line.ofText text = line :: lines) : line.isBlank = false := by
  cases hline : line.isBlank with
  | false => rfl
  | true =>
    have hblank : Block.blankLines (line :: lines) =
        some (.skip (Line.totalSize ((line :: lines).takeWhile Line.isBlank))) := by
      rw [Block.blankLines, List.takeWhile_cons_of_pos hline]
    simp [standardTokenizers, claimAt?, Tokenizer.ofLines, Tokenizer.always,
      Locate.allowsAttempt, hlines, hblank] at h

end Parser

/-- The locator of statement blocks only saves work. A document that hides no keyword behind a form
feed has the same tree or the same error when the tokenizer is asked everywhere. Wherever no
tokenizer in front of it claims anything and a block could be read, the locator answers for this
very place when the gap in front of the keyword is indentation, and only then. -/
theorem parseDocument_eq_unlocated {text : Text}
    (hhides : Statement.hidesKeyword (Text.unifyBreaks text) = false) :
    parseDocument [] text =
      ((Parser.document []).unlocated Parser.statementTokenizer.name).parse text ∧
    ∀ cursor rest claim,
      Parser.claimAt? cursor (rest ++ Parser.terminator) Parser.standardTokenizers.dropLast =
        .ok none →
      Block.statement (rest ++ Parser.terminator) = some claim →
      (Block.locateStatement (rest ++ Parser.terminator) = .at 0 ↔
        ((rest ++ Parser.terminator).takeWhile Statement.Token.isGap).all Text.isIndent =
          true) := by
  constructor
  · have hblocks := Parser.blocksWithin_unlocated hhides (nestingLimit + 1) 0
    unfold parseDocument Parser.parse Parser.blocks
    dsimp only
    rw [hblocks]
  · intro cursor rest claim hnone hclaim
    exact Block.locateStatement_iff_isIndent
      (Block.startsKeyword_of_statement hclaim fun _ _ => Parser.not_isBlank_of_claimAt? hnone)

/-- A form feed in the middle of a line, a statement in a quote, and one behind a space at the end
of the document, where the locator answers for the place itself. -/
theorem parseDocument_eq_unlocated_quote :
    Statement.hidesKeyword (Text.unifyBreaks
      "a \x0c b\r\n> \timport \"a\"\n>\n\n export * from 'b'".toList) = false ∧
    parseDocument [] "a \x0c b\r\n> \timport \"a\"\n>\n\n export * from 'b'".toList =
      ((Parser.document []).unlocated Parser.statementTokenizer.name).parse
        "a \x0c b\r\n> \timport \"a\"\n>\n\n export * from 'b'".toList ∧
    Block.locateStatement (" export * from 'b'".toList ++ Parser.terminator) = .at 0 := by
  have hhides : Statement.hidesKeyword (Text.unifyBreaks
      "a \x0c b\r\n> \timport \"a\"\n>\n\n export * from 'b'".toList) = false := by
    decide +kernel
  have hclaimed : (Parser.claimAt? ⟨0, 0, fun _ => .ok []⟩
      (" export * from 'b'".toList ++ Parser.terminator)
      Parser.standardTokenizers.dropLast).toOption.any Option.isNone = true := by
    decide +kernel
  obtain ⟨claimed, hnone, hisNone⟩ := exists_ok_of_any hclaimed
  obtain rfl := Option.isNone_iff_eq_none.1 hisNone
  have hstatement : (Block.statement (" export * from 'b'".toList ++ Parser.terminator)).isSome =
      true := by
    decide +kernel
  obtain ⟨claim, hclaim⟩ := Option.isSome_iff_exists.1 hstatement
  obtain ⟨hsame, hlocate⟩ := parseDocument_eq_unlocated hhides
  exact ⟨hhides, hsame, (hlocate _ _ claim hnone hclaim).2 (by decide +kernel)⟩

/-- A form feed hides an import from the locator, though not from the tokenizer. -/
theorem parseDocument_ne_unlocated :
    parseDocument [] "\x0cimport \"a\"\n\nx".toList ≠
      ((Parser.document []).unlocated Parser.statementTokenizer.name).parse
        "\x0cimport \"a\"\n\nx".toList := by
  have hlocated : (parseDocument [] "\x0cimport \"a\"\n\nx".toList).toOption.map
      (fun tree => tree.statements.map StatementBlock.text) = some [] := by
    decide +kernel
  have hunlocated : (((Parser.document []).unlocated Parser.statementTokenizer.name).parse
      "\x0cimport \"a\"\n\nx".toList).toOption.map
      (fun tree => tree.statements.map StatementBlock.text) =
        some ["\x0cimport \"a\"".toList] := by
    decide +kernel
  intro hsame
  rw [hsame, hunlocated] at hlocated
  simp at hlocated

end DocumentLayout
