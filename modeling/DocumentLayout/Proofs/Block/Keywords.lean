import DocumentLayout.Proofs.Block.Pieces
import DocumentLayout.Proofs.Statement.Candidates

/-!
# Documents without keywords

Where a document holds no statement keyword, the tokenizer of statement blocks changes nothing: the
document has the tree, or the error, that it has without that tokenizer. A keyword stands on one
line, and the lines of the contents of containers are ends of lines of the document, so taking marks
off lines and joining what is left makes no keyword either.
-/

namespace DocumentLayout

/-! ## Texts without keywords -/

namespace Statement

/-- No statement keyword occurs in the text. -/
def LacksKeywords (text : Text) : Prop := ∀ kind : StatementKind, ¬ kind.keyword <:+: text

theorem feed_not_mem_keyword (kind : StatementKind) : '\n' ∉ kind.keyword := by
  cases kind <;> decide

theorem keyword_ne_nil (kind : StatementKind) : kind.keyword ≠ [] := by
  cases kind <;> decide

namespace LacksKeywords

variable {text rest : Text}

theorem of_infix (h : LacksKeywords text) (hpart : rest <:+: text) : LacksKeywords rest :=
  fun kind hmark => h kind (hmark.trans hpart)

theorem unifyBreaks (h : LacksKeywords text) : LacksKeywords (Text.unifyBreaks text) :=
  fun kind hmark => h kind (Text.infix_of_infix_unifyBreaks (feed_not_mem_keyword kind) hmark)

theorem append_feed (h : LacksKeywords text) (hrest : LacksKeywords rest) :
    LacksKeywords (text ++ '\n' :: rest) := by
  intro kind hmark
  rcases Text.infix_or_infix_of_append_cons (feed_not_mem_keyword kind) hmark with hmark | hmark
  · exact h kind hmark
  · exact hrest kind hmark

theorem nil : LacksKeywords [] :=
  fun kind hmark => keyword_ne_nil kind (List.infix_nil.1 hmark)

theorem append_terminator (h : LacksKeywords text) : LacksKeywords (text ++ Parser.terminator) :=
  h.append_feed (nil.append_feed nil)

theorem content {pieces : List Text} (h : ∀ piece ∈ pieces, LacksKeywords piece) :
    LacksKeywords (Block.content pieces) := by
  intro kind hmark
  obtain ⟨piece, hpiece, hkeyword⟩ :=
    Text.exists_infix_of_infix_intercalate (feed_not_mem_keyword kind) (keyword_ne_nil kind) hmark
  exact h piece hpiece kind hkeyword

theorem opensLine_eq_false (h : LacksKeywords text) : opensLine text = false := by
  by_contra hopens
  obtain ⟨kind, c, rest, htrim, -⟩ := opensLine_iff.1 (by simpa using hopens)
  -- What stands behind the indentation is a part of the text.
  have hkeyword : kind.keyword <:+: Text.trimIndent text := by
    rw [htrim]
    exact (List.prefix_append _ _).isInfix
  exact h kind (hkeyword.trans (Text.trimIndent_suffix text).isInfix)

end LacksKeywords

end Statement

open Statement (LacksKeywords)

/-! ## Readers without that of statement blocks -/

namespace Outline

/-- The readers of prose, code and containers. -/
def standardReaders : List (Text → Option Outline) :=
  readers.dropLast.dropLast ++ [ofLines? Block.paragraph]

theorem statement?_eq_none_of_lacksKeywords {text : Text} (h : LacksKeywords text) :
    statement? text = none := by
  rw [statement?, Block.allowsAttempt_locateStatement, h.opensLine_eq_false]
  rfl

theorem findSome?_standardReaders {text : Text} (h : LacksKeywords text) :
    standardReaders.findSome? (· text) = read? text := by
  rw [read?, readers_eq_append, standardReaders, List.findSome?_append, List.findSome?_append]
  simp only [List.findSome?_cons, statement?_eq_none_of_lacksKeywords h]

theorem lacksKeywords_of_mem_contents {text content : Text} {outline : Outline}
    (h : LacksKeywords text) (hread : read? (text ++ Parser.terminator) = some outline)
    (hmem : content ∈ outline.contents) : LacksKeywords content := by
  obtain ⟨pieces, rfl, hpieces⟩ := endLines_of_mem_contents hread hmem
  refine LacksKeywords.content fun piece hpiece => ?_
  obtain ⟨line, hline, hsuffix⟩ := hpieces piece hpiece
  exact h.append_terminator.of_infix (hsuffix.isInfix.trans (Line.text_infix_of_mem hline))

end Outline

/-! ## Parsing without the tokenizer of statement blocks -/

namespace Parser

theorem standard_reads :
    List.Forall₂ Tokenizer.Reads standard.tokenizers Outline.standardReaders := by
  simp only [standard, standardTokenizers, Outline.standardReaders, Outline.readers,
    List.dropLast_cons_cons, List.dropLast_singleton, List.cons_append, List.nil_append,
    List.forall₂_cons, Tokenizer.reads_ofLines, Tokenizer.reads_blockQuote, Tokenizer.reads_list,
    true_and, List.Forall₂.nil]

theorem outlines_standard {text : Text} (h : LacksKeywords text) :
    Outlines standard.tokenizers (text ++ terminator) := by
  intro outline hread
  rw [← Outline.findSome?_standardReaders h.append_terminator] at hread
  exact claimAt?_of_forall₂ standard_reads hread

theorem blocksWithin_standard {text : Text} (h : LacksKeywords text) (room depth : Nat) :
    blocksWithin standard.tokenizers room depth text =
      blocksWithin (document []).tokenizers room depth text :=
  blocksWithin_eq_of_outlines (fun h hsuffix => h.of_infix hsuffix.isInfix)
    Outline.lacksKeywords_of_mem_contents outlines_standard h room depth

end Parser

/-- A document in which no statement keyword occurs has the same tree or the same error with the
tokenizer of statement blocks and without it. -/
theorem parseDocument_eq_standard {text : Text} (himport : ¬ "import".toList <:+: text)
    (hexport : ¬ "export".toList <:+: text) :
    parseDocument [] text = Parser.standard.parse text := by
  have hlacks : LacksKeywords text := fun kind => by
    cases kind with
    | «import» => exact himport
    | «export» => exact hexport
  have hblocks := Parser.blocksWithin_standard hlacks.unifyBreaks (nestingLimit + 1) 0
  unfold parseDocument Parser.parse Parser.blocks
  dsimp only
  rw [hblocks]

/-- Two lines of a quote whose contents come to stand next to each other, and an item of a list
with a statement without its first letter. -/
theorem parseDocument_eq_standard_quote_list :
    ¬ "import".toList <:+: "> im\r> port \"a\"\r\n\n- xport default 1".toList ∧
    ¬ "export".toList <:+: "> im\r> port \"a\"\r\n\n- xport default 1".toList ∧
    parseDocument [] "> im\r> port \"a\"\r\n\n- xport default 1".toList =
      Parser.standard.parse "> im\r> port \"a\"\r\n\n- xport default 1".toList := by
  have himport : ¬ "import".toList <:+: "> im\r> port \"a\"\r\n\n- xport default 1".toList := by
    decide +kernel
  have hexport : ¬ "export".toList <:+: "> im\r> port \"a\"\r\n\n- xport default 1".toList := by
    decide +kernel
  exact ⟨himport, hexport, parseDocument_eq_standard himport hexport⟩

end DocumentLayout
