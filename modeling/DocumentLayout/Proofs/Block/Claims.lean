import DocumentLayout.Proofs.Block.Outline

/-!
# What tokenizers claim

Every tokenizer but that of statements claims whole lines, at least one, from the start of the
text. A statement block ends right before an empty line instead. Bytes that make no block are blank.
-/

namespace DocumentLayout

open Marker

/-- The kinds of blocks that hold neither blocks nor statements. -/
def NodeKind.isPlain : NodeKind → Bool
  | heading _ => true
  | paragraph => true
  | code _ _ => true
  | thematicBreak => true
  | html => true
  | table => true
  | _ => false

theorem Parser.isWhole_of_mem {text : Text} {line : Line}
    (h : line ∈ Line.ofText (text ++ terminator)) : line.IsWhole := by
  -- The terminator is two line feeds, so the text with one of them ends with another.
  rw [show text ++ terminator = text ++ ['\n'] ++ ['\n'] by simp [terminator]] at h
  exact Line.whole_of_mem_ofText h

/-! ## Claims on lines -/

/-- A claim on the first of some lines, which are blank or make one plain block. -/
def Claim.OnLines (claim : Claim) (lines : List Line) : Prop :=
  ∃ taken, taken <+: lines ∧ taken ≠ [] ∧ claim.length = Line.totalSize taken ∧
    ((claim.block = none ∧ ∀ line ∈ taken, line.isBlank = true) ∨
      ∃ kind, kind.isPlain = true ∧ claim.block = some (kind, []))

theorem Claim.onLines_leaf {line : Line} (rest : List Line) {lines : List Line} {kind : NodeKind}
    (hrest : rest <+: lines) (hkind : kind.isPlain = true) :
    (leaf (line.size + Line.totalSize rest) kind).OnLines (line :: lines) :=
  ⟨line :: rest, List.cons_prefix_cons.2 ⟨rfl, hrest⟩, by simp, rfl, .inr ⟨kind, hkind, rfl⟩⟩

theorem Claim.onLines_skip {taken lines : List Line} (htaken : taken <+: lines) (hne : taken ≠ [])
    (hblank : ∀ line ∈ taken, line.isBlank = true) :
    (skip (Line.totalSize taken)).OnLines lines :=
  ⟨taken, htaken, hne, rfl, .inl ⟨rfl, hblank⟩⟩

namespace Line

theorem through?_prefix {p : Line → Bool} {lines taken : List Line}
    (h : through? p lines = some taken) : taken <+: lines := by
  induction lines generalizing taken with
  | nil => simp [through?] at h
  | cons line lines ih =>
    rw [through?] at h
    split at h
    · obtain rfl : [line] = taken := by simpa using h
      exact List.cons_prefix_cons.2 ⟨rfl, List.nil_prefix⟩
    · obtain ⟨rest, hrest, rfl⟩ := Option.map_eq_some_iff.1 h
      exact List.cons_prefix_cons.2 ⟨rfl, ih hrest⟩

theorem through?_getD_prefix (p : Line → Bool) (lines : List Line) :
    (through? p lines).getD lines <+: lines := by
  cases h : through? p lines with
  | none => exact List.prefix_rfl
  | some taken => exact through?_prefix h

theorem prose_prefix (lines : List Line) : prose lines <+: lines := List.takeWhile_prefix _

end Line

namespace Block

theorem codeLines_prefix (lines : List Line) : codeLines lines <+: lines := by
  induction lines with
  | nil => exact List.nil_prefix
  | cons line lines ih =>
    rw [codeLines]
    split
    · split
      · exact List.nil_prefix
      · exact List.cons_prefix_cons.2 ⟨rfl, ih⟩
    · split
      · exact List.cons_prefix_cons.2 ⟨rfl, ih⟩
      · exact List.nil_prefix

theorem blankLines_onLines {lines : List Line} {claim : Claim} (h : blankLines lines = some claim) :
    claim.OnLines lines := by
  rw [blankLines] at h
  split at h
  · simp at h
  · rename_i hne
    obtain rfl : Claim.skip _ = claim := by simpa using h
    exact Claim.onLines_skip (List.takeWhile_prefix _) hne
      (List.all_eq_true.1 List.all_takeWhile)

theorem indentedCode_onLines {lines : List Line} {claim : Claim}
    (h : indentedCode lines = some claim) : claim.OnLines lines := by
  rw [indentedCode] at h
  split at h
  · simp at h
  · rename_i hne
    obtain rfl : Claim.leaf _ _ = claim := by simpa using h
    exact ⟨codeLines lines, codeLines_prefix lines, hne, rfl, .inr ⟨_, rfl, rfl⟩⟩

theorem fencedCode_onLines {lines : List Line} {claim : Claim} (h : fencedCode lines = some claim) :
    claim.OnLines lines := by
  cases lines with
  | nil => simp [fencedCode] at h
  | cons line lines =>
    obtain ⟨fence, -, rfl⟩ := Option.map_eq_some_iff.1 h
    exact Claim.onLines_leaf _ (Line.through?_getD_prefix _ lines) rfl

theorem atxHeading_onLines {lines : List Line} {claim : Claim} (h : atxHeading lines = some claim) :
    claim.OnLines lines := by
  cases lines with
  | nil => simp [atxHeading] at h
  | cons line lines =>
    obtain ⟨depth, -, rfl⟩ := Option.map_eq_some_iff.1 h
    exact Claim.onLines_leaf [] List.nil_prefix rfl

theorem thematicBreak_onLines {lines : List Line} {claim : Claim}
    (h : thematicBreak lines = some claim) : claim.OnLines lines := by
  cases lines with
  | nil => simp [thematicBreak] at h
  | cons line lines =>
    rw [thematicBreak] at h
    split at h
    · obtain rfl : Claim.leaf _ _ = claim := by simpa using h
      exact Claim.onLines_leaf [] List.nil_prefix rfl
    · simp at h

theorem setextHeading_onLines {lines : List Line} {claim : Claim}
    (h : setextHeading lines = some claim) : claim.OnLines lines := by
  unfold setextHeading at h
  split at h
  · rename_i title underline rest
    split at h
    · simp at h
    · obtain ⟨depth, -, rfl⟩ := Option.map_eq_some_iff.1 h
      exact Claim.onLines_leaf [underline]
        (List.cons_prefix_cons.2 ⟨rfl, List.nil_prefix⟩) rfl
  · simp at h

theorem html_onLines {lines : List Line} {claim : Claim} (h : html lines = some claim) :
    claim.OnLines lines := by
  cases lines with
  | nil => simp [html] at h
  | cons line lines =>
    rw [html] at h
    split at h
    · obtain rfl : Claim.leaf _ _ = claim := by simpa using h
      refine Claim.onLines_leaf _ ?_ rfl
      -- A block with a mark of its own ends with the line of the mark, any other at a blank line.
      split
      · split
        · exact List.nil_prefix
        · exact Line.through?_getD_prefix _ lines
      · exact List.takeWhile_prefix _
    · simp at h

theorem table_onLines {lines : List Line} {claim : Claim} (h : table lines = some claim) :
    claim.OnLines lines := by
  unfold table at h
  split at h
  · rename_i header delimiter rest
    split at h
    · obtain rfl : Claim.leaf _ _ = claim := by simpa using h
      rw [Nat.add_assoc]
      exact Claim.onLines_leaf (delimiter :: Line.prose rest)
        (List.cons_prefix_cons.2 ⟨rfl, Line.prose_prefix rest⟩) rfl
    · simp at h
  · simp at h

theorem paragraph_onLines {lines : List Line} {claim : Claim} (h : paragraph lines = some claim) :
    claim.OnLines lines := by
  cases lines with
  | nil => simp [paragraph] at h
  | cons line lines =>
    rw [paragraph] at h
    split at h
    · -- A line that trims to nothing is skipped.
      obtain rfl : Claim.skip _ = claim := by simpa using h
      have hfirst : [line] <+: line :: lines := List.cons_prefix_cons.2 ⟨rfl, List.nil_prefix⟩
      refine Claim.onLines_skip hfirst (by simp) ?_
      simpa using ‹_›
    · obtain rfl : Claim.leaf _ _ = claim := by simpa using h
      exact Claim.onLines_leaf _ (Line.prose_prefix lines) rfl

/-! ## Statements -/

theorem allowsAttempt_locateStatement (text : Text) :
    (locateStatement text).allowsAttempt = Statement.opensLine text := by
  unfold locateStatement
  cases Statement.opensLine text with
  | true => rfl
  | false =>
    rw [if_neg Bool.false_ne_true]
    split <;> rfl

theorem split?_nil : Statement.split? [] = none := by
  simp [Statement.split?, Statement.Lexeme.ofText, Statement.Lexeme.ofTrimmed,
    Statement.candidates]

-- A statement block has some text and ends at an empty line.
theorem statement_eq_some {text : Text} {claim : Claim} (h : statement text = some claim) :
    ∃ block rest, claim = .leaf (Text.byteLength block.text) (.statement block) ∧
      block.text ≠ [] ∧ text = block.text ++ '\n' :: '\n' :: rest := by
  obtain ⟨block, hread, rfl⟩ := Option.map_eq_some_iff.1 h
  obtain ⟨⟨raw, rest⟩, hcut, hsplit⟩ := Option.bind_eq_some_iff.1 hread
  obtain ⟨statements, hstatements, rfl⟩ := Option.map_eq_some_iff.1 hsplit
  refine ⟨_, rest, rfl, ?_, ?_⟩
  · -- No text splits into no statements.
    rintro rfl
    rw [split?_nil] at hstatements
    simp at hstatements
  · simpa [StatementBlock.separator] using Text.eq_of_cutAt? hcut

end Block

/-! ## Outlines -/

namespace Outline

theorem ofLines?_eq_some {claim? : List Line → Option Claim} {text : Text} {outline : Outline}
    (h : ofLines? claim? text = some outline) :
    ∃ claim, outline = leaf claim ∧ claim? (Line.ofText text) = some claim := by
  obtain ⟨claim, hclaim, rfl⟩ := Option.map_eq_some_iff.1 h
  exact ⟨claim, rfl, hclaim⟩

theorem statement?_eq_some {text : Text} {outline : Outline} (h : statement? text = some outline) :
    ∃ claim, outline = leaf claim ∧ Block.statement text = some claim := by
  unfold statement? at h
  split at h
  · obtain ⟨claim, hclaim, rfl⟩ := Option.map_eq_some_iff.1 h
    exact ⟨claim, rfl, hclaim⟩
  · simp at h

theorem quote?_eq_some {text : Text} {outline : Outline} (h : quote? text = some outline) :
    Block.quoteLines (Line.ofText text) ≠ [] ∧
      outline = quote (Block.quoteLines (Line.ofText text)) := by
  unfold quote? at h
  split at h
  · simp at h
  · rename_i hne
    exact ⟨hne, (Option.some.inj h).symm⟩

theorem list?_eq_some {text : Text} {outline : Outline} (h : list? text = some outline) :
    ∃ marker items, Block.listLines? (Line.ofText text) = some (marker, items) ∧
      outline = list marker items := by
  obtain ⟨⟨marker, items⟩, hlines, rfl⟩ := Option.map_eq_some_iff.1 h
  exact ⟨marker, items, hlines, rfl⟩

-- An outline of a document is a claim on lines, or found by one of the three readers that are not
-- readers of lines.
theorem read?_reader_cases {text : Text} {outline : Outline} (h : read? text = some outline) :
    (∃ claim, outline = leaf claim ∧ claim.OnLines (Line.ofText text)) ∨
      statement? text = some outline ∨ quote? text = some outline ∨ list? text = some outline := by
  obtain ⟨reader, hmem, hread⟩ := List.exists_of_findSome?_eq_some h
  have lines {claim? : List Line → Option Claim}
      (hclaim : ∀ {lines claim}, claim? lines = some claim → claim.OnLines lines)
      (hfound : ofLines? claim? text = some outline) :
      ∃ claim, outline = leaf claim ∧ claim.OnLines (Line.ofText text) := by
    obtain ⟨claim, houtline, hlines⟩ := ofLines?_eq_some hfound
    exact ⟨claim, houtline, hclaim hlines⟩
  -- One case for each reader, in the order of the tokenizers.
  simp only [readers, List.mem_cons, List.not_mem_nil, or_false] at hmem
  rcases hmem with rfl | rfl | rfl | rfl | rfl | rfl | rfl | rfl | rfl | rfl | rfl | rfl
  · exact .inl (lines Block.blankLines_onLines hread)
  · exact .inl (lines Block.indentedCode_onLines hread)
  · exact .inl (lines Block.fencedCode_onLines hread)
  · exact .inr (.inr (.inl hread))
  · exact .inl (lines Block.atxHeading_onLines hread)
  · exact .inl (lines Block.thematicBreak_onLines hread)
  · exact .inr (.inr (.inr hread))
  · exact .inl (lines Block.setextHeading_onLines hread)
  · exact .inl (lines Block.html_onLines hread)
  · exact .inl (lines Block.table_onLines hread)
  · exact .inr (.inl hread)
  · exact .inl (lines Block.paragraph_onLines hread)

/-- What an outline of a document can be: a claim on lines, a statement block, a quote or a
list. -/
theorem read?_cases {text : Text} {outline : Outline} (h : read? text = some outline) :
    (∃ claim, outline = leaf claim ∧ claim.OnLines (Line.ofText text)) ∨
      (∃ claim, outline = leaf claim ∧ Block.statement text = some claim) ∨
      (Block.quoteLines (Line.ofText text) ≠ [] ∧
        outline = quote (Block.quoteLines (Line.ofText text))) ∨
      ∃ marker items, Block.listLines? (Line.ofText text) = some (marker, items) ∧
        outline = list marker items := by
  rcases read?_reader_cases h with hlines | hstatement | hquote | hlist
  · exact .inl hlines
  · exact .inr (.inl (statement?_eq_some hstatement))
  · exact .inr (.inr (.inl (quote?_eq_some hquote)))
  · exact .inr (.inr (.inr (list?_eq_some hlist)))

/-- There is an outline at the start of every text that is not empty. -/
theorem exists_read? {text : Text} (h : text ≠ []) : ∃ outline, read? text = some outline := by
  -- The last reader takes any line at all.
  have hlast : (ofLines? Block.paragraph text).isSome := by
    obtain ⟨line, lines, hlines⟩ := List.exists_cons_of_ne_nil (Line.ofText_ne_nil h)
    rw [ofLines?, hlines, Block.paragraph]
    split <;> rfl
  have : (read? text).isSome := by
    rw [read?, List.findSome?_isSome_iff]
    exact ⟨_, by simp [readers], hlast⟩
  exact Option.isSome_iff_exists.1 this

-- Blank lines at the start of a text are an outline of their own, however the text goes on.
theorem read?_of_isBlank {text : Text} {line : Line} {lines : List Line}
    (hlines : Line.ofText text = line :: lines) (hblank : line.isBlank = true) :
    read? text =
      some (leaf (.skip (Line.totalSize ((Line.ofText text).takeWhile Line.isBlank)))) := by
  have hfirst : Block.blankLines (Line.ofText text) =
      some (.skip (Line.totalSize ((Line.ofText text).takeWhile Line.isBlank))) := by
    rw [hlines, Block.blankLines, List.takeWhile_cons_of_pos hblank]
  rw [read?, readers, List.findSome?_cons, ofLines?, hfirst]
  rfl

end Outline

end DocumentLayout
