import DocumentLayout.Proofs.Block.Contents

/-!
# Openings

Which tokenizer takes a text is decided by the first character of its first line in most cases. A
line that opens with a character of its own, behind up to three columns of indentation, turns down
every tokenizer that looks for another one.
-/

namespace DocumentLayout

/-! ## Lines that open with a character -/

namespace Marker

section

variable {line rest : Text} {c : Char} (hstart : Text.blockStart? line = some (c :: rest))

include hstart

theorem fence?_eq_none (hback : c ≠ '\x60') (htilde : c ≠ '~') : fence? line = none := by
  rw [fence?, hstart]
  simp [hback, htilde]

theorem headingDepth?_eq_none (hhash : c ≠ '#') : headingDepth? line = none := by
  rw [headingDepth?, hstart]
  simp [run, hhash]

theorem quoted?_eq_none (hquote : c ≠ '>') : quoted? line = none := by
  rw [quoted?, hstart]
  simp [List.isPrefixOf?, Ne.symm hquote]

theorem isThematicBreak_eq_false (hstar : c ≠ '*') (hdash : c ≠ '-') (hunder : c ≠ '_') :
    isThematicBreak line = false := by
  rw [isThematicBreak, hstart]
  simp [hstar, hdash, hunder]

theorem isHtmlStart_eq_false (hangle : c ≠ '<') : isHtmlStart line = false := by
  rw [isHtmlStart, hstart]
  split
  · simp_all
  · rfl

theorem listItem?_eq_none (hdigit : c.isDigit = false) (hstar : c ≠ '*') (hdash : c ≠ '-')
    (hplus : c ≠ '+') : listItem? line = none := by
  rw [listItem?, hstart]
  simp [bullet?, hdigit, hstar, hdash, hplus]

end

theorem quoted?_cons (rest : Text) : quoted? ('>' :: rest) = some rest := by
  rw [quoted?, Text.blockStart?_cons (by decide)]
  rfl

theorem fence?_eq_some {line : Text} {fence : Fence} (h : fence? line = some fence) :
    ∃ c rest, Text.blockStart? line = some (c :: rest) ∧ (c = '\x60' ∨ c = '~') ∧
      3 ≤ fence.length := by
  unfold fence? at h
  split at h
  · rename_i c rest hstart
    dsimp only at h
    split at h
    · rename_i hc
      split at h
      · simp at h
      · rename_i hlength
        split at h
        · simp at h
        · obtain rfl := Option.some.inj h
          exact ⟨c, rest, hstart, by simpa using hc, Nat.not_lt.1 hlength⟩
    · simp at h
  · simp at h

theorem blockStart?_of_isHtmlStart {line : Text} (h : isHtmlStart line = true) :
    ∃ rest, Text.blockStart? line = some ('<' :: rest) := by
  unfold isHtmlStart at h
  split at h
  · exact ⟨_, ‹_›⟩
  · simp at h

end Marker

/-! ## Texts that open with a character -/

namespace Outline

section

variable {text : Text} {line : Line} {lines : List Line} {c : Char} {rest : Text}
  (hlines : Line.ofText text = line :: lines)
  (hstart : Text.blockStart? line.text = some (c :: rest)) (hspace : Text.isSpace c = false)

include hlines hstart hspace

theorem blankLines_eq_none : ofLines? Block.blankLines text = none := by
  have hblank : line.isBlank = false :=
    Marker.not_isBlank_of_blockStart? hstart (List.mem_cons_self ..) hspace
  simp [ofLines?, Block.blankLines, hlines, hblank]

theorem indentedCode_eq_none : ofLines? Block.indentedCode text = none := by
  have hblank : line.isBlank = false :=
    Marker.not_isBlank_of_blockStart? hstart (List.mem_cons_self ..) hspace
  have hindent := Nat.not_le.2 (Text.blockStart?_eq_some hstart).1
  simp [ofLines?, Block.indentedCode, hlines, Block.codeLines, hblank, hindent]

omit hspace

theorem fencedCode_eq_none (hback : c ≠ '\x60') (htilde : c ≠ '~') :
    ofLines? Block.fencedCode text = none := by
  simp [ofLines?, hlines, Block.fencedCode, Marker.fence?_eq_none hstart hback htilde]

theorem quote?_eq_none (hquote : c ≠ '>') : quote? text = none := by
  simp [quote?, hlines, Block.quoteLines, Block.quoteContent?,
    Marker.quoted?_eq_none hstart hquote]

theorem atxHeading_eq_none (hhash : c ≠ '#') : ofLines? Block.atxHeading text = none := by
  simp [ofLines?, hlines, Block.atxHeading, Marker.headingDepth?_eq_none hstart hhash]

theorem thematicBreak_eq_none (hstar : c ≠ '*') (hdash : c ≠ '-') (hunder : c ≠ '_') :
    ofLines? Block.thematicBreak text = none := by
  simp [ofLines?, hlines, Block.thematicBreak,
    Marker.isThematicBreak_eq_false hstart hstar hdash hunder]

theorem list?_eq_none (hdigit : c.isDigit = false) (hstar : c ≠ '*') (hdash : c ≠ '-')
    (hplus : c ≠ '+') : list? text = none := by
  simp [list?, hlines, Block.listLines?,
    Marker.listItem?_eq_none hstart hdigit hstar hdash hplus]

theorem html_eq_none (hangle : c ≠ '<') : ofLines? Block.html text = none := by
  simp [ofLines?, hlines, Block.html, Marker.isHtmlStart_eq_false hstart hangle]

omit hstart

-- A line with no underline below it is no heading.
theorem setextHeading_eq_none
    (hunderline : ∀ below ∈ lines.head?, Marker.underlineDepth? below.text = none) :
    ofLines? Block.setextHeading text = none := by
  cases lines with
  | nil => simp [ofLines?, hlines, Block.setextHeading]
  | cons below more => simp [ofLines?, hlines, Block.setextHeading, hunderline below rfl]

end

/-- A text whose first line opens with `>` opens with a quote. -/
theorem read?_of_quoted {text : Text} {line : Line} {lines : List Line} {rest : Text}
    (hlines : Line.ofText text = line :: lines) (hline : line.text = '>' :: rest) :
    read? text = some (quote (Block.quoteLines (Line.ofText text))) := by
  have hstart : Text.blockStart? line.text = some ('>' :: rest) := by
    rw [hline, Text.blockStart?_cons (by decide)]
  have hquote : quote? text = some (quote (Block.quoteLines (Line.ofText text))) := by
    have hcontent : Block.quoteContent? line = some (Text.stripColumns rest 1) := by
      rw [Block.quoteContent?, hline, Marker.quoted?_cons]
      rfl
    rw [quote?, hlines, Block.quoteLines, hcontent]
  simp only [read?, readers, List.findSome?_cons, hquote,
    blankLines_eq_none hlines hstart (by decide),
    indentedCode_eq_none hlines hstart (by decide),
    fencedCode_eq_none hlines hstart (by decide) (by decide)]

/-- A text whose first line opens with a dash and is no thematic break opens with a list when a
list item stands there. -/
theorem read?_of_dash {text : Text} {line : Line} {lines : List Line} {rest : Text}
    (hlines : Line.ofText text = line :: lines) (hline : line.text = '-' :: rest)
    (hbreak : Marker.isThematicBreak line.text = false) {marker : Marker.ListMarker}
    {items : List Block.Item} (hlist : Block.listLines? (Line.ofText text) = some (marker, items)) :
    read? text = some (list marker items) := by
  have hstart : Text.blockStart? line.text = some ('-' :: rest) := by
    rw [hline, Text.blockStart?_cons (by decide)]
  have hlist? : list? text = some (list marker items) := by
    rw [list?, hlist]
    rfl
  have hthematic : ofLines? Block.thematicBreak text = none := by
    simp [ofLines?, hlines, Block.thematicBreak, hbreak]
  simp only [read?, readers, List.findSome?_cons, hlist?, hthematic,
    blankLines_eq_none hlines hstart (by decide),
    indentedCode_eq_none hlines hstart (by decide),
    fencedCode_eq_none hlines hstart (by decide) (by decide),
    quote?_eq_none hlines hstart (by decide),
    atxHeading_eq_none hlines hstart (by decide)]

/-- A text whose first line opens a fence opens with fenced code. -/
theorem read?_of_fence {text : Text} {line : Line} {lines : List Line} {fence : Marker.Fence}
    (hlines : Line.ofText text = line :: lines) (hfence : Marker.fence? line.text = some fence)
    {claim : Claim} (hclaim : Block.fencedCode (line :: lines) = some claim) :
    read? text = some (leaf claim) := by
  obtain ⟨c, rest, hstart, hc, -⟩ := Marker.fence?_eq_some hfence
  have hspace : Text.isSpace c = false := by rcases hc with rfl | rfl <;> decide
  have hcode : ofLines? Block.fencedCode text = some (leaf claim) := by
    rw [ofLines?, hlines, hclaim]
    rfl
  simp only [read?, readers, List.findSome?_cons, hcode, blankLines_eq_none hlines hstart hspace,
    indentedCode_eq_none hlines hstart hspace]

/-- A text whose first line opens raw HTML opens with it, unless the second line makes a heading
of the first. -/
theorem read?_of_html {text : Text} {line : Line} {lines : List Line}
    (hlines : Line.ofText text = line :: lines) (hhtml : Marker.isHtmlStart line.text = true)
    (hunderline : ∀ below ∈ lines.head?, Marker.underlineDepth? below.text = none)
    {claim : Claim} (hclaim : Block.html (line :: lines) = some claim) :
    read? text = some (leaf claim) := by
  obtain ⟨rest, hstart⟩ := Marker.blockStart?_of_isHtmlStart hhtml
  have hraw : ofLines? Block.html text = some (leaf claim) := by
    rw [ofLines?, hlines, hclaim]
    rfl
  simp only [read?, readers, List.findSome?_cons, hraw,
    blankLines_eq_none hlines hstart (by decide),
    indentedCode_eq_none hlines hstart (by decide),
    fencedCode_eq_none hlines hstart (by decide) (by decide),
    quote?_eq_none hlines hstart (by decide),
    atxHeading_eq_none hlines hstart (by decide),
    thematicBreak_eq_none hlines hstart (by decide) (by decide) (by decide),
    list?_eq_none hlines hstart (by decide) (by decide) (by decide) (by decide),
    setextHeading_eq_none hlines hunderline]

/-- A line below that underlines it makes a heading even of a line that opens raw HTML. -/
theorem read?_of_underlined {text : Text} {line below : Line} {lines : List Line} {depth : Nat}
    (hlines : Line.ofText text = line :: below :: lines)
    (hhtml : Marker.isHtmlStart line.text = true)
    (hunderline : Marker.underlineDepth? below.text = some depth) :
    read? text = some (leaf (.leaf (line.size + below.size) (.heading depth))) := by
  obtain ⟨rest, hstart⟩ := Marker.blockStart?_of_isHtmlStart hhtml
  have hblank : line.isBlank = false :=
    Marker.not_isBlank_of_blockStart? hstart (List.mem_cons_self ..) (by decide)
  have hheading : ofLines? Block.setextHeading text =
      some (leaf (.leaf (line.size + below.size) (.heading depth))) := by
    simp [ofLines?, hlines, Block.setextHeading, hblank, hstart, hunderline]
  simp only [read?, readers, List.findSome?_cons, hheading,
    blankLines_eq_none hlines hstart (by decide),
    indentedCode_eq_none hlines hstart (by decide),
    fencedCode_eq_none hlines hstart (by decide) (by decide),
    quote?_eq_none hlines hstart (by decide),
    atxHeading_eq_none hlines hstart (by decide),
    thematicBreak_eq_none hlines hstart (by decide) (by decide) (by decide),
    list?_eq_none hlines hstart (by decide) (by decide) (by decide) (by decide)]

/-- A line with a statement keyword and an empty line below it open with a statement block when
the text has one there. -/
theorem read?_of_keyword {text : Text} {line : Line} {lines : List Line} {kind : StatementKind}
    {rest : Text} (hlines : Line.ofText text = line :: ⟨[], true⟩ :: lines)
    (hline : line.text = kind.keyword ++ rest) (hopens : Statement.opensLine text = true)
    {claim : Claim} (hclaim : Block.statement text = some claim) :
    read? text = some (leaf claim) := by
  -- No other block opens with the first letter of a keyword.
  obtain ⟨c, front, hc, hfirst⟩ : ∃ c front, (c = 'i' ∨ c = 'e') ∧ line.text = c :: front := by
    cases kind with
    | «import» => exact ⟨'i', _, .inl rfl, hline⟩
    | «export» => exact ⟨'e', _, .inr rfl, hline⟩
  have hother : ∀ d ∈ ['\x60', '~', '>', '#', '*', '-', '_', '+', '<'], c ≠ d := by
    rcases hc with rfl | rfl <;> simp
  have hdigit : c.isDigit = false := by rcases hc with rfl | rfl <;> decide
  have hspace : Text.isSpace c = false := by rcases hc with rfl | rfl <;> decide
  have hstart : Text.blockStart? line.text = some (c :: front) := by
    rw [hfirst, Text.blockStart?_cons (by rcases hc with rfl | rfl <;> decide)]
  have hstatement : statement? text = some (leaf claim) := by
    have hattempt : (Block.locateStatement text).allowsAttempt = true := by
      rw [Block.locateStatement, hopens]
      rfl
    rw [statement?, hattempt, hclaim]
    rfl
  -- The line below is empty, so it underlines nothing and separates no header from rows.
  have hunderline : Marker.underlineDepth? [] = none := by decide
  have htable : ofLines? Block.table text = none := by
    have hdelimiter : Marker.isDelimiterRow [] = false := by decide
    simp [ofLines?, hlines, Block.table, hdelimiter]
  simp only [read?, readers, List.findSome?_cons, hstatement, htable,
    blankLines_eq_none hlines hstart hspace,
    indentedCode_eq_none hlines hstart hspace,
    fencedCode_eq_none hlines hstart (hother _ (by decide)) (hother _ (by decide)),
    quote?_eq_none hlines hstart (hother _ (by decide)),
    atxHeading_eq_none hlines hstart (hother _ (by decide)),
    thematicBreak_eq_none hlines hstart (hother _ (by decide)) (hother _ (by decide))
      (hother _ (by decide)),
    list?_eq_none hlines hstart hdigit (hother _ (by decide)) (hother _ (by decide))
      (hother _ (by decide)),
    setextHeading_eq_none hlines (by simp [hunderline]),
    html_eq_none hlines hstart (hother _ (by decide))]

end Outline

end DocumentLayout
