import DocumentLayout.Proofs.Block.Conservation

/-!
# Columns of a line

A container takes columns of indentation off a line and measures what is left from column zero
again. Spaces do not mind. Tabs do: one that runs across the cut goes as a whole, and one that is
left moves to other stops unless the cut is at a stop itself. Apart from that the indentation is
shifted by the columns of the cut, so a line of an item is code in it only if it is indented that
much further than the content of the item.
-/

namespace DocumentLayout

open Marker

namespace Text

/-! ## Tab stops -/

theorem tabWidth_dvd_nextStop (column : Nat) : tabWidth ∣ nextStop column := by
  unfold nextStop tabWidth
  omega

theorem lt_nextStop (column : Nat) : column < nextStop column := by
  unfold nextStop tabWidth
  omega

theorem nextStop_add {width : Nat} (h : tabWidth ∣ width) (column : Nat) :
    nextStop (width + column) = width + nextStop column := by
  obtain ⟨n, rfl⟩ := h
  unfold nextStop tabWidth
  omega

/-! ## Indentation from a column on -/

theorem eq_space_or_tab {c : Char} (h : isIndent c = true) : c = ' ' ∨ c = '\t' := by
  simpa [isIndent] using h

theorem takeWhile_isIndent {text : Text} (hspace : ∀ rest, text = ' ' :: rest → False)
    (htab : ∀ rest, text = '\t' :: rest → False) : text.takeWhile isIndent = [] := by
  cases text with
  | nil => rfl
  | cons c rest =>
    refine List.takeWhile_cons_of_neg fun hc => ?_
    rcases eq_space_or_tab hc with rfl | rfl
    · exact hspace rest rfl
    · exact htab rest rfl

theorem indentFrom_append {indent : Text} (h : IsIndentation indent) (column : Nat) (rest : Text) :
    indentFrom column (indent ++ rest) = indentFrom (indentFrom column indent) rest := by
  induction indent generalizing column with
  | nil => rfl
  | cons c indent ih =>
    obtain ⟨hc, hindent⟩ := List.forall_mem_cons.1 h
    rcases eq_space_or_tab hc with rfl | rfl
    · exact ih hindent (column + 1)
    · exact ih hindent (nextStop column)

/-- A shift by whole tab stops moves every column by as much. -/
theorem indentFrom_add {width : Nat} (h : tabWidth ∣ width) (column : Nat) (text : Text) :
    indentFrom (width + column) text = width + indentFrom column text := by
  fun_induction indentFrom column text with
  | case1 column rest ih => exact ih
  | case2 column rest ih =>
    rw [indentFrom, nextStop_add h]
    exact ih
  | case3 text column hspace htab => rw [indentFrom] <;> assumption

/-- Any other shift does so only where there is no tab. -/
theorem indentFrom_add_iff (width column : Nat) (text : Text) :
    indentFrom (width + column) text = width + indentFrom column text ↔
      tabWidth ∣ width ∨ '\t' ∉ text.takeWhile isIndent := by
  fun_induction indentFrom column text with
  | case1 column rest ih =>
    have hmem : '\t' ∈ (' ' :: rest).takeWhile isIndent ↔ '\t' ∈ rest.takeWhile isIndent := by
      rw [List.takeWhile_cons_of_pos (by decide)]
      simp
    rw [hmem, indentFrom, Nat.add_assoc]
    exact ih
  | case2 column rest ih =>
    have hmem : '\t' ∈ ('\t' :: rest).takeWhile isIndent := by
      rw [List.takeWhile_cons_of_pos (by decide)]
      exact List.mem_cons_self ..
    rw [or_iff_left (not_not_intro hmem), indentFrom]
    -- Behind the tab both columns are stops, so from there on they move alike.
    have hshifted := indentFrom_add (tabWidth_dvd_nextStop (width + column)) 0 rest
    have hstop := indentFrom_add (tabWidth_dvd_nextStop column) 0 rest
    rw [Nat.add_zero] at hshifted hstop
    rw [hshifted, hstop, ← Nat.add_assoc, Nat.add_right_cancel_iff]
    refine ⟨fun heq => ?_, fun h => nextStop_add h column⟩
    refine (Nat.dvd_add_iff_left (tabWidth_dvd_nextStop column)).2 ?_
    rw [← heq]
    exact tabWidth_dvd_nextStop (width + column)
  | case3 text column hspace htab =>
    rw [indentFrom, takeWhile_isIndent hspace htab]
    · simp
    · exact hspace
    · exact htab

/-- An indentation without width is empty. -/
theorem takeWhile_of_indentFrom {column : Nat} {text : Text} (h : indentFrom column text = column) :
    text.takeWhile isIndent = [] := by
  unfold indentFrom at h
  split at h
  · have := le_indentFrom (column + 1) ‹_›
    omega
  · rename_i rest
    have := le_indentFrom (nextStop column) rest
    have := lt_nextStop column
    omega
  · exact takeWhile_isIndent ‹_› ‹_›

/-! ## Cuts -/

/-- Whether a tab in the indentation of a text that starts at `column` runs across the column
`limit`. -/
def crossesTab (column limit : Nat) : Text → Bool
  | ' ' :: rest => crossesTab (column + 1) limit rest
  | '\t' :: rest =>
    (column < limit && limit < nextStop column) || crossesTab (nextStop column) limit rest
  | _ => false

theorem crossesTab_of_le {column limit : Nat} (h : limit ≤ column) (text : Text) :
    crossesTab column limit text = false := by
  fun_induction crossesTab column limit text with
  | case1 column rest ih => exact ih (by omega)
  | case2 column rest ih =>
    have hstop := lt_nextStop column
    rw [ih (by omega), Bool.or_false]
    simp
    omega
  | case3 => rfl

theorem eq_min_indentFrom {column limit : Nat} (hle : column ≤ limit) (hge : limit ≤ column)
    (text : Text) : column = min limit (indentFrom column text) := by
  have := le_indentFrom column text
  omega

/-- What is removed up to a column reaches exactly that far, or as far as the indentation does when
that is less. Only a tab across the column makes it reach further, to the stop of the tab. -/
theorem exists_stripFrom {column limit : Nat} (hle : column ≤ limit) (text : Text) :
    ∃ indent, IsIndentation indent ∧ text = indent ++ stripFrom column limit text ∧
      (crossesTab column limit text = false ∧
          indentFrom column indent = min limit (indentFrom column text) ∨
        crossesTab column limit text = true ∧ limit < indentFrom column indent ∧
          tabWidth ∣ indentFrom column indent) := by
  fun_induction stripFrom column limit text with
  | case1 column rest hlt ih =>
    obtain ⟨indent, hindent, hrest, hwidth⟩ := ih hlt
    exact ⟨' ' :: indent, hindent.cons (by decide), congrArg (' ' :: ·) hrest, hwidth⟩
  | case3 column rest hlt ih =>
    by_cases hstop : nextStop column ≤ limit
    · obtain ⟨indent, hindent, hrest, hwidth⟩ := ih hstop
      refine ⟨'\t' :: indent, hindent.cons (by decide), congrArg ('\t' :: ·) hrest, ?_⟩
      have hcrosses : crossesTab column limit ('\t' :: rest) =
          crossesTab (nextStop column) limit rest := by
        simp [crossesTab, Nat.not_lt.2 hstop]
      rw [hcrosses]
      exact hwidth
    · -- The tab crosses the column, and behind its stop nothing more is removed.
      have hbehind := Nat.not_le.1 hstop
      rw [stripFrom_of_le (Nat.le_of_lt hbehind)]
      refine ⟨['\t'], IsIndentation.nil.cons (by decide), rfl, .inr ⟨?_, hbehind, ?_⟩⟩
      · simp [crossesTab, hlt, hbehind]
      · exact tabWidth_dvd_nextStop column
  | case2 column rest hlt =>
    have hge := Nat.not_lt.1 hlt
    exact ⟨[], .nil, rfl, .inl ⟨crossesTab_of_le hge _, eq_min_indentFrom hle hge _⟩⟩
  | case4 column rest hlt =>
    have hge := Nat.not_lt.1 hlt
    exact ⟨[], .nil, rfl, .inl ⟨crossesTab_of_le hge _, eq_min_indentFrom hle hge _⟩⟩
  | case5 text column hspace htab =>
    refine ⟨[], .nil, rfl, .inl ⟨?_, ?_⟩⟩
    · rw [crossesTab] <;> assumption
    · have hcolumn : indentFrom column text = column := by rw [indentFrom] <;> assumption
      rw [hcolumn, Nat.min_eq_right hle]
      rfl

/-- Whether a tab is left in the indentation behind a cut at a column that is no tab stop, so that
measured from column zero again it reaches another column. -/
def movesTab (line : Text) (columns : Nat) : Bool :=
  !crossesTab 0 columns line && columns % tabWidth != 0 &&
    ((stripColumns line columns).takeWhile isIndent).contains '\t'

/-- What is removed of a line has a width of its own, at least that of the cut or of the whole
indentation. What is left has the rest of the width when no tab moves, and only then. -/
theorem exists_stripColumns (line : Text) (columns : Nat) :
    ∃ indent, IsIndentation indent ∧ line = indent ++ stripColumns line columns ∧
      min columns (indentation line) ≤ indentation indent ∧
      (indentation indent = min columns (indentation line) ↔ crossesTab 0 columns line = false) ∧
      (indentation line = indentation indent + indentation (stripColumns line columns) ↔
        movesTab line columns = false) := by
  obtain ⟨indent, hindent, hline, hwidth⟩ := exists_stripFrom (Nat.zero_le columns) line
  change line = indent ++ stripColumns line columns at hline
  refine ⟨indent, hindent, hline, ?_⟩
  unfold movesTab
  generalize hrest : stripColumns line columns = rest at hline
  have htotal : indentation line = indentFrom (indentation indent) rest := by
    rw [hline, indentation, indentFrom_append hindent]
    rfl
  have hle : indentation indent ≤ indentation line := htotal ▸ le_indentFrom _ rest
  have hshift := indentFrom_add_iff (indentation indent) 0 rest
  rw [Nat.add_zero, ← htotal] at hshift
  change (indentation line = indentation indent + indentation rest ↔ _) at hshift
  change (_ ∧ indentation indent = min columns (indentation line) ∨
    _ ∧ columns < indentation indent ∧ _) at hwidth
  rcases hwidth with ⟨hcrosses, hwidth⟩ | ⟨hcrosses, hwidth, hstop⟩
  · refine ⟨hwidth.ge, iff_of_true hwidth hcrosses, hshift.trans ?_⟩
    by_cases hcolumns : columns ≤ indentation line
    · rw [Nat.min_eq_left hcolumns] at hwidth
      rw [hcrosses, hwidth, Nat.dvd_iff_mod_eq_zero]
      simp [or_iff_not_imp_left]
    · -- The whole indentation is removed, so no tab is left.
      rw [Nat.min_eq_right (by omega)] at hwidth
      have hnil : rest.takeWhile isIndent = [] :=
        takeWhile_of_indentFrom (htotal.symm.trans hwidth.symm)
      simp [hnil]
  · refine ⟨by omega, iff_of_false (by omega) (by simp [hcrosses]), hshift.trans ?_⟩
    exact iff_of_true (.inl hstop) (by simp [hcrosses])

/-- The indentation is shifted by the columns of the cut exactly when no tab runs across the cut
and none moves behind it. -/
theorem indentation_stripColumns_iff (line : Text) (columns : Nat) :
    indentation (stripColumns line columns) =
        indentation line - min columns (indentation line) ↔
      crossesTab 0 columns line = false ∧ movesTab line columns = false := by
  obtain ⟨indent, -, -, hle, hwidth, hshift⟩ := exists_stripColumns line columns
  rw [← hwidth, ← hshift]
  refine ⟨fun hrest => ?_, fun ⟨hwidth, hshift⟩ => by omega⟩
  by_cases hmoves : movesTab line columns = false
  · have := hshift.2 hmoves
    omega
  · -- A tab that moves has not been crossed, so the width of the cut is as it should be.
    have hcrosses : crossesTab 0 columns line = false := by
      simp only [movesTab, Bool.not_eq_false, Bool.and_eq_true, Bool.not_eq_true'] at hmoves
      exact hmoves.1.1
    have := hwidth.2 hcrosses
    omega

end Text

/-! ## Lines of an item -/

namespace Block

theorem indented_of_mem_codeLines {line : Line} {lines : List Line} (h : line ∈ codeLines lines)
    (hblank : line.isBlank = false) : Text.tabWidth ≤ Text.indentation line.text := by
  fun_induction codeLines lines with
  | case1 => simp at h
  | case2 first lines hfirst hcode ih => simp at h
  | case3 first lines hfirst hcode ih =>
    rcases List.mem_cons.1 h with rfl | h
    · simp [hfirst] at hblank
    · exact ih h
  | case4 first lines hfirst hindent ih =>
    rcases List.mem_cons.1 h with rfl | h
    · exact hindent
    · exact ih h
  | case5 => simp at h

theorem listStep_continues {list last : ListMarker} {spaced : Bool} {line : Line} {text : Text}
    (h : listStep list last spaced line = .continues text) :
    last.contentIndent ≤ Text.indentation line.text ∧
      text = Text.stripColumns line.text last.contentIndent := by
  unfold listStep at h
  split at h
  · exact ⟨‹_›, (ListStep.continues.inj h).symm⟩
  · split at h <;> split at h <;> simp at h

end Block

open Text Block

/-- A cut takes nothing but spaces and tabs off a line. What is left has the indentation of the line
without the columns of the cut exactly when no tab runs across it and none moves behind it; so a
line that goes on with an item keeps its indentation relative to the content of the item under this
condition only. And when no tab moves, it is code inside the item only if it is indented by four
columns more. -/
theorem indentation_stripColumns (line : Line) (columns : Nat) :
    (∃ indent, IsIndentation indent ∧ line.text = indent ++ stripColumns line.text columns) ∧
    (indentation (stripColumns line.text columns) =
        indentation line.text - min columns (indentation line.text) ↔
      crossesTab 0 columns line.text = false ∧ movesTab line.text columns = false) ∧
    ∀ (list last : ListMarker) (spaced : Bool) (text : Text),
      line.isBlank = false → listStep list last spaced line = .continues text →
      (indentation line.text = last.contentIndent + indentation text ↔
        crossesTab 0 last.contentIndent line.text = false ∧
          movesTab line.text last.contentIndent = false) ∧
      (movesTab line.text last.contentIndent = false → ∀ (broken : Bool) (lines : List Line),
        ⟨text, broken⟩ ∈ codeLines lines →
        last.contentIndent + tabWidth ≤ indentation line.text) := by
  refine ⟨exists_indentation_stripColumns line.text columns,
    indentation_stripColumns_iff line.text columns, ?_⟩
  intro list last spaced text hblank hstep
  obtain ⟨hindent, rfl⟩ := listStep_continues hstep
  constructor
  · rw [← indentation_stripColumns_iff, Nat.min_eq_left hindent]
    omega
  · intro hmoves broken lines hcode
    obtain ⟨indent, -, -, hle, -, hshift⟩ :=
      exists_stripColumns line.text last.contentIndent
    rw [Nat.min_eq_left hindent] at hle
    have hline := hshift.2 hmoves
    have hleft := indented_of_mem_codeLines hcode ((isBlank_stripColumns _ _).trans hblank)
    dsimp only at hleft
    omega

/-- Below an item with the number ten the content stands at a tab stop, so both tabs of a line count
as before and its second one makes it code. -/
theorem indentation_stripColumns_number :
    ∃ marker, listItem? "10. a".toList = some marker ∧
      listStep marker marker true ⟨"\t  \tb".toList, true⟩ = .continues "  \tb".toList ∧
      (⟨"  \tb".toList, true⟩ : Line) ∈ codeLines [⟨"  \tb".toList, true⟩] ∧
      indentation (stripColumns "\t  \tb".toList marker.contentIndent) =
        indentation "\t  \tb".toList -
          min marker.contentIndent (indentation "\t  \tb".toList) ∧
      indentation "\t  \tb".toList = marker.contentIndent + indentation "  \tb".toList ∧
      marker.contentIndent + tabWidth ≤ indentation "\t  \tb".toList := by
  have hstep : listStep ⟨true, '.', 4, "a".toList, true, false⟩
      ⟨true, '.', 4, "a".toList, true, false⟩ true ⟨"\t  \tb".toList, true⟩ =
        .continues "  \tb".toList := by
    rfl
  have hcode : (⟨"  \tb".toList, true⟩ : Line) ∈ codeLines [⟨"  \tb".toList, true⟩] := by decide
  obtain ⟨-, hcut, hlist⟩ := indentation_stripColumns ⟨"\t  \tb".toList, true⟩ 4
  obtain ⟨hkeeps, honly⟩ := hlist _ _ _ _ (by decide) hstep
  exact ⟨_, by decide, hstep, hcode, hcut.2 (by decide), hkeeps.2 (by decide),
    honly (by decide) true _ hcode⟩

/-- Below an item whose content stands at column two, a tab behind two spaces moves: the line is
indented by two columns more than the content and is code in the item all the same. Whatever else
were left of the line, its indentation would not be those two columns. A tab in front of two spaces
runs across the cut and goes as a whole: the line is indented by four columns more than the content
and is no code, since four columns are removed where two were asked for. -/
theorem indentation_stripColumns_tab :
    ∃ marker, listItem? "- a".toList = some marker ∧ marker.contentIndent = 2 ∧
      listStep marker marker true ⟨"  \tb".toList, true⟩ = .continues "\tb".toList ∧
      (⟨"\tb".toList, true⟩ : Line) ∈ codeLines [⟨"\tb".toList, true⟩] ∧
      ¬ 2 + tabWidth ≤ indentation "  \tb".toList ∧
      indentation (stripColumns "  \tb".toList 2) = 4 ∧
      indentation "  \tb".toList - min 2 (indentation "  \tb".toList) = 2 ∧
      (∀ text ∈ "  \tb".toList.tails, indentation text ≠ 2) ∧
      listStep marker marker true ⟨"\t  b".toList, true⟩ = .continues "  b".toList ∧
      codeLines [⟨"  b".toList, true⟩] = [] ∧
      indentation "\t  b".toList - min 2 (indentation "\t  b".toList) = 4 ∧
      indentation (stripColumns "\t  b".toList 2) = 2 :=
  ⟨⟨false, '-', 2, "a".toList, true, false⟩, by decide, rfl, rfl, by decide, by decide, by decide,
    by decide, by decide, rfl, by decide, by decide, by decide⟩

end DocumentLayout
