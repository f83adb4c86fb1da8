import DocumentLayout.Proofs.Block.Locating
import DocumentLayout.Proofs.Statement.Continuation

/-!
# Cutting below a block

A block is found by its own lines and by the line where it stops. Where the lines below it change
to empty lines from some line on that it does not reach, the same block is found. Indented code may
go on below such empty lines, and a statement block stops at them.
-/

namespace DocumentLayout

open Marker

/-! ## Statement blocks -/

theorem Statement.head?_ne_of_opensLine {text : Text} (h : opensLine text = true) :
    (text.dropWhile Token.isGap).head? ≠ some '\n' := by
  rw [opensLine_iff] at h
  rw [dropWhile_isGap_of_startsKeyword h]
  obtain ⟨kind, c, rest, htrim, -⟩ := h
  obtain ⟨d, letters, hkeyword, hword, -⟩ := keyword_eq_cons kind
  intro hfeed
  rw [htrim, hkeyword] at hfeed
  -- The line feed would be the first letter of the keyword.
  obtain rfl : d = '\n' := by simpa using hfeed
  exact absurd hword (by decide)

/-- A text opens with a statement keyword, and with the text `raw` in front of the first empty
line. -/
structure Statement.OpensWith (text raw rest : Text) : Prop where
  opens : opensLine text = true
  cut : Text.cutAt? StatementBlock.separator text = some (raw, rest)
  keyword : StartsKeyword (raw.dropWhile Token.isGap)

theorem StatementBlock.eq_of_cutAt? {text raw rest : Text}
    (h : Text.cutAt? separator text = some (raw, rest)) : text = raw ++ '\n' :: '\n' :: rest := by
  simpa [separator] using Text.eq_of_cutAt? h

namespace Outline

theorem statement?_of_cut {text raw rest : Text} {statements : List Statement}
    (hopens : Statement.opensLine text = true)
    (hcut : Text.cutAt? StatementBlock.separator text = some (raw, rest))
    (hsplit : Statement.split? raw = some statements) :
    statement? text = some (leaf (.leaf (Text.byteLength raw) (.statement ⟨raw, statements⟩))) := by
  unfold statement?
  rw [Block.allowsAttempt_locateStatement, if_pos hopens, Block.statement, StatementBlock.read?,
    hcut]
  simp [hsplit]

/-- The outline of a statement block is one in front of the first empty line. -/
theorem exists_opensWith {text : Text} {outline : Outline} (h : statement? text = some outline) :
    ∃ raw rest statements, Statement.OpensWith text raw rest ∧
      Statement.split? raw = some statements ∧
      outline = leaf (.leaf (Text.byteLength raw) (.statement ⟨raw, statements⟩)) := by
  unfold statement? at h
  split at h
  · rename_i hopens
    rw [Block.allowsAttempt_locateStatement] at hopens
    obtain ⟨claim, hclaim, rfl⟩ := Option.map_eq_some_iff.1 h
    obtain ⟨block, hread, rfl⟩ := Option.map_eq_some_iff.1 hclaim
    obtain ⟨⟨raw, rest⟩, hcut, hsplit⟩ := Option.bind_eq_some_iff.1 hread
    obtain ⟨statements, hstatements, rfl⟩ := Option.map_eq_some_iff.1 hsplit
    refine ⟨raw, rest, statements, ⟨hopens, hcut, ?_⟩, hstatements, rfl⟩
    rcases Statement.startsKeyword_of_split? hstatements with hkeyword | ⟨more, hmore⟩
    · exact hkeyword
    · -- The text would open with a line feed behind the gap.
      refine absurd ?_ (Statement.head?_ne_of_opensLine hopens)
      rw [StatementBlock.eq_of_cutAt? hcut, Text.dropWhile_append_cons (by decide), hmore]
      rfl
  · simp at h

/-- Where a text is no statement block above another one, it is none above two empty lines either,
unless it ends with a bare keyword. -/
theorem statement?_eq_none_of_cut {above below raw rest : Text}
    (h : statement? (above ++ '\n' :: below) = none)
    (hbelow : Statement.OpensWith below raw rest)
    (hbare : ∀ before line, above = before ++ line →
      (before = [] ∨ before.getLast? = some '\n') → ¬ Statement.IsBare line) (other : Text) :
    statement? (above ++ '\n' :: '\n' :: '\n' :: other) = none := by
  cases hnew : statement? (above ++ '\n' :: '\n' :: '\n' :: other) with
  | none => rfl
  | some outline =>
    obtain ⟨rawNew, restNew, statements, ⟨hopens, hcut, -⟩, hsplit, -⟩ := exists_opensWith hnew
    rw [Statement.opensLine_append_feed above _ below] at hopens
    have hfound : ∃ rawOld restOld statements,
        Text.cutAt? StatementBlock.separator (above ++ '\n' :: below) = some (rawOld, restOld) ∧
          Statement.split? rawOld = some statements := by
      cases hinside : Text.cutAt? StatementBlock.separator (above ++ ['\n']) with
      | some found =>
        -- There is an empty line above the cut, so the block is the same.
        have hboth := fun more => Text.cutAt?_append hinside more
        have hold := hboth below
        have hfirst := hboth ('\n' :: '\n' :: other)
        rw [List.append_assoc, List.singleton_append] at hold hfirst
        rw [hfirst] at hcut
        obtain ⟨rfl, -⟩ := Prod.mk.inj (Option.some.inj hcut)
        exact ⟨_, _, statements, hold, hsplit⟩
      | none =>
        -- The new block stops at the cut, and the old one would go on with the one below.
        have hhead : below.head? ≠ some '\n' := by
          intro hfeed
          obtain ⟨more, rfl⟩ := List.head?_eq_some_iff.1 hfeed
          exact Statement.head?_ne_of_opensLine hbelow.opens rfl
        rw [StatementBlock.separator, Text.cutAt?_feed_feed hinside] at hcut
        obtain ⟨rfl, -⟩ := Prod.mk.inj (Option.some.inj hcut)
        obtain ⟨more, hmore⟩ := Statement.exists_split?_append hsplit hbelow.keyword hbare
        refine ⟨_, rest, more, ?_, hmore⟩
        rw [StatementBlock.separator, Text.cutAt?_feed hinside hhead]
        simpa [StatementBlock.separator] using hbelow.cut
    obtain ⟨rawOld, restOld, statementsOld, hcutOld, hsplitOld⟩ := hfound
    rw [statement?_of_cut hopens hcutOld hsplitOld] at h
    simp at h

end Outline

namespace Line

/-! ## Lines below -/

/-- A line with nothing in it. -/
def empty : Line := ⟨[], true⟩

theorem size_pos {line : Line} (h : line.IsWhole) : 0 < line.size := by
  rw [size, h.1]
  exact Nat.succ_pos _

theorem totalSize_cons (line : Line) (lines : List Line) :
    totalSize (line :: lines) = line.size + totalSize lines := rfl

section

variable {line : Line} (hline : line.IsWhole) {lines below : List Line}

include hline

-- Lines that stop in front of a line below are not found by looking at it.
theorem takeWhile_cut {p : Line → Bool} (hempty : p empty = false)
    (hsize : totalSize ((lines ++ line :: below).takeWhile p) ≤ totalSize lines)
    (other : List Line) :
    (lines ++ empty :: other).takeWhile p = (lines ++ line :: below).takeWhile p := by
  induction lines with
  | nil =>
    rw [List.nil_append, List.takeWhile_cons] at hsize
    rw [List.nil_append, List.nil_append, List.takeWhile_cons_of_neg (by simp [hempty]),
      List.takeWhile_cons]
    split
    · have := size_pos hline
      rw [if_pos ‹_›, totalSize_cons, totalSize] at hsize
      omega
    · rfl
  | cons first lines ih =>
    rw [List.cons_append, List.takeWhile_cons] at hsize
    rw [List.cons_append, List.cons_append, List.takeWhile_cons, List.takeWhile_cons]
    split
    · rw [if_pos ‹_›, totalSize_cons, totalSize_cons] at hsize
      rw [ih (by omega)]
    · rfl

theorem through?_cut {p : Line → Bool}
    (hsize : totalSize ((through? p (lines ++ line :: below)).getD (lines ++ line :: below)) ≤
      totalSize lines)
    (other : List Line) :
    (through? p (lines ++ other)).getD (lines ++ other) =
      (through? p (lines ++ line :: below)).getD (lines ++ line :: below) := by
  induction lines with
  | nil =>
    -- Whatever is found has the line in it.
    have hpos := size_pos hline
    rw [List.nil_append, through?] at hsize
    split at hsize
    · rw [Option.getD_some, totalSize_cons, totalSize] at hsize
      omega
    · cases hthrough : through? p below with
      | none =>
        rw [hthrough, Option.map_none, Option.getD_none, totalSize_cons, totalSize] at hsize
        omega
      | some taken =>
        rw [hthrough, Option.map_some, Option.getD_some, totalSize_cons, totalSize] at hsize
        omega
  | cons first lines ih =>
    have hgetD : ∀ rest : List Line,
        ((through? p rest).map (first :: ·)).getD (first :: rest) =
          first :: (through? p rest).getD rest := by
      intro rest
      cases through? p rest <;> rfl
    rw [List.cons_append, through?] at hsize
    rw [List.cons_append, List.cons_append, through?, through?]
    split
    · rfl
    · rw [if_neg ‹_›, hgetD, totalSize_cons, totalSize_cons] at hsize
      rw [hgetD, hgetD, ih (by omega)]

end

end Line

namespace Block

open Line (empty)

/-! ## Blocks of lines -/

/-- A reader of lines that finds the same on the lines `first :: lines` and a line below them as on
the same lines with an empty line below them. Only what stops in front of the line below counts. -/
def StopsAbove (claim? : List Line → Option Claim) : Prop :=
  ∀ {first line : Line} {lines below : List Line} (other : List Line),
    first.isBlank = false → line.IsWhole →
    (claim? (first :: (lines ++ line :: below)) = none →
      claim? (first :: (lines ++ empty :: other)) = none) ∧
    ∀ claim, claim? (first :: (lines ++ line :: below)) = some claim →
      claim.length ≤ first.size + Line.totalSize lines →
      claim? (first :: (lines ++ empty :: other)) = some claim

-- A block that its first line opens stops above when what it claims does.
theorem stopsAbove_of_opens {α : Type} {claim? : List Line → Option Claim}
    (opens : Line → Option α) (claim : α → Line → List Line → Claim)
    (hopens : ∀ first rest, first.isBlank = false →
      claim? (first :: rest) = (opens first).map fun a => claim a first rest)
    (hclaim : ∀ a {first line : Line} {lines below : List Line} (other : List Line),
      line.IsWhole →
      (claim a first (lines ++ line :: below)).length ≤ first.size + Line.totalSize lines →
      claim a first (lines ++ empty :: other) = claim a first (lines ++ line :: below)) :
    StopsAbove claim? := by
  intro first line lines below other hfirst hline
  rw [hopens _ _ hfirst, hopens _ _ hfirst]
  cases opens first with
  | none => exact ⟨id, fun claim hnone => by simp at hnone⟩
  | some a =>
    refine ⟨fun hnone => by simp at hnone, fun found hfound hsize => ?_⟩
    obtain rfl := Option.some.inj hfound
    rw [Option.map_some, hclaim a other hline hsize]

theorem stopsAbove_blankLines : StopsAbove blankLines := by
  refine stopsAbove_of_opens (α := Unit) (fun _ => none) (fun _ _ _ => .skip 0) ?_
    (fun _ _ _ _ _ _ _ _ => rfl)
  intro first rest hfirst
  rw [blankLines, List.takeWhile_cons_of_neg (by simp [hfirst])]
  rfl

theorem stopsAbove_fencedCode : StopsAbove fencedCode := by
  refine stopsAbove_of_opens (fun first => fence? first.text) _ (fun _ _ _ => rfl) ?_
  intro fence first line lines below other hline hsize
  dsimp only [Claim.leaf] at hsize
  rw [Line.through?_cut hline (Nat.le_of_add_le_add_left hsize)]

theorem stopsAbove_atxHeading : StopsAbove atxHeading :=
  stopsAbove_of_opens (fun first => headingDepth? first.text)
    (fun depth first _ => .leaf first.size (.heading depth)) (fun _ _ _ => rfl)
    (fun _ _ _ _ _ _ _ _ => rfl)

theorem stopsAbove_thematicBreak : StopsAbove thematicBreak := by
  refine stopsAbove_of_opens (fun first => if isThematicBreak first.text then some () else none)
    (fun _ first _ => .leaf first.size .thematicBreak) ?_ (fun _ _ _ _ _ _ _ _ => rfl)
  intro first rest hfirst
  rw [thematicBreak]
  split <;> rfl

theorem stopsAbove_setextHeading : StopsAbove setextHeading := by
  intro first line lines below other hfirst hline
  cases lines with
  | cons underline lines => exact ⟨id, fun _ hclaim _ => hclaim⟩
  | nil =>
    -- The line below is the underline, so either it is taken or there is no heading.
    have hempty : underlineDepth? empty.text = none := by decide
    have hnone : setextHeading (first :: ([] ++ empty :: other)) = none := by
      simp [setextHeading, hempty]
    refine ⟨fun _ => hnone, fun claim hclaim hsize => ?_⟩
    have hpos := Line.size_pos hline
    rw [List.nil_append, setextHeading] at hclaim
    split at hclaim
    · simp at hclaim
    · obtain ⟨depth, -, rfl⟩ := Option.map_eq_some_iff.1 hclaim
      simp only [Claim.leaf, Line.totalSize] at hsize
      omega

theorem stopsAbove_html : StopsAbove html := by
  refine stopsAbove_of_opens (fun first => if isHtmlStart first.text then some () else none)
    (fun _ first rest => .leaf (first.size + Line.totalSize
      (if opensComment first then
        if closesComment first then [] else (Line.through? closesComment rest).getD rest
      else rest.takeWhile (!·.isBlank))) .html) ?_ ?_
  · intro first rest hfirst
    rw [html]
    split <;> rfl
  · intro _ first line lines below other hline hsize
    dsimp only [Claim.leaf] at hsize
    have hrest := Nat.le_of_add_le_add_left hsize
    -- A comment stops where it is closed, anything else at the next blank line.
    cases hcomment : opensComment first with
    | true =>
      simp only [hcomment, ↓reduceIte] at hrest ⊢
      cases hcloses : closesComment first with
      | true => rfl
      | false =>
        simp only [hcloses, Bool.false_eq_true, ↓reduceIte] at hrest ⊢
        rw [Line.through?_cut hline hrest]
    | false =>
      simp only [hcomment, Bool.false_eq_true, ↓reduceIte] at hrest ⊢
      rw [Line.takeWhile_cut hline rfl hrest]

theorem prose_cut {line : Line} (hline : line.IsWhole) {lines below : List Line}
    (hsize : Line.totalSize (Line.prose (lines ++ line :: below)) ≤ Line.totalSize lines)
    (other : List Line) :
    Line.prose (lines ++ empty :: other) = Line.prose (lines ++ line :: below) :=
  Line.takeWhile_cut hline rfl hsize other

theorem stopsAbove_table : StopsAbove table := by
  intro first line lines below other hfirst hline
  cases lines with
  | nil =>
    have hempty : isDelimiterRow empty.text = false := by decide
    have hnone : table (first :: ([] ++ empty :: other)) = none := by
      simp [table, hempty]
    refine ⟨fun _ => hnone, fun claim hclaim hsize => ?_⟩
    have hpos := Line.size_pos hline
    rw [List.nil_append, table] at hclaim
    split at hclaim
    · obtain rfl := Option.some.inj hclaim
      simp only [Claim.leaf, Line.totalSize] at hsize
      omega
    · simp at hclaim
  | cons delimiter lines =>
    rw [List.cons_append, List.cons_append, table, table]
    split
    · refine ⟨fun hnone => by simp at hnone, fun claim hclaim hsize => ?_⟩
      obtain rfl := Option.some.inj hclaim
      simp only [Claim.leaf, Line.totalSize_cons, ← Nat.add_assoc] at hsize
      rw [prose_cut hline (Nat.le_of_add_le_add_left hsize)]
    · exact ⟨id, fun claim hnone => by simp at hnone⟩

theorem stopsAbove_paragraph : StopsAbove paragraph := by
  refine stopsAbove_of_opens (fun _ => some ())
    (fun _ first rest => .leaf (first.size + Line.totalSize (Line.prose rest)) .paragraph) ?_ ?_
  · intro first rest hfirst
    rw [paragraph, if_neg (by simp [hfirst])]
    rfl
  · intro _ first line lines below other hline hsize
    dsimp only [Claim.leaf] at hsize
    rw [prose_cut hline (Nat.le_of_add_le_add_left hsize)]

/-! ## Quotes and lists -/

theorem quoteRest_cut {line : Line} (hline : line.IsWhole) {lines below : List Line}
    (hsize : Line.totalSize ((quoteRest (lines ++ line :: below)).map (·.1)) ≤
      Line.totalSize lines)
    (other : List Line) :
    quoteRest (lines ++ empty :: other) = quoteRest (lines ++ line :: below) := by
  induction lines with
  | nil =>
    have hempty : quoteRest (empty :: other) = [] := by
      have hcontent : quoteContent? empty = none := by decide
      rw [quoteRest, hcontent]
      rfl
    -- The quote would be larger if the line below went on with it.
    have hpos := Line.size_pos hline
    rw [List.nil_append, quoteRest] at hsize
    rw [List.nil_append, List.nil_append, hempty, quoteRest]
    split at hsize
    · simp only [List.map_cons, Line.totalSize] at hsize
      omega
    · split at hsize
      · simp only [List.map_cons, Line.totalSize] at hsize
        omega
      · rw [if_neg ‹_›]
  | cons first lines ih =>
    rw [List.cons_append, quoteRest] at hsize
    rw [List.cons_append, List.cons_append, quoteRest, quoteRest]
    split at hsize
    · simp only [List.map_cons, Line.totalSize_cons] at hsize
      rw [ih (by omega)]
    · split at hsize
      · simp only [List.map_cons, Line.totalSize_cons] at hsize
        rw [ih (by omega)]
      · rw [if_neg ‹_›, if_neg ‹_›]

-- Whatever comes next, the lines of the item are claimed.
theorem totalSize_le_listItems (list last : ListMarker) (item : Item) (blank lines : List Line) :
    Line.totalSize item.claimed ≤
      Line.totalSize ((listItems list last item blank lines).flatMap Item.claimed) := by
  fun_induction listItems list last item blank lines with
  | case1 last item blank => simp
  | case2 last item blank line lines hblank hgoes ih => exact ih
  | case3 last item blank line lines hblank hgoes => simp
  | case4 last item blank line lines hblank text hstep item' ih =>
    simp only [item', Item.claimed, Line.totalSize_append] at ih ⊢
    omega
  | case5 last item blank line lines hblank next hstep ih =>
    rw [List.flatMap_cons, Line.totalSize_append]
    exact Nat.le_add_right _ _
  | case6 last item blank line lines hblank hstep item' ih =>
    simp only [item', Item.claimed, Line.totalSize_append] at ih ⊢
    omega
  | case7 last item blank line lines hblank hstep => simp

theorem listItems_empty (list last : ListMarker) (item : Item) (blank other : List Line) :
    listItems list last item blank (empty :: empty :: other) = [item] := by
  have hblank : empty.isBlank = true := rfl
  rw [listItems, if_pos hblank]
  rfl

-- A list that takes a line is larger than one that stops above it.
theorem listItems_eq_of_totalSize_le {line : Line} (hline : line.IsWhole)
    (hblank : line.isBlank = false) {list last : ListMarker} {item : Item}
    {spaced below : List Line}
    (hsize : Line.totalSize
        ((listItems list last item spaced (line :: below)).flatMap Item.claimed) ≤
      Line.totalSize (item.claimed ++ spaced)) :
    listItems list last item spaced (line :: below) = [item] := by
  have hpos := Line.size_pos hline
  rw [listItems, if_neg (by simp [hblank])] at hsize ⊢
  cases hstep : listStep list last (spaced != []) line with
  | ends => rfl
  | continues text =>
    have hle := totalSize_le_listItems list last ⟨item.before, item.lines ++ spaced ++ [line],
      item.content ++ spaced.map (fun _ => []) ++ [text]⟩ [] below
    simp only [hstep, Item.claimed, Line.totalSize_append, Line.totalSize] at hsize hle
    omega
  | opens next =>
    have hle := totalSize_le_listItems list next ⟨spaced, [line], [next.content]⟩ [] below
    simp only [hstep, List.flatMap_cons, Item.claimed, Line.totalSize_append,
      Line.totalSize] at hsize hle
    omega
  | lazy =>
    have hspaced := listStep_lazy hstep
    obtain rfl : spaced = [] := by simpa using hspaced
    have hle := totalSize_le_listItems list last ⟨item.before, item.lines ++ [line],
      item.content ++ [line.text]⟩ [] below
    simp only [hstep, Item.claimed, Line.totalSize_append, Line.totalSize] at hsize hle
    omega

/-- The items of a list that stops above a line are the same with two empty lines in its place. -/
theorem listItems_cut {line : Line} (hline : line.IsWhole) (hblank : line.isBlank = false)
    {list last : ListMarker} {item : Item} {spaced lines below : List Line}
    (hsize : Line.totalSize
        ((listItems list last item spaced (lines ++ line :: below)).flatMap Item.claimed) ≤
      Line.totalSize (item.claimed ++ spaced ++ lines))
    (other : List Line) :
    listItems list last item spaced (lines ++ empty :: empty :: other) =
      listItems list last item spaced (lines ++ line :: below) := by
  induction lines generalizing last item spaced with
  | nil =>
    rw [List.append_nil] at hsize
    rw [List.nil_append, List.nil_append, listItems_empty,
      listItems_eq_of_totalSize_le hline hblank hsize]
  | cons first lines ih =>
    rw [List.cons_append, listItems] at hsize
    rw [List.cons_append, List.cons_append, listItems, listItems]
    cases hfirst : first.isBlank with
    | true =>
      simp only [hfirst, ↓reduceIte] at hsize ⊢
      cases lines with
      | nil =>
        -- The blank line ends the list in front of an empty line, and so it does here: a list that
        -- goes on would take the line.
        have hempty : listGoesOn list last (empty :: empty :: other) = false := rfl
        rw [List.nil_append, List.nil_append, hempty, if_neg Bool.false_ne_true]
        split
        · rw [List.nil_append, if_pos ‹_›] at hsize
          exact (listItems_eq_of_totalSize_le hline hblank (by simpa using hsize)).symm
        · rfl
      | cons next lines =>
        have hgoes : listGoesOn list last (next :: lines ++ empty :: empty :: other) =
            listGoesOn list last (next :: lines ++ line :: below) := rfl
        rw [hgoes]
        split
        · rw [if_pos ‹_›] at hsize
          exact ih (by simpa using hsize)
        · rfl
    | false =>
      simp only [hfirst, Bool.false_eq_true, ↓reduceIte] at hsize ⊢
      cases hstep : listStep list last (spaced != []) first with
      | ends => rfl
      | continues text =>
        simp only [hstep] at hsize ⊢
        refine ih ?_
        simpa [Item.claimed] using hsize
      | opens next =>
        simp only [hstep] at hsize ⊢
        rw [ih]
        simp only [List.flatMap_cons, Item.claimed, Line.totalSize_append,
          Line.totalSize] at hsize ⊢
        omega
      | lazy =>
        have hspaced := listStep_lazy hstep
        obtain rfl : spaced = [] := by simpa using hspaced
        simp only [hstep] at hsize ⊢
        refine ih ?_
        simpa [Item.claimed] using hsize

-- Code opens with its first line.
theorem indentedCode_eq_none_iff {first : Line} (hfirst : first.isBlank = false)
    (rest : List Line) :
    indentedCode (first :: rest) = none ↔ Text.indentation first.text < Text.tabWidth := by
  rw [indentedCode, codeLines, hfirst]
  simp only [Bool.false_eq_true, ↓reduceIte]
  split
  · rename_i hnone
    split at hnone
    · simp at hnone
    · simp only [true_iff]
      omega
  · rename_i hsome
    split at hsome
    · simp only [reduceCtorEq, false_iff]
      omega
    · exact absurd rfl hsome

end Block

/-! ## Outlines -/

namespace Outline

/-- Two texts with the same first lines `lines`, below which the one goes on with a line that is not
blank and the other with two empty lines. -/
structure CutBelow (lines : List Line) (old new : Text) : Prop where
  opening : ∃ first rest, lines = first :: rest ∧ first.isBlank = false
  old : ∃ line below, Line.ofText old = lines ++ line :: below ∧ line.IsWhole ∧
    line.isBlank = false
  new : ∃ other, Line.ofText new = lines ++ Line.empty :: Line.empty :: other

/-- A reader that finds the same on both texts when it stops above the cut. -/
def StopsAbove (read? : Text → Option Outline) : Prop :=
  ∀ {lines : List Line} {old new : Text}, CutBelow lines old new →
    (read? old = none → read? new = none) ∧
    ∀ outline, read? old = some outline → outline.length ≤ Line.totalSize lines →
      read? new = some outline

theorem stopsAbove_ofLines {claim? : List Line → Option Claim} (h : Block.StopsAbove claim?) :
    StopsAbove (ofLines? claim?) := by
  intro lines old new hcut
  obtain ⟨first, rest, rfl, hfirst⟩ := hcut.opening
  obtain ⟨line, below, hold, hline, -⟩ := hcut.old
  obtain ⟨other, hnew⟩ := hcut.new
  obtain ⟨hnone, hsome⟩ := @h first line rest below (Line.empty :: other) hfirst hline
  unfold ofLines?
  rw [hold, hnew, List.cons_append, List.cons_append, Option.map_eq_none_iff,
    Option.map_eq_none_iff]
  refine ⟨hnone, fun outline houtline hsize => ?_⟩
  obtain ⟨claim, hclaim, rfl⟩ := Option.map_eq_some_iff.1 houtline
  rw [hsome claim hclaim hsize]
  rfl

theorem stopsAbove_quote : StopsAbove quote? := by
  intro lines old new hcut
  obtain ⟨first, rest, rfl, hfirst⟩ := hcut.opening
  obtain ⟨line, below, hold, hline, -⟩ := hcut.old
  obtain ⟨other, hnew⟩ := hcut.new
  unfold quote?
  rw [hold, hnew, List.cons_append, List.cons_append, Block.quoteLines, Block.quoteLines]
  cases Block.quoteContent? first with
  | none => exact ⟨id, fun outline hnone => by simp at hnone⟩
  | some text =>
    refine ⟨fun hnone => by simp at hnone, fun outline houtline hsize => ?_⟩
    obtain rfl := Option.some.inj houtline
    rw [length, List.map_cons, Line.totalSize_cons, Line.totalSize_cons] at hsize
    rw [Block.quoteRest_cut hline (Nat.le_of_add_le_add_left hsize)]

theorem stopsAbove_list : StopsAbove list? := by
  intro lines old new hcut
  obtain ⟨first, rest, rfl, hfirst⟩ := hcut.opening
  obtain ⟨line, below, hold, hline, hblank⟩ := hcut.old
  obtain ⟨other, hnew⟩ := hcut.new
  unfold list?
  rw [hold, hnew, List.cons_append, List.cons_append, Block.listLines?, Block.listLines?]
  cases listItem? first.text with
  | none => exact ⟨id, fun outline hnone => by simp at hnone⟩
  | some marker =>
    refine ⟨fun hnone => by simp at hnone, fun outline houtline hsize => ?_⟩
    obtain rfl := Option.some.inj houtline
    rw [length, itemsSize_eq] at hsize
    rw [Option.map_some, Option.map_some, Block.listItems_cut hline hblank
      (by simpa [Block.Item.claimed] using hsize)]

theorem findSome?_eq_of_found {readers : List (Text → Option Outline)} {old new : Text}
    {outline : Outline} (hnone : ∀ read? ∈ readers, read? old = none → read? new = none)
    (hsome : ∀ read? ∈ readers, read? old = some outline → read? new = some outline)
    (h : readers.findSome? (· old) = some outline) :
    readers.findSome? (· new) = some outline := by
  induction readers with
  | nil => simp at h
  | cons reader readers ih =>
    obtain ⟨hnoneFirst, hnoneRest⟩ := List.forall_mem_cons.1 hnone
    obtain ⟨hsomeFirst, hsomeRest⟩ := List.forall_mem_cons.1 hsome
    rw [List.findSome?_cons] at h ⊢
    cases hfirst : reader old with
    | none =>
      rw [hfirst] at h
      rw [hnoneFirst hfirst]
      exact ih hnoneRest hsomeRest h
    | some found =>
      rw [hfirst] at h
      obtain rfl := Option.some.inj h
      rw [hsomeFirst hfirst]

theorem stopsAbove_or {read? : Text → Option Outline} (h : read? ∈ readers) :
    StopsAbove read? ∨ read? = ofLines? Block.indentedCode ∨ read? = statement? := by
  simp only [readers, List.mem_cons, List.not_mem_nil, or_false] at h
  rcases h with rfl | rfl | rfl | rfl | rfl | rfl | rfl | rfl | rfl | rfl | rfl | rfl
  · exact .inl (stopsAbove_ofLines Block.stopsAbove_blankLines)
  · exact .inr (.inl rfl)
  · exact .inl (stopsAbove_ofLines Block.stopsAbove_fencedCode)
  · exact .inl stopsAbove_quote
  · exact .inl (stopsAbove_ofLines Block.stopsAbove_atxHeading)
  · exact .inl (stopsAbove_ofLines Block.stopsAbove_thematicBreak)
  · exact .inl stopsAbove_list
  · exact .inl (stopsAbove_ofLines Block.stopsAbove_setextHeading)
  · exact .inl (stopsAbove_ofLines Block.stopsAbove_html)
  · exact .inl (stopsAbove_ofLines Block.stopsAbove_table)
  · exact .inr (.inr rfl)
  · exact .inl (stopsAbove_ofLines Block.stopsAbove_paragraph)

/-- An outline that stops above a cut is still there after the cut, when it is neither indented code
nor a statement block, and no statement block comes up in its place. -/
theorem read?_cut {lines : List Line} {old new : Text} {outline : Outline}
    (hcut : CutBelow lines old new) (hcode : ofLines? Block.indentedCode old = none)
    (hstatement : statement? old = none → statement? new = none)
    (hkind : ∀ block, outline.kind? ≠ some (.statement block))
    (hread : read? old = some outline) (hsize : outline.length ≤ Line.totalSize lines) :
    read? new = some outline := by
  have hcodeNew : ofLines? Block.indentedCode new = none := by
    obtain ⟨first, rest, rfl, hfirst⟩ := hcut.opening
    obtain ⟨line, below, hold, -, -⟩ := hcut.old
    obtain ⟨other, hnew⟩ := hcut.new
    unfold ofLines? at hcode ⊢
    rw [Option.map_eq_none_iff] at hcode ⊢
    rw [hold, List.cons_append, Block.indentedCode_eq_none_iff hfirst] at hcode
    rw [hnew, List.cons_append, Block.indentedCode_eq_none_iff hfirst]
    exact hcode
  refine findSome?_eq_of_found (fun reader hreader hnone => ?_) (fun reader hreader hsome => ?_)
    hread
  · rcases stopsAbove_or hreader with hstops | rfl | rfl
    · exact (hstops hcut).1 hnone
    · exact hcodeNew
    · exact hstatement hnone
  · rcases stopsAbove_or hreader with hstops | rfl | rfl
    · exact (hstops hcut).2 outline hsome hsize
    · rw [hcode] at hsome
      simp at hsome
    · obtain ⟨claim, rfl, hclaim⟩ := statement?_eq_some hsome
      obtain ⟨block, -, rfl, -, -⟩ := Block.statement_eq_some hclaim
      exact absurd rfl (hkind block)

end Outline

end DocumentLayout
