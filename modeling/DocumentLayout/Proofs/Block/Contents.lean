import DocumentLayout.Proofs.Block.Claims
import DocumentLayout.Proofs.Block.Marks
import Mathlib.Algebra.Order.BigOperators.Group.List
import Mathlib.Algebra.Order.Group.Nat

/-!
# Contents of containers

A container claims the first lines of a text and hands back what is left of them without its
markers. At least one character goes with a marker, and the last line that a container claims is
not blank, so the content is shorter than the text that it comes from.
-/

namespace DocumentLayout

open Marker

/-! ## Markers are not blank -/

namespace Marker

theorem not_isBlank_of_blockStart? {line rest : Text} {c : Char}
    (h : Text.blockStart? line = some rest) (hmem : c ∈ rest) (hc : Text.isSpace c = false) :
    Text.isBlank line = false := by
  rw [(Text.blockStart?_eq_some h).2] at hmem
  rw [Text.isBlank, List.all_eq_false]
  exact ⟨c, (List.dropWhile_sublist _).subset hmem, by simp [hc]⟩

theorem not_isBlank_of_quoted? {line rest : Text} (h : quoted? line = some rest) :
    Text.isBlank line = false :=
  not_isBlank_of_blockStart? (quoted?_eq_some h) (List.mem_cons_self ..) (by decide)

-- A bullet has a character that is not white space, so it is not empty.
theorem bullet?_eq_some {rest : Text} {ordered startsAtOne : Bool} {symbol : Char} {width : Nat}
    (h : bullet? rest = some (ordered, symbol, width, startsAtOne)) :
    symbol ∈ rest ∧ Text.isSpace symbol = false ∧ 0 < width := by
  obtain ⟨mark, hbullet, rfl, hrest⟩ := bullet?_eq_append h
  obtain ⟨hmem, hspace⟩ := hbullet.symbol
  refine ⟨?_, hspace, List.length_pos_of_mem hmem⟩
  rw [hrest]
  exact List.mem_append_left _ hmem

-- A line that opens an item is not blank, and the content of the item is shorter.
theorem listItem?_eq_some {line : Text} {marker : ListMarker} (h : listItem? line = some marker) :
    Text.isBlank line = false ∧ marker.content.length < line.length := by
  obtain ⟨rest, hstart, h⟩ := Option.bind_eq_some_iff.1 h
  obtain ⟨⟨ordered, symbol, width, startsAtOne⟩, hbullet, h⟩ := Option.bind_eq_some_iff.1 h
  obtain ⟨hmem, hspace, hwidth⟩ := bullet?_eq_some hbullet
  refine ⟨not_isBlank_of_blockStart? hstart hmem hspace, ?_⟩
  have hle := Text.blockStart?_length_le hstart
  have hpos := List.length_pos_of_mem hmem
  dsimp only at h
  split at h
  · obtain rfl := Option.some.inj h
    refine Nat.lt_of_le_of_lt (Text.stripColumns_length_le ..) ?_
    rw [List.length_drop]
    omega
  · simp at h

end Marker

namespace Block

/-! ## Stripped lines -/

/-- Content lines that come from as many lines and have fewer characters altogether. -/
def Strips (lines : List Line) (content : List Text) : Prop :=
  content.length = lines.length ∧
    (content.map List.length).sum < (lines.map fun line => line.text.length).sum

-- The content of whole lines is shorter than the lines even if the last line break is left
-- out.
theorem Strips.length_content {lines : List Line} {text : List Text} (h : Strips lines text)
    (hwhole : ∀ line ∈ lines, line.IsWhole) :
    (content text).length + 1 < (Line.toText lines).length := by
  have hne : text ≠ [] := by
    rintro rfl
    obtain rfl : lines = [] := List.length_eq_zero_iff.1 h.1.symm
    exact absurd h.2 (Nat.lt_irrefl _)
  rw [content, Text.length_intercalate hne, Line.length_toText hwhole]
  -- Both sides count one more for each line, and there are as many lines on both.
  simp only [List.sum_map_add, List.map_const', List.sum_replicate_nat, Nat.mul_one, h.1]
  have := h.2
  omega

/-- What is claimed of a text up to a line that is not blank leaves the last line of the terminator
alone. -/
theorem claimed_infix {text : Text} {claimed : List Line}
    (hpart : claimed <:+: Line.ofText (text ++ Parser.terminator))
    (hlast : ∃ line, claimed.getLast? = some line ∧ line.isBlank = false) :
    claimed <:+: Line.ofText (text ++ ['\n']) := by
  obtain ⟨line, hline, hblank⟩ := hlast
  have hterminator : Line.ofText (text ++ Parser.terminator) =
      Line.ofText (text ++ ['\n']) ++ [⟨[], true⟩] :=
    Line.ofText_append_feed text ['\n']
  obtain ⟨front, back, hparts⟩ := hpart
  rw [hterminator] at hparts
  rcases List.eq_nil_or_concat back with rfl | ⟨more, last, rfl⟩
  · -- Were all lines claimed, the last of them would be the blank one.
    have hsame := congrArg List.getLast? hparts
    rw [List.append_nil, List.getLast?_append, hline] at hsame
    obtain rfl : line = ⟨[], true⟩ := by simpa using hsame
    simp [Line.isBlank_empty] at hblank
  · rw [List.concat_eq_append, ← List.append_assoc] at hparts
    exact ⟨front, more, (List.append_inj' hparts rfl).1⟩

-- So what is claimed ends before the terminator does.
theorem length_claimed_le {text : Text} {claimed : List Line}
    (hpart : claimed <:+: Line.ofText (text ++ Parser.terminator))
    (hlast : ∃ line, claimed.getLast? = some line ∧ line.isBlank = false) :
    (∀ line ∈ claimed, line.IsWhole) ∧ (Line.toText claimed).length ≤ text.length + 1 := by
  have hlines := claimed_infix hpart hlast
  refine ⟨fun line hmem => Line.whole_of_mem_ofText (hlines.subset hmem), ?_⟩
  have hle := Line.length_toText_le hlines
  rwa [Line.toText_ofText, List.length_append, List.length_singleton] at hle

/-- The content of lines up to one that is not blank is shorter than the text. -/
theorem length_content_lt {text : Text} {claimed : List Line} {stripped : List Text}
    (hpart : claimed <:+: Line.ofText (text ++ Parser.terminator))
    (hlast : ∃ line, claimed.getLast? = some line ∧ line.isBlank = false)
    (hstrips : Strips claimed stripped) : (content stripped).length < text.length := by
  obtain ⟨hwhole, hle⟩ := length_claimed_le hpart hlast
  have := hstrips.length_content hwhole
  omega

/-! ## Block quotes -/

theorem quoteContent?_eq_some {line : Line} {text : Text} (h : quoteContent? line = some text) :
    line.isBlank = false ∧ text.length < line.text.length := by
  obtain ⟨rest, hquoted, rfl⟩ := Option.map_eq_some_iff.1 h
  refine ⟨not_isBlank_of_quoted? hquoted, ?_⟩
  have hle := Text.blockStart?_length_le (quoted?_eq_some hquoted)
  have hstrip := Text.stripColumns_length_le rest 1
  simp only [List.length_cons] at hle
  omega

theorem quoteRest_prefix (lines : List Line) : (quoteRest lines).map (·.1) <+: lines := by
  induction lines with
  | nil => exact List.nil_prefix
  | cons line lines ih =>
    rw [quoteRest]
    split
    · exact List.cons_prefix_cons.2 ⟨rfl, ih⟩
    · split
      · exact List.cons_prefix_cons.2 ⟨rfl, ih⟩
      · exact List.nil_prefix

theorem quoteLines_prefix (lines : List Line) : (quoteLines lines).map (·.1) <+: lines := by
  cases lines with
  | nil => exact List.nil_prefix
  | cons line lines =>
    rw [quoteLines]
    split
    · exact List.cons_prefix_cons.2 ⟨rfl, quoteRest_prefix lines⟩
    · exact List.nil_prefix

-- Below its first line a quote claims lines that are not blank, and no content is longer than
-- its line.
theorem quoteRest_mem {lines : List Line} {claimed : Line × Text} (h : claimed ∈ quoteRest lines) :
    claimed.1.isBlank = false ∧ claimed.2.length ≤ claimed.1.text.length := by
  induction lines with
  | nil => simp [quoteRest] at h
  | cons line lines ih =>
    rw [quoteRest] at h
    split at h
    · rcases List.mem_cons.1 h with rfl | h
      · have := quoteContent?_eq_some ‹_›
        exact ⟨this.1, this.2.le⟩
      · exact ih h
    · split at h
      · rename_i hlazy
        rcases List.mem_cons.1 h with rfl | h
        · simp only [Bool.and_eq_true, Bool.not_eq_true'] at hlazy
          exact ⟨hlazy.1, Nat.le_refl _⟩
        · exact ih h
      · simp at h

theorem quoteLines_mem {lines : List Line} {claimed : Line × Text}
    (h : claimed ∈ quoteLines lines) : claimed.1.isBlank = false := by
  cases lines with
  | nil => simp [quoteLines] at h
  | cons line lines =>
    rw [quoteLines] at h
    split at h
    · rcases List.mem_cons.1 h with rfl | h
      · exact (quoteContent?_eq_some ‹_›).1
      · exact (quoteRest_mem h).1
    · simp at h

theorem quoteLines_strips {lines : List Line} (h : quoteLines lines ≠ []) :
    Strips ((quoteLines lines).map (·.1)) ((quoteLines lines).map (·.2)) := by
  refine ⟨by simp, ?_⟩
  cases lines with
  | nil => simp [quoteLines] at h
  | cons line lines =>
    rw [quoteLines] at h ⊢
    split at h
    · -- The marker of the first line makes up for what the other lines keep.
      rename_i text htext
      have hrest : ((quoteRest lines).map fun claimed => claimed.2.length).sum ≤
          ((quoteRest lines).map fun claimed => claimed.1.text.length).sum :=
        List.sum_le_sum fun claimed hmem => (quoteRest_mem hmem).2
      have hfirst := (quoteContent?_eq_some htext).2
      simp only [List.map_cons, List.map_map, List.sum_cons, Function.comp_def]
      omega
    · exact absurd rfl h

theorem quoteLines_last {lines : List Line} (h : quoteLines lines ≠ []) :
    ∃ line, ((quoteLines lines).map (·.1)).getLast? = some line ∧ line.isBlank = false := by
  have hne : (quoteLines lines).map (·.1) ≠ [] := by simpa using h
  refine ⟨_, List.getLast?_eq_some_getLast hne, ?_⟩
  obtain ⟨claimed, hmem, hline⟩ := List.mem_map.1 (List.getLast_mem hne)
  rw [← hline]
  exact quoteLines_mem hmem

/-! ## Lists -/

/-- The lines that an item of a list claims, with the blank lines in front of it. -/
def Item.claimed (item : Item) : List Line := item.before ++ item.lines

theorem Item.lines_infix {items : List Item} {item : Item} (h : item ∈ items) :
    item.lines <:+: items.flatMap Item.claimed := by
  have hlines : item.lines <:+: item.claimed := (List.suffix_append _ _).isInfix
  have hclaimed : item.claimed <:+: items.flatMap Item.claimed :=
    List.infix_of_mem_flatten (List.mem_map_of_mem h)
  exact hlines.trans hclaimed

/-- An item whose content comes from its lines, the last of which is not blank. -/
structure Item.IsStripped (item : Item) : Prop where
  strips : Strips item.lines item.content
  last : ∃ line, item.lines.getLast? = some line ∧ line.isBlank = false

theorem Item.isStripped_opening {line : Line} {marker : ListMarker} {before : List Line}
    (h : listItem? line.text = some marker) :
    Item.IsStripped ⟨before, [line], [marker.content]⟩ := by
  obtain ⟨hblank, hlt⟩ := listItem?_eq_some h
  exact ⟨⟨rfl, by simpa using hlt⟩, line, rfl, hblank⟩

-- An item goes on with blank lines and a line that is not blank.
theorem Item.IsStripped.extend {item : Item} (h : item.IsStripped) {line : Line} {text : Text}
    (blank : List Line) (hline : line.isBlank = false) (htext : text.length ≤ line.text.length) :
    Item.IsStripped { item with
      lines := item.lines ++ blank ++ [line]
      content := item.content ++ blank.map (fun _ => []) ++ [text] } := by
  obtain ⟨hlength, hsum⟩ := h.strips
  refine ⟨⟨?_, ?_⟩, line, by simp, hline⟩
  · simp [hlength]
  · have hblank : ((blank.map fun _ => ([] : Text)).map List.length).sum = 0 := by simp
    simp only [List.map_append, List.sum_append, hblank, List.map_cons, List.map_nil,
      List.sum_cons, List.sum_nil]
    omega

theorem listStep_opens {list last next : ListMarker} {spaced : Bool} {line : Line}
    (h : listStep list last spaced line = .opens next) :
    listItem? line.text = some next ∧ next.continues list = true := by
  unfold listStep at h
  split at h
  · simp at h
  · split at h
    · rename_i marker hmarker
      split at h
      · simp at h
      · obtain rfl := ListStep.opens.inj h
        exact Option.filter_eq_some_iff.1 hmarker
    · split at h <;> simp at h

theorem listStep_lazy {list last : ListMarker} {spaced : Bool} {line : Line}
    (h : listStep list last spaced line = .lazy) : spaced = false := by
  unfold listStep at h
  split at h
  · simp at h
  · split at h
    · split at h <;> simp at h
    · split at h
      · simp_all
      · simp at h

/-- A line of an item below its first line, and its content: nothing of a blank line, an indented
line without the columns in front of the content, and a line that is taken over as it is. -/
inductive GoesOn (marker : ListMarker) : Line → Text → Prop
  | blank {line : Line} (hblank : line.isBlank = true) : GoesOn marker line []
  | indented {line : Line} (hblank : line.isBlank = false)
      (hindent : marker.contentIndent ≤ Text.indentation line.text) :
      GoesOn marker line (Text.stripColumns line.text marker.contentIndent)
  | lazy {line : Line} (hblank : line.isBlank = false)
      (hindent : Text.indentation line.text < marker.contentIndent)
      (hgoes : interruptsParagraph line.text = false) : GoesOn marker line line.text

theorem GoesOn.leaves {marker : ListMarker} {line : Line} {text : Text}
    (h : GoesOn marker line text) : Leaves line.text text := by
  cases h with
  | blank hblank => exact .blank hblank
  | indented => exact leaves_stripColumns _ _
  | lazy => exact .all _

theorem goesOn_of_continues {list last : ListMarker} {spaced : Bool} {line : Line} {text : Text}
    (hblank : line.isBlank = false) (h : listStep list last spaced line = .continues text) :
    GoesOn last line text := by
  unfold listStep at h
  split at h
  · obtain rfl := ListStep.continues.inj h
    exact .indented hblank ‹_›
  · split at h <;> split at h <;> simp at h

theorem goesOn_of_lazy {list last : ListMarker} {spaced : Bool} {line : Line}
    (hblank : line.isBlank = false) (h : listStep list last spaced line = .lazy) :
    GoesOn last line line.text := by
  unfold listStep at h
  split at h
  · simp at h
  · split at h
    · split at h <;> simp at h
    · split at h
      · rename_i hindent _ _ hgoes
        simp only [Bool.and_eq_true, Bool.not_eq_true'] at hgoes
        exact .lazy hblank (Nat.not_le.1 hindent) hgoes.2
      · simp at h

-- The items of a list claim the first lines of what is left, one item after another.
theorem listItems_prefix (list last : ListMarker) (item : Item) (blank lines : List Line) :
    (listItems list last item blank lines).flatMap Item.claimed <+:
      item.claimed ++ blank ++ lines := by
  fun_induction listItems list last item blank lines with
  | case1 last item blank => simp
  | case2 last item blank line lines hblank hgoes ih => simpa using ih
  | case3 last item blank line lines hblank hgoes => simp
  | case4 last item blank line lines hblank text hstep item' ih =>
    simpa [item', Item.claimed] using ih
  | case5 last item blank line lines hblank next hstep ih =>
    simpa [Item.claimed] using ih
  | case6 last item blank line lines hblank hstep item' ih =>
    -- A lazy line stands right below the item, so there are no blank lines to lose.
    have hspaced := listStep_lazy hstep
    obtain rfl : blank = [] := by simpa using hspaced
    simpa [item', Item.claimed] using ih
  | case7 last item blank line lines hblank hstep => simp

/-- What holds of an item at the line that opens it, and still holds when blank lines and one more
line of content come below. -/
structure ItemInvariant (list : ListMarker) (P : ListMarker → Item → Prop) : Prop where
  opens : ∀ {marker : ListMarker} {before : List Line} {line : Line},
    (∀ other ∈ before, other.isBlank = true) → listItem? line.text = some marker →
    marker.continues list = true → P marker ⟨before, [line], [marker.content]⟩
  goesOn : ∀ {marker : ListMarker} {item : Item} {blank : List Line} {line : Line} {text : Text},
    P marker item → (∀ other ∈ blank, other.isBlank = true) → line.isBlank = false →
    GoesOn marker line text → P marker { item with
      lines := item.lines ++ blank ++ [line]
      content := item.content ++ blank.map (fun _ => []) ++ [text] }

namespace ItemInvariant

variable {list : ListMarker} {P : ListMarker → Item → Prop}

theorem listItems (h : ItemInvariant list P) {last : ListMarker} {item : Item} {blank : List Line}
    (lines : List Line) (hblanks : ∀ other ∈ blank, other.isBlank = true) (hitem : P last item) :
    ∀ found ∈ Block.listItems list last item blank lines, ∃ marker, P marker found := by
  fun_induction Block.listItems list last item blank lines with
  | case1 last item blank => simpa using ⟨last, hitem⟩
  | case2 last item blank line lines hblank hnext ih =>
    exact ih (by simpa [or_imp, forall_and, hblank] using hblanks) hitem
  | case3 last item blank line lines hblank hnext => simpa using ⟨last, hitem⟩
  | case4 last item blank line lines hblank text hstep item' ih =>
    have hline : line.isBlank = false := by simpa using hblank
    exact ih (by simp) (h.goesOn hitem hblanks hline (goesOn_of_continues hline hstep))
  | case5 last item blank line lines hblank next hstep ih =>
    obtain ⟨hnext, hcontinues⟩ := listStep_opens hstep
    intro found hfound
    rcases List.mem_cons.1 hfound with rfl | hfound
    · exact ⟨last, hitem⟩
    · exact ih (by simp) (h.opens hblanks hnext hcontinues) found hfound
  | case6 last item blank line lines hblank hstep item' ih =>
    -- A lazy line stands right below the item.
    have hline : line.isBlank = false := by simpa using hblank
    have hlazy := h.goesOn hitem (List.forall_mem_nil _) hline (goesOn_of_lazy hline hstep)
    rw [List.append_nil, List.map_nil, List.append_nil] at hlazy
    exact ih (by simp) hlazy
  | case7 last item blank line lines hblank hstep => simpa using ⟨last, hitem⟩

theorem listLines? (h : ItemInvariant list P) {lines : List Line} {items : List Item}
    (hlines : Block.listLines? lines = some (list, items)) :
    ∀ item ∈ items, ∃ marker, P marker item := by
  cases lines with
  | nil => simp [Block.listLines?] at hlines
  | cons line lines =>
    obtain ⟨found, hfound, hpair⟩ := Option.map_eq_some_iff.1 hlines
    obtain ⟨rfl, rfl⟩ := Prod.mk.inj hpair
    have hself : found.continues found = true := by simp [ListMarker.continues]
    exact h.listItems lines (by simp) (h.opens (by simp) hfound hself)

end ItemInvariant

theorem listItems_ne_nil (list last : ListMarker) (item : Item) (blank lines : List Line) :
    listItems list last item blank lines ≠ [] := by
  fun_induction listItems list last item blank lines <;> simp_all

/-- The items of a list that opens a text: they claim its first lines, and their contents are
stripped. -/
theorem listLines?_eq_some {lines : List Line} {marker : ListMarker} {items : List Item}
    (h : listLines? lines = some (marker, items)) :
    items.flatMap Item.claimed <+: lines ∧ items ≠ [] ∧ ∀ item ∈ items, item.IsStripped := by
  have hinvariant : ItemInvariant marker fun _ item => item.IsStripped := by
    constructor
    · intro own before line _ hmarker _
      exact Item.isStripped_opening hmarker
    · intro own item blank line text hitem _ hline hgoes
      exact hitem.extend blank hline hgoes.leaves.suffix.length_le
  have hstripped := hinvariant.listLines? h
  cases lines with
  | nil => simp [listLines?] at h
  | cons line lines =>
    obtain ⟨found, hfound, hpair⟩ := Option.map_eq_some_iff.1 h
    obtain ⟨rfl, rfl⟩ := Prod.mk.inj hpair
    refine ⟨?_, listItems_ne_nil _ _ _ _ _, fun item hitem => ?_⟩
    · simpa [Item.claimed] using listItems_prefix found found ⟨[], [line], [found.content]⟩ [] lines
    · obtain ⟨-, hitem⟩ := hstripped item hitem
      exact hitem

/-! ## What is left of the lines -/

/-- Content lines that are left of the lines, one of each. -/
def LeftOf (lines : List Line) (content : List Text) : Prop :=
  List.Forall₂ (fun line text => Leaves line.text text) lines content

theorem LeftOf.append {lines more : List Line} {content texts : List Text}
    (h : LeftOf lines content) (hmore : LeftOf more texts) :
    LeftOf (lines ++ more) (content ++ texts) :=
  List.rel_append h hmore

theorem leftOf_single {line : Line} {text : Text} (h : Leaves line.text text) :
    LeftOf [line] [text] :=
  .cons h .nil

-- Of blank lines inside of an item nothing is left.
theorem leftOf_blank {blank : List Line} (h : ∀ line ∈ blank, line.isBlank = true) :
    LeftOf blank (blank.map fun _ => []) := by
  rw [LeftOf, List.forall₂_map_right_iff, List.forall₂_same]
  exact fun line hline => .blank (h line hline)

theorem quoteContent?_leaves {line : Line} {text : Text} (h : quoteContent? line = some text) :
    Leaves line.text text := by
  obtain ⟨rest, hquoted, rfl⟩ := Option.map_eq_some_iff.1 h
  exact (leaves_of_quoted? hquoted).trans (leaves_stripColumns rest 1)

theorem quoteRest_leftOf (lines : List Line) :
    LeftOf ((quoteRest lines).map (·.1)) ((quoteRest lines).map (·.2)) := by
  induction lines with
  | nil => exact .nil
  | cons line lines ih =>
    rw [quoteRest]
    split
    · exact .cons (quoteContent?_leaves ‹_›) ih
    · split
      · exact .cons (.all _) ih
      · exact .nil

theorem quoteLines_leftOf (lines : List Line) :
    LeftOf ((quoteLines lines).map (·.1)) ((quoteLines lines).map (·.2)) := by
  cases lines with
  | nil => exact .nil
  | cons line lines =>
    rw [quoteLines]
    split
    · exact .cons (quoteContent?_leaves ‹_›) (quoteRest_leftOf lines)
    · exact .nil

theorem listLines?_leftOf {lines : List Line} {marker : ListMarker} {items : List Item}
    (h : listLines? lines = some (marker, items)) :
    ∀ item ∈ items, LeftOf item.lines item.content := by
  have hinvariant : ItemInvariant marker fun _ item => LeftOf item.lines item.content := by
    constructor
    · intro own before line _ hmarker _
      exact leftOf_single (leaves_of_listItem? hmarker)
    · intro own item blank line text hitem hblanks _ hgoes
      exact (hitem.append (leftOf_blank hblanks)).append (leftOf_single hgoes.leaves)
  intro item hitem
  obtain ⟨-, hitem⟩ := hinvariant.listLines? h item hitem
  exact hitem

/-- Content lines each of which stands at the end of one of the lines. -/
def EndLines (lines : List Line) (content : List Text) : Prop :=
  ∀ text ∈ content, ∃ line ∈ lines, text <:+ line.text

theorem LeftOf.endLines {lines more : List Line} {content : List Text} (h : LeftOf lines content)
    (hsubset : lines ⊆ more) : EndLines more content := by
  induction h with
  | nil => simp [EndLines]
  | @cons line text _ _ hleaves _ ih =>
    obtain ⟨hline, hlines⟩ := List.cons_subset.1 hsubset
    exact List.forall_mem_cons.2 ⟨⟨line, hline, hleaves.suffix⟩, ih hlines⟩

end Block

namespace Outline

theorem itemsSize_eq (items : List Block.Item) :
    itemsSize items = Line.totalSize (items.flatMap Block.Item.claimed) := by
  induction items with
  | nil => rfl
  | cons item items ih =>
    rw [itemsSize, ih, List.flatMap_cons, Line.totalSize_append, Block.Item.claimed,
      Line.totalSize_append]

/-- What an outline hands back of a text: of some of its lines, the last of which is not blank, what
their marks leave. It is shorter than the text in front of the terminator. -/
theorem exists_lines_of_mem_contents {text content : Text} {outline : Outline}
    (h : read? (text ++ Parser.terminator) = some outline) (hmem : content ∈ outline.contents) :
    ∃ lines pieces, content = Block.content pieces ∧
      lines <:+: Line.ofText (text ++ Parser.terminator) ∧
      (∃ line, lines.getLast? = some line ∧ line.isBlank = false) ∧
      Block.LeftOf lines pieces ∧ Block.Strips lines pieces := by
  rcases read?_cases h with
    ⟨claim, rfl, -⟩ | ⟨claim, rfl, -⟩ | ⟨hne, rfl⟩ | ⟨marker, items, hlist, rfl⟩
  · simp [contents] at hmem
  · simp [contents] at hmem
  · exact ⟨_, _, List.mem_singleton.1 hmem, (Block.quoteLines_prefix _).isInfix,
      Block.quoteLines_last hne, Block.quoteLines_leftOf _, Block.quoteLines_strips hne⟩
  · obtain ⟨item, hitem, rfl⟩ := List.mem_map.1 hmem
    obtain ⟨hstarts, -, hstripped⟩ := Block.listLines?_eq_some hlist
    exact ⟨item.lines, item.content, rfl, (Block.Item.lines_infix hitem).trans hstarts.isInfix,
      (hstripped item hitem).last, Block.listLines?_leftOf hlist item hitem,
      (hstripped item hitem).strips⟩

/-- The contents of an outline are shorter than the text in front of the terminator. -/
theorem length_lt_of_mem_contents {text content : Text} {outline : Outline}
    (h : read? (text ++ Parser.terminator) = some outline) (hmem : content ∈ outline.contents) :
    content.length < text.length := by
  obtain ⟨lines, pieces, rfl, hlines, hlast, -, hstrips⟩ := exists_lines_of_mem_contents h hmem
  exact Block.length_content_lt hlines hlast hstrips

/-- The contents of an outline are made of ends of lines of the text. -/
theorem endLines_of_mem_contents {text content : Text} {outline : Outline}
    (h : read? (text ++ Parser.terminator) = some outline) (hmem : content ∈ outline.contents) :
    ∃ pieces, content = Block.content pieces ∧
      Block.EndLines (Line.ofText (text ++ Parser.terminator)) pieces := by
  obtain ⟨lines, pieces, rfl, hlines, -, hleft, -⟩ := exists_lines_of_mem_contents h hmem
  exact ⟨pieces, rfl, hleft.endLines hlines.subset⟩

end Outline

end DocumentLayout
