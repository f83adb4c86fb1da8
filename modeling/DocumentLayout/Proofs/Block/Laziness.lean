import DocumentLayout.Proofs.Block.Interruption
import DocumentLayout.Proofs.Block.Positions
import DocumentLayout.Proofs.Block.Wrapping

/-!
# Laziness

A quote or an item of a list takes over lines without its mark as long as they could go on with a
paragraph, whether there is one or not. When the line above lies in a paragraph of the nested
blocks, however deep, the line goes on with that paragraph; when it does not, the line becomes part
of whatever the content above it leaves open.
-/

namespace DocumentLayout

open Marker

/-! ## Indentation of a line -/

namespace Text

theorem trimIndent_stripColumns (line : Text) (columns : Nat) :
    trimIndent (stripColumns line columns) = trimIndent line := by
  unfold stripColumns
  fun_induction stripFrom 0 columns line with
  | case1 _ rest _ ih => rw [ih, trimIndent, trimIndent, List.dropWhile_cons_of_pos (by decide)]
  | case3 _ rest _ ih => rw [ih, trimIndent, trimIndent, List.dropWhile_cons_of_pos (by decide)]
  | _ => rfl

theorem isBlank_trimIndent (line : Text) : isBlank (trimIndent line) = isBlank line := by
  induction line with
  | nil => rfl
  | cons c line ih =>
    by_cases hc : isIndent c = true
    · rw [trimIndent, List.dropWhile_cons_of_pos hc, ← trimIndent, ih]
      simp [isBlank, isSpace_of_isIndent hc]
    · rw [trimIndent, List.dropWhile_cons_of_neg hc]

theorem isBlank_stripColumns (line : Text) (columns : Nat) :
    isBlank (stripColumns line columns) = isBlank line := by
  rw [← isBlank_trimIndent, trimIndent_stripColumns, isBlank_trimIndent]

theorem blockStart?_trimIndent {line rest : Text} (h : blockStart? line = some rest) :
    blockStart? (trimIndent line) = some rest := by
  rw [(blockStart?_eq_some h).2]
  cases hstart : trimIndent line with
  | nil => rfl
  | cons c rest =>
    have hc := List.head?_dropWhile_not isIndent line
    rw [← trimIndent, hstart] at hc
    exact blockStart?_cons (by simpa using hc) rest

end Text

namespace Marker

-- How far a line is indented matters only for where the content of an item starts.
theorem listItem?_congr {line other : Text} (h : Text.blockStart? line = Text.blockStart? other) :
    (listItem? line).map ({ · with contentIndent := 0 }) =
      (listItem? other).map ({ · with contentIndent := 0 }) := by
  rw [listItem?, listItem?, h]
  cases Text.blockStart? other with
  | none => rfl
  | some rest =>
    simp only [Option.bind_some]
    cases bullet? rest with
    | none => rfl
    | some found =>
      simp only [Option.bind_some]
      split <;> rfl

theorem listItem?_isSome_congr {line other : Text}
    (h : Text.blockStart? line = Text.blockStart? other) :
    (listItem? line).isSome = (listItem? other).isSome := by
  simpa using congrArg Option.isSome (listItem?_congr h)

theorem interruptsParagraph_congr {line other : Text}
    (h : Text.blockStart? line = Text.blockStart? other) :
    interruptsParagraph line = interruptsParagraph other := by
  have hlist := congrArg
    (Option.any fun marker => marker.hasContent && (!marker.ordered || marker.startsAtOne))
    (listItem?_congr h)
  simp only [Option.any_map] at hlist
  simp only [interruptsParagraph, fence?, headingDepth?, isThematicBreak, quoted?, isHtmlStart, h,
    hlist]

/-- No marker stands at the front of a line, however far it is indented. -/
structure Unmarked (line : Text) : Prop where
  interrupts : interruptsParagraph (Text.trimIndent line) = false
  item : listItem? (Text.trimIndent line) = none

namespace Unmarked

theorem interruptsParagraph_eq {line : Text} (h : Unmarked line) :
    interruptsParagraph line = false := by
  refine Bool.eq_false_iff.2 fun hline => ?_
  obtain ⟨c, rest, hstart, -⟩ := exists_of_interruptsParagraph hline
  have htrim := h.interrupts
  rw [interruptsParagraph_congr ((Text.blockStart?_trimIndent hstart).trans hstart.symm),
    hline] at htrim
  simp at htrim

theorem listItem?_eq {line : Text} (h : Unmarked line) : listItem? line = none := by
  refine Option.eq_none_iff_forall_ne_some.2 fun marker hmarker => ?_
  obtain ⟨rest, hstart, -⟩ := Option.bind_eq_some_iff.1 hmarker
  have hsome := listItem?_isSome_congr ((Text.blockStart?_trimIndent hstart).trans hstart.symm)
  rw [h.item, hmarker] at hsome
  simp at hsome

theorem stripColumns {line : Text} (h : Unmarked line) (columns : Nat) :
    Unmarked (Text.stripColumns line columns) := by
  constructor
  · rw [Text.trimIndent_stripColumns, h.interrupts]
  · rw [Text.trimIndent_stripColumns, h.item]

end Unmarked

end Marker

/-! ## Lines of content -/

namespace Block

-- What has no mark in a quote is taken over as it is.
theorem quoteRest_cases {lines : List Line} {claimed : Line × Text}
    (h : claimed ∈ quoteRest lines) :
    quoteContent? claimed.1 = some claimed.2 ∨
      claimed.2 = claimed.1.text ∧ claimed.1.isBlank = false ∧
        interruptsParagraph claimed.1.text = false := by
  induction lines with
  | nil => simp [quoteRest] at h
  | cons line lines ih =>
    rw [quoteRest] at h
    split at h
    · rcases List.mem_cons.1 h with rfl | h
      · exact .inl ‹_›
      · exact ih h
    · split at h
      · rename_i hgoes
        rcases List.mem_cons.1 h with rfl | h
        · exact .inr ⟨rfl, by simpa using hgoes⟩
        · exact ih h
      · simp at h

theorem quoteLines_cases {lines : List Line} {claimed : Line × Text}
    (h : claimed ∈ quoteLines lines) :
    quoteContent? claimed.1 = some claimed.2 ∨
      claimed.2 = claimed.1.text ∧ claimed.1.isBlank = false ∧
        interruptsParagraph claimed.1.text = false := by
  cases lines with
  | nil => simp [quoteLines] at h
  | cons line lines =>
    rw [quoteLines] at h
    split at h
    · rcases List.mem_cons.1 h with rfl | h
      · exact .inl ‹_›
      · exact quoteRest_cases h
    · simp at h

-- A line that does not interrupt a paragraph has no `>`.
theorem quoteContent?_eq_none {line : Line} (h : interruptsParagraph line.text = false) :
    quoteContent? line = none := by
  simp only [interruptsParagraph, Bool.or_eq_false_iff, Option.isSome_eq_false_iff,
    Option.isNone_iff_eq_none] at h
  rw [quoteContent?, h.1.1.2]
  rfl

/-- An item that `marker` opens on its first line. -/
inductive Item.Reads (marker : ListMarker) : Item → Prop
  | mk {before : List Line} {line : Line} {lines : List Line} {texts : List Text}
      (hmarker : listItem? line.text = some marker)
      (hlines : List.Forall₂ (GoesOn marker) lines texts) :
      Reads marker ⟨before, line :: lines, marker.content :: texts⟩

theorem Item.Reads.append {marker : ListMarker} {item : Item} (h : item.Reads marker)
    {lines : List Line} {texts : List Text} (hlines : List.Forall₂ (GoesOn marker) lines texts) :
    Item.Reads marker
      { item with lines := item.lines ++ lines, content := item.content ++ texts } := by
  cases h with
  | mk hmarker hfirst => exact .mk hmarker (List.rel_append hfirst hlines)

theorem goesOn_blank {marker : ListMarker} {blank : List Line}
    (h : ∀ line ∈ blank, line.isBlank = true) :
    List.Forall₂ (GoesOn marker) blank (blank.map fun _ => []) := by
  rw [List.forall₂_map_right_iff, List.forall₂_same]
  exact fun line hline => .blank (h line hline)

theorem listLines?_reads {lines : List Line} {marker : ListMarker} {items : List Item}
    (h : listLines? lines = some (marker, items)) :
    ∀ item ∈ items, ∃ own, item.Reads own := by
  apply ItemInvariant.listLines? _ h
  constructor
  · intro own before line _ hmarker _
    exact .mk hmarker .nil
  · intro own item blank line text hitem hblanks _ hgoes
    exact (hitem.append (goesOn_blank hblanks)).append (.cons hgoes .nil)

theorem Item.Reads.listItem?_eq {marker : ListMarker} {item : Item} (h : item.Reads marker)
    {opening : Line} (hopening : item.lines.head? = some opening) :
    listItem? opening.text = some marker := by
  cases h with
  | mk hmarker => exact Option.some.inj hopening ▸ hmarker

theorem Item.Reads.length_eq {marker : ListMarker} {item : Item} (h : item.Reads marker) :
    item.content.length = item.lines.length := by
  cases h with
  | mk _ hlines => simp [hlines.length_eq]

/-- Below the first line of an item each line of content comes from a line of the item. -/
theorem Item.Reads.getElem? {marker : ListMarker} {item : Item} (h : item.Reads marker) {i : Nat}
    {line : Line} (hline : item.lines[i + 1]? = some line) :
    ∃ text, item.content[i + 1]? = some text ∧ GoesOn marker line text := by
  cases h with
  | mk hmarker hlines =>
    rw [List.getElem?_cons_succ] at hline
    obtain ⟨hi, rfl⟩ := List.getElem?_eq_some_iff.1 hline
    have hi' := hlines.length_eq ▸ hi
    exact ⟨_, List.getElem?_eq_getElem hi', hlines.get hi hi'⟩

end Block

theorem Line.feed_not_mem {text : Text} {line : Line} (h : line ∈ ofText text) :
    '\n' ∉ line.text := by
  obtain ⟨before, after, hlines⟩ := List.append_of_mem h
  exact (whole_of_ofText_eq hlines).2

namespace Block

theorem LeftOf.feed_not_mem {lines : List Line} {content : List Text} (h : LeftOf lines content)
    (hlines : ∀ line ∈ lines, '\n' ∉ line.text) : ∀ text ∈ content, '\n' ∉ text := by
  intro text htext hfeed
  obtain ⟨line, hline, hsuffix⟩ := h.endLines (List.Subset.refl lines) text htext
  exact hlines line hline (hsuffix.subset hfeed)

theorem feed_not_mem_quoteLines {lines : List Line} (hlines : ∀ line ∈ lines, '\n' ∉ line.text) :
    ∀ text ∈ (quoteLines lines).map (·.2), '\n' ∉ text := by
  have hclaimed := quoteLines_prefix lines
  exact (quoteLines_leftOf lines).feed_not_mem fun line hline =>
    hlines line (hclaimed.subset hline)

theorem feed_not_mem_listLines? {lines : List Line} (hlines : ∀ line ∈ lines, '\n' ∉ line.text)
    {marker : ListMarker} {items : List Item} (h : listLines? lines = some (marker, items))
    {item : Item} (hitem : item ∈ items) : ∀ text ∈ item.content, '\n' ∉ text :=
  (listLines?_leftOf h item hitem).feed_not_mem fun line hline =>
    hlines line ((listLines?_eq_some h).1.subset ((Item.lines_infix hitem).subset hline))

end Block

namespace Parser

/-- The lines of content of a container are the first lines of its text. -/
theorem linesOf_content {content : List Text} (hfeed : ∀ text ∈ content, '\n' ∉ text) {i : Nat}
    {text : Text} (h : content[i]? = some text) :
    (linesOf (Block.content content))[i]? = some ⟨text, true⟩ := by
  have hne : content ≠ [] := List.ne_nil_of_mem (List.mem_of_getElem? h)
  have hmap : (content.map (⟨·, true⟩ : Text → Line))[i]? = some ⟨text, true⟩ := by
    rw [List.getElem?_map, h]
    rfl
  rw [linesOf, Block.content, ofText_intercalate hne hfeed, List.getElem?_append_left, hmap]
  exact (List.getElem?_eq_some_iff.1 hmap).1

end Parser

-- What lies behind a line of the first list is not the head of the second one.
theorem lt_length_of_head? {α : Type} {p : α → Prop} {taken rest : List α}
    (hrest : ∀ a ∈ rest.head?, p a) {i : Nat} (hi : i < taken.length) {a : α}
    (ha : (taken ++ rest)[i + 1]? = some a) (hp : ¬ p a) : i + 1 < taken.length := by
  refine lt_of_le_of_ne hi fun heq => hp (hrest a ?_)
  rwa [heq, List.getElem?_append_right (Nat.le_refl _), Nat.sub_self,
    ← List.head?_eq_getElem?] at ha

namespace Placed

variable {text front rest : Text} {node : Node} {outline : Outline}

/-- A line below one that lies in prose lies in it too when it goes on with prose. -/
theorem holdsLine_succ (h : Placed text node front rest outline)
    (hends : Block.EndsProse outline.length (Parser.linesOf rest)) {i : Nat} {line : Line}
    (hline : (Parser.linesOf text)[i + 1]? = some line) (hblank : line.isBlank = false)
    (hgoes : interruptsParagraph line.text = false) (hholds : node.span.HoldsLine text i) :
    node.span.HoldsLine text (i + 1) := by
  obtain ⟨taken, more, hlines, hlength, hends⟩ := hends
  have hlast : i + 1 < (Parser.linesOf text).length := (List.getElem?_eq_some_iff.1 hline).1
  -- The lines of the block run from the line `first` up to `first + taken.length`.
  obtain ⟨first, hstart⟩ : ∃ first, node.span.start = Parser.lineStart text first :=
    ⟨_, h.lineStart_eq⟩
  have hbehind := h.lineStart_behind hlines hlength hstart
  have hstop := hholds.2.trans_le h.stop_le
  have hfrom : first ≤ i := by
    by_contra hlt
    have := Parser.lineStart_lt (Nat.not_le.1 hlt) (Nat.lt_of_succ_lt hlast)
    exact absurd hholds.1 (by omega)
  obtain ⟨n, rfl⟩ := Nat.exists_eq_add_of_le hfrom
  have hn : n < taken.length := by
    by_contra hge
    obtain ⟨m, rfl⟩ := Nat.exists_eq_add_of_le (Nat.not_lt.1 hge)
    have := Parser.lineStart_le_add text (first + taken.length) m
    rw [Nat.add_assoc] at this
    omega
  have hn' : n + 1 < taken.length := by
    rw [Nat.add_assoc, ← List.getElem?_drop, (h.drop_eq hstart).2, hlines] at hline
    exact lt_length_of_head? hends hn hline (by simp [hblank, hgoes])
  have hlt : Parser.lineStart text (first + n + 1) <
      Parser.lineStart text (first + taken.length) := Parser.lineStart_lt (by omega) hlast
  exact ⟨hholds.1.trans (Parser.lineStart_le_add text _ 1),
    h.lt_stop (by omega) (Parser.lineStart_lt_byteLength hline hblank)⟩

end Placed

/-! ## The line below -/

namespace Block

/-- A line below one of a quote is a line of the quote as it is when it goes on with prose. -/
theorem quoteLines_succ {lines : List Line} {i : Nat} (hi : i < (quoteLines lines).length)
    {line : Line} (hline : lines[i + 1]? = some line) (hblank : line.isBlank = false)
    (hgoes : interruptsParagraph line.text = false) :
    (quoteLines lines)[i + 1]? = some (line, line.text) := by
  obtain ⟨more, hlines, hends⟩ :=
    quoteLines_next (List.ne_nil_of_length_pos (Nat.zero_lt_of_lt hi))
  rw [hlines] at hline
  have hlt := lt_length_of_head? hends (by simpa using hi) hline (by simp [hblank, hgoes])
  -- The line is claimed, and it has no `>`.
  rw [List.getElem?_append_left hlt, List.getElem?_map] at hline
  obtain ⟨⟨claimed, text⟩, hclaimed, rfl⟩ := Option.map_eq_some_iff.1 hline
  rcases quoteLines_cases (List.mem_of_getElem? hclaimed) with hquoted | ⟨htext, -⟩
  · rw [quoteContent?_eq_none hgoes] at hquoted
    simp at hquoted
  · rw [hclaimed, ← htext]

/-- A line below one of an item is a line of the item when it goes on with prose and no marker
stands on it. -/
theorem listLines?_succ {lines : List Line} {marker : ListMarker} {front back : List Item}
    {item : Item} (h : listLines? lines = some (marker, front ++ item :: back)) {i : Nat}
    (hi : i < item.lines.length) {line : Line}
    (hline : lines[(front.flatMap Item.claimed).length + item.before.length + i + 1]? = some line)
    (hblank : line.isBlank = false) (hgoes : Unmarked line.text) :
    item.lines[i + 1]? = some line := by
  obtain ⟨rest, hlines, hhead⟩ := listLines?_next h
  rw [hlines, List.flatMap_append, List.flatMap_singleton, Item.claimed, List.append_assoc,
    List.append_assoc, Nat.add_assoc, Nat.add_assoc, List.getElem?_append_right (by omega),
    Nat.add_sub_cancel_left, List.getElem?_append_right (by omega),
    Nat.add_sub_cancel_left] at hline
  have hlt := lt_length_of_head? hhead hi hline
    (by simp [hblank, hgoes.interruptsParagraph_eq, hgoes.listItem?_eq])
  rwa [List.getElem?_append_left hlt] at hline

end Block

/-! ## The paragraph of a line -/

/-- A line that goes on with a paragraph below the containers of `path`: it is neither blank nor
does it interrupt a paragraph, and where one of them is a list no marker stands on it even behind
its indentation. -/
structure Marker.KeepsOn (path : List NodeKind) (line : Text) : Prop where
  not_blank : Text.isBlank line = false
  not_interrupts : interruptsParagraph line = false
  unmarked : (∀ kind ∈ path, kind = .blockQuote) ∨ Unmarked line

namespace Contains

variable {text : Text} {nodes children : List Node} {kind : NodeKind} {content : List Text}
  {first : Nat}

theorem feed_not_mem (h : Contains text nodes kind first content children) :
    ∀ line ∈ content, '\n' ∉ line := by
  have hfeed (first : Nat) : ∀ line ∈ (Parser.linesOf text).drop first, '\n' ∉ line.text :=
    fun line hline => Line.feed_not_mem (List.mem_of_mem_drop hline)
  cases h with
  | quote => exact Block.feed_not_mem_quoteLines (hfeed _)
  | item _ _ hlist => exact Block.feed_not_mem_listLines? (hfeed _) hlist (by simp)

/-- The line below a line of a container is a line of its content when it keeps on. -/
theorem next (h : Contains text nodes kind first content children) {path : List NodeKind}
    {index : Nat} (hindex : index < content.length) {line : Line}
    (hline : (Parser.linesOf text)[first + index + 1]? = some line)
    (hkeeps : KeepsOn (kind :: path) line.text) :
    ∃ next, content[index + 1]? = some next ∧ KeepsOn path next := by
  obtain ⟨hblank, hgoes, hmarks⟩ := hkeeps
  cases h with
  | @quote span _ first hnode hstart =>
    rw [Nat.add_assoc, ← List.getElem?_drop] at hline
    have hnext := Block.quoteLines_succ (by simpa using hindex) hline hblank hgoes
    refine ⟨line.text, by rw [List.getElem?_map, hnext]; rfl, hblank, hgoes, ?_⟩
    exact hmarks.imp_left fun hpath => (List.forall_mem_cons.1 hpath).2
  | @item _ _ _ first marker front back item node hnode hstart hlist hitem =>
    have hunmarked : Unmarked line.text :=
      hmarks.resolve_left fun hpath => by simpa using hpath _ (List.mem_cons_self ..)
    obtain ⟨own, hreads⟩ := Block.listLines?_reads hlist item (by simp)
    rw [Nat.add_assoc, Nat.add_assoc, Nat.add_assoc, ← List.getElem?_drop, ← Nat.add_assoc,
      ← Nat.add_assoc] at hline
    have hnext := Block.listLines?_succ hlist (hreads.length_eq ▸ hindex) hline hblank hunmarked
    obtain ⟨next, hcontent, hgoes⟩ := hreads.getElem? hnext
    refine ⟨next, hcontent, ?_⟩
    -- What is left of the line differs from it in its indentation at most.
    cases hgoes with
    | blank hnone => exact absurd (hnone.symm.trans hblank) (by decide)
    | indented _ hindent =>
      exact ⟨by rw [Text.isBlank_stripColumns]; exact hblank,
        (hunmarked.stripColumns _).interruptsParagraph_eq, .inr (hunmarked.stripColumns _)⟩
    | lazy _ hindent hgoes => exact ⟨hblank, hgoes, .inr hunmarked⟩

end Contains

/-- Below a line that lies in a paragraph of a text, at whatever depth, stands one that lies in it
too when it keeps on. -/
theorem LiesIn.next {text : Text} {nodes : List Node} {path : List NodeKind} {node : Node}
    {index : Nat} (h : LiesIn text nodes path node index)
    (hnodes : nodes = Parser.documentNodes text) (hkind : node.kind = .paragraph) {line : Line}
    (hline : (Parser.linesOf text)[index + 1]? = some line) (hkeeps : KeepsOn path line.text) :
    LiesIn text nodes path node (index + 1) := by
  induction h generalizing line with
  | @here text nodes node index hnode hholds =>
    subst hnodes
    obtain ⟨front, rest, outline, hplaced⟩ := exists_placed_of_mem hnode
    have hends := Outline.endsProse_of_read? hplaced.read hplaced.kind?_eq (by rw [hkind]; rfl)
      fun hhtml => by simp [hkind] at hhtml
    exact .here hnode
      (hplaced.holdsLine_succ hends hline hkeeps.not_blank hkeeps.not_interrupts hholds)
  | @inside text nodes children kind path node content first index hcontains hindex _ ih =>
    obtain ⟨next, hnext, hkeeps⟩ := hcontains.next hindex hline hkeeps
    have hlines := Parser.linesOf_content hcontains.feed_not_mem hnext
    subst hnodes
    rw [Nat.add_assoc]
    exact .inside hcontains (List.getElem?_eq_some_iff.1 hnext).1
      (ih hcontains.eq_documentNodes.1 hkind hlines hkeeps)

/-! ## Lines taken over lazily -/

namespace Parser

/-- The cursor of a document at byte `offset`, inside of `depth` containers, with room for `room`
levels below. -/
def documentCursor (room depth offset : Nat) : Cursor where
  offset := offset
  depth := depth
  tokenize content :=
    (blocksWithin (document []).tokenizers room (depth + 1) content).mapError (.within offset)

theorem eq_documentNodes_of_tokenize {room depth offset : Nat} {content : Text} {nodes : List Node}
    (h : (documentCursor room depth offset).tokenize content = .ok nodes) :
    nodes = documentNodes content := by
  have hblocks : blocksWithin (document []).tokenizers room (depth + 1) content = .ok nodes := by
    cases hblocks : blocksWithin (document []).tokenizers room (depth + 1) content with
    | error error => simp [documentCursor, hblocks, Except.mapError] at h
    | ok found => simpa [documentCursor, hblocks, Except.mapError] using h
  rcases Nat.lt_or_ge (Node.levelsAll (documentNodes content)) room with hlt | hge
  · rw [blocksWithin_eq_ok hlt] at hblocks
    exact (Except.ok.inj hblocks).symm
  · obtain ⟨_, _, -, herror⟩ := exists_refusal hge (depth + 1)
    rw [herror] at hblocks
    simp at hblocks

end Parser

theorem Tokenizer.Reads.exists_consume {tokenizer : Tokenizer} {read? : Text → Option Outline}
    (h : tokenizer.Reads read?) {cursor : Cursor} {text : Text} {claim : Claim}
    (hattempt : (tokenizer.locate text).allowsAttempt = true)
    (hclaim : tokenizer.tryConsume cursor text = .ok (some claim)) :
    ∃ outline, read? text = some outline ∧ outline.consume cursor = .ok claim := by
  have hreads := h cursor text
  rw [if_pos hattempt, hclaim] at hreads
  cases houtline : read? text with
  | none => simp [houtline] at hreads
  | some outline =>
    rw [houtline, Option.elim_some] at hreads
    obtain ⟨found, hfound, hsome⟩ := exists_of_map_eq_ok hreads.symm
    exact ⟨outline, rfl, Option.some.inj hsome ▸ hfound⟩

/-- What is claimed with the cursor of a document has the blocks of its contents inside of it. -/
theorem Outline.block_of_consume {room depth offset : Nat} {outline : Outline} {claim : Claim}
    (h : outline.consume (Parser.documentCursor room depth offset) = .ok claim) :
    claim.block = outline.block? offset (outline.contents.map Parser.documentNodes) := by
  obtain ⟨parts, hparts, rfl⟩ := exists_of_map_eq_ok h
  rw [eq_map_of_mapM_eq_ok (fun _ _ => Parser.eq_documentNodes_of_tokenize) hparts]
  rfl

/-- A quote or an item of a list at the start of a text takes a line over lazily: the line has no
`>`, or is indented less than the content of the item that it belongs to. It becomes line
`index + 1` of the content, whose blocks are `children`. -/
inductive TakesLazily (cursor : Cursor) (text : Text) :
    List Text → List Node → Nat → Line → Prop
  | quote {claim : Claim} {children : List Node} {index : Nat} {line : Line} {left : Text}
      (hclaim : Block.blockQuote cursor text = .ok (some claim))
      (hblock : claim.block = some (.blockQuote, children))
      (hline : (Block.quoteLines (Line.ofText text))[index + 1]? = some (line, left))
      (hlazy : Block.quoteContent? line = none) :
      TakesLazily cursor text ((Block.quoteLines (Line.ofText text)).map (·.2)) children index line
  | item {claim : Claim} {items : List Node} {list marker : ListMarker}
      {front back : List Block.Item} {item : Block.Item} {node : Node} {opening : Line}
      {index : Nat} {line : Line}
      (hclaim : Block.list cursor text = .ok (some claim))
      (hblock : claim.block = some (.list list.ordered, items))
      (hitems : Block.listLines? (Line.ofText text) = some (list, front ++ item :: back))
      (hnode : items[front.length]? = some node)
      (hopening : item.lines.head? = some opening)
      (hmarker : listItem? opening.text = some marker)
      (hline : item.lines[index + 1]? = some line) (hblank : line.isBlank = false)
      (hlazy : Text.indentation line.text < marker.contentIndent) :
      TakesLazily cursor text item.content node.children index line

namespace TakesLazily

variable {room depth offset index : Nat} {text : Text} {content : List Text}
  {children : List Node} {line : Line}

theorem eq_documentNodes
    (h : TakesLazily (Parser.documentCursor room depth offset) text content children index line) :
    children = Parser.documentNodes (Block.content content) := by
  cases h with
  | quote hclaim hblock =>
    obtain ⟨outline, hquote, hconsume⟩ :=
      (Tokenizer.reads_blockQuote "block_quote").exists_consume rfl hclaim
    obtain ⟨-, rfl⟩ := Outline.quote?_eq_some hquote
    rw [Outline.block_of_consume hconsume] at hblock
    obtain ⟨-, rfl⟩ := Prod.mk.inj (Option.some.inj hblock)
    exact List.append_nil _
  | item hclaim hblock hitems hnode =>
    obtain ⟨outline, hlist, hconsume⟩ :=
      (Tokenizer.reads_list "list").exists_consume rfl hclaim
    obtain ⟨marker, items, hlines, rfl⟩ := Outline.list?_eq_some hlist
    obtain ⟨rfl, rfl⟩ := Prod.mk.inj (Option.some.inj (hitems.symm.trans hlines))
    rw [Outline.block_of_consume hconsume] at hblock
    obtain ⟨-, rfl⟩ := Prod.mk.inj (Option.some.inj hblock)
    obtain ⟨-, hpart, -⟩ := Outline.exists_of_placeItems_getElem? hnode
    simpa [Outline.contents] using hpart.symm

/-- The line becomes a line of the content as it is, and it goes on with prose. -/
theorem line_eq {cursor : Cursor} (h : TakesLazily cursor text content children index line) :
    content[index + 1]? = some line.text ∧ line.isBlank = false ∧
      interruptsParagraph line.text = false := by
  cases h with
  | quote _ _ hline hlazy =>
    rcases Block.quoteLines_cases (List.mem_of_getElem? hline) with hquoted | ⟨htext, hgoes⟩
    · rw [hlazy] at hquoted
      simp at hquoted
    · exact ⟨by rw [List.getElem?_map, hline, ← htext]; rfl, hgoes⟩
  | item _ _ hitems _ hopening hmarker hline hblank hlazy =>
    obtain ⟨own, hreads⟩ :=
      Block.listLines?_reads hitems _ (List.mem_append_right _ (List.mem_cons_self ..))
    have hown := hreads.listItem?_eq hopening
    obtain rfl := Option.some.inj (hmarker.symm.trans hown)
    obtain ⟨left, hcontent, hgoes⟩ := hreads.getElem? hline
    cases hgoes with
    | blank hnone => simp [hnone] at hblank
    | indented _ hindent => omega
    | lazy _ _ hgoes => exact ⟨hcontent, hblank, hgoes⟩

theorem feed_not_mem {cursor : Cursor} (h : TakesLazily cursor text content children index line) :
    ∀ other ∈ content, '\n' ∉ other := by
  cases h with
  | quote => exact Block.feed_not_mem_quoteLines fun _ => Line.feed_not_mem
  | item _ _ hitems =>
    exact Block.feed_not_mem_listLines? (fun _ => Line.feed_not_mem) hitems (by simp)

/-- A quote that is claimed, from a check of the blocks inside it. -/
theorem exists_quote_of_any {cursor : Cursor} {text : Text} {check : List Node → Bool}
    (h : (Block.blockQuote cursor text).toOption.any (fun claimed => claimed.any fun claim =>
      claim.block.any fun block => block.1 = .blockQuote && check block.2) = true) :
    ∃ claim children, Block.blockQuote cursor text = .ok (some claim) ∧
      claim.block = some (.blockQuote, children) ∧ check children = true := by
  obtain ⟨claimed, hclaimed, hclaim⟩ := exists_ok_of_any h
  obtain ⟨claim, rfl, hany⟩ := (Option.any_eq_true _ _).1 hclaim
  obtain ⟨⟨kind, children⟩, hblock, hshape⟩ := (Option.any_eq_true _ _).1 hany
  obtain ⟨hquote, hcheck⟩ := Bool.and_eq_true_iff.1 hshape
  obtain rfl : kind = .blockQuote := of_decide_eq_true hquote
  exact ⟨claim, children, hclaimed, hblock, hcheck⟩

/-- A line that a quote or an item takes over lazily becomes a line of its content as it is. When
the line above it lies in a paragraph of the blocks inside, it lies in that paragraph too, and in no
other block but the containers around it: at any depth of quotes, and at any depth of quotes and
lists when no marker stands on the line. -/
theorem liesIn_paragraph
    (h : TakesLazily (Parser.documentCursor room depth offset) text content children index line) :
    content[index + 1]? = some line.text ∧
      ∀ path node, LiesIn (Block.content content) children path node index →
        node.kind = .paragraph →
        ((∀ kind ∈ path, kind = .blockQuote) ∨ Unmarked line.text) →
        LiesIn (Block.content content) children path node (index + 1) ∧
          ∀ path' other, LiesIn (Block.content content) children path' other (index + 1) →
            other.kind.isContainer = false → path = path' ∧ node = other := by
  obtain ⟨hcontent, hblank, hgoes⟩ := h.line_eq
  refine ⟨hcontent, fun path node hlies hkind hpath => ?_⟩
  have hchildren := h.eq_documentNodes
  have hnext := hlies.next hchildren hkind (Parser.linesOf_content h.feed_not_mem hcontent)
    ⟨hblank, hgoes, hpath⟩
  exact ⟨hnext, fun path' other hother hleaf =>
    hnext.unique hchildren hother (by rw [hkind]; rfl) hleaf⟩

/-- A quote takes over a line that goes on with the paragraph of a quote inside of it. -/
theorem liesIn_paragraph_quote :
    ∃ content children line paragraph,
      TakesLazily (Parser.documentCursor 64 0 0) "> > a\nb\n".toList content children 0 line ∧
      LiesIn (Block.content content) children [.blockQuote] paragraph 0 ∧
      paragraph.kind = .paragraph ∧
      LiesIn (Block.content content) children [.blockQuote] paragraph 1 := by
  obtain ⟨claim, children, hclaim, hblock, hshape⟩ :=
    @exists_quote_of_any (Parser.documentCursor 64 0 0) "> > a\nb\n".toList
      (fun children => children.map (fun quote => (quote.kind, quote.span,
        quote.children.map fun node => (node.kind, node.span))) =
          [(.blockQuote, ⟨0, 5⟩, [(.paragraph, ⟨0, 3⟩)])]) (by decide +kernel)
  obtain ⟨⟨kind, span, inner⟩, rfl, hnested⟩ :=
    List.map_eq_singleton_iff.1 (of_decide_eq_true hshape)
  obtain ⟨rfl, hrest⟩ := Prod.mk.inj hnested
  obtain ⟨rfl, hinside⟩ := Prod.mk.inj hrest
  obtain ⟨paragraph, rfl, hparagraph⟩ := List.map_eq_singleton_iff.1 hinside
  obtain ⟨hkind, hspan⟩ := Prod.mk.inj hparagraph
  have hline : (Block.quoteLines (Line.ofText "> > a\nb\n".toList))[0 + 1]? =
      some (⟨"b".toList, true⟩, "b".toList) := by
    decide +kernel
  have hcontent : (Block.quoteLines (Line.ofText "> > a\nb\n".toList)).map (·.2) =
      ["> a".toList, "b".toList] := by
    decide +kernel
  have htakes := TakesLazily.quote hclaim hblock hline (by decide +kernel)
  rw [hcontent] at htakes
  have hinner : (Block.quoteLines
      ((Parser.linesOf (Block.content ["> a".toList, "b".toList])).drop 0)).map (·.2) =
        ["a".toList, "b".toList] := by
    decide +kernel
  have hcontains : Contains (Block.content ["> a".toList, "b".toList])
      [⟨.blockQuote, ⟨0, 5⟩, [paragraph]⟩] .blockQuote 0 ["a".toList, "b".toList] [paragraph] :=
    hinner ▸ .quote (List.mem_singleton_self _) rfl
  have hholds : paragraph.span.HoldsLine (Block.content ["a".toList, "b".toList]) 0 := by
    rw [hspan]
    exact ⟨by decide +kernel, by decide +kernel⟩
  have hlies : LiesIn (Block.content ["> a".toList, "b".toList])
      [⟨.blockQuote, ⟨0, 5⟩, [paragraph]⟩] [.blockQuote] paragraph (0 + 0) :=
    .inside hcontains (by decide) (.here (List.mem_singleton_self _) hholds)
  exact ⟨_, _, _, _, htakes, hlies, hkind,
    ((liesIn_paragraph htakes).2 _ _ hlies hkind (.inl (by simp))).1⟩

end TakesLazily

/-- A fence that a quote leaves open goes on with a line that has no `>`: the line becomes part of
the code. -/
theorem takesLazily_code :
    ∃ content children line code,
      TakesLazily (Parser.documentCursor 64 0 0) "> ```\nexport default a\n".toList
        content children 0 line ∧
      LiesIn (Block.content content) children [] code 1 ∧ code.kind = .code true none ∧
      ∀ path node, LiesIn (Block.content content) children path node 1 →
        node.kind ≠ .paragraph := by
  obtain ⟨claim, children, hclaim, hblock, hshape⟩ :=
    @TakesLazily.exists_quote_of_any (Parser.documentCursor 64 0 0)
      "> ```\nexport default a\n".toList
      (fun children => children.map (fun node => (node.kind, node.span)) =
        [(.code true none, ⟨0, 20⟩)]) (by decide +kernel)
  obtain ⟨code, rfl, hcode⟩ := List.map_eq_singleton_iff.1 (of_decide_eq_true hshape)
  obtain ⟨hkind, hspan⟩ := Prod.mk.inj hcode
  have hline : (Block.quoteLines (Line.ofText "> ```\nexport default a\n".toList))[0 + 1]? =
      some (⟨"export default a".toList, true⟩, "export default a".toList) := by
    decide +kernel
  have hcontent :
      (Block.quoteLines (Line.ofText "> ```\nexport default a\n".toList)).map (·.2) =
        ["```".toList, "export default a".toList] := by
    decide +kernel
  have htakes := TakesLazily.quote hclaim hblock hline (by decide +kernel)
  rw [hcontent] at htakes
  have hholds : code.span.HoldsLine
      (Block.content ["```".toList, "export default a".toList]) 1 := by
    rw [hspan]
    exact ⟨by decide +kernel, by decide +kernel⟩
  have hlies : LiesIn (Block.content ["```".toList, "export default a".toList])
      [code] [] code 1 :=
    .here (List.mem_singleton_self _) hholds
  refine ⟨_, _, _, _, htakes, hlies, hkind, fun path node hother hparagraph => ?_⟩
  -- Only one block that is no container holds the line, and that is the code.
  obtain ⟨-, rfl⟩ := hlies.unique htakes.eq_documentNodes hother (by rw [hkind]; rfl)
    (by rw [hparagraph]; rfl)
  simp [hkind] at hparagraph

end DocumentLayout
