import DocumentLayout.Proofs.Block.Laziness
import DocumentLayout.Proofs.Block.Loop

/-!
# Conservation of lines

A container hands on one line of content for each line that it claims. A quote takes white space,
one `>` and at most one space or tab off a line, or nothing of a line that it takes over lazily. The
items of a list lie one behind another with blank lines between them, and what is taken off their
lines are spaces, tabs and the marker of each item.
-/

namespace DocumentLayout

open Marker

/-! ## What is taken off a line -/

namespace Text

/-- A text of spaces and tabs. -/
def IsIndentation (text : Text) : Prop := ∀ c ∈ text, isIndent c = true

theorem IsIndentation.nil : IsIndentation [] := by simp [IsIndentation]

theorem IsIndentation.cons {c : Char} (hc : isIndent c = true) {text : Text}
    (h : IsIndentation text) : IsIndentation (c :: text) :=
  List.forall_mem_cons.2 ⟨hc, h⟩

theorem exists_indentation_stripFrom (column limit : Nat) (text : Text) :
    ∃ indent, IsIndentation indent ∧ text = indent ++ stripFrom column limit text := by
  fun_induction stripFrom column limit text with
  | case1 column rest hlt ih =>
    obtain ⟨indent, hindent, hrest⟩ := ih
    exact ⟨' ' :: indent, hindent.cons (by decide), congrArg (' ' :: ·) hrest⟩
  | case3 column rest hlt ih =>
    obtain ⟨indent, hindent, hrest⟩ := ih
    exact ⟨'\t' :: indent, hindent.cons (by decide), congrArg ('\t' :: ·) hrest⟩
  | _ => exact ⟨[], .nil, rfl⟩

theorem exists_indentation_stripColumns (text : Text) (columns : Nat) :
    ∃ indent, IsIndentation indent ∧ text = indent ++ stripColumns text columns :=
  exists_indentation_stripFrom 0 columns text

/-- One column is at most one space or tab. -/
theorem exists_gap_stripColumns_one (text : Text) :
    ∃ gap, IsIndentation gap ∧ gap.length ≤ 1 ∧ text = gap ++ stripColumns text 1 := by
  unfold stripColumns stripFrom
  split
  · rw [if_pos Nat.one_pos, stripFrom_self]
    exact ⟨[' '], IsIndentation.nil.cons (by decide), Nat.le_refl 1, rfl⟩
  · rw [if_pos Nat.one_pos, stripFrom_of_le (by decide)]
    exact ⟨['\t'], IsIndentation.nil.cons (by decide), Nat.le_refl 1, rfl⟩
  · exact ⟨[], .nil, Nat.zero_le 1, rfl⟩

theorem exists_indentation_blockStart? {line rest : Text} (h : blockStart? line = some rest) :
    ∃ indent, IsIndentation indent ∧ line = indent ++ rest := by
  rw [(blockStart?_eq_some h).2, trimIndent]
  exact ⟨line.takeWhile isIndent, List.all_eq_true.1 List.all_takeWhile,
    List.takeWhile_append_dropWhile.symm⟩

end Text

theorem Marker.listItem?_eq_append {line : Text} {marker : ListMarker}
    (h : listItem? line = some marker) :
    ∃ indent mark gap, Text.IsIndentation indent ∧
      IsBullet marker.ordered marker.symbol mark ∧ Text.IsIndentation gap ∧
      line = indent ++ mark ++ gap ++ marker.content := by
  obtain ⟨rest, hstart, h⟩ := Option.bind_eq_some_iff.1 h
  obtain ⟨⟨ordered, symbol, width, startsAtOne⟩, hbullet, h⟩ := Option.bind_eq_some_iff.1 h
  obtain ⟨indent, hindent, rfl⟩ := Text.exists_indentation_blockStart? hstart
  obtain ⟨mark, hmark, -, hrest⟩ := bullet?_eq_append hbullet
  dsimp only at h
  split at h
  · obtain rfl := Option.some.inj h
    obtain ⟨gap, hgap, hafter⟩ := Text.exists_indentation_stripColumns (rest.drop width)
      (spacing (rest.drop width))
    refine ⟨indent, mark, gap, hindent, hmark, hgap, ?_⟩
    dsimp only
    rw [List.append_assoc, List.append_assoc, ← hafter, ← hrest]
  · simp at h

/-! ## Quotes -/

namespace Block

/-- A line that a quote claims, and its line of content: what stands behind white space, one `>` and
at most one space or tab, or all of a line that is taken over lazily. -/
inductive QuoteLine : Text → Text → Prop
  | marked {indent gap text : Text} (hindent : Text.IsIndentation indent)
      (hgap : Text.IsIndentation gap) (hlength : gap.length ≤ 1) :
      QuoteLine (indent ++ '>' :: (gap ++ text)) text
  | lazy {line : Text} (hblank : Text.isBlank line = false)
      (hgoes : interruptsParagraph line = false) : QuoteLine line line

theorem quoteLine_of_mem {lines : List Line} {claimed : Line × Text}
    (h : claimed ∈ quoteLines lines) : QuoteLine claimed.1.text claimed.2 := by
  rcases quoteLines_cases h with hquoted | ⟨htext, hblank, hgoes⟩
  · obtain ⟨rest, hrest, hstrip⟩ := Option.map_eq_some_iff.1 hquoted
    obtain ⟨indent, hindent, hline⟩ := Text.exists_indentation_blockStart? (quoted?_eq_some hrest)
    obtain ⟨gap, hgap, hlength, hafter⟩ := Text.exists_gap_stripColumns_one rest
    rw [hstrip] at hafter
    rw [hline, hafter]
    exact .marked hindent hgap hlength
  · rw [htext]
    exact .lazy hblank hgoes

/-- A quote at the start of `value` that claims `lines` and parses `texts`, one of each line. -/
structure ConservesQuote (value : Text) (claim : Claim) (lines : List Line) (texts : List Text) :
    Prop where
  claims : lines <+: Line.ofText value
  length : claim.length = Line.totalSize lines
  leaves : List.Forall₂ (fun line text => QuoteLine line.text text) lines texts
  parses : ∀ cursor, blockQuote cursor value = (cursor.tokenize (content texts)).map
    fun children => some (.container (Line.totalSize lines) .blockQuote children)
  split : List.splitOn '\n' (content texts) = texts

theorem blockQuote_eq_map {value : Text} (h : quoteLines (Line.ofText value) ≠ [])
    (cursor : Cursor) :
    blockQuote cursor value =
      (cursor.tokenize (content ((quoteLines (Line.ofText value)).map (·.2)))).map fun children =>
        some (.container (Line.totalSize ((quoteLines (Line.ofText value)).map (·.1)))
          .blockQuote children) := by
  unfold blockQuote
  split
  · exact absurd ‹_› h
  · cases cursor.tokenize (content ((quoteLines (Line.ofText value)).map (·.2))) <;> rfl

theorem conservesQuote {cursor : Cursor} {value : Text} {claim : Claim}
    (h : blockQuote cursor value = .ok (some claim)) :
    ConservesQuote value claim ((quoteLines (Line.ofText value)).map (·.1))
      ((quoteLines (Line.ofText value)).map (·.2)) := by
  have hne : quoteLines (Line.ofText value) ≠ [] := by
    intro hnil
    simp [blockQuote, hnil] at h
  have hclaims := quoteLines_prefix (Line.ofText value)
  have hparses := blockQuote_eq_map hne
  obtain ⟨children, -, hclaim⟩ := exists_of_map_eq_ok ((hparses cursor).symm.trans h)
  refine ⟨hclaims, ?_, ?_, hparses, ?_⟩
  · rw [Option.some.inj hclaim]
    rfl
  · rw [List.forall₂_map_left_iff, List.forall₂_map_right_iff, List.forall₂_same]
    exact fun claimed hclaimed => quoteLine_of_mem hclaimed
  · exact List.splitOn_intercalate _ (feed_not_mem_quoteLines fun _ => Line.feed_not_mem)
      (by simpa using hne)

/-! ## Items of a list -/

/-- A line of an item below its first one, and its line of content: nothing of a blank line, and of
any other what stands behind spaces and tabs. -/
inductive BelowLine : Line → Text → Prop
  | blank {line : Line} (hblank : line.isBlank = true) : BelowLine line []
  | filled {line : Line} {indent text : Text} (hblank : line.isBlank = false)
      (hindent : Text.IsIndentation indent) (hline : line.text = indent ++ text) :
      BelowLine line text

theorem GoesOn.belowLine {marker : ListMarker} {line : Line} {text : Text}
    (h : GoesOn marker line text) : BelowLine line text := by
  cases h with
  | blank hblank => exact .blank hblank
  | indented hblank =>
    obtain ⟨indent, hindent, hline⟩ :=
      Text.exists_indentation_stripColumns line.text marker.contentIndent
    exact .filled hblank hindent hline
  | lazy hblank => exact .filled hblank .nil rfl

/-- The lines of an item in a list of kind `list`, and the lines of its content. On the first line
stands a marker of the kind of the list, which is taken off with the spaces and tabs around it. -/
inductive EntryLines (list : ListMarker) : List Line → List Text → Prop
  | mk {marker : ListMarker} {opening : Line} {below : List Line} {indent mark gap text : Text}
      {texts : List Text} (hmarker : listItem? opening.text = some marker)
      (hcontinues : marker.continues list = true) (hindent : Text.IsIndentation indent)
      (hmark : IsBullet marker.ordered marker.symbol mark) (hgap : Text.IsIndentation gap)
      (hopening : opening.text = indent ++ mark ++ gap ++ text)
      (hbelow : List.Forall₂ BelowLine below texts) :
      EntryLines list (opening :: below) (text :: texts)

/-- An item of a list of kind `list` that its own marker opens, behind blank lines. -/
structure Item.BelongsTo (item : Item) (list own : ListMarker) : Prop where
  reads : item.Reads own
  continues : own.continues list = true
  before : ∀ line ∈ item.before, line.isBlank = true

theorem listLines?_belongsTo {lines : List Line} {list : ListMarker} {items : List Item}
    (h : listLines? lines = some (list, items)) :
    ∀ item ∈ items, ∃ own, item.BelongsTo list own := by
  apply ItemInvariant.listLines? _ h
  constructor
  · intro own before line hbefore hmarker hcontinues
    exact ⟨.mk hmarker .nil, hcontinues, hbefore⟩
  · intro own item blank line text hitem hblanks _ hgoes
    exact ⟨(hitem.reads.append (goesOn_blank hblanks)).append (.cons hgoes .nil),
      hitem.continues, hitem.before⟩

namespace Item.BelongsTo

variable {item : Item} {list own : ListMarker}

theorem entryLines (h : item.BelongsTo list own) : EntryLines list item.lines item.content := by
  obtain ⟨hreads, hcontinues, -⟩ := h
  cases hreads with
  | mk hmarker hlines =>
    obtain ⟨indent, mark, gap, hindent, hmark, hgap, hopening⟩ := listItem?_eq_append hmarker
    exact .mk hmarker hcontinues hindent hmark hgap hopening
      (hlines.imp fun _ _ hgoes => hgoes.belowLine)

theorem length_eq (h : item.BelongsTo list own) : item.content.length = item.lines.length :=
  h.reads.length_eq

theorem exists_opening (h : item.BelongsTo list own) :
    ∃ line below, item.lines = line :: below ∧ line.isBlank = false := by
  obtain ⟨hreads, -, -⟩ := h
  cases hreads with
  | mk hmarker => exact ⟨_, _, rfl, (listItem?_eq_some hmarker).1⟩

theorem totalSize_pos (h : item.BelongsTo list own) : 0 < Line.totalSize item.lines := by
  obtain ⟨line, below, hlines, hblank⟩ := h.exists_opening
  have hne : line.text ≠ [] := by
    intro hnil
    simp [Line.isBlank, Text.isBlank, hnil] at hblank
  have hpos := Text.byteLength_pos hne
  rw [hlines, Line.totalSize, Line.size]
  omega

end Item.BelongsTo

/-! ## Items in place -/

/-- An item among the lines that a list claims: the line that it starts on, its lines of content and
its span. -/
structure Entry where
  first : Nat
  texts : List Text
  span : Span

namespace Entry

/-- The first line behind the item. -/
def stop (entry : Entry) : Nat := entry.first + entry.texts.length

/-- A line belongs to the item. -/
def Has (entry : Entry) (index : Nat) : Prop := entry.first ≤ index ∧ index < entry.stop

/-- The node of the item, given the blocks of its content. -/
def node (entry : Entry) (children : List Node) : Node := ⟨.listItem, entry.span, children⟩

/-- The item takes its part of `lines`, the first of which starts at byte `offset`. -/
structure Takes (entry : Entry) (list : ListMarker) (offset : Nat) (lines : List Line) :
    Prop where
  start : entry.span.start = offset + Line.totalSize (lines.take entry.first)
  stop : entry.span.stop = offset + Line.totalSize (lines.take entry.stop)
  nonempty : entry.span.start < entry.span.stop
  leaves : EntryLines list ((lines.drop entry.first).take entry.texts.length) entry.texts
  split : List.splitOn '\n' (content entry.texts) = entry.texts

-- Of items one behind another one at most has a given line.
theorem existsUnique_has {entries : List Entry}
    (h : entries.Pairwise fun a b => a.stop ≤ b.first) {entry : Entry} (hentry : entry ∈ entries)
    {index : Nat} (hindex : entry.Has index) :
    ∃! k : Nat, ∃ entry, entries[k]? = some entry ∧ entry.Has index := by
  obtain ⟨k, hk⟩ := List.getElem?_of_mem hentry
  refine ⟨k, ⟨entry, hk, hindex⟩, ?_⟩
  rintro m ⟨other, hm, hother⟩
  obtain ⟨hklt, rfl⟩ := List.getElem?_eq_some_iff.1 hk
  obtain ⟨hmlt, rfl⟩ := List.getElem?_eq_some_iff.1 hm
  have hordered := List.pairwise_iff_getElem.1 h
  obtain ⟨hfirst, hstop⟩ := hindex
  obtain ⟨hfirst', hstop'⟩ := hother
  rcases Nat.lt_trichotomy m k with hlt | heq | hlt
  · have := hordered m k hmlt hklt hlt
    omega
  · exact heq
  · have := hordered k m hklt hmlt hlt
    omega

end Entry

/-- The place of an item behind the lines `done`, the first of which starts at byte `offset`. -/
def Item.entry (item : Item) (offset : Nat) (done : List Line) : Entry where
  first := (done ++ item.before).length
  texts := item.content
  span := ⟨offset + Line.totalSize (done ++ item.before),
    offset + Line.totalSize (done ++ item.claimed)⟩

theorem Item.BelongsTo.stop_entry {item : Item} {list own : ListMarker}
    (h : item.BelongsTo list own) (offset : Nat) (done : List Line) :
    (item.entry offset done).stop = (done ++ item.claimed).length := by
  simp only [Entry.stop, Item.entry, Item.claimed, List.length_append, h.length_eq]
  omega

/-- The places of items one behind another. -/
def entries (offset : Nat) (done : List Line) : List Item → List Entry
  | [] => []
  | item :: items => item.entry offset done :: entries offset (done ++ item.claimed) items

theorem itemNodes_eq_map (cursor : Cursor) (offset : Nat) (done : List Line) (items : List Item) :
    itemNodes cursor (offset + Line.totalSize done) items =
      ((entries offset done items).mapM fun entry =>
        (cursor.tokenize (content entry.texts)).map entry.node).map fun nodes =>
          (nodes, offset + Line.totalSize (done ++ items.flatMap Item.claimed)) := by
  induction items generalizing done with
  | nil =>
    rw [List.flatMap_nil, List.append_nil]
    rfl
  | cons item items ih =>
    have hstart : offset + Line.totalSize done + Line.totalSize item.before =
        (item.entry offset done).span.start := by
      simp only [Item.entry, Line.totalSize_append]
      omega
    have hstop : (item.entry offset done).span.start + Line.totalSize item.lines =
        offset + Line.totalSize (done ++ item.claimed) := by
      simp only [Item.entry, Item.claimed, Line.totalSize_append]
      omega
    rw [itemNodes, entries, List.mapM_cons, hstart, hstop, List.flatMap_cons, ← List.append_assoc,
      ih]
    show _ = Except.map _ (((cursor.tokenize (content item.content)).map _).bind _)
    cases cursor.tokenize (content item.content) with
    | error error => rfl
    | ok children =>
      cases (entries offset (done ++ item.claimed) items).mapM fun entry =>
        (cursor.tokenize (content entry.texts)).map entry.node <;> rfl

theorem exists_of_mem_entries {offset : Nat} {done : List Line} {items : List Item} {entry : Entry}
    (h : entry ∈ entries offset done items) :
    ∃ front item back, items = front ++ item :: back ∧
      entry = item.entry offset (done ++ front.flatMap Item.claimed) := by
  induction items generalizing done with
  | nil => simp [entries] at h
  | cons item items ih =>
    rcases List.mem_cons.1 h with rfl | h
    · exact ⟨[], item, items, rfl, by rw [List.flatMap_nil, List.append_nil]⟩
    · obtain ⟨front, found, back, rfl, hentry⟩ := ih h
      refine ⟨item :: front, found, back, rfl, ?_⟩
      rw [hentry, List.flatMap_cons, List.append_assoc]

theorem le_of_mem_entries {offset : Nat} {done : List Line} {items : List Item} {entry : Entry}
    (h : entry ∈ entries offset done items) :
    done.length ≤ entry.first ∧ offset + Line.totalSize done ≤ entry.span.start := by
  obtain ⟨front, item, back, -, rfl⟩ := exists_of_mem_entries h
  simp only [Item.entry, List.length_append, Line.totalSize_append]
  omega

theorem pairwise_entries {list : ListMarker} {items : List Item}
    (h : ∀ item ∈ items, ∃ own, item.BelongsTo list own) (offset : Nat) (done : List Line) :
    (entries offset done items).Pairwise fun a b =>
      a.stop ≤ b.first ∧ a.span.stop ≤ b.span.start := by
  induction items generalizing done with
  | nil => exact .nil
  | cons item items ih =>
    obtain ⟨⟨own, hitem⟩, hitems⟩ := List.forall_mem_cons.1 h
    refine .cons (fun entry hentry => ?_) (ih hitems _)
    obtain ⟨hfirst, hstart⟩ := le_of_mem_entries hentry
    rw [hitem.stop_entry]
    exact ⟨hfirst, hstart⟩

theorem getLast?_entries {items : List Item} (hne : items ≠ []) (offset : Nat)
    (done : List Line) :
    (entries offset done items).getLast?.map (·.span.stop) =
      some (offset + Line.totalSize (done ++ items.flatMap Item.claimed)) := by
  induction items generalizing done with
  | nil => exact absurd rfl hne
  | cons item items ih =>
    cases items with
    | nil => simp [entries, Item.entry]
    | cons next items =>
      rw [entries, entries, List.getLast?_cons_cons, ← entries, ih (by simp), List.append_assoc]
      rfl

/-- A line that a list claims belongs to an item, or stands in front of one and is blank. -/
theorem isBlank_or_has {list : ListMarker} {items : List Item}
    (h : ∀ item ∈ items, ∃ own, item.BelongsTo list own) (offset : Nat) {done : List Line}
    {index : Nat} {line : Line} (hline : (done ++ items.flatMap Item.claimed)[index]? = some line)
    (hindex : done.length ≤ index) :
    line.isBlank = true ∨ ∃ entry ∈ entries offset done items, entry.Has index := by
  induction items generalizing done with
  | nil =>
    rw [List.flatMap_nil, List.append_nil] at hline
    have := (List.getElem?_eq_some_iff.1 hline).1
    omega
  | cons item items ih =>
    obtain ⟨⟨own, hitem⟩, hitems⟩ := List.forall_mem_cons.1 h
    rw [List.flatMap_cons, ← List.append_assoc] at hline
    by_cases hbefore : index < (done ++ item.before).length
    · rw [Item.claimed, ← List.append_assoc, List.append_assoc,
        List.getElem?_append_left hbefore, List.getElem?_append_right hindex] at hline
      exact .inl (hitem.before line (List.mem_of_getElem? hline))
    · by_cases hclaimed : index < (done ++ item.claimed).length
      · rw [← hitem.stop_entry offset done] at hclaimed
        exact .inr ⟨_, List.mem_cons_self .., Nat.not_lt.1 hbefore, hclaimed⟩
      · refine (ih hitems hline (Nat.not_lt.1 hclaimed)).imp_right ?_
        rintro ⟨entry, hentry, hhas⟩
        exact ⟨entry, List.mem_cons_of_mem _ hentry, hhas⟩

theorem Item.BelongsTo.takes {item : Item} {list own : ListMarker} (h : item.BelongsTo list own)
    (hfeed : ∀ text ∈ item.content, '\n' ∉ text) (offset : Nat) (done more : List Line) :
    (item.entry offset done).Takes list offset (done ++ (item.claimed ++ more)) := by
  have hbefore : done ++ (item.claimed ++ more) =
      (done ++ item.before) ++ (item.lines ++ more) := by
    simp only [Item.claimed, List.append_assoc]
  constructor
  · rw [hbefore]
    show _ = offset + Line.totalSize (List.take (done ++ item.before).length _)
    rw [List.take_left]
    rfl
  · rw [h.stop_entry, ← List.append_assoc, List.take_left]
    rfl
  · have hpos := h.totalSize_pos
    simp only [Item.entry, Item.claimed, Line.totalSize_append]
    omega
  · rw [hbefore]
    show EntryLines list ((List.drop (done ++ item.before).length _).take item.content.length) _
    rw [List.drop_left, h.length_eq, List.take_left]
    exact h.entryLines
  · obtain ⟨line, below, hlines, -⟩ := h.exists_opening
    have hne : item.content ≠ [] := by
      rw [← List.length_pos_iff, h.length_eq, hlines]
      exact Nat.succ_pos _
    exact List.splitOn_intercalate _ hfeed hne

/-- A list at the start of `value` that claims `lines`, for a cursor at byte `offset`. -/
structure ConservesList (offset : Nat) (value : Text) (list : ListMarker) (lines : List Line)
    (entries : List Entry) : Prop where
  claims : lines <+: Line.ofText value
  opens : lines.head?.bind (listItem? ·.text) = some list
  takes : ∀ entry ∈ entries, entry.Takes list offset lines
  disjoint : entries.Pairwise fun a b => a.span.stop ≤ b.span.start
  start : entries.head?.map (·.span.start) = some offset
  stop : entries.getLast?.map (·.span.stop) = some (offset + Line.totalSize lines)
  between : ∀ (index : Nat) line, lines[index]? = some line →
    (∀ entry ∈ entries, ¬ entry.Has index) → line.isBlank = true
  unique : ∀ (index : Nat) line, lines[index]? = some line → line.isBlank = false →
    ∃! k : Nat, ∃ entry, entries[k]? = some entry ∧ entry.Has index

-- The first item opens on the first line, so no blank line stands in front of it.
theorem listLines?_head {lines : List Line} {list : ListMarker} {items : List Item}
    (h : listLines? lines = some (list, items)) :
    ∃ item more, items = item :: more ∧ item.before = [] ∧
      (items.flatMap Item.claimed).head?.bind (listItem? ·.text) = some list := by
  obtain ⟨hclaims, hne, -⟩ := listLines?_eq_some h
  obtain ⟨item, more, rfl⟩ := List.exists_cons_of_ne_nil hne
  obtain ⟨own, hitem⟩ := listLines?_belongsTo h item (List.mem_cons_self ..)
  obtain ⟨opening, below, hlines, -⟩ := hitem.exists_opening
  cases lines with
  | nil => simp [listLines?] at h
  | cons line lines =>
    obtain ⟨found, hfound, hpair⟩ := Option.map_eq_some_iff.1 h
    obtain ⟨rfl, -⟩ := Prod.mk.inj hpair
    rw [List.flatMap_cons, Item.claimed] at hclaims
    cases hbefore : item.before with
    | nil =>
      rw [hbefore, hlines] at hclaims
      obtain ⟨rfl, -⟩ := List.cons_prefix_cons.1 hclaims
      refine ⟨item, more, rfl, hbefore, ?_⟩
      rw [List.flatMap_cons, Item.claimed, hbefore, hlines]
      exact hfound
    | cons blank before =>
      rw [hbefore] at hclaims
      obtain ⟨rfl, -⟩ := List.cons_prefix_cons.1 hclaims
      have hblank := hitem.before blank (by rw [hbefore]; exact List.mem_cons_self ..)
      exact absurd hblank (by simp [Line.isBlank, (listItem?_eq_some hfound).1])

theorem conservesList {value : Text} {list : ListMarker} {items : List Item}
    (h : listLines? (Line.ofText value) = some (list, items)) (offset : Nat) :
    ConservesList offset value list (items.flatMap Item.claimed) (entries offset [] items) := by
  obtain ⟨hclaims, hne, -⟩ := listLines?_eq_some h
  have hbelongs := listLines?_belongsTo h
  have hpairs := pairwise_entries hbelongs offset []
  have hhas : ∀ (index : Nat) line, (items.flatMap Item.claimed)[index]? = some line →
      line.isBlank = true ∨ ∃ entry ∈ entries offset [] items, entry.Has index :=
    fun index line hline => isBlank_or_has hbelongs offset hline (Nat.zero_le index)
  obtain ⟨first, more, hitems, hfirst, hopening⟩ := listLines?_head h
  constructor
  case claims => exact hclaims
  case opens => exact hopening
  case takes =>
    intro entry hentry
    obtain ⟨front, item, back, hsplit, rfl⟩ := exists_of_mem_entries hentry
    have hmem : item ∈ items := by simp [hsplit]
    obtain ⟨own, hown⟩ := hbelongs item hmem
    rw [hsplit, List.flatMap_append, List.flatMap_cons]
    exact hown.takes (feed_not_mem_listLines? (fun _ => Line.feed_not_mem) h hmem) offset _ _
  case disjoint => exact hpairs.imp fun hab => hab.2
  case start =>
    rw [hitems, entries]
    simp [Item.entry, hfirst, Line.totalSize]
  case stop => exact getLast?_entries hne offset []
  case between =>
    intro index line hline hnone
    rcases hhas index line hline with hblank | ⟨entry, hentry, hindex⟩
    · exact hblank
    · exact absurd hindex (hnone entry hentry)
  case unique =>
    intro index line hline hblank
    rcases hhas index line hline with hnone | ⟨entry, hentry, hindex⟩
    · simp [hblank] at hnone
    · exact Entry.existsUnique_has (hpairs.imp fun hab => hab.1) hentry hindex

theorem list_eq_map {value : Text} {list : ListMarker} {items : List Item}
    (h : listLines? (Line.ofText value) = some (list, items)) (cursor : Cursor) :
    Block.list cursor value =
      ((entries cursor.offset [] items).mapM fun entry =>
        (cursor.tokenize (content entry.texts)).map entry.node).map fun nodes =>
          some (.container (Line.totalSize (items.flatMap Item.claimed)) (.list list.ordered)
            nodes) := by
  have hnodes := itemNodes_eq_map cursor cursor.offset [] items
  rw [Line.totalSize, Nat.add_zero, List.nil_append] at hnodes
  unfold Block.list
  rw [h]
  dsimp only
  rw [hnodes]
  cases (entries cursor.offset [] items).mapM fun entry =>
    (cursor.tokenize (content entry.texts)).map entry.node with
  | error error => rfl
  | ok nodes =>
    show Except.ok (some (Claim.container (_ - _) _ _)) = _
    rw [Nat.add_sub_cancel_left]
    rfl

end Block

/-! ## Blocks in the parse of a text -/

namespace Parser

/-- In the loop over `text` the claim on `value` wins, where the cursor stands and `value` is what
is left of the text with the terminator. -/
inductive Accepts (tokenizers : List Tokenizer) (depth : Nat)
    (nested : Text → Except Error (List Node)) (text : Text) : Cursor → Text → Claim → Prop
  | mk {offset : Nat} {rest name : Text} {claim : Claim}
      (hreaches : Reaches tokenizers depth nested text offset rest) (hne : rest ≠ [])
      (hclaim : claimAt? (cursorAt depth nested offset) (rest ++ terminator) tokenizers =
        .ok (some (name, claim))) :
      Accepts tokenizers depth nested text (cursorAt depth nested offset) (rest ++ terminator) claim

variable {tokenizers : List Tokenizer} {depth : Nat} {nested : Text → Except Error (List Node)}
  {text : Text}

/-- What the loop finds later on are the last of its blocks. -/
theorem Reaches.exists_of_blocksFrom_eq_ok {offset : Nat} {rest : Text}
    (h : Reaches tokenizers depth nested text offset rest) {nodes : List Node}
    (hnodes : blocksFrom tokenizers depth nested 0 text = .ok nodes) :
    ∃ before others, blocksFrom tokenizers depth nested offset rest = .ok others ∧
      nodes = before ++ others := by
  induction h with
  | start => exact ⟨[], nodes, hnodes, rfl⟩
  | @step offset rest name claim _ hne hclaim hvalid ih =>
    obtain ⟨before, others, hothers, rfl⟩ := ih
    rw [blocksFrom_step hne, hclaim] at hothers
    dsimp only at hothers
    rw [if_pos hvalid] at hothers
    obtain ⟨more, hmore, rfl⟩ := exists_of_map_eq_ok hothers
    exact ⟨_, more, hmore, (List.append_assoc ..).symm⟩

/-- The span of a block goes from the cursor to the end of the claim, or of the text in front of
that. -/
theorem Accepts.mem_blocksFrom {cursor : Cursor} {value : Text} {claim : Claim}
    (h : Accepts tokenizers depth nested text cursor value claim) {kind : NodeKind}
    {children : List Node} (hblock : claim.block = some (kind, children)) {nodes : List Node}
    (hnodes : blocksFrom tokenizers depth nested 0 text = .ok nodes) :
    ⟨kind, ⟨cursor.offset, min (cursor.offset + claim.length) (Text.byteLength text)⟩, children⟩ ∈
      nodes := by
  cases h with
  | @mk offset rest name claim hreaches hne hclaim =>
    obtain ⟨before, others, hothers, rfl⟩ := hreaches.exists_of_blocksFrom_eq_ok hnodes
    obtain ⟨done, htext, hdone⟩ := hreaches.exists_done hne
    rw [blocksFrom_step hne, hclaim] at hothers
    dsimp only at hothers
    split at hothers
    · obtain ⟨more, -, rfl⟩ := exists_of_map_eq_ok hothers
      have hend : min (offset + claim.length) (Text.byteLength text) =
          offset + min claim.length (Text.byteLength rest) := by
        rw [htext, Text.byteLength_append, hdone, Nat.add_min_add_left]
      refine List.mem_append_right _ (List.mem_append_left _ ?_)
      show Node.mk kind ⟨offset, min (offset + claim.length) (Text.byteLength text)⟩ children ∈ _
      rw [hend, place, hblock]
      exact List.mem_singleton_self _
    · simp at hothers

end Parser

namespace Block

/-- Containers conserve their lines. A quote parses one line of content for each line that it
claims. So does a list in the content of its items, between which it claims blank lines only;
whatever parses the contents, the items lie where they lie. In the parse of a text the node of the
list stops with what it claims, or with the text in front of that. -/
theorem conserves_lines (cursor : Cursor) (value : Text) :
    (∀ claim, blockQuote cursor value = .ok (some claim) →
      ∃ lines texts, ConservesQuote value claim lines texts) ∧
    ∀ claim, Block.list cursor value = .ok (some claim) →
      ∃ list lines entries nodes,
        claim = .container (Line.totalSize lines) (.list list.ordered) nodes ∧
        ConservesList cursor.offset value list lines entries ∧
        List.Forall₂ (fun entry node =>
          (cursor.tokenize (content entry.texts)).map entry.node = .ok node) entries nodes ∧
        (∀ tokenize, Block.list { cursor with tokenize } value =
          (entries.mapM fun entry => (tokenize (content entry.texts)).map entry.node).map
            fun nodes => some (.container (Line.totalSize lines) (.list list.ordered) nodes)) ∧
        ∀ tokenizers depth nested text found,
          Parser.Accepts tokenizers depth nested text cursor value claim →
          Parser.blocksFrom tokenizers depth nested 0 text = .ok found →
          ⟨.list list.ordered, ⟨cursor.offset,
            min (cursor.offset + claim.length) (Text.byteLength text)⟩, nodes⟩ ∈ found := by
  constructor
  · intro claim hclaim
    exact ⟨_, _, conservesQuote hclaim⟩
  · intro claim hclaim
    obtain ⟨⟨list, items⟩, hlines⟩ : ∃ found, listLines? (Line.ofText value) = some found := by
      apply Option.ne_none_iff_exists'.1
      intro hnone
      simp [Block.list, hnone] at hclaim
    have hlist := list_eq_map hlines
    obtain ⟨nodes, hnodes, hsome⟩ := exists_of_map_eq_ok ((hlist cursor).symm.trans hclaim)
    obtain rfl := Option.some.inj hsome
    refine ⟨list, _, _, nodes, rfl, conservesList hlines cursor.offset,
      forall₂_of_mapM_eq_ok hnodes, fun tokenize => hlist { cursor with tokenize }, ?_⟩
    intro tokenizers depth nested text found haccepts hfound
    exact haccepts.mem_blocksFrom rfl hfound

/-- A quote and a list with a line taken over lazily, blank lines in and between the items, and a
last line that is not broken: the list claims one byte of the terminator. -/
theorem conserves_lines_lazy :
    ∃ quote claim list lines entries found nodes,
      blockQuote (Parser.documentCursor 64 0 0) "> a\nb\n\n".toList = .ok (some quote) ∧
      quote.length = 6 ∧
      (∃ lines texts, ConservesQuote "> a\nb\n\n".toList quote lines texts) ∧
      Block.list (Parser.documentCursor 64 0 0) "- a\nb\n\n  c\n\n- d\n\n".toList =
        .ok (some claim) ∧
      claim.length = 16 ∧
      ConservesList 0 "- a\nb\n\n  c\n\n- d\n\n".toList list lines entries ∧
      Parser.blocksFrom (Parser.document []).tokenizers 0
        (Parser.blocksWithin (Parser.document []).tokenizers 64 1) 0
        "- a\nb\n\n  c\n\n- d".toList = .ok found ∧
      ⟨.list list.ordered, ⟨0, 15⟩, nodes⟩ ∈ found := by
  obtain ⟨claimed, hquote, hany⟩ := exists_ok_of_any (show
    (blockQuote (Parser.documentCursor 64 0 0) "> a\nb\n\n".toList).toOption.any
      (·.any (·.length = 6)) = true by decide +kernel)
  obtain ⟨quote, rfl, hsize⟩ := (Option.any_eq_true _ _).1 hany
  obtain ⟨claimed, hlist, hany⟩ := exists_ok_of_any (show
    (Block.list (Parser.documentCursor 64 0 0) "- a\nb\n\n  c\n\n- d\n\n".toList).toOption.any
      (·.any (·.length = 16)) = true by decide +kernel)
  obtain ⟨claim, rfl, hlength⟩ := (Option.any_eq_true _ _).1 hany
  obtain ⟨found, hfound, -⟩ := exists_ok_of_any (show
    (Parser.blocksFrom (Parser.document []).tokenizers 0
      (Parser.blocksWithin (Parser.document []).tokenizers 64 1) 0
      "- a\nb\n\n  c\n\n- d".toList).toOption.any (fun _ => true) = true by decide +kernel)
  have hfirst : Parser.claimAt? (Parser.documentCursor 64 0 0)
      "- a\nb\n\n  c\n\n- d\n\n".toList (Parser.standardTokenizers.take 6) = .ok none := rfl
  have hclaim : Parser.claimAt? (Parser.documentCursor 64 0 0)
      "- a\nb\n\n  c\n\n- d\n\n".toList (Parser.document []).tokenizers =
        .ok (some ("list".toList, claim)) := by
    have htry : (Tokenizer.always "list" Block.list).tryConsume (Parser.documentCursor 64 0 0)
        "- a\nb\n\n  c\n\n- d\n\n".toList = .ok (some claim) :=
      hlist
    apply (Parser.claimAt?_append hfirst _).trans
    apply (@Parser.claimAt?_cons _ _ (Tokenizer.always "list" Block.list) rfl ?_ _).trans
    · rw [htry]
      rfl
    · rw [htry]
      simp
  have haccepts : Parser.Accepts (Parser.document []).tokenizers 0
      (Parser.blocksWithin (Parser.document []).tokenizers 64 1) "- a\nb\n\n  c\n\n- d".toList
      (Parser.documentCursor 64 0 0) "- a\nb\n\n  c\n\n- d\n\n".toList claim :=
    .mk .start (by decide) hclaim
  obtain ⟨list, lines, entries, nodes, -, hconserves, -, -, hspan⟩ :=
    (conserves_lines (Parser.documentCursor 64 0 0)
      "- a\nb\n\n  c\n\n- d\n\n".toList).2 claim hlist
  refine ⟨quote, claim, list, lines, entries, found, nodes, hquote, of_decide_eq_true hsize,
    (conserves_lines _ _).1 quote hquote, hlist, of_decide_eq_true hlength, hconserves, hfound, ?_⟩
  have hnode := hspan _ _ _ _ found haccepts hfound
  rw [of_decide_eq_true hlength] at hnode
  exact hnode

end Block

end DocumentLayout
