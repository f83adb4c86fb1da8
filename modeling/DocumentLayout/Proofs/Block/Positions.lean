import DocumentLayout.Proofs.Block.Levels

/-!
# Positions

A line of a text lies in the block that it starts in. Where that is a container, its content has the
line too, and there it lies in a block inside. So every line lies in one block that is no container
at most, below the containers around it.
-/

namespace DocumentLayout

namespace Parser

theorem lineStart_le_add (text : Text) (i n : Nat) : lineStart text i ≤ lineStart text (i + n) := by
  rw [lineStart_add]
  exact Nat.le_add_right _ _

theorem eq_of_lineStart_eq {text : Text} {i j : Nat} (hi : i < (linesOf text).length)
    (hj : j < (linesOf text).length) (h : lineStart text i = lineStart text j) : i = j := by
  rcases Nat.lt_trichotomy i j with hlt | heq | hlt
  · exact absurd h (lineStart_lt hlt hi).ne
  · exact heq
  · exact absurd h (lineStart_lt hlt hj).ne'

/-- A line that is not blank starts in front of the end of the text. -/
theorem lineStart_lt_byteLength {text : Text} {i : Nat} {line : Line}
    (h : (linesOf text)[i]? = some line) (hblank : line.isBlank = false) :
    lineStart text i < Text.byteLength text := by
  have hlines : linesOf text = Line.ofText (text ++ ['\n']) ++ [⟨[], true⟩] :=
    Line.ofText_append_feed text ['\n']
  have hi : i < (Line.ofText (text ++ ['\n'])).length := by
    by_contra hge
    rw [hlines, List.getElem?_append_right (Nat.not_lt.1 hge)] at h
    obtain rfl := List.mem_singleton.1 (List.mem_of_getElem? h)
    simp [Line.isBlank_empty] at hblank
  -- The line has a character besides its line feed, and only one of the two may be added.
  have hsize : 1 < line.size := by
    have hwhole := isWhole_of_mem (List.mem_of_getElem? h)
    have hne : line.text ≠ [] := by
      intro hnil
      simp [Line.isBlank, hnil, Text.isBlank] at hblank
    have hpos := Text.byteLength_pos hne
    rw [Line.size, hwhole.1, if_pos rfl]
    omega
  have htotal := Line.totalSize_ofText (text ++ ['\n'])
  have hsplit := congrArg Line.totalSize
    (List.take_append_drop (i + 1) (Line.ofText (text ++ ['\n'])))
  have hnext := lineStart_succ h
  rw [lineStart, hlines, List.take_append_of_le_length hi] at hnext
  rw [Line.totalSize_append, hnext, htotal, Text.byteLength_append] at hsplit
  rw [show Text.byteLength ['\n'] = 1 from rfl] at hsplit
  omega

end Parser

/-! ## Lines in a block -/

/-- Line `index` of a text starts within a span. -/
def Span.HoldsLine (span : Span) (text : Text) (index : Nat) : Prop :=
  span.start ≤ Parser.lineStart text index ∧ Parser.lineStart text index < span.stop

theorem Laid.pairwise {done text : Text} {nodes : List Node} (h : Laid done text nodes) :
    nodes.Pairwise fun first second => first.span.stop ≤ second.span.start := by
  induction h with
  | done => exact .nil
  | skip _ _ _ _ ih => exact ih
  | block hcovers hplaced hrest ih =>
    refine List.pairwise_cons.2 ⟨fun other hother => ?_, ih⟩
    have hle := hrest.le_start hother
    rw [hplaced.span]
    rwa [Text.byteLength_append, ← hcovers.size] at hle

/-- A line lies in one block of a text at most. -/
theorem eq_of_holdsLine {text : Text} {index : Nat} {a b : Node}
    (ha : a ∈ Parser.documentNodes text) (hb : b ∈ Parser.documentNodes text)
    (hlineA : a.span.HoldsLine text index) (hlineB : b.span.HoldsLine text index) : a = b :=
  eq_of_holds (laid_documentNodes text).pairwise ha hb
    (⟨hlineA.1, hlineA.2⟩ : a.span.Holds (Parser.lineStart text index) '\n') hlineB

namespace Placed

variable {text front rest : Text} {node : Node} {outline : Outline}

theorem stop_le (h : Placed text node front rest outline) :
    node.span.stop ≤ node.span.start + outline.length := by
  rw [h.span]
  exact Nat.add_le_add_left (Nat.min_le_left _ _) _

-- A block goes on to the end of what is claimed, or to the end of the text in front of that.
theorem lt_stop (h : Placed text node front rest outline) {offset : Nat}
    (hclaimed : offset < node.span.start + outline.length)
    (htext : offset < Text.byteLength text) : offset < node.span.stop := by
  rw [h.split, Text.byteLength_append] at htext
  rw [h.span] at hclaimed ⊢
  dsimp only at hclaimed ⊢
  omega

/-- The line behind the lines that a block claims. -/
theorem lineStart_behind (h : Placed text node front rest outline) {taken more : List Line}
    (hlines : Parser.linesOf rest = taken ++ more)
    (hlength : outline.length = Line.totalSize taken) {first : Nat}
    (hstart : node.span.start = Parser.lineStart text first) :
    Parser.lineStart text (first + taken.length) = node.span.start + outline.length := by
  rw [Parser.lineStart_add, (h.drop_eq hstart).2, hlines, List.take_left, hstart, hlength]

/-- The lines that a block claims start within it, up to the last one that is not blank. -/
theorem holdsLine (h : Placed text node front rest outline) {taken more : List Line}
    (hlines : Parser.linesOf rest = taken ++ more)
    (hlength : outline.length = Line.totalSize taken)
    (hlast : ∃ line, taken.getLast? = some line ∧ line.isBlank = false) {first i : Nat}
    (hstart : node.span.start = Parser.lineStart text first) (hi : i < taken.length) :
    node.span.HoldsLine text (first + i) := by
  obtain ⟨line, hline, hblank⟩ := hlast
  have hbehind := h.lineStart_behind hlines hlength hstart
  have hget : (Parser.linesOf text)[first + (taken.length - 1)]? = some line := by
    rw [← List.getElem?_drop, (h.drop_eq hstart).2, hlines, List.getElem?_append_left (by omega),
      ← hline, List.getLast?_eq_getElem?]
  have hend : first + (taken.length - 1) < (Parser.linesOf text).length :=
    (List.getElem?_eq_some_iff.1 hget).1
  have hlt : Parser.lineStart text (first + i) < Parser.lineStart text (first + taken.length) :=
    Parser.lineStart_lt (by omega) (by omega)
  -- The last line is not blank, so all lines up to it start in front of the end of the text.
  have hinside := Parser.lineStart_lt_byteLength hget hblank
  have hle := Parser.lineStart_le_add text (first + i) (taken.length - 1 - i)
  rw [show first + i + (taken.length - 1 - i) = first + (taken.length - 1) by omega] at hle
  exact ⟨hstart ▸ Parser.lineStart_le_add text first i,
    h.lt_stop (by omega) (by omega)⟩

end Placed

/-! ## Lines in a container -/

namespace Block

-- The line of a list that is line `i` of an item, counted from the first line of the list.
theorem position_lt (front back : List Item) {item : Item} {i : Nat}
    (hi : i < item.lines.length) :
    (front.flatMap Item.claimed).length + item.before.length + i <
      ((front ++ item :: back).flatMap Item.claimed).length := by
  simp only [List.flatMap_append, List.flatMap_cons, List.length_append, Item.claimed]
  omega

-- No line of a list belongs to two items.
theorem eq_of_position_eq {front back front' back' : List Item} {item item' : Item} {i i' : Nat}
    (hitems : front ++ item :: back = front' ++ item' :: back') (hi : i < item.lines.length)
    (hi' : i' < item'.lines.length)
    (h : (front.flatMap Item.claimed).length + item.before.length + i =
      (front'.flatMap Item.claimed).length + item'.before.length + i') :
    front = front' ∧ item = item' ∧ i = i' := by
  rcases List.append_eq_append_iff.1 hitems with ⟨between, rfl, hbetween⟩ | ⟨between, rfl, hbetween⟩
  · cases between with
    | nil =>
      obtain ⟨rfl, -⟩ := List.cons.inj hbetween
      simp only [List.append_nil] at h ⊢
      exact ⟨trivial, trivial, by omega⟩
    | cons first between =>
      obtain ⟨rfl, -⟩ := List.cons.inj hbetween
      have := position_lt front between hi
      omega
  · cases between with
    | nil =>
      obtain ⟨rfl, -⟩ := List.cons.inj hbetween
      simp only [List.append_nil] at h ⊢
      exact ⟨trivial, trivial, by omega⟩
    | cons first between =>
      obtain ⟨rfl, -⟩ := List.cons.inj hbetween
      have := position_lt front' between hi'
      omega

theorem listLines?_last {lines : List Line} {marker : Marker.ListMarker} {items : List Item}
    (h : listLines? lines = some (marker, items)) :
    ∃ line, (items.flatMap Item.claimed).getLast? = some line ∧ line.isBlank = false := by
  obtain ⟨-, hne, hstripped⟩ := listLines?_eq_some h
  obtain ⟨front, last, rfl⟩ := (List.eq_nil_or_concat' items).resolve_left hne
  obtain ⟨line, hline, hblank⟩ := (hstripped last (by simp)).last
  refine ⟨line, ?_, hblank⟩
  rw [List.flatMap_append, List.flatMap_singleton, Item.claimed, List.getLast?_append,
    List.getLast?_append, hline]
  rfl

end Block

section

variable {text : Text} {span : Span} {first index : Nat}

theorem lt_length_of_quote
    (h : index < (Block.quoteLines ((Parser.linesOf text).drop first)).length) :
    first < (Parser.linesOf text).length := by
  by_contra hge
  simp [List.drop_eq_nil_of_le (Nat.not_lt.1 hge), Block.quoteLines] at h

theorem lt_length_of_list {marker : Marker.ListMarker} {items : List Block.Item}
    (h : Block.listLines? ((Parser.linesOf text).drop first) = some (marker, items)) :
    first < (Parser.linesOf text).length := by
  by_contra hge
  simp [List.drop_eq_nil_of_le (Nat.not_lt.1 hge), Block.listLines?] at h

/-- A line of a quote starts within it. -/
theorem holdsLine_of_quote {children : List Node}
    (hnode : ⟨.blockQuote, span, children⟩ ∈ Parser.documentNodes text)
    (hstart : span.start = Parser.lineStart text first)
    (hindex : index < (Block.quoteLines ((Parser.linesOf text).drop first)).length) :
    span.HoldsLine text (first + index) := by
  obtain ⟨front, rest, outline, hplaced⟩ := exists_placed_of_mem hnode
  obtain ⟨hne, rfl⟩ := Outline.eq_quote_of_kind? hplaced.read hplaced.kind?_eq
  obtain ⟨more, hmore⟩ := Block.quoteLines_prefix (Parser.linesOf rest)
  rw [(hplaced.drop_eq hstart).2] at hindex
  exact hplaced.holdsLine hmore.symm rfl (Block.quoteLines_last hne) hstart (by simpa using hindex)

/-- A line of a list starts within it. -/
theorem holdsLine_of_list {ordered : Bool} {nodes : List Node} {marker : Marker.ListMarker}
    {items : List Block.Item} (hnode : ⟨.list ordered, span, nodes⟩ ∈ Parser.documentNodes text)
    (hstart : span.start = Parser.lineStart text first)
    (hlist : Block.listLines? ((Parser.linesOf text).drop first) = some (marker, items))
    (hindex : index < (items.flatMap Block.Item.claimed).length) :
    span.HoldsLine text (first + index) := by
  obtain ⟨front, rest, outline, hplaced⟩ := exists_placed_of_mem hnode
  obtain ⟨found, all, hall, rfl⟩ := Outline.eq_list_of_kind? hplaced.read hplaced.kind?_eq
  rw [(hplaced.drop_eq hstart).2] at hlist
  obtain ⟨rfl, rfl⟩ := Prod.mk.inj (Option.some.inj (hlist.symm.trans hall))
  obtain ⟨more, hmore⟩ := (Block.listLines?_eq_some hall).1
  exact hplaced.holdsLine hmore.symm (Outline.itemsSize_eq items) (Block.listLines?_last hall)
    hstart hindex

end

namespace Contains

variable {text : Text} {kind kind' : NodeKind} {content content' : List Text}
  {children children' : List Node} {first first' index index' : Nat}

/-- A line of the content of a container starts within it. -/
theorem exists_holdsLine (h : Contains text (Parser.documentNodes text) kind first content children)
    (hindex : index < content.length) :
    ∃ node ∈ Parser.documentNodes text, node.kind = kind ∧ kind.isContainer = true ∧
      node.span.HoldsLine text (first + index) := by
  cases h with
  | quote hnode hstart =>
    exact ⟨_, hnode, rfl, rfl, holdsLine_of_quote hnode hstart (by simpa using hindex)⟩
  | @item _ _ _ first marker front back item _ hnode hstart hlist _ =>
    have hlines := ((Block.listLines?_eq_some hlist).2.2 item (by simp)).strips.1 ▸ hindex
    have hholds := holdsLine_of_list hnode hstart hlist (Block.position_lt front back hlines)
    rw [← Nat.add_assoc, ← Nat.add_assoc] at hholds
    exact ⟨_, hnode, rfl, rfl, hholds⟩

/-- A line of the text is a line of the content of one container at most. -/
theorem eq_of_line (h : Contains text (Parser.documentNodes text) kind first content children)
    (h' : Contains text (Parser.documentNodes text) kind' first' content' children')
    (hindex : index < content.length) (hindex' : index' < content'.length)
    (hline : first + index = first' + index') :
    kind = kind' ∧ content = content' ∧ children = children' ∧ index = index' := by
  -- The line starts within both containers, so they are one and the same.
  have hkind : kind = kind' := by
    obtain ⟨a, ha, hkind, -, hholds⟩ := h.exists_holdsLine hindex
    obtain ⟨b, hb, hkind', -, hholds'⟩ := h'.exists_holdsLine hindex'
    rw [hline] at hholds
    rw [← hkind, ← hkind', eq_of_holdsLine ha hb hholds hholds']
  cases h with
  | quote hnode hstart =>
    cases h' with
    | item => simp at hkind
    | quote hnode' hstart' =>
      rw [List.length_map] at hindex hindex'
      have hholds := holdsLine_of_quote hnode hstart hindex
      have hholds' := holdsLine_of_quote hnode' hstart' hindex'
      rw [hline] at hholds
      obtain ⟨-, rfl, rfl⟩ := Node.mk.inj (eq_of_holdsLine hnode hnode' hholds hholds')
      obtain rfl := Parser.eq_of_lineStart_eq (lt_length_of_quote hindex)
        (lt_length_of_quote hindex') (hstart.symm.trans hstart')
      exact ⟨rfl, rfl, rfl, by omega⟩
  | @item _ _ _ first marker front back item _ hnode hstart hlist hitem =>
    cases h' with
    | quote => simp at hkind
    | @item _ _ _ first' marker' front' back' item' _ hnode' hstart' hlist' hitem' =>
      have hlines := ((Block.listLines?_eq_some hlist).2.2 item (by simp)).strips.1 ▸ hindex
      have hlines' := ((Block.listLines?_eq_some hlist').2.2 item' (by simp)).strips.1 ▸ hindex'
      have hholds := holdsLine_of_list hnode hstart hlist (Block.position_lt front back hlines)
      have hholds' :=
        holdsLine_of_list hnode' hstart' hlist' (Block.position_lt front' back' hlines')
      rw [← Nat.add_assoc, ← Nat.add_assoc] at hholds hholds'
      rw [hline] at hholds
      obtain ⟨-, rfl, rfl⟩ := Node.mk.inj (eq_of_holdsLine hnode hnode' hholds hholds')
      obtain rfl := Parser.eq_of_lineStart_eq (lt_length_of_list hlist) (lt_length_of_list hlist')
        (hstart.symm.trans hstart')
      obtain ⟨-, hitems⟩ := Prod.mk.inj (Option.some.inj (hlist.symm.trans hlist'))
      obtain ⟨rfl, rfl, rfl⟩ := Block.eq_of_position_eq hitems hlines hlines' (by omega)
      obtain rfl := Option.some.inj (hitem.symm.trans hitem')
      exact ⟨hkind, rfl, rfl, rfl⟩

end Contains

/-! ## Where a line lies -/

/-- Line `index` of a text lies in a block, below the containers of `path`: it starts within the
block, or it is a line of the content of a container and lies in a block inside of that. -/
inductive LiesIn : Text → List Node → List NodeKind → Node → Nat → Prop
  | here {text : Text} {nodes : List Node} {node : Node} {index : Nat} (hnode : node ∈ nodes)
      (hholds : node.span.HoldsLine text index) : LiesIn text nodes [] node index
  | inside {text : Text} {nodes children : List Node} {kind : NodeKind} {path : List NodeKind}
      {node : Node} {content : List Text} {first index : Nat}
      (hcontains : Contains text nodes kind first content children)
      (hindex : index < content.length)
      (h : LiesIn (Block.content content) children path node index) :
      LiesIn text nodes (kind :: path) node (first + index)

/-- A line lies in one block that is no container at most. -/
theorem LiesIn.unique {text : Text} {nodes : List Node} {path path' : List NodeKind}
    {node other : Node} {index : Nat} (h : LiesIn text nodes path node index)
    (hnodes : nodes = Parser.documentNodes text) (h' : LiesIn text nodes path' other index)
    (hnode : node.kind.isContainer = false) (hother : other.kind.isContainer = false) :
    path = path' ∧ node = other := by
  induction h generalizing path' with
  | @here text nodes node index hmem hholds =>
    subst hnodes
    cases h' with
    | here hmem' hholds' => exact ⟨rfl, eq_of_holdsLine hmem hmem' hholds hholds'⟩
    | inside hcontains hindex _ =>
      -- The container would hold the line, so it would be the block.
      obtain ⟨container, hmem', rfl, hkind, hholds'⟩ := hcontains.exists_holdsLine hindex
      rw [← eq_of_holdsLine hmem hmem' hholds hholds', hnode] at hkind
      simp at hkind
  | @inside text nodes children kind path node content first index hcontains hindex hinner ih =>
    subst hnodes
    generalize hline : first + index = line at h'
    cases h' with
    | here hmem hholds =>
      obtain ⟨container, hmem', rfl, hkind, hholds'⟩ := hcontains.exists_holdsLine hindex
      rw [hline] at hholds'
      rw [← eq_of_holdsLine hmem hmem' hholds hholds', hother] at hkind
      simp at hkind
    | inside hcontains' hindex' hinner' =>
      obtain ⟨rfl, rfl, rfl, rfl⟩ := hcontains.eq_of_line hcontains' hindex hindex' hline
      obtain ⟨rfl, rfl⟩ := ih hcontains.eq_documentNodes.1 hinner' hnode
      exact ⟨rfl, rfl⟩

end DocumentLayout
