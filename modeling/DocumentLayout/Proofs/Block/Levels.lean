import DocumentLayout.Proofs.Block.Cutting
import DocumentLayout.Proofs.Block.Nesting
import DocumentLayout.Proofs.Block.Tiling
import DocumentLayout.Proofs.Block.Walk

/-!
# Levels

The blocks side by side in a container are read off a text of their own: what is left of the lines
of the container without its marks. So a tree of blocks is made of levels, each the blocks of one
text, and what holds of the blocks of every text holds at any depth.
-/

namespace DocumentLayout

namespace Parser

/-! ## Lines -/

/-- The lines that are read of a text: its own, and those of the terminator behind it. -/
def linesOf (text : Text) : List Line := Line.ofText (text ++ terminator)

/-- The offset at which a line of a text starts. -/
def lineStart (text : Text) (index : Nat) : Nat := Line.totalSize ((linesOf text).take index)

theorem linesOf_ne_nil (text : Text) : linesOf text ≠ [] :=
  Line.ofText_ne_nil (by simp [terminator])

/-- Behind the end of a line the lines are those of the rest of the text. -/
theorem linesOf_append {front : Text} (h : front = [] ∨ front.getLast? = some '\n') (rest : Text) :
    linesOf (front ++ rest) = Line.ofText front ++ linesOf rest := by
  rcases h with rfl | hlast
  · rfl
  · rw [linesOf, List.append_assoc, Line.ofText_append hlast, linesOf]

theorem lineStart_add (text : Text) (i n : Nat) :
    lineStart text (i + n) =
      lineStart text i + Line.totalSize (((linesOf text).drop i).take n) := by
  rw [lineStart, lineStart, List.take_add, Line.totalSize_append]

theorem lineStart_succ {text : Text} {i : Nat} {line : Line} (h : (linesOf text)[i]? = some line) :
    lineStart text (i + 1) = lineStart text i + line.size := by
  rw [lineStart, lineStart, List.take_add_one, h, Line.totalSize_append]
  rfl

theorem lineStart_lt {text : Text} {i j : Nat} (h : i < j) (hi : i < (linesOf text).length) :
    lineStart text i < lineStart text j := by
  obtain ⟨line, hline⟩ : ∃ line, (linesOf text)[i]? = some line := ⟨_, List.getElem?_eq_getElem hi⟩
  have hpos := Line.size_pos (isWhole_of_mem (List.mem_of_getElem? hline))
  obtain ⟨n, rfl⟩ := Nat.exists_eq_add_of_le (show i + 1 ≤ j from h)
  rw [lineStart_add, lineStart_succ hline]
  omega

/-- A block that starts behind `front` starts on the line behind those of `front`. -/
theorem eq_of_lineStart {front rest : Text} {index : Nat}
    (hfront : front = [] ∨ front.getLast? = some '\n')
    (h : lineStart (front ++ rest) index = Text.byteLength front) :
    index = (Line.ofText front).length ∧ (linesOf (front ++ rest)).drop index = linesOf rest := by
  have hlines := linesOf_append hfront rest
  have hstart : lineStart (front ++ rest) (Line.ofText front).length = Text.byteLength front := by
    rw [lineStart, hlines, List.take_left, Line.totalSize_ofText]
  have hlength : (Line.ofText front).length < (linesOf (front ++ rest)).length := by
    have hpos := List.length_pos_of_ne_nil (linesOf_ne_nil rest)
    rw [hlines, List.length_append]
    omega
  -- Lines that start at different places are different lines.
  have hindex : index = (Line.ofText front).length := by
    rcases Nat.lt_trichotomy index (Line.ofText front).length with hlt | heq | hlt
    · have := lineStart_lt hlt (hlt.trans hlength)
      omega
    · exact heq
    · have := lineStart_lt hlt hlength
      omega
  exact ⟨hindex, by rw [hindex, hlines, List.drop_left]⟩

end Parser

/-! ## Blocks in place -/

/-- A block of a text: the text in front of it, the text from its start on, and its outline. -/
structure Placed (text : Text) (node : Node) (front rest : Text) (outline : Outline) : Prop where
  split : text = front ++ rest
  line : front = [] ∨ front.getLast? = some '\n'
  read : Outline.read? (rest ++ Parser.terminator) = some outline
  span : node.span = ⟨Text.byteLength front,
    Text.byteLength front + min outline.length (Text.byteLength rest)⟩
  block : outline.block? (Text.byteLength front) (outline.contents.map Parser.documentNodes) =
    some (node.kind, node.children)

/-- The blocks of the text `text` behind `done`, from one outline to the next. -/
inductive Laid : Text → Text → List Node → Prop
  | done (done : Text) : Laid done [] []
  | skip {done text front back : Text} {outline : Outline} {nodes : List Node}
      (hread : Outline.read? (text ++ Parser.terminator) = some outline)
      (hcovers : outline.Covers text front back) (hkind : outline.kind? = none)
      (hrest : Laid (done ++ front) back nodes) : Laid done text nodes
  | block {done text front back : Text} {outline : Outline} {node : Node} {nodes : List Node}
      (hcovers : outline.Covers text front back)
      (hplaced : Placed (done ++ text) node done text outline)
      (hrest : Laid (done ++ front) back nodes) : Laid done text (node :: nodes)

theorem Pieces.laid {offset : Nat} {text : Text} {pieces : List Piece}
    (h : Pieces offset text pieces) {done : Text}
    (hdone : text ≠ [] → Text.byteLength done = offset) (hresume : Resumes done text) :
    Laid done text (pieces.flatMap Piece.unlimitedNodes) := by
  induction h generalizing done with
  | done => exact .done done
  | @step offset text outline pieces hne hread _ ih =>
    obtain ⟨front, back, hcovers⟩ := Outline.exists_covers hne hread
    rw [hcovers.after] at ih
    have hrest := ih (fun hback => by
      rw [Text.byteLength_append, hdone hne, hcovers.length_eq hback]) (hcovers.resumes done)
    rw [List.flatMap_cons, Piece.unlimitedNodes]
    rcases Piece.nodes_cases ⟨offset, Text.byteLength text, outline⟩
        (outline.contents.map Parser.documentNodes) with
      ⟨hkind, hnodes⟩ | ⟨kind, children, hkind, hblock, hnodes⟩
    · rw [hnodes]
      exact .skip hread hcovers hkind hrest
    · rw [hnodes]
      refine .block hcovers ?_ hrest
      exact {
        split := rfl
        line := hresume.startsLine hne hread hkind
        read := hread
        span := by rw [hdone hne]; rfl
        block := by rw [hdone hne]; exact hblock }

theorem laid_documentNodes (text : Text) : Laid [] text (Parser.documentNodes text) := by
  obtain ⟨pieces, hpieces⟩ := Pieces.exists_pieces 0 text
  rw [hpieces.documentNodes_eq]
  exact hpieces.laid (fun _ => rfl) (.inl rfl)

namespace Laid

theorem exists_placed {done text : Text} {nodes : List Node} (h : Laid done text nodes)
    {node : Node} (hnode : node ∈ nodes) :
    ∃ front rest outline, Placed (done ++ text) node (done ++ front) rest outline := by
  induction h with
  | done => simp at hnode
  | skip hread hcovers hkind hrest ih =>
    obtain ⟨front, rest, outline, hplaced⟩ := ih hnode
    rw [List.append_assoc, ← hcovers.split, List.append_assoc] at hplaced
    exact ⟨_, rest, outline, hplaced⟩
  | block hcovers hplaced hrest ih =>
    rcases List.mem_cons.1 hnode with rfl | hnode
    · exact ⟨[], _, _, by rwa [List.append_nil]⟩
    · obtain ⟨front, rest, outline, hplaced⟩ := ih hnode
      rw [List.append_assoc, ← hcovers.split, List.append_assoc] at hplaced
      exact ⟨_, rest, outline, hplaced⟩

theorem le_start {done text : Text} {nodes : List Node} (h : Laid done text nodes) {node : Node}
    (hnode : node ∈ nodes) : Text.byteLength done ≤ node.span.start := by
  obtain ⟨front, rest, outline, hplaced⟩ := h.exists_placed hnode
  rw [hplaced.span, Text.byteLength_append]
  exact Nat.le_add_right _ _

/-- Directly behind a block stands the next one, or else something that makes no block. -/
theorem exists_next {done text : Text} {before after : List Node} {a b : Node}
    (h : Laid done text (before ++ a :: b :: after)) :
    ∃ front rest outline covered back, Placed (done ++ text) a front rest outline ∧
      outline.Covers rest covered back ∧
      ((∃ next, Placed (done ++ text) b (front ++ covered) back next) ∨
        a.span.stop < b.span.start ∧ ∃ skipped,
          Outline.read? (back ++ Parser.terminator) = some skipped ∧ skipped.kind? = none) := by
  generalize hnodes : before ++ a :: b :: after = nodes at h
  induction h generalizing before with
  | done => simp at hnodes
  | @skip done text front back outline nodes hread hcovers hkind hrest ih =>
    have hnext := ih hnodes
    rwa [List.append_assoc, ← hcovers.split] at hnext
  | @block done text front back outline node nodes hcovers hplaced hrest ih =>
    cases before with
    | cons first before =>
      obtain ⟨rfl, rfl⟩ := List.cons.inj hnodes
      have hnext := ih rfl
      rwa [List.append_assoc, ← hcovers.split] at hnext
    | nil =>
      obtain ⟨rfl, rfl⟩ := List.cons.inj hnodes
      refine ⟨done, text, outline, front, back, hplaced, hcovers, ?_⟩
      cases hrest with
      | block _ hnext _ =>
        rw [List.append_assoc, ← hcovers.split] at hnext
        exact .inl ⟨_, hnext⟩
      | skip hread hskips hkind hrest =>
        refine .inr ⟨?_, _, hread, hkind⟩
        have hpos := Text.byteLength_pos hskips.nonempty
        have hstart := hrest.le_start (List.mem_cons_self ..)
        rw [Text.byteLength_append, Text.byteLength_append] at hstart
        rw [hplaced.span, hcovers.size]
        dsimp only
        omega

end Laid

theorem exists_placed_of_mem {text : Text} {node : Node} (h : node ∈ Parser.documentNodes text) :
    ∃ front rest outline, Placed text node front rest outline :=
  (laid_documentNodes text).exists_placed h

/-! ## Containers in place -/

namespace Outline

-- A leaf makes no block, or one without blocks inside it that is no container.
theorem leaf_cases {text : Text} {claim : Claim} (h : read? text = some (leaf claim)) :
    claim.block = none ∨ ∃ kind, kind.isContainer = false ∧ claim.block = some (kind, []) := by
  rcases read?_cases h with
    ⟨found, hfound, hlines⟩ | ⟨found, hfound, hstatement⟩ | ⟨-, hquote⟩ | ⟨_, _, -, hlist⟩
  · obtain rfl := leaf.inj hfound
    obtain ⟨taken, -, -, -, ⟨hnone, -⟩ | ⟨kind, hplain, hsome⟩⟩ := hlines
    · exact .inl hnone
    · exact .inr ⟨kind, NodeKind.not_isContainer_of_isPlain hplain, hsome⟩
  · obtain rfl := leaf.inj hfound
    obtain ⟨block, rest, rfl, -, -⟩ := Block.statement_eq_some hstatement
    exact .inr ⟨_, rfl, rfl⟩
  · simp at hquote
  · simp at hlist

theorem kind?_leaf_isContainer {text : Text} {claim : Claim} (h : read? text = some (leaf claim))
    {kind : NodeKind} (hkind : (leaf claim).kind? = some kind) : kind.isContainer = false := by
  rcases leaf_cases h with hnone | ⟨found, hcontainer, hsome⟩
  · simp [kind?, hnone] at hkind
  · obtain rfl : found = kind := by simpa [kind?, hsome] using hkind
    exact hcontainer

/-- The outline of a quote. -/
theorem eq_quote_of_kind? {text : Text} {outline : Outline} (h : read? text = some outline)
    (hkind : outline.kind? = some .blockQuote) :
    Block.quoteLines (Line.ofText text) ≠ [] ∧
      outline = quote (Block.quoteLines (Line.ofText text)) := by
  cases outline with
  | leaf claim => exact absurd (kind?_leaf_isContainer h hkind) (by simp [NodeKind.isContainer])
  | list marker items => simp [kind?] at hkind
  | quote claimed =>
    rcases read?_cases h with ⟨_, hleaf, -⟩ | ⟨_, hleaf, -⟩ | hquote | ⟨_, _, -, hlist⟩
    · simp at hleaf
    · simp at hleaf
    · exact hquote
    · simp at hlist

/-- The outline of a list. -/
theorem eq_list_of_kind? {text : Text} {outline : Outline} {ordered : Bool}
    (h : read? text = some outline) (hkind : outline.kind? = some (.list ordered)) :
    ∃ marker items, Block.listLines? (Line.ofText text) = some (marker, items) ∧
      outline = list marker items := by
  cases outline with
  | leaf claim => exact absurd (kind?_leaf_isContainer h hkind) (by simp [NodeKind.isContainer])
  | quote claimed => simp [kind?] at hkind
  | list marker items =>
    rcases read?_cases h with ⟨_, hleaf, -⟩ | ⟨_, hleaf, -⟩ | ⟨-, hquote⟩ | hlist
    · simp at hleaf
    · simp at hleaf
    · simp at hquote
    · exact hlist

-- Each item has its node at the same place, with the blocks of its content.
theorem exists_of_placeItems_getElem? {start i : Nat} {items : List Block.Item}
    {parts : List (List Node)} {node : Node} (h : (placeItems start items parts)[i]? = some node) :
    node.kind = .listItem ∧ parts[i]? = some node.children ∧ ∃ item, items[i]? = some item := by
  induction items generalizing start parts i with
  | nil => simp [placeItems] at h
  | cons item items ih =>
    cases parts with
    | nil => simp [placeItems] at h
    | cons children parts =>
      cases i with
      | zero =>
        obtain rfl := Option.some.inj h
        exact ⟨rfl, rfl, item, rfl⟩
      | succ i => exact ih h

end Outline

/-- A container among the blocks of a text: its kind, the line of the text that its first line of
content comes from, its lines of content, and the blocks in it. -/
inductive Contains (text : Text) (nodes : List Node) :
    NodeKind → Nat → List Text → List Node → Prop
  | quote {span : Span} {children : List Node} {first : Nat}
      (hnode : ⟨.blockQuote, span, children⟩ ∈ nodes)
      (hstart : span.start = Parser.lineStart text first) :
      Contains text nodes .blockQuote first
        ((Block.quoteLines ((Parser.linesOf text).drop first)).map (·.2)) children
  | item {ordered : Bool} {span : Span} {items : List Node} {first : Nat}
      {marker : Marker.ListMarker} {front back : List Block.Item} {item : Block.Item} {node : Node}
      (hnode : ⟨.list ordered, span, items⟩ ∈ nodes)
      (hstart : span.start = Parser.lineStart text first)
      (hlines : Block.listLines? ((Parser.linesOf text).drop first) =
        some (marker, front ++ item :: back))
      (hitem : items[front.length]? = some node) :
      Contains text nodes (.list ordered)
        (first + (front.flatMap Block.Item.claimed).length + item.before.length)
        item.content node.children

/-- The blocks side by side anywhere in a text, and the text that they are read off. -/
inductive Level (text : Text) (nodes : List Node) : Text → List Node → Prop
  | top : Level text nodes text nodes
  | inside {source : Text} {siblings : List Node} {kind : NodeKind} {first : Nat}
      {content : List Text} {children : List Node} (h : Level text nodes source siblings)
      (hcontains : Contains source siblings kind first content children) :
      Level text nodes (Block.content content) children

namespace Placed

variable {text front rest : Text} {node : Node} {outline : Outline}

theorem kind?_eq (h : Placed text node front rest outline) : outline.kind? = some node.kind := by
  rw [← outline.block?_map_fst (Text.byteLength front) (outline.contents.map Parser.documentNodes),
    h.block]
  rfl

/-- The line of the text that a block starts on, and the lines from there on. -/
theorem drop_eq (h : Placed text node front rest outline) {first : Nat}
    (hstart : node.span.start = Parser.lineStart text first) :
    first = (Line.ofText front).length ∧
      (Parser.linesOf text).drop first = Parser.linesOf rest := by
  obtain rfl := h.split
  refine Parser.eq_of_lineStart h.line ?_
  rw [← hstart, h.span]

theorem lineStart_eq (h : Placed text node front rest outline) :
    node.span.start = Parser.lineStart text (Line.ofText front).length := by
  rw [h.span, h.split, Parser.lineStart, Parser.linesOf_append h.line, List.take_left,
    Line.totalSize_ofText]

theorem length_lt (h : Placed text node front rest outline) {content : Text}
    (hcontent : content ∈ outline.contents) : content.length < text.length := by
  have hlt := Outline.length_lt_of_mem_contents h.read hcontent
  rw [h.split, List.length_append]
  omega

end Placed

/-- The blocks in a container are those of the text of its content, which is shorter. -/
theorem Contains.eq_documentNodes {text : Text} {kind : NodeKind} {first : Nat}
    {content : List Text} {children : List Node}
    (h : Contains text (Parser.documentNodes text) kind first content children) :
    children = Parser.documentNodes (Block.content content) ∧
      (Block.content content).length < text.length := by
  cases h with
  | @quote span _ first hnode hstart =>
    obtain ⟨front, rest, outline, hplaced⟩ := exists_placed_of_mem hnode
    obtain ⟨-, hlines⟩ := hplaced.drop_eq hstart
    obtain ⟨-, rfl⟩ := Outline.eq_quote_of_kind? hplaced.read hplaced.kind?_eq
    rw [hlines]
    refine ⟨?_, hplaced.length_lt (List.mem_singleton_self _)⟩
    obtain ⟨-, hchildren⟩ := Prod.mk.inj (Option.some.inj hplaced.block)
    exact hchildren.symm.trans (List.append_nil _)
  | @item ordered span items first marker front back item node hnode hstart hlist hitem =>
    obtain ⟨before, rest, outline, hplaced⟩ := exists_placed_of_mem hnode
    obtain ⟨-, hlines⟩ := hplaced.drop_eq hstart
    obtain ⟨found, all, hall, rfl⟩ := Outline.eq_list_of_kind? hplaced.read hplaced.kind?_eq
    rw [hlines] at hlist
    obtain ⟨rfl, rfl⟩ := Prod.mk.inj (Option.some.inj (hlist.symm.trans hall))
    have hmem : item ∈ front ++ item :: back := by simp
    refine ⟨?_, hplaced.length_lt (List.mem_map.2 ⟨item, hmem, rfl⟩)⟩
    obtain ⟨-, hitems⟩ := Prod.mk.inj (Option.some.inj hplaced.block)
    rw [show items = _ from hitems.symm] at hitem
    obtain ⟨-, hparts, -⟩ := Outline.exists_of_placeItems_getElem? hitem
    simpa [Outline.contents] using hparts.symm

namespace Level

/-- On every level of a text stand the blocks of a text. -/
theorem eq_documentNodes {text source : Text} {siblings : List Node}
    (h : Level text (Parser.documentNodes text) source siblings) :
    siblings = Parser.documentNodes source := by
  induction h with
  | top => rfl
  | inside _ hcontains ih =>
    subst ih
    exact hcontains.eq_documentNodes.1

theorem trans {text source inner : Text} {nodes siblings children : List Node}
    (h : Level text nodes source siblings) (hinner : Level source siblings inner children) :
    Level text nodes inner children := by
  induction hinner with
  | top => exact h
  | inside _ hcontains ih => exact .inside ih hcontains

end Level

/-! ## Every level -/

/-- What a walk meets below some nodes. -/
theorem Node.mem_walk {nodes : List Node} {node : Node} (h : node ∈ walk nodes) :
    ∃ top ∈ nodes, node = top ∨ node ∈ walk top.children := by
  induction nodes with
  | nil => simp [walk] at h
  | cons top nodes ih =>
    obtain ⟨kind, span, children⟩ := top
    rw [walk, walk_append, List.mem_cons, List.mem_append] at h
    rcases h with rfl | h | h
    · exact ⟨_, List.mem_cons_self .., .inl rfl⟩
    · exact ⟨_, List.mem_cons_self .., .inr h⟩
    · obtain ⟨other, hother, hnode⟩ := ih h
      exact ⟨other, List.mem_cons_of_mem _ hother, hnode⟩

/-- The blocks in a block of a text: there are none, they are those of a container, or items of a
list, the blocks in which are those of a container. -/
theorem exists_contains {text : Text} {node : Node} (h : node ∈ Parser.documentNodes text) :
    node.children = [] ∨
      (∃ first content,
        Contains text (Parser.documentNodes text) node.kind first content node.children) ∨
      ∀ item ∈ node.children, item.kind = .listItem ∧ ∃ first content,
        Contains text (Parser.documentNodes text) node.kind first content item.children := by
  obtain ⟨front, rest, outline, hplaced⟩ := exists_placed_of_mem h
  have hstart := hplaced.lineStart_eq
  obtain ⟨-, hlines⟩ := hplaced.drop_eq hstart
  obtain ⟨kind, span, children⟩ := node
  cases outline with
  | leaf claim =>
    rcases Outline.leaf_cases hplaced.read with hnone | ⟨_, -, hsome⟩
    · exact absurd (hnone.symm.trans hplaced.block) nofun
    · exact .inl (Prod.mk.inj (Option.some.inj (hsome.symm.trans hplaced.block))).2.symm
  | quote claimed =>
    obtain ⟨rfl, -⟩ := Prod.mk.inj (Option.some.inj hplaced.block)
    exact .inr (.inl ⟨_, _, .quote h hstart⟩)
  | list marker items =>
    obtain ⟨rfl, hitems⟩ := Prod.mk.inj (Option.some.inj hplaced.block)
    obtain ⟨marker', items', hlist, heq⟩ :=
      Outline.eq_list_of_kind? hplaced.read hplaced.kind?_eq
    obtain ⟨rfl, rfl⟩ := Outline.list.inj heq
    refine .inr (.inr fun child hchild => ?_)
    obtain ⟨i, hi⟩ := List.getElem?_of_mem hchild
    rw [show children = _ from hitems.symm] at hi
    obtain ⟨hkind, -, item, hitem⟩ := Outline.exists_of_placeItems_getElem? hi
    rw [show _ = children from hitems] at hi
    -- The items in front of this one, and those behind it.
    obtain ⟨hlt, rfl⟩ := List.getElem?_eq_some_iff.1 hitem
    have hsplit : items = items.take i ++ items[i] :: items.drop (i + 1) := by
      rw [← List.drop_eq_getElem_cons hlt, List.take_append_drop]
    have hlength : (items.take i).length = i := List.length_take_of_le hlt.le
    have hfound : Block.listLines? ((Parser.linesOf text).drop (Line.ofText front).length) =
        some (marker, items.take i ++ items[i] :: items.drop (i + 1)) := by
      rw [← hsplit, hlines]
      exact hlist
    rw [← hlength] at hi
    exact ⟨hkind, _, _, .item h hstart hfound hi⟩

/-- Whatever blocks stand side by side in a text, at whatever depth, are the blocks of a level or
the items of a list. -/
theorem exists_level {text : Text} {parent : Node}
    (h : parent ∈ Node.walk (Parser.documentNodes text)) :
    parent.children = [] ∨ (∀ child ∈ parent.children, child.kind = .listItem) ∨
      ∃ source, Level text (Parser.documentNodes text) source parent.children := by
  -- By induction on the length, since the text of a container is shorter.
  induction hn : text.length using Nat.strong_induction_on generalizing text with
  | h n ih =>
    have below {kind : NodeKind} {first : Nat} {content : List Text} {children : List Node}
        (hcontains : Contains text (Parser.documentNodes text) kind first content children)
        (hparent : parent ∈ Node.walk children) :
        parent.children = [] ∨ (∀ child ∈ parent.children, child.kind = .listItem) ∨
          ∃ source, Level text (Parser.documentNodes text) source parent.children := by
      obtain ⟨rfl, hlt⟩ := hcontains.eq_documentNodes
      refine (ih _ (hn ▸ hlt) hparent rfl).imp_right (.imp_right ?_)
      exact fun ⟨source, hlevel⟩ => ⟨source, Level.trans (.inside .top hcontains) hlevel⟩
    obtain ⟨top, htop, hparent⟩ := Node.mem_walk h
    rcases exists_contains htop with hnil | ⟨first, content, hcontains⟩ | hitems
    · rcases hparent with rfl | hparent
      · exact .inl hnil
      · simp [hnil, Node.walk] at hparent
    · rcases hparent with rfl | hparent
      · exact .inr (.inr ⟨_, .inside .top hcontains⟩)
      · exact below hcontains hparent
    · rcases hparent with rfl | hparent
      · exact .inr (.inl fun child hchild => (hitems child hchild).1)
      · obtain ⟨item, hitem, hparent⟩ := Node.mem_walk hparent
        obtain ⟨-, first, content, hcontains⟩ := hitems item hitem
        rcases hparent with rfl | hparent
        · exact .inr (.inr ⟨_, .inside .top hcontains⟩)
        · exact below hcontains hparent

end DocumentLayout
