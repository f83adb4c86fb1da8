import DocumentLayout.Proofs.Block.Nesting
import Mathlib.Data.List.TakeWhile

/-!
# Resumption

Behind a claim the parser starts afresh: what it finds there are the nodes or the error of the text
that is left as a document of its own, moved on by what was claimed. A line feed in front of a text
moves its nodes on and does nothing else.
-/

namespace DocumentLayout

/-! ## Moving nodes -/

namespace Node

/-- A node at a span that lies `n` bytes further on. -/
def moveSpan (n : Nat) : Node → Node
  | mk kind span children => mk kind (span.shift n) children

/-- The children of a node that moves on. The items of a list move with it; the children of any
other node lie in a text of their own. -/
def moveChildren (n : Nat) (kind : NodeKind) (children : List Node) : List Node :=
  match kind with
  | .list _ => children.map (moveSpan n)
  | _ => children

/-- A node `n` bytes further on in the same text. -/
def moved (n : Nat) : Node → Node
  | mk kind span children => mk kind (span.shift n) (moveChildren n kind children)

theorem moveSpan_moveSpan (m n : Nat) (node : Node) :
    moveSpan n (moveSpan m node) = moveSpan (m + n) node := by
  cases node
  simp [moveSpan, Span.shift, Nat.add_assoc]

theorem moved_moved (m n : Nat) (node : Node) : moved n (moved m node) = moved (m + n) node := by
  obtain ⟨kind, span, children⟩ := node
  cases kind <;>
    simp [moved, moveChildren, Span.shift, Nat.add_assoc, Function.comp_def, moveSpan_moveSpan]

theorem map_moved_map_moved (m n : Nat) (nodes : List Node) :
    (nodes.map (moved m)).map (moved n) = nodes.map (moved (m + n)) := by
  rw [List.map_map]
  exact List.map_congr_left fun node _ => moved_moved m n node

theorem moveSpan_zero (node : Node) : moveSpan 0 node = node := by
  cases node
  rfl

theorem moved_zero (node : Node) : moved 0 node = node := by
  obtain ⟨kind, span, children⟩ := node
  cases kind <;> simp [moved, moveChildren, Span.shift, funext moveSpan_zero]

theorem levelsAll_map {f : Node → Node} (h : ∀ node, (f node).levels = node.levels)
    (nodes : List Node) : levelsAll (nodes.map f) = levelsAll nodes := by
  induction nodes with
  | nil => rfl
  | cons node nodes ih => rw [List.map_cons, levelsAll, levelsAll, h, ih]

theorem levels_moveSpan (n : Nat) (node : Node) : (moveSpan n node).levels = node.levels := by
  cases node
  rfl

theorem levels_moved (n : Nat) (node : Node) : (moved n node).levels = node.levels := by
  obtain ⟨kind, span, children⟩ := node
  have hchildren : levelsAll (moveChildren n kind children) = levelsAll children := by
    unfold moveChildren
    split
    · exact levelsAll_map (levels_moveSpan n) children
    · rfl
  rw [moved, levels, levels, hchildren]

end Node

/-! ## Moving results -/

namespace Error

/-- The error of a document when the text that fails starts `n` bytes further on. -/
def moved (n : Nat) : Error → Error
  | .parse offset fault => .parse (offset + n) fault
  | other => other

theorem moved_moved (m n : Nat) (error : Error) :
    moved n (moved m error) = moved (m + n) error := by
  cases error <;> simp [moved, Nat.add_assoc]

theorem moved_zero (error : Error) : moved 0 error = error := by
  cases error <;> rfl

theorem moved_within (offset n : Nat) (error : Error) :
    moved n (within offset error) = within (offset + n) error := by
  cases error <;> rfl

end Error

namespace Parser

/-- The nodes or the error of a text that starts `n` bytes further on. -/
def moved (n : Nat) (result : Except Error (List Node)) : Except Error (List Node) :=
  (result.map (List.map (Node.moved n))).mapError (.moved n)

theorem moved_moved (m n : Nat) (result : Except Error (List Node)) :
    moved n (moved m result) = moved (m + n) result := by
  cases result with
  | error error => exact congrArg Except.error (Error.moved_moved m n error)
  | ok nodes => exact congrArg Except.ok (Node.map_moved_map_moved m n nodes)

theorem moved_zero (result : Except Error (List Node)) : moved 0 result = result := by
  cases result with
  | error error => exact congrArg Except.error (Error.moved_zero error)
  | ok nodes =>
    rw [moved, show Node.moved 0 = id from funext Node.moved_zero]
    exact congrArg Except.ok (List.map_id nodes)

end Parser

/-! ## Moving pieces -/

namespace Outline

theorem placeItems_add (start n : Nat) (items : List Block.Item) (parts : List (List Node)) :
    placeItems (start + n) items parts = (placeItems start items parts).map (Node.moveSpan n) := by
  induction items generalizing start parts with
  | nil => rfl
  | cons item items ih =>
    cases parts with
    | nil => rfl
    | cons children parts =>
      have hfirst : start + n + Line.totalSize item.before =
          start + Line.totalSize item.before + n := by omega
      have hstop : start + Line.totalSize item.before + n + Line.totalSize item.lines =
          start + Line.totalSize item.before + Line.totalSize item.lines + n := by omega
      rw [placeItems, placeItems, List.map_cons, hfirst, hstop, ih]
      rfl

/-- An outline makes the same block anywhere, with its items moved on. -/
theorem block?_add {text : Text} {outline : Outline}
    (h : read? (text ++ Parser.terminator) = some outline) (offset n : Nat)
    (parts : List (List Node)) :
    outline.block? (offset + n) parts =
      (outline.block? offset parts).map fun (kind, children) =>
        (kind, Node.moveChildren n kind children) := by
  rcases read?_cases h with
    ⟨claim, rfl, hlines⟩ | ⟨claim, rfl, hstatement⟩ | ⟨-, rfl⟩ | ⟨marker, items, -, rfl⟩
  · obtain ⟨taken, -, -, -, ⟨hnone, -⟩ | ⟨kind, -, hsome⟩⟩ := hlines
    · simp [block?, hnone]
    · -- A block of lines has no children that could move.
      cases kind <;> simp [block?, hsome, Node.moveChildren]
  · obtain ⟨block, rest, rfl, -, -⟩ := Block.statement_eq_some hstatement
    rfl
  · rfl
  · rw [block?, block?, placeItems_add]
    rfl

end Outline

namespace Piece

/-- A piece `n` bytes further on. -/
def move (n : Nat) (piece : Piece) : Piece := { piece with offset := piece.offset + n }

theorem nodes_move {text : Text} {piece : Piece}
    (h : Outline.read? (text ++ Parser.terminator) = some piece.outline) (n : Nat)
    (parts : List (List Node)) :
    (piece.move n).nodes parts = (piece.nodes parts).map (Node.moved n) := by
  have hblock := Outline.block?_add h piece.offset n parts
  simp only [nodes, move, Outline.claim, Parser.place, hblock]
  cases piece.outline.block? piece.offset parts with
  | none => rfl
  | some block =>
    have hstop : piece.offset + n + min piece.outline.length piece.left =
        piece.offset + min piece.outline.length piece.left + n := by omega
    simp only [Option.map_some, List.map_cons, List.map_nil, Node.moved, Span.shift, hstop]

/-- A piece parses to the same anywhere, moved on. -/
theorem parse_move {text : Text} {piece : Piece}
    (h : Outline.read? (text ++ Parser.terminator) = some piece.outline) (n : Nat)
    (nested : Text → Except Error (List Node)) :
    (piece.move n).parse nested = Parser.moved n (piece.parse nested) := by
  have hnested : ∀ content, (nested content).mapError (Error.within (piece.offset + n)) =
      ((nested content).mapError (.within piece.offset)).mapError (.moved n) := by
    intro content
    cases nested content with
    | error error => exact congrArg Except.error (Error.moved_within piece.offset n error).symm
    | ok nodes => rfl
  unfold parse
  dsimp only [move]
  rw [mapM_congr fun content _ => hnested content, mapM_mapError]
  cases piece.outline.contents.mapM fun content =>
      (nested content).mapError (Error.within piece.offset) with
  | error error => rfl
  | ok parts => exact congrArg Except.ok (nodes_move h n parts)

end Piece

/-! ## Resuming -/

namespace Parser

section

variable (depth : Nat) (nested : Text → Except Error (List Node))

-- A text parses to its first outline and what is left behind it.
theorem blocksFrom_eq_bind {text : Text} {outline : Outline} (hne : text ≠ [])
    (hread : Outline.read? (text ++ terminator) = some outline) (offset : Nat) :
    blocksFrom (document []).tokenizers depth nested offset text =
      (Piece.parse nested ⟨offset, Text.byteLength text, outline⟩).bind fun nodes =>
        (blocksFrom (document []).tokenizers depth nested (offset + outline.length)
          (after outline.length text)).map (nodes ++ ·) := by
  obtain ⟨pieces, hpieces⟩ :=
    Pieces.exists_pieces (offset + outline.length) (after outline.length text)
  rw [(Pieces.step hne hread hpieces).blocksFrom_eq, hpieces.blocksFrom_eq, List.mapM_cons]
  cases Piece.parse nested ⟨offset, Text.byteLength text, outline⟩ with
  | error error => rfl
  | ok nodes => cases pieces.mapM (Piece.parse nested) <;> rfl

/-- A text that starts further on parses to the same, moved on. -/
theorem blocksFrom_add (offset n : Nat) (text : Text) :
    blocksFrom (document []).tokenizers depth nested (offset + n) text =
      moved n (blocksFrom (document []).tokenizers depth nested offset text) := by
  -- By induction on the length, with what is left behind the first outline.
  induction hlength : text.length using Nat.strong_induction_on generalizing offset text with
  | h length ih =>
    by_cases hne : text = []
    · subst hne
      simp [blocksFrom, moved, Except.map, Except.mapError]
    · obtain ⟨outline, hread⟩ := @Outline.exists_read? (text ++ terminator) (by simp [hne])
      have hlt := Outline.length_after_lt hne hread
      have hfirst := @Piece.parse_move text ⟨offset, Text.byteLength text, outline⟩ hread n nested
      rw [blocksFrom_eq_bind depth nested hne hread, blocksFrom_eq_bind depth nested hne hread,
        Nat.add_right_comm, ih _ (by omega) _ _ rfl,
        show Piece.mk (offset + n) _ outline = Piece.move n ⟨offset, _, outline⟩ from rfl, hfirst]
      cases Piece.parse nested ⟨offset, Text.byteLength text, outline⟩ with
      | error error => rfl
      | ok nodes =>
        cases blocksFrom (document []).tokenizers depth nested (offset + outline.length)
            (after outline.length text) with
        | error error => rfl
        | ok rest => exact congrArg Except.ok List.map_append.symm

/-- Behind its first outline a text parses as a text of its own, moved on. -/
theorem blocksFrom_eq_append {text : Text} {outline : Outline} (hne : text ≠ [])
    (hread : Outline.read? (text ++ terminator) = some outline) :
    blocksFrom (document []).tokenizers depth nested 0 text =
      (Piece.parse nested ⟨0, Text.byteLength text, outline⟩).bind fun nodes =>
        (moved outline.length (blocksFrom (document []).tokenizers depth nested 0
          (after outline.length text))).map (nodes ++ ·) := by
  rw [blocksFrom_eq_bind depth nested hne hread, blocksFrom_add]

/-- A text parses as what is left behind the blank lines that it starts with. -/
theorem blocksFrom_after_blank (text : Text) {n : Nat}
    (hn : n = Line.totalSize ((Line.ofText (text ++ terminator)).takeWhile Line.isBlank)) :
    blocksFrom (document []).tokenizers depth nested 0 text =
      moved n (blocksFrom (document []).tokenizers depth nested 0 (after n text)) := by
  by_cases hne : text = []
  · subst hne
    rw [show after n [] = [] from by cases n <;> rfl]
    simp [blocksFrom, moved, Except.map, Except.mapError]
  · obtain ⟨line, lines, hlines⟩ := List.exists_cons_of_ne_nil
      (@Line.ofText_ne_nil (text ++ terminator) (by simp [hne]))
    cases hblank : line.isBlank with
    | true =>
      have hread := Outline.read?_of_isBlank hlines hblank
      rw [← hn] at hread
      rw [blocksFrom_eq_append depth nested hne hread]
      -- The blank lines make no node.
      show (moved n (blocksFrom (document []).tokenizers depth nested 0 (after n text))).map
        ([] ++ ·) = _
      cases moved n (blocksFrom (document []).tokenizers depth nested 0 (after n text)) <;> rfl
    | false =>
      -- Nothing blank stands in front, and nodes stay where they are.
      obtain rfl : n = 0 := by rw [hn, hlines, List.takeWhile_cons, hblank]; rfl
      rw [show after 0 text = text by simp [after, Text.dropBytes?], moved_zero]

/-- Blank lines in front of a text move it on. -/
theorem blocksFrom_blank {blank : List Line}
    (h : ∀ line ∈ blank, line.IsWhole ∧ line.isBlank = true) (text : Text) :
    blocksFrom (document []).tokenizers depth nested 0 (Line.toText blank ++ text) =
      moved (Line.totalSize blank)
        (blocksFrom (document []).tokenizers depth nested 0 text) := by
  have hlines : Line.ofText (Line.toText blank ++ text ++ terminator) =
      blank ++ Line.ofText (text ++ terminator) := by
    rw [List.append_assoc, Line.ofText_toText_append fun line hline => (h line hline).1]
  obtain ⟨n, hn⟩ : ∃ n,
      n = Line.totalSize ((Line.ofText (text ++ terminator)).takeWhile Line.isBlank) := ⟨_, rfl⟩
  have hall : Line.totalSize blank + n = Line.totalSize
      ((Line.ofText (Line.toText blank ++ text ++ terminator)).takeWhile Line.isBlank) := by
    rw [hlines, List.takeWhile_append_of_pos fun line hline => (h line hline).2,
      Line.totalSize_append, ← hn]
  -- Behind the blank lines both texts are the same, and only the offset differs.
  have hafter : after (Line.totalSize blank + n) (Line.toText blank ++ text) = after n text := by
    rw [after, ← Line.byteLength_toText, Text.dropBytes?_add_append]
    rfl
  rw [blocksFrom_after_blank depth nested _ hall, hafter,
    blocksFrom_after_blank depth nested text hn, moved_moved, Nat.add_comm]

/-- A line feed in front of a text moves it on. -/
theorem blocksFrom_feed (text : Text) :
    blocksFrom (document []).tokenizers depth nested 0 ('\n' :: text) =
      moved 1 (blocksFrom (document []).tokenizers depth nested 0 text) := by
  refine @blocksFrom_blank depth nested [⟨[], true⟩] (fun line hline => ?_) text
  obtain rfl := List.mem_singleton.1 hline
  exact ⟨⟨rfl, List.not_mem_nil⟩, Line.isBlank_empty true⟩

end

/-! ## Nodes without a limit -/

theorem blocksFrom_documentNodes (text : Text) :
    blocksFrom (document []).tokenizers 0 (blocksUnlimited (document []).tokenizers 1) 0 text =
      .ok (documentNodes text) := by
  rw [← blocksUnlimited_eq, blocksUnlimited_eq_ok]

/-- The nodes of a text are those of its first outline and those of what is left, moved on. -/
theorem documentNodes_eq_append {text : Text} {outline : Outline} (hne : text ≠ [])
    (hread : Outline.read? (text ++ terminator) = some outline) :
    documentNodes text = Piece.unlimitedNodes ⟨0, Text.byteLength text, outline⟩ ++
      (documentNodes (after outline.length text)).map (Node.moved outline.length) := by
  have hblocks := blocksFrom_eq_append 0 (blocksUnlimited (document []).tokenizers 1) hne hread
  rw [blocksFrom_documentNodes, blocksFrom_documentNodes,
    Piece.parse_eq_ok fun content _ => blocksUnlimited_eq_ok 1 content] at hblocks
  exact Except.ok.inj hblocks

-- What moves a text on moves its nodes on.
theorem documentNodes_of_moved {text rest : Text} {n : Nat}
    (h : ∀ depth nested, blocksFrom (document []).tokenizers depth nested 0 text =
      moved n (blocksFrom (document []).tokenizers depth nested 0 rest)) :
    documentNodes text = (documentNodes rest).map (Node.moved n) := by
  have hblocks := h 0 (blocksUnlimited (document []).tokenizers 1)
  rw [blocksFrom_documentNodes, blocksFrom_documentNodes] at hblocks
  exact Except.ok.inj hblocks

/-- A text has the nodes behind the blank lines that it starts with. -/
theorem documentNodes_eq_after_blank (text : Text) {n : Nat}
    (hn : n = Line.totalSize ((Line.ofText (text ++ terminator)).takeWhile Line.isBlank)) :
    documentNodes text = (documentNodes (after n text)).map (Node.moved n) :=
  documentNodes_of_moved fun depth nested => blocksFrom_after_blank depth nested text hn

/-- Blank lines in front of a text move its nodes on. -/
theorem documentNodes_blank {blank : List Line}
    (h : ∀ line ∈ blank, line.IsWhole ∧ line.isBlank = true) (text : Text) :
    documentNodes (Line.toText blank ++ text) =
      (documentNodes text).map (Node.moved (Line.totalSize blank)) :=
  documentNodes_of_moved fun depth nested => blocksFrom_blank depth nested h text

/-- White space makes no nodes. -/
theorem documentNodes_of_isSpace {text : Text} (h : ∀ c ∈ text, Text.isSpace c = true) :
    documentNodes text = [] := by
  have hblank : ∀ line ∈ Line.ofText (text ++ terminator), line.isBlank = true := fun line =>
    Line.isBlank_of_mem_ofText fun c hc => (List.mem_append.1 hc).elim (h c) fun hc => by
      obtain rfl : c = '\n' := by simpa [terminator] using hc
      decide
  have hnil : documentNodes [] = [] := (Pieces.done 0).documentNodes_eq
  rw [documentNodes_eq_after_blank text rfl, List.takeWhile_eq_self_iff.2 hblank,
    Line.totalSize_ofText, after_eq_nil (by simp), hnil]
  rfl

/-- White space up to the start of a line moves the nodes behind it on. -/
theorem documentNodes_space {space text : Text} (h : ∀ c ∈ space, Text.isSpace c = true)
    (hend : space = [] ∨ space.getLast? = some '\n' ∨ text = []) :
    documentNodes (space ++ text) =
      (documentNodes text).map (Node.moved (Text.byteLength space)) := by
  rcases hend with rfl | hlast | rfl
  · rw [Text.byteLength_nil, show Node.moved 0 = id from funext Node.moved_zero, List.map_id,
      List.nil_append]
  · obtain ⟨front, rfl⟩ := List.getLast?_eq_some_iff.1 hlast
    have hblank : ∀ line ∈ Line.ofText (front ++ ['\n']), line.IsWhole ∧ line.isBlank = true :=
      fun line hline => ⟨Line.whole_of_mem_ofText hline, Line.isBlank_of_mem_ofText h hline⟩
    have hnodes := documentNodes_blank hblank text
    rwa [Line.toText_ofText, Line.totalSize_ofText] at hnodes
  · rw [List.append_nil, documentNodes_of_isSpace h, documentNodes_of_isSpace (by simp)]
    rfl

/-- A line feed in front of a text moves its nodes on. -/
theorem documentNodes_feed (text : Text) :
    documentNodes ('\n' :: text) = (documentNodes text).map (Node.moved 1) :=
  documentNodes_of_moved fun depth nested => blocksFrom_feed depth nested text

/-- A statement block in front of an empty line, and what follows the line. -/
theorem documentNodes_statement {line : Text} {statements : List Statement} {rest : Text}
    (hne : line ≠ [])
    (hread : Outline.read? (line ++ '\n' :: '\n' :: rest ++ terminator) =
      some (.leaf (.leaf (Text.byteLength line) (.statement ⟨line, statements⟩)))) :
    documentNodes (line ++ '\n' :: '\n' :: rest) =
      ⟨.statement ⟨line, statements⟩, ⟨0, Text.byteLength line⟩, []⟩ ::
        (documentNodes rest).map (Node.moved (Text.byteLength line + 2)) := by
  rw [documentNodes_eq_append (by simp [hne]) hread]
  simp only [Outline.length, Claim.leaf, after_append, documentNodes_feed,
    Node.map_moved_map_moved]
  rw [show 1 + 1 + Text.byteLength line = Text.byteLength line + 2 by omega]
  simp [Piece.unlimitedNodes, Piece.nodes, Outline.claim, Outline.block?, Outline.length, place]

end Parser

end DocumentLayout
