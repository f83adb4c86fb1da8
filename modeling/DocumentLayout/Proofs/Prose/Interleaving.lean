import DocumentLayout.Proofs.Block.Resumption
import DocumentLayout.Proofs.Block.Tiling
import DocumentLayout.Prose

/-!
# Interleaving

A document is its prose with its top-level statement blocks put in between, each at the span of its
node. So the prose is what is left of the outlines of a document without those of statement blocks.
-/

namespace DocumentLayout

namespace Text

theorem splitBytes_append (front rest : Text) :
    splitBytes (byteLength front) (front ++ rest) = (front, rest) := by
  induction front with
  | nil => simp [splitBytes]
  | cons c front ih =>
    -- The cut is by a positive number of bytes, so it takes the first character.
    have hpos := Char.utf8Size_pos c
    obtain ⟨n, hn⟩ : ∃ n, c.utf8Size + byteLength front = n + 1 :=
      ⟨c.utf8Size + byteLength front - 1, by omega⟩
    rw [byteLength_cons, List.cons_append, hn, splitBytes,
      show n + 1 - c.utf8Size = byteLength front by omega, ih]

theorem append_inj_of_byteLength {a b c d : Text} (h : a ++ b = c ++ d)
    (hsize : byteLength a = byteLength c) : a = c ∧ b = d := by
  have hrest : some b = some d := by
    rw [← dropBytes?_append a b, ← dropBytes?_append c d, h, hsize]
  obtain rfl := Option.some.inj hrest
  exact ⟨List.append_cancel_right h, rfl⟩

theorem not_mem_unifyBreaks (text : Text) : '\r' ∉ unifyBreaks text := by
  fun_induction unifyBreaks text with
  | case1 => simp
  | case2 rest ih => simpa using ih
  | case3 rest hfeed ih => simpa using ih
  | case4 c rest hfeed hreturn ih =>
    have hc : '\r' ≠ c := fun h => hreturn h.symm
    simpa [hc] using ih

theorem unifyBreaks_unifyBreaks (text : Text) :
    unifyBreaks (unifyBreaks text) = unifyBreaks text :=
  unifyBreaks_of_not_mem (not_mem_unifyBreaks text)

end Text

namespace Node

/-- The statement blocks among some nodes. -/
def statementNodes (nodes : List Node) : List Node :=
  nodes.filter fun node => node.statement?.isSome

theorem statement?_moved (n : Nat) (node : Node) : (moved n node).statement? = node.statement? := by
  cases node
  rfl

theorem span_moved (n : Nat) (node : Node) : (moved n node).span = node.span.shift n := by
  cases node
  rfl

theorem statementNodes_append (a b : List Node) :
    statementNodes (a ++ b) = statementNodes a ++ statementNodes b :=
  List.filter_append ..

theorem statementNodes_moved (n : Nat) (nodes : List Node) :
    statementNodes (nodes.map (moved n)) = (statementNodes nodes).map (moved n) := by
  rw [statementNodes, List.filter_map]
  congr 1
  exact List.filter_congr fun node _ => by rw [Function.comp_apply, statement?_moved]

theorem statementNodes_eq_nil_iff {nodes : List Node} :
    statementNodes nodes = [] ↔ ∀ node ∈ nodes, node.statement? = none := by
  simp [statementNodes, List.filter_eq_nil_iff]

end Node

/-! ## Prose with statement blocks in between -/

/-- A text that starts at an offset is made up by its prose, in which statement blocks stand at the
spans of their nodes. -/
inductive Interleaved : Nat → Text → List Node → Text → Prop
  | last (offset : Nat) (kept : Text) : Interleaved offset kept [] kept
  | cut {offset : Nat} {kept text prose : Text} {node : Node} {nodes : List Node}
      {block : StatementBlock} (hnode : node.statement? = some block)
      (hspan : node.span = ⟨offset + Text.byteLength kept,
        offset + Text.byteLength kept + Text.byteLength block.text⟩)
      (hrest : Interleaved (offset + Text.byteLength kept + Text.byteLength block.text) text nodes
        prose) :
      Interleaved offset (kept ++ block.text ++ text) (node :: nodes) (kept ++ prose)

namespace Interleaved

/-- What is left without the spans of the blocks is the prose. -/
theorem withoutSpans_eq {offset : Nat} {text prose : Text} {nodes : List Node}
    (h : Interleaved offset text nodes prose) :
    withoutSpans offset (nodes.map Node.span) text = prose := by
  induction h with
  | last => rfl
  | @cut offset kept text prose node nodes block hnode hspan hrest ih =>
    have hkept : offset + Text.byteLength kept - offset = Text.byteLength kept := by omega
    have hblock : offset + Text.byteLength kept + Text.byteLength block.text -
        (offset + Text.byteLength kept) = Text.byteLength block.text := by omega
    rw [List.map_cons, withoutSpans, hspan]
    dsimp only
    rw [hkept, hblock, List.append_assoc, Text.splitBytes_append]
    dsimp only
    rw [Text.splitBytes_append, ih]

theorem keep {offset : Nat} {text prose : Text} {nodes : List Node} (front : Text)
    (h : Interleaved (offset + Text.byteLength front) text nodes prose) :
    Interleaved offset (front ++ text) nodes (front ++ prose) := by
  cases h with
  | last => exact .last _ _
  | @cut _ kept text prose node nodes block hnode hspan hrest =>
    have hkept : offset + Text.byteLength front + Text.byteLength kept =
        offset + Text.byteLength (front ++ kept) := by
      rw [Text.byteLength_append, Nat.add_assoc]
    rw [hkept] at hspan hrest
    have hcut := Interleaved.cut hnode hspan hrest
    simpa only [List.append_assoc] using hcut

theorem move {offset : Nat} {text prose : Text} {nodes : List Node} (n : Nat)
    (h : Interleaved offset text nodes prose) :
    Interleaved (offset + n) text (nodes.map (Node.moved n)) prose := by
  induction h with
  | last => exact .last _ _
  | @cut offset kept text prose node nodes block hnode hspan hrest ih =>
    have hkept : offset + Text.byteLength kept + n = offset + n + Text.byteLength kept := by omega
    have hblock : offset + Text.byteLength kept + Text.byteLength block.text + n =
        offset + n + Text.byteLength kept + Text.byteLength block.text := by omega
    rw [hblock] at ih
    refine .cut ((Node.statement?_moved n node).trans hnode) ?_ ih
    rw [Node.span_moved, hspan, Span.shift, hblock, hkept]

theorem mem_of_mem {offset : Nat} {text prose : Text} {nodes : List Node}
    (h : Interleaved offset text nodes prose) {c : Char} (hc : c ∈ prose) : c ∈ text := by
  induction h with
  | last => exact hc
  | cut hnode hspan hrest ih =>
    rcases List.mem_append.1 hc with hc | hc
    · exact List.mem_append_left _ (List.mem_append_left _ hc)
    · exact List.mem_append_right _ (ih hc)

end Interleaved

/-! ## The prose of a text -/

namespace Outline

/-- What of the text that an outline covers is prose. -/
def prose (outline : Outline) (front : Text) : Text :=
  match outline.kind? with
  | some (.statement _) => []
  | _ => front

theorem prose_of_not_statement {outline : Outline}
    (h : ∀ block, outline.kind? ≠ some (.statement block)) (front : Text) :
    outline.prose front = front := by
  unfold prose
  split
  · rename_i block hblock
    exact absurd hblock (h block)
  · rfl

theorem prose_of_statement {outline : Outline} {block : StatementBlock}
    (h : outline.kind? = some (.statement block)) (front : Text) : outline.prose front = [] := by
  rw [prose, h]

/-- The outline of a statement block covers the text of the block. -/
theorem Covers.eq_leaf {outline : Outline} {text front back : Text} {block : StatementBlock}
    (h : outline.Covers text front back)
    (hread : read? (text ++ Parser.terminator) = some outline)
    (hkind : outline.kind? = some (.statement block)) :
    front = block.text ∧
      outline = leaf (.leaf (Text.byteLength block.text) (.statement block)) := by
  rcases read?_cases hread with
    ⟨claim, rfl, hlines⟩ | ⟨claim, rfl, hstatement⟩ | ⟨hne, rfl⟩ | ⟨marker, items, hlist, rfl⟩
  · obtain ⟨taken, -, -, -, ⟨hnone, -⟩ | ⟨kind, hplain, hsome⟩⟩ := hlines
    · simp [kind?, hnone] at hkind
    · obtain rfl : kind = .statement block := by simpa [kind?, hsome] using hkind
      simp [NodeKind.isPlain] at hplain
  · obtain ⟨found, rest, rfl, hne, htext⟩ := Block.statement_eq_some hstatement
    obtain rfl : found = block := by simpa [kind?, Claim.leaf] using hkind
    refine ⟨?_, rfl⟩
    -- The block ends in front of the terminator, so it is covered as a whole.
    have hsize := h.size
    have hbytes := congrArg Text.byteLength htext
    simp only [Text.byteLength_append, Parser.terminator, Text.byteLength_cons,
      Text.byteLength_nil] at hbytes
    rw [h.split, List.append_assoc] at htext
    refine (Text.append_inj_of_byteLength htext ?_).1
    dsimp only [length, Claim.leaf] at hsize
    omega
  · simp [kind?] at hkind
  · simp [kind?] at hkind

end Outline

namespace Parser

theorem documentNodes_nil : documentNodes [] = [] := (Pieces.done 0).documentNodes_eq

end Parser

namespace Piece

-- Only the outline of a statement block makes the node of one.
theorem statementNodes_unlimitedNodes {piece : Piece}
    (h : ∀ block, piece.outline.kind? ≠ some (.statement block)) :
    Node.statementNodes piece.unlimitedNodes = [] := by
  rw [Node.statementNodes_eq_nil_iff]
  intro node hnode
  rcases piece.nodes_cases (piece.outline.contents.map Parser.documentNodes) with
    ⟨-, hnodes⟩ | ⟨kind, children, hkind, -, hnodes⟩
  · rw [unlimitedNodes, hnodes] at hnode
    simp at hnode
  · rw [unlimitedNodes, hnodes] at hnode
    obtain rfl := List.mem_singleton.1 hnode
    cases kind <;> simp_all [Node.statement?, Node.kind]

end Piece

-- The statement blocks of a text are those of its first outline and those of what is left.
theorem interleaved_append {text front back prose : Text} {outline : Outline} (hne : text ≠ [])
    (hread : Outline.read? (text ++ Parser.terminator) = some outline)
    (hcovers : outline.Covers text front back)
    (h : Interleaved 0 back (Node.statementNodes (Parser.documentNodes back)) prose) :
    Interleaved 0 text (Node.statementNodes (Parser.documentNodes text))
      (outline.prose front ++ prose) := by
  have hmoved := h.move outline.length
  rw [Nat.zero_add] at hmoved
  rw [Parser.documentNodes_eq_append hne hread, hcovers.after, Node.statementNodes_append,
    Node.statementNodes_moved]
  by_cases hkind : ∃ block, outline.kind? = some (.statement block)
  · obtain ⟨block, hblock⟩ := hkind
    obtain ⟨rfl, rfl⟩ := hcovers.eq_leaf hread hblock
    have hnodes : Piece.unlimitedNodes ⟨0, Text.byteLength text,
        .leaf (.leaf (Text.byteLength block.text) (.statement block))⟩ =
          [⟨.statement block, ⟨0, Text.byteLength block.text⟩, []⟩] := by
      have hsize := hcovers.size
      dsimp only [Outline.length, Claim.leaf] at hsize
      simp [Piece.unlimitedNodes, Piece.nodes, Outline.claim, Outline.block?, Outline.length,
        Parser.place, Claim.leaf, hsize]
    have hcut : Interleaved 0 ([] ++ block.text ++ back)
        (⟨.statement block, ⟨0, Text.byteLength block.text⟩, []⟩ ::
          (Node.statementNodes (Parser.documentNodes back)).map
            (Node.moved (Text.byteLength block.text)))
        ([] ++ prose) :=
      .cut rfl (by simp [Node.span]) (by simpa [Outline.length, Claim.leaf] using hmoved)
    rw [Outline.prose_of_statement hblock, hcovers.split, ← hcovers.split, hnodes, hcovers.split]
    exact hcut
  · rw [Piece.statementNodes_unlimitedNodes (not_exists.1 hkind), List.nil_append,
      Outline.prose_of_not_statement (not_exists.1 hkind), hcovers.split]
    refine .keep front ?_
    by_cases hback : back = []
    · -- The claim may run over the end of the text, but there is nothing left to be moved.
      subst hback
      have hnil : Node.statementNodes (Parser.documentNodes []) = [] := by
        rw [Parser.documentNodes_nil]
        rfl
      rw [hnil] at hmoved ⊢
      obtain rfl : [] = prose := hmoved.withoutSpans_eq
      exact .last _ _
    · rw [Nat.zero_add, ← hcovers.length_eq hback]
      exact hmoved

namespace Parser

/-- The prose of a text whose containers may nest to any depth. -/
def prose (text : Text) : Text :=
  withoutSpans 0 ((Node.statementNodes (documentNodes text)).map Node.span) text

/-- Every text is its prose with its statement blocks put in between. -/
theorem interleaved_prose (text : Text) :
    Interleaved 0 text (Node.statementNodes (documentNodes text)) (prose text) := by
  have hexists : ∃ kept,
      Interleaved 0 text (Node.statementNodes (documentNodes text)) kept := by
    -- Every outline takes something, so less is left behind it.
    induction hn : text.length using Nat.strong_induction_on generalizing text with
    | h n ih =>
      by_cases hne : text = []
      · subst hne
        rw [documentNodes_nil]
        exact ⟨[], .last 0 []⟩
      · obtain ⟨outline, hread⟩ := @Outline.exists_read? (text ++ terminator) (by simp [hne])
        obtain ⟨front, back, hcovers⟩ := Outline.exists_covers hne hread
        have hlt := Outline.length_after_lt hne hread
        rw [hcovers.after] at hlt
        obtain ⟨kept, hkept⟩ := ih back.length (by omega) back rfl
        exact ⟨_, interleaved_append hne hread hcovers hkept⟩
  obtain ⟨kept, hkept⟩ := hexists
  rw [prose, hkept.withoutSpans_eq]
  exact hkept

/-- The prose of a text is that of its first outline and that of what is left. -/
theorem prose_eq_append {text front back : Text} {outline : Outline} (hne : text ≠ [])
    (hread : Outline.read? (text ++ terminator) = some outline)
    (hcovers : outline.Covers text front back) :
    prose text = outline.prose front ++ prose back :=
  (interleaved_append hne hread hcovers (interleaved_prose back)).withoutSpans_eq

theorem prose_nil : prose [] = [] := by
  rw [prose, documentNodes_nil]
  rfl

/-- White space up to the start of a line is prose. -/
theorem prose_space {space text : Text} (h : ∀ c ∈ space, Text.isSpace c = true)
    (hend : space = [] ∨ space.getLast? = some '\n' ∨ text = []) :
    prose (space ++ text) = space ++ prose text := by
  have hmoved := (interleaved_prose text).move (Text.byteLength space)
  rw [← Node.statementNodes_moved, ← documentNodes_space h hend] at hmoved
  exact (hmoved.keep _).withoutSpans_eq

theorem prose_feed (text : Text) : prose ('\n' :: text) = '\n' :: prose text := by
  refine @prose_space ['\n'] text (fun c hc => ?_) (.inr (.inl rfl))
  obtain rfl := List.mem_singleton.1 hc
  decide

theorem mem_of_mem_prose {text : Text} {c : Char} (h : c ∈ prose text) : c ∈ text :=
  (interleaved_prose text).mem_of_mem h

end Parser

/-- A document has prose when it has a tree. -/
theorem stripStatements_eq_ok_iff {text prose : Text} :
    stripStatements [] text = .ok prose ↔
      (documentTree text).levels ≤ nestingLimit ∧ prose = Parser.prose (Text.unifyBreaks text) := by
  have htree : documentTree (Text.unifyBreaks text) = documentTree text := by
    rw [documentTree, Text.unifyBreaks_unifyBreaks, documentTree]
  unfold stripStatements
  dsimp only
  rcases Nat.lt_or_ge nestingLimit (documentTree text).levels with hdeep | hlevels
  · rw [← htree] at hdeep
    obtain ⟨offset, offsets, -, herror⟩ := parseDocument_of_lt_levels hdeep
    rw [htree] at hdeep
    rw [herror]
    refine iff_of_false (by simp [bind, Except.bind]) fun h => ?_
    have := h.1
    omega
  · rw [parseDocument_of_levels_le (htree ▸ hlevels), htree]
    simp only [bind, Except.bind, pure, Except.pure, Except.ok.injEq, hlevels, true_and]
    exact eq_comm

end DocumentLayout
