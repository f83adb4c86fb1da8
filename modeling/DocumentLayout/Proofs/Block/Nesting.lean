import DocumentLayout.Proofs.Block.Pieces

/-!
# Nesting

Without the limit on nesting every document has a tree, since the content of a container is shorter
than the text around it. The limit only ever refuses: a document whose tree stays within it has that
very tree, and any other is refused at its first block that goes too deep.
-/

namespace DocumentLayout

/-! ## Levels of containers -/

/-- The kinds of blocks whose content is parsed one level deeper. -/
def NodeKind.isContainer : NodeKind → Bool
  | blockQuote => true
  | list _ => true
  | _ => false

theorem NodeKind.not_isContainer_of_isPlain {kind : NodeKind} (h : kind.isPlain = true) :
    kind.isContainer = false := by
  cases kind <;> simp_all [isPlain, isContainer]

namespace Node

mutual

/-- The largest number of containers on a path from a node down to a leaf. -/
def levels : Node → Nat
  | mk kind _ children => levelsAll children + if kind.isContainer then 1 else 0

/-- The largest number of containers on a path down one of several trees. -/
def levelsAll : List Node → Nat
  | [] => 0
  | node :: rest => max node.levels (levelsAll rest)

end

theorem levelsAll_le_iff {nodes : List Node} {n : Nat} :
    levelsAll nodes ≤ n ↔ ∀ node ∈ nodes, node.levels ≤ n := by
  induction nodes with
  | nil => simp [levelsAll]
  | cons node nodes ih => simp [levelsAll, ih]

theorem levelsAll_append (a b : List Node) :
    levelsAll (a ++ b) = max (levelsAll a) (levelsAll b) := by
  induction a with
  | nil => simp [levelsAll]
  | cons node a ih => rw [List.cons_append, levelsAll, levelsAll, ih, Nat.max_assoc]

theorem levelsAll_flatMap_le_iff {α : Type} {l : List α} {f : α → List Node} {n : Nat} :
    levelsAll (l.flatMap f) ≤ n ↔ ∀ a ∈ l, levelsAll (f a) ≤ n := by
  simp only [levelsAll_le_iff, List.mem_flatMap]
  constructor
  · exact fun h a ha node hnode => h node ⟨a, ha, hnode⟩
  · rintro h node ⟨a, ha, hnode⟩
    exact h a ha node hnode

end Node

/-! ## Parsing without a limit -/

namespace Parser

/-- A first claim depends on what it hands back to the parser only where that is shorter than the
text it takes. -/
def HandsBackShorter (parser : Parser) : Prop :=
  ∀ (cursor : Cursor) (text name : Text) (claim : Claim),
    claimAt? cursor (text ++ terminator) parser.tokenizers = .ok (some (name, claim)) →
      ∃ taken rest, text ++ terminator = taken ++ rest ∧ Text.byteLength taken = claim.length ∧
        ∀ tokenize : Text → Except Error (List Node),
          (∀ content, content.length < taken.length →
            tokenize content = cursor.tokenize content) →
          claimAt? { cursor with tokenize } (text ++ terminator) parser.tokenizers =
            .ok (some (name, claim))

theorem handsBackShorter_document : (document []).HandsBackShorter := by
  intro cursor text name claim h
  obtain ⟨outline, hread⟩ :=
    @Outline.exists_read? (text ++ terminator) (by simp [terminator])
  obtain ⟨taken, rest, htext, htakes⟩ := Outline.read?_takes hread
  -- The outline is there before any content is parsed, so it does not depend on the cursor.
  obtain ⟨found, hfound⟩ := claimAt?_document hread
  refine ⟨taken, rest, htext, ?_, fun tokenize htokenize => ?_⟩
  · rw [hfound] at h
    obtain ⟨inner, hinner, hpair⟩ := exists_of_map_eq_ok h
    obtain ⟨parts, -, rfl⟩ := exists_of_map_eq_ok hinner
    obtain ⟨-, rfl⟩ := Prod.mk.inj (Option.some.inj hpair)
    exact htakes.size
  · rw [← h, hfound, hfound]
    unfold Outline.consume
    rw [mapM_congr fun content hcontent => htokenize content (htakes.shorter content hcontent)]

/-- The nodes of a text at nesting depth `depth` when containers may nest to any depth. The parse
goes down only into contents that are shorter than the text they stand in. -/
def blocksUnlimited (tokenizers : List Tokenizer) (depth : Nat) (text : Text) :
    Except Error (List Node) :=
  blocksFrom tokenizers depth
    (fun content =>
      if content.length < text.length then blocksUnlimited tokenizers (depth + 1) content
      else .error (.parse 0 .unclaimed))
    0 text
termination_by text.length

/-- The tree of a document when containers may nest to any depth. -/
def parseUnlimited (parser : Parser) (text : Text) : Except Error Node :=
  let text := Text.unifyBreaks text
  (blocksUnlimited parser.tokenizers 0 text).map fun nodes =>
    ⟨.root, ⟨0, Text.byteLength text⟩, nodes⟩

/-- Every content of a document is shorter, so the parse goes down into all of them. -/
theorem blocksUnlimited_eq (depth : Nat) (text : Text) :
    blocksUnlimited (document []).tokenizers depth text =
      blocksFrom (document []).tokenizers depth
        (blocksUnlimited (document []).tokenizers (depth + 1)) 0 text := by
  obtain ⟨pieces, hpieces⟩ := Pieces.exists_pieces 0 text
  rw [blocksUnlimited]
  exact hpieces.blocksFrom_congr depth depth fun content hlt => if_pos hlt

theorem blocksUnlimited_depth (depth depth' : Nat) (text : Text) :
    blocksUnlimited (document []).tokenizers depth text =
      blocksUnlimited (document []).tokenizers depth' text := by
  induction hn : text.length using Nat.strong_induction_on generalizing depth depth' text with
  | h n ih =>
    obtain ⟨pieces, hpieces⟩ := Pieces.exists_pieces 0 text
    rw [blocksUnlimited_eq, blocksUnlimited_eq depth']
    exact hpieces.blocksFrom_congr depth depth' fun content hlt =>
      ih content.length (by omega) (depth + 1) (depth' + 1) content rfl

/-- The nodes of a text of a document, from a parse without a limit that always ends with some. -/
def documentNodes (text : Text) : List Node :=
  (blocksUnlimited (document []).tokenizers 0 text).toOption.getD []

end Parser

namespace Piece

/-- The nodes of a piece whose contents have all their nodes, however deep they nest. -/
def unlimitedNodes (piece : Piece) : List Node :=
  piece.nodes (piece.outline.contents.map Parser.documentNodes)

theorem parse_eq_ok {piece : Piece} {nested : Text → Except Error (List Node)}
    (h : ∀ content ∈ piece.outline.contents, nested content = .ok (Parser.documentNodes content)) :
    piece.parse nested = .ok piece.unlimitedNodes := by
  rw [parse, mapM_eq_ok (g := Parser.documentNodes)]
  · rfl
  · intro content hcontent
    rw [h content hcontent]
    rfl

end Piece

namespace Parser

/-- Without the limit every text has nodes. -/
theorem blocksUnlimited_eq_ok (depth : Nat) (text : Text) :
    blocksUnlimited (document []).tokenizers depth text = .ok (documentNodes text) := by
  induction hn : text.length using Nat.strong_induction_on generalizing depth text with
  | h n ih =>
    obtain ⟨pieces, hpieces⟩ := Pieces.exists_pieces 0 text
    -- Only contents can fail, and they are shorter than the text.
    have hparse : pieces.mapM (Piece.parse (blocksUnlimited (document []).tokenizers 1)) =
        .ok (pieces.map Piece.unlimitedNodes) := by
      refine mapM_eq_ok fun piece hpiece => Piece.parse_eq_ok fun content hcontent => ?_
      have hlt := hpieces.length_content_lt piece hpiece content hcontent
      exact ih content.length (by omega) 1 content rfl
    have hnodes : blocksUnlimited (document []).tokenizers 0 text =
        .ok (pieces.map Piece.unlimitedNodes).flatten := by
      rw [blocksUnlimited_eq, hpieces.blocksFrom_eq, hparse]
      rfl
    rw [blocksUnlimited_depth depth 0, documentNodes, hnodes]
    rfl

end Parser

theorem Pieces.blocksFrom_eq_ok {text : Text} {pieces : List Piece} (h : Pieces 0 text pieces)
    (depth : Nat) {nested : Text → Except Error (List Node)}
    (hparse : ∀ piece ∈ pieces, piece.parse nested = .ok piece.unlimitedNodes) :
    Parser.blocksFrom (Parser.document []).tokenizers depth nested 0 text =
      .ok (pieces.flatMap Piece.unlimitedNodes) := by
  rw [h.blocksFrom_eq, mapM_eq_ok hparse]
  rfl

theorem Pieces.documentNodes_eq {text : Text} {pieces : List Piece} (h : Pieces 0 text pieces) :
    Parser.documentNodes text = pieces.flatMap Piece.unlimitedNodes := by
  have hnodes := Parser.blocksUnlimited_eq_ok 0 text
  rw [Parser.blocksUnlimited_eq, h.blocksFrom_eq_ok 0 fun piece _ =>
    Piece.parse_eq_ok fun content _ => Parser.blocksUnlimited_eq_ok 1 content] at hnodes
  exact (Except.ok.inj hnodes).symm

/-! ## Levels of a piece -/

namespace Outline

-- Items lie as deep as their contents.
theorem levelsAll_placeItems_le_iff (nodesOf : Text → List Node) (start n : Nat)
    (items : List Block.Item) :
    Node.levelsAll (placeItems start items
      (items.map fun item => nodesOf (Block.content item.content))) ≤ n ↔
      ∀ item ∈ items, Node.levelsAll (nodesOf (Block.content item.content)) ≤ n := by
  induction items generalizing start with
  | nil => simp [placeItems, Node.levelsAll]
  | cons item items ih =>
    simp [placeItems, Node.levelsAll, Node.levels, NodeKind.isContainer, ih]

/-- A block lies one level above its contents, and on no level when it has none. -/
theorem levels_le_iff {text : Text} {outline : Outline}
    (hread : read? (text ++ Parser.terminator) = some outline) {offset : Nat}
    {nodesOf : Text → List Node} {kind : NodeKind} {children : List Node}
    (hblock : outline.block? offset (outline.contents.map nodesOf) = some (kind, children))
    (span : Span) (n : Nat) :
    (Node.mk kind span children).levels ≤ n ↔
      ∀ content ∈ outline.contents, Node.levelsAll (nodesOf content) < n := by
  rcases read?_cases hread with
    ⟨claim, rfl, hlines⟩ | ⟨claim, rfl, hstatement⟩ | ⟨hne, rfl⟩ | ⟨marker, items, hlist, rfl⟩
  · obtain ⟨taken, -, -, -, ⟨hnone, -⟩ | ⟨plain, hplain, hsome⟩⟩ := hlines
    · rw [block?, hnone] at hblock
      simp at hblock
    · obtain ⟨rfl, rfl⟩ : plain = kind ∧ [] = children := by simpa [block?, hsome] using hblock
      simp [contents, Node.levels, Node.levelsAll, NodeKind.not_isContainer_of_isPlain hplain]
  · obtain ⟨block, rest, rfl, -, -⟩ := Block.statement_eq_some hstatement
    obtain ⟨rfl, rfl⟩ : .statement block = kind ∧ [] = children := by
      simpa [block?, Claim.leaf] using hblock
    simp [contents, Node.levels, Node.levelsAll, NodeKind.isContainer]
  · obtain ⟨rfl, rfl⟩ := Prod.mk.inj (Option.some.inj hblock)
    simp only [contents, List.map_cons, List.map_nil, List.flatten_cons, List.flatten_nil,
      List.append_nil, Node.levels, NodeKind.isContainer, ↓reduceIte, List.forall_mem_singleton]
    omega
  · -- A list has items, so it is a level of its own even when their contents are empty.
    obtain ⟨rfl, rfl⟩ := Prod.mk.inj (Option.some.inj hblock)
    obtain ⟨-, hitems, -⟩ := Block.listLines?_eq_some hlist
    obtain ⟨item, more, rfl⟩ := List.exists_cons_of_ne_nil hitems
    cases n with
    | zero =>
      refine iff_of_false (by simp [Node.levels, NodeKind.isContainer]) fun hall => ?_
      exact absurd (hall _ (List.mem_map_of_mem (List.mem_cons_self ..))) (Nat.not_lt_zero _)
    | succ n =>
      have hplace := levelsAll_placeItems_le_iff nodesOf offset n (item :: more)
      simp only [contents, Node.levels, NodeKind.isContainer, ↓reduceIte, List.map_map,
        Nat.add_le_add_iff_right, Nat.lt_succ_iff]
      rw [show (nodesOf ∘ fun item : Block.Item => Block.content item.content) =
        fun item => nodesOf (Block.content item.content) from rfl, hplace]
      simp

end Outline

namespace Piece

-- A piece goes too deep when one of its contents does, and then it is a node at its offset.
theorem levels_cases {text : Text} {piece : Piece}
    (hread : Outline.read? (text ++ Parser.terminator) = some piece.outline) (n : Nat) :
    (Node.levelsAll piece.unlimitedNodes ≤ n ↔
      ∀ content ∈ piece.outline.contents, Node.levelsAll (Parser.documentNodes content) < n) ∧
    (n < Node.levelsAll piece.unlimitedNodes →
      ∃ node, piece.unlimitedNodes = [node] ∧ node.span.start = piece.offset) := by
  rcases piece.nodes_cases (piece.outline.contents.map Parser.documentNodes) with
    ⟨hkind, hnodes⟩ | ⟨kind, children, -, hblock, hnodes⟩
  · -- A piece that makes no node is no container.
    have hcontents : piece.outline.contents = [] := by
      cases houtline : piece.outline with
      | leaf claim => rfl
      | quote claimed => simp [houtline, Outline.kind?] at hkind
      | list marker items => simp [houtline, Outline.kind?] at hkind
    rw [unlimitedNodes, hnodes, hcontents]
    simp [Node.levelsAll]
  · rw [unlimitedNodes, hnodes]
    refine ⟨?_, fun _ => ⟨_, rfl, rfl⟩⟩
    rw [← Outline.levels_le_iff hread hblock
      ⟨piece.offset, piece.offset + min piece.outline.length piece.left⟩]
    simp [Node.levelsAll]

end Piece

/-! ## Parsing within a limit -/

/-- The fault at the end of a path of offsets, the innermost first. -/
def ParseFault.nestedAt (fault : ParseFault) (offsets : List Nat) : ParseFault :=
  offsets.foldl (fun fault offset => .nested offset fault) fault

/-- The fault that the faults of contents around it pass on. -/
def ParseFault.cause : ParseFault → ParseFault
  | .nested _ fault => fault.cause
  | fault => fault

namespace ParseFault

theorem cause_nestedAt (fault : ParseFault) (offsets : List Nat) :
    (fault.nestedAt offsets).cause = fault.cause := by
  induction offsets generalizing fault with
  | nil => rfl
  | cons offset offsets ih => exact ih (.nested offset fault)

theorem reason_tooDeep :
    tooDeep.reason = "containers are nested more than 64 levels deep".toList := by
  decide +kernel

/-- Each offset of the path adds its words behind those of the fault. -/
theorem reason_nestedAt (fault : ParseFault) (offsets : List Nat) :
    (fault.nestedAt offsets).reason = fault.reason ++ offsets.flatMap fun offset =>
      " (at byte ".toList ++ Text.ofNat offset ++ " of the nested content)".toList := by
  induction offsets generalizing fault with
  | nil => simp [nestedAt]
  | cons offset offsets ih =>
    rw [List.flatMap_cons, ← List.append_assoc, ← List.append_assoc, ← List.append_assoc]
    exact ih (.nested offset fault)

theorem nestedAt_concat (fault : ParseFault) (offsets : List Nat) (offset : Nat) :
    fault.nestedAt (offsets ++ [offset]) = .nested offset (fault.nestedAt offsets) := by
  rw [nestedAt, List.foldl_append]
  rfl

end ParseFault

/-- Some nodes are refused at `offset` when `room` levels are left for them: at the first node that
goes too deep, or at once when no level is left. The path `offsets` leads from there down to the
start of the content that was refused at once. -/
structure Refusal (room : Nat) (nodes : List Node) (offset : Nat) (offsets : List Nat) : Prop where
  length : offsets.length = room
  innermost : (offsets ++ [offset]).head? = some 0
  first : ∀ limit, room = limit + 1 → ∃ before node after, nodes = before ++ node :: after ∧
    (∀ other ∈ before, other.levels ≤ limit) ∧ limit < node.levels ∧ node.span.start = offset

-- One level up, the node that holds what was refused is the first that goes too deep.
theorem Refusal.surround {room : Nat} {nodes before after : List Node} {node : Node} {offset : Nat}
    {offsets : List Nat} (h : Refusal room nodes offset offsets)
    (hbefore : ∀ other ∈ before, other.levels ≤ room) (hnode : room < node.levels) :
    Refusal (room + 1) (before ++ node :: after) node.span.start (offsets ++ [offset]) where
  length := by simp [h.length]
  innermost := by
    rw [List.head?_append, h.innermost]
    rfl
  first limit hlimit := by
    obtain rfl : room = limit := by omega
    exact ⟨before, node, after, rfl, hbefore, hnode, rfl⟩

-- A piece fails where the first of its contents that fails does.
theorem Piece.parse_eq_error {piece : Piece} {nested : Text → Except Error (List Node)}
    {front back : List Text} {content : Text} {offset : Nat} {fault : ParseFault}
    (hcontents : piece.outline.contents = front ++ content :: back)
    (hfront : ∀ other ∈ front, ∃ nodes, nested other = .ok nodes)
    (hcontent : nested content = .error (.parse offset fault)) :
    piece.parse nested = .error (.parse piece.offset (.nested offset fault)) := by
  rw [Piece.parse, hcontents, mapM_eq_error]
  · rfl
  · intro other hother
    obtain ⟨nodes, hnodes⟩ := hfront other hother
    exact ⟨nodes, by rw [hnodes]; rfl⟩
  · rw [hcontent]
    rfl

namespace Parser

/-- A text that nests less deep than there is room has all its nodes. -/
theorem blocksWithin_eq_ok {room : Nat} {text : Text}
    (h : Node.levelsAll (documentNodes text) < room) (depth : Nat) :
    blocksWithin (document []).tokenizers room depth text = .ok (documentNodes text) := by
  -- By induction on the room, since a level down there is less of it.
  induction room generalizing text depth with
  | zero => exact absurd h (Nat.not_lt_zero _)
  | succ room ih =>
    obtain ⟨pieces, hpieces⟩ := Pieces.exists_pieces 0 text
    rw [hpieces.documentNodes_eq] at h ⊢
    rw [blocksWithin, hpieces.blocksFrom_eq_ok depth]
    intro piece hpiece
    have hlevels := Node.levelsAll_flatMap_le_iff.1 (Nat.le_of_lt_succ h) piece hpiece
    obtain ⟨rest, hread⟩ := hpieces.exists_read? hpiece
    exact Piece.parse_eq_ok fun content hcontent =>
      ih ((Piece.levels_cases hread room).1.1 hlevels content hcontent) (depth + 1)

/-- A text that nests deeper is refused. -/
theorem exists_refusal {room : Nat} {text : Text}
    (h : room ≤ Node.levelsAll (documentNodes text)) (depth : Nat) :
    ∃ offset offsets, Refusal room (documentNodes text) offset offsets ∧
      blocksWithin (document []).tokenizers room depth text =
        .error (.parse offset (ParseFault.tooDeep.nestedAt offsets)) := by
  induction room generalizing text depth with
  | zero => exact ⟨0, [], ⟨rfl, rfl, by simp⟩, rfl⟩
  | succ room ih =>
    obtain ⟨pieces, hpieces⟩ := Pieces.exists_pieces 0 text
    rw [hpieces.documentNodes_eq] at h ⊢
    rcases forall_or_exists_first (fun piece => Node.levelsAll piece.unlimitedNodes ≤ room)
      pieces with hall | ⟨before, piece, after, rfl, hbefore, hdeep⟩
    · have := Node.levelsAll_flatMap_le_iff.2 hall
      omega
    · have hmem : piece ∈ before ++ piece :: after :=
        List.mem_append_right before (List.mem_cons_self ..)
      obtain ⟨rest, hread⟩ := hpieces.exists_read? hmem
      obtain ⟨hlevels, hstart⟩ := Piece.levels_cases hread room
      obtain ⟨node, hnode, hoffset⟩ := hstart (Nat.not_le.1 hdeep)
      rcases forall_or_exists_first (fun content => Node.levelsAll (documentNodes content) < room)
        piece.outline.contents with hall | ⟨front, content, back, hcontents, hfront, hcontent⟩
      · exact absurd (hlevels.2 hall) hdeep
      -- The contents in front of the first that goes too deep are parsed, and so are the pieces.
      obtain ⟨offset, offsets, hrefusal, hblocks⟩ := ih (Nat.not_lt.1 hcontent) (depth + 1)
      have hpiece := Piece.parse_eq_error hcontents
        (fun other hother => ⟨_, blocksWithin_eq_ok (hfront other hother) _⟩) hblocks
      rw [← ParseFault.nestedAt_concat] at hpiece
      refine ⟨node.span.start, offsets ++ [offset], ?_, ?_⟩
      · rw [List.flatMap_append, List.flatMap_cons, hnode, List.singleton_append]
        refine hrefusal.surround ?_ ?_
        · exact Node.levelsAll_le_iff.1 (Node.levelsAll_flatMap_le_iff.2 hbefore)
        · simpa [hnode, Node.levelsAll] using hdeep
      · rw [blocksWithin, hpieces.blocksFrom_eq, mapM_eq_error ?_ hpiece, hoffset]
        · rfl
        · intro other hother
          obtain ⟨rest, hread⟩ := hpieces.exists_read? (List.mem_append_left _ hother)
          have hlt := (Piece.levels_cases hread room).1.1 (hbefore other hother)
          exact ⟨_, Piece.parse_eq_ok fun content hcontent =>
            blocksWithin_eq_ok (hlt content hcontent) _⟩

end Parser

/-! ## Documents -/

/-- The tree that the parse without a limit ends with. -/
def documentTree (text : Text) : Node :=
  ⟨.root, ⟨0, Text.byteLength (Text.unifyBreaks text)⟩,
    Parser.documentNodes (Text.unifyBreaks text)⟩

theorem levels_documentTree (text : Text) :
    (documentTree text).levels =
      Node.levelsAll (Parser.documentNodes (Text.unifyBreaks text)) := rfl

theorem parseUnlimited_document (text : Text) :
    (Parser.document []).parseUnlimited text = .ok (documentTree text) := by
  rw [Parser.parseUnlimited, Parser.blocksUnlimited_eq_ok]
  rfl

theorem parseDocument_eq_map (text : Text) :
    parseDocument [] text =
      (Parser.blocksWithin (Parser.document []).tokenizers (nestingLimit + 1) 0
        (Text.unifyBreaks text)).map
        fun nodes => ⟨.root, ⟨0, Text.byteLength (Text.unifyBreaks text)⟩, nodes⟩ := rfl

theorem parseDocument_of_levels_le {text : Text} (h : (documentTree text).levels ≤ nestingLimit) :
    parseDocument [] text = .ok (documentTree text) := by
  rw [levels_documentTree] at h
  rw [parseDocument_eq_map, Parser.blocksWithin_eq_ok (Nat.lt_succ_of_le h)]
  rfl

theorem parseDocument_of_lt_levels {text : Text} (h : nestingLimit < (documentTree text).levels) :
    ∃ offset offsets,
      Refusal (nestingLimit + 1) (documentTree text).children offset offsets ∧
      parseDocument [] text = .error (.parse offset (ParseFault.tooDeep.nestedAt offsets)) := by
  obtain ⟨offset, offsets, hrefusal, hblocks⟩ := Parser.exists_refusal h 0
  refine ⟨offset, offsets, hrefusal, ?_⟩
  rw [parseDocument_eq_map, hblocks]
  rfl

/-- A document has a tree when the one without a limit stays within the limit, and then it is
that one. -/
theorem parseDocument_eq_ok_iff {text : Text} {tree : Node} :
    parseDocument [] text = .ok tree ↔ tree = documentTree text ∧ tree.levels ≤ nestingLimit := by
  constructor
  · intro h
    rcases Nat.lt_or_ge nestingLimit (documentTree text).levels with hdeep | hlevels
    · obtain ⟨offset, offsets, -, herror⟩ := parseDocument_of_lt_levels hdeep
      rw [herror] at h
      simp at h
    · rw [parseDocument_of_levels_le hlevels] at h
      obtain rfl := Except.ok.inj h
      exact ⟨rfl, hlevels⟩
  · rintro ⟨rfl, hlevels⟩
    exact parseDocument_of_levels_le hlevels

/-- The limit only ever refuses. The parse without it goes down into all contents and ends with a
tree; when no path of that tree passes through more containers than the limit allows, it is the
tree of the document, and otherwise the document is refused at the first of its blocks that goes
too deep. -/
theorem parseDocument_within_nestingLimit (text : Text) :
    (Parser.document []).HandsBackShorter ∧
    (∀ depth content, Parser.blocksUnlimited (Parser.document []).tokenizers depth content =
      Parser.blocksFrom (Parser.document []).tokenizers depth
        (Parser.blocksUnlimited (Parser.document []).tokenizers (depth + 1)) 0 content) ∧
    ∃ tree, (Parser.document []).parseUnlimited text = .ok tree ∧
      (tree.levels ≤ nestingLimit → parseDocument [] text = .ok tree) ∧
      (nestingLimit < tree.levels → ∃ before node after offsets fault,
        tree.children = before ++ node :: after ∧
        (∀ other ∈ before, other.levels ≤ nestingLimit) ∧ nestingLimit < node.levels ∧
        parseDocument [] text = .error (.parse node.span.start fault) ∧
        fault = ParseFault.tooDeep.nestedAt offsets ∧
        offsets.length = nestingLimit + 1 ∧ offsets.head? = some 0 ∧
        fault.reason = "containers are nested more than 64 levels deep".toList ++
          offsets.flatMap fun offset =>
            " (at byte ".toList ++ Text.ofNat offset ++ " of the nested content)".toList) ∧
      ∀ error, parseDocument [] text = .error error →
        ∃ offset fault, error = .parse offset fault ∧ fault.cause = .tooDeep := by
  refine ⟨Parser.handsBackShorter_document, Parser.blocksUnlimited_eq, documentTree text,
    parseUnlimited_document text, parseDocument_of_levels_le, fun hdeep => ?_,
    fun error herror => ?_⟩
  · obtain ⟨offset, offsets, hrefusal, hparse⟩ := parseDocument_of_lt_levels hdeep
    obtain ⟨before, node, after, hnodes, hbefore, hnode, rfl⟩ := hrefusal.first nestingLimit rfl
    -- There was room for the document itself, so what was refused at once lies inside of it.
    have hne : offsets ≠ [] := by
      rintro rfl
      exact absurd hrefusal.length (by simp)
    have hinnermost : offsets.head? = some 0 := by
      rw [← List.head?_append_of_ne_nil offsets hne]
      exact hrefusal.innermost
    refine ⟨before, node, after, offsets, _, hnodes, hbefore, hnode, hparse, rfl,
      hrefusal.length, hinnermost, ?_⟩
    rw [ParseFault.reason_nestedAt, ParseFault.reason_tooDeep]
  · rcases Nat.lt_or_ge nestingLimit (documentTree text).levels with hdeep | hlevels
    · obtain ⟨offset, offsets, -, hparse⟩ := parseDocument_of_lt_levels hdeep
      rw [hparse] at herror
      obtain rfl := Except.error.inj herror
      exact ⟨offset, _, rfl, ParseFault.cause_nestedAt _ offsets⟩
    · rw [parseDocument_of_levels_le hlevels] at herror
      simp at herror

end DocumentLayout
