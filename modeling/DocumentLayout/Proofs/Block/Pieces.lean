import DocumentLayout.Proofs.Block.Contents
import DocumentLayout.Proofs.Traversal

/-!
# Pieces of a text

A document is cut into pieces from left to right, each the outline of a claim, and the cuts do not
depend on what the contents of containers parse to. Parsing a document is parsing its pieces in
order, and it fails only where the content of a container fails.
-/

namespace DocumentLayout

namespace Parser

theorem after_append (taken rest : Text) :
    after (Text.byteLength taken) (taken ++ rest) = rest := by
  rw [after, Text.dropBytes?_append]
  rfl

theorem after_eq_nil {length : Nat} {text : Text} (h : Text.byteLength text ≤ length) :
    after length text = [] := by
  rcases h.eq_or_lt with rfl | hlt
  · simpa using after_append text []
  · rw [after, Text.dropBytes?_eq_none hlt]
    rfl

theorem after_suffix (length : Nat) (text : Text) : after length text <:+ text := by
  unfold after
  cases h : Text.dropBytes? length text with
  | none => exact List.nil_suffix
  | some rest =>
    obtain ⟨taken, rfl, -⟩ := Text.exists_of_dropBytes? h
    exact List.suffix_append taken rest

theorem parse_eq_ok {parser : Parser} {text : Text} {tree : Node}
    (h : parser.parse text = .ok tree) :
    tree = ⟨.root, ⟨0, Text.byteLength (Text.unifyBreaks text)⟩, tree.children⟩ ∧
      parser.blocks (Text.unifyBreaks text) = .ok tree.children := by
  obtain ⟨nodes, hblocks, rfl⟩ := exists_of_map_eq_ok h
  exact ⟨rfl, hblocks⟩

theorem parse_eq_error_iff {parser : Parser} {text : Text} {error : Error} :
    parser.parse text = .error error ↔ parser.blocks (Text.unifyBreaks text) = .error error :=
  map_eq_error_iff

end Parser

/-! ## What an outline takes -/

namespace Outline

/-- The kind of the block of an outline, if it makes one. -/
def kind? : Outline → Option NodeKind
  | leaf claim => claim.block.map (·.1)
  | quote _ => some .blockQuote
  | list marker _ => some (.list marker.ordered)

theorem block?_map_fst (outline : Outline) (offset : Nat) (parts : List (List Node)) :
    (outline.block? offset parts).map (·.1) = outline.kind? := by
  cases outline <;> rfl

/-- An outline claims the text `taken` in front of `rest`. -/
structure Takes (outline : Outline) (taken rest : Text) : Prop where
  size : Text.byteLength taken = outline.length
  nonempty : taken ≠ []
  shorter : ∀ content ∈ outline.contents, content.length < taken.length
  lines : (∀ block, outline.kind? ≠ some (.statement block)) → taken.getLast? = some '\n'
  statement : ∀ block, outline.kind? = some (.statement block) → rest.head? = some '\n'
  blank : outline.kind? = none → ∀ c ∈ taken, Text.isSpace c = true

/-- An outline of whole lines that is no statement block takes those lines. -/
theorem takes_of_prefix {text : Text} {taken : List Line} {outline : Outline}
    (hstarts : taken <+: Line.ofText (text ++ Parser.terminator)) (hne : taken ≠ [])
    (hsize : outline.length = Line.totalSize taken)
    (hshorter : ∀ content ∈ outline.contents, content.length < (Line.toText taken).length)
    (hkind : ∀ block, outline.kind? ≠ some (.statement block))
    (hblank : outline.kind? = none → ∀ line ∈ taken, line.isBlank = true) :
    ∃ front rest, text ++ Parser.terminator = front ++ rest ∧ outline.Takes front rest := by
  have hwhole : ∀ line ∈ taken, line.IsWhole := fun line hmem =>
    Parser.isWhole_of_mem (hstarts.subset hmem)
  obtain ⟨rest, hrest⟩ := hstarts
  refine ⟨Line.toText taken, Line.toText rest, ?_, ?_⟩
  · rw [← Line.toText_append, hrest, Line.toText_ofText]
  · exact {
      size := by rw [Line.byteLength_toText, hsize]
      nonempty := Line.toText_ne_nil hne hwhole
      shorter := hshorter
      lines := fun _ => Line.getLast?_toText hne hwhole
      statement := fun block h => absurd h (hkind block)
      blank := fun h _ hc => Line.isSpace_of_mem_toText (hblank h) hc }

/-- Every outline of a document takes a part of the text that is not empty. -/
theorem read?_takes {text : Text} {outline : Outline}
    (h : read? (text ++ Parser.terminator) = some outline) :
    ∃ taken rest, text ++ Parser.terminator = taken ++ rest ∧ outline.Takes taken rest := by
  rcases read?_cases h with
    ⟨claim, rfl, hlines⟩ | ⟨claim, rfl, hstatement⟩ | ⟨hne, rfl⟩ | ⟨marker, items, hlist, rfl⟩
  · obtain ⟨taken, hstarts, hne, hsize, hblock⟩ := hlines
    refine takes_of_prefix hstarts hne hsize (by simp [contents]) ?_ ?_
    · rcases hblock with ⟨hnone, -⟩ | ⟨kind, hkind, hsome⟩
      · simp [kind?, hnone]
      · rintro block hb
        obtain rfl : kind = .statement block := by simpa [kind?, hsome] using hb
        simp [NodeKind.isPlain] at hkind
    · rcases hblock with ⟨-, hblank⟩ | ⟨kind, -, hsome⟩
      · exact fun _ => hblank
      · simp [kind?, hsome]
  · -- A statement block is the one outline that is not made of whole lines.
    obtain ⟨block, rest, rfl, hne, htext⟩ := Block.statement_eq_some hstatement
    refine ⟨block.text, '\n' :: '\n' :: rest, htext, ?_⟩
    exact {
      size := rfl
      nonempty := hne
      shorter := by simp [contents]
      lines := fun h => absurd rfl (h block)
      statement := fun _ _ => rfl
      blank := fun h => by simp [kind?, Claim.leaf] at h }
  · have hstarts := Block.quoteLines_prefix (Line.ofText (text ++ Parser.terminator))
    refine takes_of_prefix hstarts (by simpa using hne) rfl ?_ (by simp [kind?]) (by simp [kind?])
    intro content hcontent
    obtain rfl := List.mem_singleton.1 hcontent
    exact Nat.lt_of_succ_lt ((Block.quoteLines_strips hne).length_content fun line hmem =>
      Parser.isWhole_of_mem (hstarts.subset hmem))
  · -- The lines of one item are some of the lines that the list takes.
    obtain ⟨hstarts, hne, hstripped⟩ := Block.listLines?_eq_some hlist
    refine takes_of_prefix hstarts ?_ (itemsSize_eq items) ?_ (by simp [kind?]) (by simp [kind?])
    · obtain ⟨item, more, rfl⟩ := List.exists_cons_of_ne_nil hne
      obtain ⟨line, hline, -⟩ := (hstripped item (List.mem_cons_self ..)).last
      intro hnil
      obtain ⟨-, hlines⟩ := List.append_eq_nil_iff.1 (List.append_eq_nil_iff.1 hnil).1
      simp [hlines] at hline
    · intro content hcontent
      obtain ⟨item, hitem, rfl⟩ := List.mem_map.1 hcontent
      have hlines := Block.Item.lines_infix hitem
      have hlt := (hstripped item hitem).strips.length_content fun line hmem =>
        Parser.isWhole_of_mem (hstarts.subset (hlines.subset hmem))
      have hle := Line.length_toText_le hlines
      omega

theorem Takes.isValidLength {outline : Outline} {taken rest : Text}
    (h : outline.Takes taken rest) :
    Parser.isValidLength outline.length (taken ++ rest) = true := by
  have hpos := Text.byteLength_pos h.nonempty
  rw [Parser.isValidLength, ← h.size, Text.dropBytes?_append]
  simp only [Option.isSome_some, Bool.and_true, bne_iff_ne]
  omega

end Outline

/-! ## Cutting a text into pieces -/

/-- An outline at an offset of a text, with the number of bytes of the text from there on. -/
structure Piece where
  offset : Nat
  left : Nat
  outline : Outline

namespace Piece

/-- The nodes of a piece, one or none, given the nodes of its contents. -/
def nodes (piece : Piece) (parts : List (List Node)) : List Node :=
  Parser.place piece.offset piece.left (piece.outline.claim piece.offset parts)

/-- The nodes of a piece whose contents are parsed by `nested`. -/
def parse (nested : Text → Except Error (List Node)) (piece : Piece) : Except Error (List Node) :=
  (piece.outline.contents.mapM fun content =>
    (nested content).mapError (.within piece.offset)).map piece.nodes

-- A piece makes no node, or one from its offset to the end of its claim within the text.
theorem nodes_cases (piece : Piece) (parts : List (List Node)) :
    (piece.outline.kind? = none ∧ piece.nodes parts = []) ∨
      ∃ kind children, piece.outline.kind? = some kind ∧
        piece.outline.block? piece.offset parts = some (kind, children) ∧
        piece.nodes parts =
          [⟨kind, ⟨piece.offset, piece.offset + min piece.outline.length piece.left⟩,
            children⟩] := by
  rw [← Outline.block?_map_fst piece.outline piece.offset parts]
  cases hblock : piece.outline.block? piece.offset parts with
  | none => exact .inl ⟨rfl, by simp [nodes, Parser.place, Outline.claim, hblock]⟩
  | some block =>
    obtain ⟨kind, children⟩ := block
    exact .inr ⟨kind, children, rfl, rfl, by simp [nodes, Parser.place, Outline.claim, hblock]⟩

theorem exists_of_parse {nested : Text → Except Error (List Node)} {piece : Piece}
    {nodes : List Node} (h : piece.parse nested = .ok nodes) :
    ∃ parts, nodes = piece.nodes parts := by
  obtain ⟨parts, -, hnodes⟩ := exists_of_map_eq_ok h
  exact ⟨parts, hnodes⟩

end Piece

/-- The pieces of a text that starts at an offset, in order. -/
inductive Pieces : Nat → Text → List Piece → Prop
  | done (offset : Nat) : Pieces offset [] []
  | step {offset : Nat} {text : Text} {outline : Outline} {pieces : List Piece} (hne : text ≠ [])
      (hread : Outline.read? (text ++ Parser.terminator) = some outline)
      (hrest : Pieces (offset + outline.length) (Parser.after outline.length text) pieces) :
      Pieces offset text (⟨offset, Text.byteLength text, outline⟩ :: pieces)

namespace Outline

theorem length_after_lt {text : Text} {outline : Outline} (hne : text ≠ [])
    (h : read? (text ++ Parser.terminator) = some outline) :
    (Parser.after outline.length text).length < text.length := by
  obtain ⟨taken, rest, -, htakes⟩ := read?_takes h
  have hpos := Text.byteLength_pos htakes.nonempty
  exact Parser.length_after_lt (by rw [← htakes.size]; omega) hne

end Outline

namespace Pieces

theorem exists_pieces (offset : Nat) (text : Text) : ∃ pieces, Pieces offset text pieces := by
  -- Every outline takes something, so less is left behind it.
  induction hn : text.length using Nat.strong_induction_on generalizing offset text with
  | h n ih =>
    by_cases hne : text = []
    · subst hne
      exact ⟨[], .done offset⟩
    · obtain ⟨outline, hread⟩ :=
        @Outline.exists_read? (text ++ Parser.terminator) (by simp [hne])
      have hlt := Outline.length_after_lt hne hread
      obtain ⟨pieces, hrest⟩ := ih (Parser.after outline.length text).length (by omega)
        (offset + outline.length) (Parser.after outline.length text) rfl
      exact ⟨_, .step hne hread hrest⟩

theorem length_content_lt {offset : Nat} {text : Text} {pieces : List Piece}
    (h : Pieces offset text pieces) :
    ∀ piece ∈ pieces, ∀ content ∈ piece.outline.contents, content.length < text.length := by
  induction h with
  | done => simp
  | @step offset text outline pieces hne hread _ ih =>
    intro piece hpiece content hcontent
    rcases List.mem_cons.1 hpiece with rfl | hpiece
    · exact Outline.length_lt_of_mem_contents hread hcontent
    · exact (ih piece hpiece content hcontent).trans (Outline.length_after_lt hne hread)

theorem exists_suffix {offset : Nat} {text : Text} {pieces : List Piece}
    (h : Pieces offset text pieces) {piece : Piece} (hpiece : piece ∈ pieces) :
    ∃ rest, rest <:+ text ∧ Outline.read? (rest ++ Parser.terminator) = some piece.outline := by
  induction h with
  | done => simp at hpiece
  | @step offset text outline pieces _ hread _ ih =>
    rcases List.mem_cons.1 hpiece with rfl | hpiece
    · exact ⟨text, List.suffix_rfl, hread⟩
    · obtain ⟨rest, hsuffix, hrest⟩ := ih hpiece
      exact ⟨rest, hsuffix.trans (Parser.after_suffix _ _), hrest⟩

/-- Every piece is the outline at the start of some rest of the text. -/
theorem exists_read? {offset : Nat} {text : Text} {pieces : List Piece}
    (h : Pieces offset text pieces) {piece : Piece} (hpiece : piece ∈ pieces) :
    ∃ rest, Outline.read? (rest ++ Parser.terminator) = some piece.outline := by
  obtain ⟨rest, -, hread⟩ := h.exists_suffix hpiece
  exact ⟨rest, hread⟩

/-- Tokenizers that claim the outline at every rest of a text parse its pieces, one after
another. -/
theorem blocksFrom_eq_of_outlines {tokenizers : List Tokenizer} {offset : Nat} {text : Text}
    {pieces : List Piece} (h : Pieces offset text pieces)
    (houtlines : ∀ rest, rest <:+ text → Parser.Outlines tokenizers (rest ++ Parser.terminator))
    (depth : Nat) (nested : Text → Except Error (List Node)) :
    Parser.blocksFrom tokenizers depth nested offset text =
      (pieces.mapM (Piece.parse nested)).map List.flatten := by
  induction h with
  | done => simp [Parser.blocksFrom, pure, Except.pure, Except.map]
  | @step offset text outline pieces hne hread _ ih =>
    obtain ⟨taken, rest, htext, htakes⟩ := Outline.read?_takes hread
    obtain ⟨name, hclaim⟩ := houtlines text List.suffix_rfl outline hread
    have hrest := ih fun rest hsuffix => houtlines rest (hsuffix.trans (Parser.after_suffix _ _))
    -- The claim has a valid length whatever the contents parse to, so only they can fail.
    have hvalid := htakes.isValidLength
    rw [← htext] at hvalid
    rw [Parser.blocksFrom, dif_neg hne]
    simp only [hclaim, Outline.consume]
    rw [List.mapM_cons, Piece.parse]
    cases outline.contents.mapM fun content => (nested content).mapError (Error.within offset) with
    | error error => rfl
    | ok parts =>
      simp only [Except.map, Outline.claim, dif_pos hvalid, hrest]
      cases pieces.mapM (Piece.parse nested) <;> rfl

/-- Parsing a text is parsing its pieces, one after another. -/
theorem blocksFrom_eq {offset : Nat} {text : Text} {pieces : List Piece}
    (h : Pieces offset text pieces) (depth : Nat) (nested : Text → Except Error (List Node)) :
    Parser.blocksFrom (Parser.document []).tokenizers depth nested offset text =
      (pieces.mapM (Piece.parse nested)).map List.flatten :=
  h.blocksFrom_eq_of_outlines (fun _ _ _ => Parser.claimAt?_document) depth nested

-- Only texts that are shorter than the text itself are parsed as contents.
theorem blocksFrom_congr {offset : Nat} {text : Text} {pieces : List Piece}
    (h : Pieces offset text pieces) (depth depth' : Nat)
    {nested nested' : Text → Except Error (List Node)}
    (hnested : ∀ content : Text, content.length < text.length → nested content = nested' content) :
    Parser.blocksFrom (Parser.document []).tokenizers depth nested offset text =
      Parser.blocksFrom (Parser.document []).tokenizers depth' nested' offset text := by
  rw [h.blocksFrom_eq, h.blocksFrom_eq]
  congr 1
  refine mapM_congr fun piece hpiece => ?_
  unfold Piece.parse
  congr 1
  refine mapM_congr fun content hcontent => ?_
  rw [hnested content (h.length_content_lt piece hpiece content hcontent)]

/-- The nodes of a text are those of its pieces, one group after another. -/
theorem exists_groups {offset : Nat} {text : Text} {pieces : List Piece}
    (h : Pieces offset text pieces) {depth : Nat} {nested : Text → Except Error (List Node)}
    {nodes : List Node}
    (hblocks : Parser.blocksFrom (Parser.document []).tokenizers depth nested offset text =
      .ok nodes) :
    ∃ groups, pieces.mapM (Piece.parse nested) = .ok groups ∧ nodes = groups.flatten := by
  rw [h.blocksFrom_eq] at hblocks
  exact exists_of_map_eq_ok hblocks

end Pieces

/-! ## Other tokenizers -/

/-- Tokenizers that claim the outlines in a class of texts parse those texts as the tokenizers of
documents do. The class holds the rests of its texts and the contents of the containers in them. -/
theorem Parser.blocksWithin_eq_of_outlines {tokenizers : List Tokenizer} {p : Text → Prop}
    (hsuffix : ∀ {text rest : Text}, p text → rest <:+ text → p rest)
    (hcontents : ∀ {text content : Text} {outline : Outline}, p text →
      Outline.read? (text ++ terminator) = some outline → content ∈ outline.contents → p content)
    (houtlines : ∀ {text : Text}, p text → Outlines tokenizers (text ++ terminator))
    {text : Text} (h : p text) (room depth : Nat) :
    blocksWithin tokenizers room depth text =
      blocksWithin (document []).tokenizers room depth text := by
  -- By induction on the room, since contents are in the class, too.
  induction room generalizing text depth with
  | zero => rfl
  | succ room ih =>
    obtain ⟨pieces, hpieces⟩ := Pieces.exists_pieces 0 text
    rw [blocksWithin, blocksWithin, hpieces.blocksFrom_eq,
      hpieces.blocksFrom_eq_of_outlines fun rest hrest => houtlines (hsuffix h hrest)]
    congr 1
    refine mapM_congr fun piece hpiece => ?_
    obtain ⟨rest, hrest, hread⟩ := hpieces.exists_suffix hpiece
    unfold Piece.parse
    congr 1
    refine mapM_congr fun content hcontent => ?_
    rw [ih (hcontents (hsuffix h hrest) hread hcontent)]

end DocumentLayout
