import DocumentLayout.Proofs.Block.Pieces

/-!
# Tiling

The nodes of a document lie one after another, start at starts of lines, and leave out nothing but
white space. A statement block is the one block that stops in front of a line feed; the blank line
that follows it brings the parse back to the start of a line before the next block.
-/

namespace DocumentLayout

/-! ## Positions in a text -/

namespace Text

/-- A line of the text starts at byte `offset`. -/
def StartsLineAt (text : Text) (offset : Nat) : Prop :=
  ∃ before after, text = before ++ after ∧ byteLength before = offset ∧
    (before = [] ∨ before.getLast? = some '\n')

/-- Byte `offset` is the end of the text or stands right behind a line feed. -/
def StopsLineAt (text : Text) (offset : Nat) : Prop :=
  ∃ before after, text = before ++ after ∧ byteLength before = offset ∧
    (after = [] ∨ before.getLast? = some '\n')

/-- Byte `offset` is the end of the text or stands right in front of a line feed. -/
def StopsBeforeFeedAt (text : Text) (offset : Nat) : Prop :=
  ∃ before after, text = before ++ after ∧ byteLength before = offset ∧
    (after = [] ∨ after.head? = some '\n')

-- A character of two texts joined is one of the first or one of the second.
theorem append_eq_append_cons {front back before after : Text} {c : Char}
    (h : front ++ back = before ++ c :: after) :
    (∃ inner, before = front ++ inner ∧ back = inner ++ c :: after) ∨
      ∃ inner, front = before ++ c :: inner := by
  rcases List.append_eq_append_iff.1 h with ⟨inner, rfl, hback⟩ | ⟨inner, rfl, hinner⟩
  · exact .inl ⟨inner, rfl, hback⟩
  · cases inner with
    | nil => exact .inl ⟨[], by simp, by simpa using hinner.symm⟩
    | cons d inner =>
      obtain ⟨rfl, -⟩ := List.cons.inj hinner
      exact .inr ⟨inner, rfl⟩

end Text

/-- The character `c` at byte `offset` lies in the span. -/
def Span.Holds (span : Span) (offset : Nat) (c : Char) : Prop :=
  span.start ≤ offset ∧ offset + c.utf8Size ≤ span.stop

/-! ## One step -/

namespace Outline

/-- An outline covers `front` of a text of which `back` is left. -/
structure Covers (outline : Outline) (text front back : Text) : Prop where
  split : text = front ++ back
  nonempty : front ≠ []
  after : Parser.after outline.length text = back
  size : min outline.length (Text.byteLength text) = Text.byteLength front
  lines : (∀ block, outline.kind? ≠ some (.statement block)) →
    back = [] ∨ front.getLast? = some '\n'
  statement : ∀ block, outline.kind? = some (.statement block) →
    back = [] ∨ back.head? = some '\n'
  blank : outline.kind? = none → ∀ c ∈ front, Text.isSpace c = true

/-- What an outline takes is a part of the text, or all of it and some of the terminator. -/
theorem exists_covers {text : Text} {outline : Outline} (hne : text ≠ [])
    (h : read? (text ++ Parser.terminator) = some outline) :
    ∃ front back, outline.Covers text front back := by
  obtain ⟨taken, rest, htext, htakes⟩ := read?_takes h
  have hsize := htakes.size
  rcases List.append_eq_append_iff.1 htext with ⟨extra, rfl, hrest⟩ | ⟨back, rfl, hrest⟩
  · -- The claim reaches the end of the text.
    have hle : Text.byteLength text ≤ outline.length := by
      rw [← hsize, Text.byteLength_append]
      omega
    exact ⟨text, [], {
      split := by simp
      nonempty := hne
      after := Parser.after_eq_nil hle
      size := by omega
      lines := fun _ => .inl rfl
      statement := fun _ _ => .inl rfl
      blank := fun hkind c hc => htakes.blank hkind c (List.mem_append_left _ hc) }⟩
  · exact ⟨taken, back, {
      split := rfl
      nonempty := htakes.nonempty
      after := by rw [← hsize, Parser.after_append]
      size := by
        rw [← hsize, Text.byteLength_append]
        omega
      lines := fun hkind => .inr (htakes.lines hkind)
      statement := fun block hkind => by
        have hhead := htakes.statement block hkind
        cases back with
        | nil => exact .inl rfl
        | cons c back =>
          rw [hrest] at hhead
          exact .inr hhead
      blank := htakes.blank }⟩

/-- A claim that does not reach the end of the text has the bytes that it covers. -/
theorem Covers.length_eq {outline : Outline} {text front back : Text}
    (h : outline.Covers text front back) (hback : back ≠ []) :
    outline.length = Text.byteLength front := by
  have hsize := h.size
  have hpos := Text.byteLength_pos hback
  rw [h.split, Text.byteLength_append] at hsize
  omega

-- An outline makes no block where the text goes on with a line feed.
theorem kind?_of_feed {text : Text} {outline : Outline} (hhead : text.head? = some '\n')
    (h : read? (text ++ Parser.terminator) = some outline) : outline.kind? = none := by
  obtain ⟨rest, rfl⟩ : ∃ rest, text = '\n' :: rest := by
    cases text with
    | nil => simp at hhead
    | cons c rest => exact ⟨rest, by simpa using hhead⟩
  have hlines : Line.ofText ('\n' :: rest ++ Parser.terminator) =
      ⟨[], true⟩ :: Line.ofText (rest ++ Parser.terminator) :=
    Line.ofText_feed _
  rw [read?_of_isBlank hlines (Line.isBlank_empty true)] at h
  obtain rfl := Option.some.inj h
  rfl

end Outline

/-! ## All steps -/

/-- A parse that has read `done` can go on with a block in `text`: it stands at the start of a line,
or only after the line feed that comes next. -/
def Resumes (done text : Text) : Prop :=
  done = [] ∨ done.getLast? = some '\n' ∨ text = [] ∨ text.head? = some '\n'

/-- Nodes that tile the text `text` behind `done`. -/
structure TilesFrom (done text : Text) (nodes : List Node) : Prop where
  start_le : ∀ node ∈ nodes, Text.byteLength done ≤ node.span.start
  nonempty : ∀ node ∈ nodes, node.span.start < node.span.stop
  increasing : nodes.Pairwise fun first second => first.span.stop ≤ second.span.start
  starts : ∀ node ∈ nodes, (done ++ text).StartsLineAt node.span.start
  stops : ∀ node ∈ nodes, node.statement? = none → (done ++ text).StopsLineAt node.span.stop
  stops_statement : ∀ node ∈ nodes, node.statement?.isSome →
    (done ++ text).StopsBeforeFeedAt node.span.stop
  blank : ∀ before c after, text = before ++ c :: after →
    (∀ node ∈ nodes, ¬ node.span.Holds (Text.byteLength done + Text.byteLength before) c) →
    Text.isSpace c = true

theorem TilesFrom.nil (done : Text) : TilesFrom done [] [] where
  start_le := by simp
  nonempty := by simp
  increasing := List.Pairwise.nil
  starts := by simp
  stops := by simp
  stops_statement := by simp
  blank := by simp

theorem TilesFrom.skip {done front back : Text} {nodes : List Node}
    (hfront : ∀ c ∈ front, Text.isSpace c = true) (h : TilesFrom (done ++ front) back nodes) :
    TilesFrom done (front ++ back) nodes where
  start_le node hnode := by
    have := h.start_le node hnode
    rw [Text.byteLength_append] at this
    omega
  nonempty := h.nonempty
  increasing := h.increasing
  starts := by simpa using h.starts
  stops := by simpa using h.stops
  stops_statement := by simpa using h.stops_statement
  blank before c after htext hholds := by
    rcases Text.append_eq_append_cons htext with ⟨inner, rfl, hback⟩ | ⟨inner, rfl⟩
    · refine h.blank inner c after hback fun node hnode => ?_
      rw [Text.byteLength_append, Nat.add_assoc, ← Text.byteLength_append]
      exact hholds node hnode
    · exact hfront c (by simp)

theorem TilesFrom.block {done front back : Text} {node : Node} {nodes : List Node}
    (hspan : node.span = ⟨Text.byteLength done, Text.byteLength (done ++ front)⟩)
    (hne : front ≠ []) (hstart : done = [] ∨ done.getLast? = some '\n')
    (hstop : node.statement? = none → back = [] ∨ (done ++ front).getLast? = some '\n')
    (hstatement : node.statement?.isSome → back = [] ∨ back.head? = some '\n')
    (h : TilesFrom (done ++ front) back nodes) :
    TilesFrom done (front ++ back) (node :: nodes) where
  start_le other hother := by
    rcases List.mem_cons.1 hother with rfl | hother
    · rw [hspan]
    · have := h.start_le other hother
      rw [Text.byteLength_append] at this
      omega
  nonempty other hother := by
    rcases List.mem_cons.1 hother with rfl | hother
    · have := Text.byteLength_pos hne
      rw [hspan, Text.byteLength_append]
      dsimp only
      omega
    · exact h.nonempty other hother
  increasing := by
    refine List.pairwise_cons.2 ⟨fun other hother => ?_, h.increasing⟩
    rw [hspan]
    exact h.start_le other hother
  starts other hother := by
    rcases List.mem_cons.1 hother with rfl | hother
    · exact ⟨done, front ++ back, rfl, by rw [hspan], hstart⟩
    · simpa using h.starts other hother
  stops other hother hnone := by
    rcases List.mem_cons.1 hother with rfl | hother
    · exact ⟨done ++ front, back, by simp, by rw [hspan], hstop hnone⟩
    · simpa using h.stops other hother hnone
  stops_statement other hother hsome := by
    rcases List.mem_cons.1 hother with rfl | hother
    · exact ⟨done ++ front, back, by simp, by rw [hspan], hstatement hsome⟩
    · simpa using h.stops_statement other hother hsome
  blank before c after htext hholds := by
    rcases Text.append_eq_append_cons htext with ⟨inner, rfl, hback⟩ | ⟨inner, rfl⟩
    · refine h.blank inner c after hback fun other hother => ?_
      rw [Text.byteLength_append, Nat.add_assoc, ← Text.byteLength_append]
      exact hholds other (List.mem_cons_of_mem _ hother)
    · -- The character would lie in the block.
      refine absurd ?_ (hholds node (List.mem_cons_self ..))
      rw [hspan]
      constructor <;> simp only [Text.byteLength_append, Text.byteLength_cons] <;> omega

/-! ## The run of a parse -/

namespace Outline

-- Behind an outline the parse can go on.
theorem Covers.resumes {outline : Outline} {text front back : Text}
    (h : outline.Covers text front back) (done : Text) : Resumes (done ++ front) back := by
  by_cases hkind : ∃ block, outline.kind? = some (.statement block)
  · obtain ⟨block, hblock⟩ := hkind
    exact .inr (.inr (h.statement block hblock))
  · rcases h.lines (not_exists.1 hkind) with hback | hlast
    · exact .inr (.inr (.inl hback))
    · exact .inr (.inl (by rw [List.getLast?_append, hlast]; rfl))

end Outline

-- A block starts at the start of a line: where a line feed comes next there is a blank line.
theorem Resumes.startsLine {done text : Text} (h : Resumes done text) (hne : text ≠ [])
    {outline : Outline} (hread : Outline.read? (text ++ Parser.terminator) = some outline)
    {kind : NodeKind} (hkind : outline.kind? = some kind) :
    done = [] ∨ done.getLast? = some '\n' := by
  rcases h with hdone | hlast | hnil | hhead
  · exact .inl hdone
  · exact .inr hlast
  · exact absurd hnil hne
  · rw [Outline.kind?_of_feed hhead hread] at hkind
    simp at hkind

namespace Pieces

/-- A piece that makes a block starts at the start of a line. -/
theorem exists_line {offset : Nat} {text : Text} {pieces : List Piece}
    (h : Pieces offset text pieces)
    {done : Text} (hresume : Resumes done text) {piece : Piece} (hpiece : piece ∈ pieces)
    {kind : NodeKind} (hkind : piece.outline.kind? = some kind) :
    ∃ front rest, text = front ++ rest ∧
      (done ++ front = [] ∨ (done ++ front).getLast? = some '\n') ∧
      Outline.read? (rest ++ Parser.terminator) = some piece.outline := by
  induction h generalizing done with
  | done => simp at hpiece
  | @step offset text outline pieces hne hread _ ih =>
    rcases List.mem_cons.1 hpiece with rfl | hpiece
    · refine ⟨[], text, rfl, ?_, hread⟩
      rw [List.append_nil]
      exact hresume.startsLine hne hread hkind
    · obtain ⟨front, back, hcovers⟩ := Outline.exists_covers hne hread
      rw [hcovers.after] at ih
      obtain ⟨more, rest, hback, hstart, hrest⟩ := ih (hcovers.resumes done) hpiece
      refine ⟨front ++ more, rest, ?_, ?_, hrest⟩
      · rw [hcovers.split, hback, List.append_assoc]
      · rwa [← List.append_assoc]

/-- The nodes of a text tile it, whatever the contents of its containers parse to. -/
theorem tilesFrom {offset : Nat} {text : Text} {pieces : List Piece} (h : Pieces offset text pieces)
    {nested : Text → Except Error (List Node)} {groups : List (List Node)}
    (hparse : pieces.mapM (Piece.parse nested) = .ok groups) {done : Text}
    (hdone : text ≠ [] → Text.byteLength done = offset) (hresume : Resumes done text) :
    TilesFrom done text groups.flatten := by
  induction h generalizing groups done with
  | done =>
    obtain rfl : groups = [] := by simpa [pure, Except.pure, eq_comm] using hparse
    exact TilesFrom.nil done
  | @step offset text outline pieces hne hread _ ih =>
    obtain ⟨first, others, hfirst, hothers, rfl⟩ := exists_of_mapM_cons hparse
    obtain ⟨parts, rfl⟩ := Piece.exists_of_parse hfirst
    obtain ⟨front, back, hcovers⟩ := Outline.exists_covers hne hread
    -- The offset counts what was claimed, which runs over the end of the text at the last piece.
    have hfront : back ≠ [] → Text.byteLength (done ++ front) = offset + outline.length := by
      intro hback
      have hsize := hcovers.size
      have hpos := Text.byteLength_pos hback
      rw [hcovers.split, Text.byteLength_append] at hsize
      rw [Text.byteLength_append, hdone hne]
      omega
    rw [hcovers.after] at ih
    have hrest := ih hothers hfront (hcovers.resumes done)
    rw [List.flatten_cons]
    rcases Piece.nodes_cases ⟨offset, Text.byteLength text, outline⟩ parts with
      ⟨hkind, hnodes⟩ | ⟨kind, children, hkind, -, hnodes⟩
    · rw [hnodes, hcovers.split]
      exact .skip (hcovers.blank hkind) hrest
    · -- Behind a statement block the next outline is a blank line, so no block starts there.
      have hstart := hresume.startsLine hne hread hkind
      rw [hnodes, hcovers.split]
      refine .block ?_ hcovers.nonempty hstart ?_ ?_ hrest
      · rw [← hcovers.split, hcovers.size, Text.byteLength_append, hdone hne]
        rfl
      · intro hnone
        have hplain : ∀ block, outline.kind? ≠ some (.statement block) := by
          rintro block hblock
          obtain rfl : kind = .statement block := by simpa [hkind] using hblock
          simp [Node.statement?, Node.kind] at hnone
        rw [List.getLast?_append]
        exact (hcovers.lines hplain).imp_right fun hlast => by rw [hlast]; rfl
      · intro hsome
        obtain ⟨block, rfl⟩ : ∃ block, kind = .statement block := by
          cases kind <;> simp_all [Node.statement?, Node.kind]
        exact hcovers.statement block hkind

end Pieces

/-! ## Documents -/

-- Of nodes that lie one after another at most one holds a given character.
theorem eq_of_holds {nodes : List Node}
    (h : nodes.Pairwise fun first second => first.span.stop ≤ second.span.start) {a b : Node}
    {offset : Nat} {c : Char} (ha : a ∈ nodes) (hb : b ∈ nodes) (hholdsA : a.span.Holds offset c)
    (hholdsB : b.span.Holds offset c) : a = b := by
  have hpos := Char.utf8Size_pos c
  have hstartA := hholdsA.1
  have hstopA := hholdsA.2
  have hstartB := hholdsB.1
  have hstopB := hholdsB.2
  -- Were one of them in front of the other, it would stop before the character starts.
  induction h with
  | nil => simp at ha
  | @cons first rest hfirst _ ih =>
    rcases List.mem_cons.1 ha with rfl | hmemA <;> rcases List.mem_cons.1 hb with rfl | hmemB
    · rfl
    · have := hfirst b hmemB
      omega
    · have := hfirst a hmemA
      omega
    · exact ih hmemA hmemB

/-- The nodes below a root tile a text: they lie one after another from starts of lines to ends of
lines, a statement block stops right in front of a line feed, and every character that is not white
space lies in exactly one of them. -/
structure Tiles (tree : Node) (text : Text) : Prop where
  kind : tree.kind = .root
  span : tree.span = ⟨0, Text.byteLength text⟩
  nonempty : ∀ node ∈ tree.children, node.span.start < node.span.stop
  increasing : tree.children.Pairwise fun first second => first.span.stop ≤ second.span.start
  starts : ∀ node ∈ tree.children, text.StartsLineAt node.span.start
  stops : ∀ node ∈ tree.children, node.statement? = none → text.StopsLineAt node.span.stop
  stops_statement : ∀ node ∈ tree.children, node.statement?.isSome →
    text.StopsBeforeFeedAt node.span.stop
  blank : ∀ before c after, text = before ++ c :: after →
    (∀ node ∈ tree.children, ¬ node.span.Holds (Text.byteLength before) c) →
    Text.isSpace c = true
  unique : ∀ before c after, text = before ++ c :: after → Text.isSpace c = false →
    ∃! node, node ∈ tree.children ∧ node.span.Holds (Text.byteLength before) c

theorem TilesFrom.tiles {text : Text} {nodes : List Node} (h : TilesFrom [] text nodes) :
    Tiles ⟨.root, ⟨0, Text.byteLength text⟩, nodes⟩ text where
  kind := rfl
  span := rfl
  nonempty := h.nonempty
  increasing := h.increasing
  starts := h.starts
  stops := h.stops
  stops_statement := h.stops_statement
  blank := by simpa [Node.children] using h.blank
  unique before c after htext hspace := by
    obtain ⟨node, hnode, hholds⟩ : ∃ node ∈ nodes, node.span.Holds (Text.byteLength before) c := by
      by_contra hnone
      push Not at hnone
      rw [h.blank before c after htext (by simpa using hnone)] at hspace
      exact absurd hspace (by decide)
    exact ⟨node, ⟨hnode, hholds⟩, fun other hother =>
      eq_of_holds h.increasing hother.1 hnode hother.2 hholds⟩

/-- The tree of a document tiles the document with its line breaks unified. -/
theorem parseDocument_tiles {text : Text} {tree : Node} (h : parseDocument [] text = .ok tree) :
    Tiles tree (Text.unifyBreaks text) := by
  obtain ⟨htree, hblocks⟩ := Parser.parse_eq_ok h
  obtain ⟨pieces, hpieces⟩ := Pieces.exists_pieces 0 (Text.unifyBreaks text)
  obtain ⟨groups, hgroups, hnodes⟩ := hpieces.exists_groups hblocks
  have hresume : Resumes [] (Text.unifyBreaks text) := .inl rfl
  have htiles := hpieces.tilesFrom hgroups (by intro; rfl) hresume
  rw [← hnodes] at htiles
  rw [htree]
  exact htiles.tiles

/-- A statement block that stops at an empty line, and a quote that runs to the end of the text. -/
theorem parseDocument_tiles_statement_quote :
    ∃ tree, parseDocument [] "import \"a\"\r\n\r\n \r\n> é".toList = .ok tree ∧
      tree.children.map Node.span = [⟨0, 10⟩, ⟨14, 18⟩] ∧
      Tiles tree (Text.unifyBreaks "import \"a\"\r\n\r\n \r\n> é".toList) := by
  have h : (parseDocument [] "import \"a\"\r\n\r\n \r\n> é".toList).toOption.any
      (fun tree => tree.children.map Node.span = [⟨0, 10⟩, ⟨14, 18⟩]) = true := by
    decide +kernel
  obtain ⟨tree, htree, hspans⟩ := exists_ok_of_any h
  exact ⟨tree, htree, by simpa using hspans, parseDocument_tiles htree⟩

end DocumentLayout
