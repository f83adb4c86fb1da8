import DocumentLayout.Proofs.Block.Code
import DocumentLayout.Proofs.Block.Cutting
import DocumentLayout.Proofs.Prose.Interleaving
import Mathlib.Data.List.Chain

/-!
# Removal

The prose of a document is prose as a whole: no statement block comes up where statement blocks were
taken out, and nothing nests deeper than before. There is one exception. A keyword that is a line of
its own opens a statement where the line ends, but not where the whole block ends with it: there it
is a word of the statement above. A statement block that is taken out can make such a block of what
stands above it, so no line that is a bare keyword may stand right above one that opens with a
keyword.
-/

namespace DocumentLayout

/-! ## Bare keywords above keywords -/

namespace Statement

instance (line : Text) : Decidable (IsBare line) :=
  decidable_of_iff (∃ kind ∈ [StatementKind.import, .export],
    line.dropWhile Token.isGap = kind.keyword)
    ⟨fun ⟨kind, _, h⟩ => ⟨kind, h⟩, fun ⟨kind, h⟩ => ⟨kind, by cases kind <;> simp, h⟩⟩

/-- No line that is a bare keyword stands right above a line that opens with a keyword. -/
def KeywordsApart (text : Text) : Prop :=
  (Line.ofText text).IsChain fun line next =>
    IsBare line.text → opensLine (next.text ++ ['\n']) = false

instance (text : Text) : Decidable (KeywordsApart text) :=
  inferInstanceAs (Decidable (List.IsChain _ _))

theorem IsBare.not_mem_feed {line : Text} (h : IsBare line) : '\n' ∉ line := by
  obtain ⟨kind, hkeyword⟩ := h
  intro hfeed
  rw [← @List.takeWhile_append_dropWhile _ Token.isGap line, hkeyword, List.mem_append] at hfeed
  rcases hfeed with hfeed | hfeed
  · exact absurd (List.all_eq_true.1 List.all_takeWhile _ hfeed) (by decide)
  · exact absurd (isWordRest_of_mem_keyword hfeed) (by decide)

-- The first line of a text decides whether the text opens with a keyword.
theorem exists_opensLine_eq {text : Text} (hne : text ≠ []) :
    ∃ line, (Line.ofText text).head? = some line ∧
      opensLine (text ++ ['\n']) = opensLine (line.text ++ ['\n']) := by
  rcases Text.line_cases text with hfeed | ⟨line, rest, hline, rfl⟩
  · exact ⟨⟨text, false⟩, by rw [Line.ofText_of_not_mem hne hfeed]; rfl, rfl⟩
  · refine ⟨⟨line, true⟩, by rw [Line.ofText_line hline]; rfl, ?_⟩
    rw [List.append_assoc, List.cons_append]
    exact opensLine_line hline _ _

namespace KeywordsApart

theorem of_append {front back : Text} (h : KeywordsApart (front ++ back))
    (hresumes : Resumes front back) : KeywordsApart back := by
  rcases hresumes with rfl | hlast | rfl | hhead
  · exact h
  · unfold KeywordsApart at h ⊢
    rw [Line.ofText_append hlast] at h
    exact h.right_of_append
  · exact List.isChain_nil
  · obtain ⟨rest, rfl⟩ := List.head?_eq_some_iff.1 hhead
    unfold KeywordsApart at h ⊢
    rw [Line.ofText_append_feed] at h
    rw [Line.ofText_feed, List.isChain_cons]
    refine ⟨fun next hnext hbare => absurd hbare (by decide), h.right_of_append⟩

/-- Below a bare keyword no line opens with a keyword. -/
theorem opensLine_eq_false {before line after : Text}
    (h : KeywordsApart (before ++ line ++ '\n' :: after))
    (hbefore : before = [] ∨ before.getLast? = some '\n') (hbare : IsBare line) :
    opensLine (after ++ ['\n']) = false := by
  rw [List.append_assoc] at h
  have hbelow := h.of_append (hbefore.elim .inl fun hlast => .inr (.inl hlast))
  unfold KeywordsApart at hbelow
  rw [Line.ofText_line hbare.not_mem_feed, List.isChain_cons] at hbelow
  by_cases hne : after = []
  · subst hne
    decide
  · obtain ⟨next, hnext, hopens⟩ := exists_opensLine_eq hne
    rw [hopens]
    exact hbelow.1 next hnext hbare

end KeywordsApart

end Statement

/-! ## The first statement block -/

namespace Outline

/-- The outline of a statement block covers the block, and an empty line stands behind it. -/
theorem exists_opensWith_of_kind? {text front back : Text} {outline : Outline}
    {block : StatementBlock} (hread : read? (text ++ Parser.terminator) = some outline)
    (hcovers : outline.Covers text front back) (hkind : outline.kind? = some (.statement block)) :
    ∃ rest, Statement.OpensWith (text ++ Parser.terminator) front rest := by
  rcases read?_reader_cases hread with ⟨claim, rfl, hlines⟩ | hstatement | hquote | hlist
  · obtain ⟨taken, -, -, -, ⟨hnone, -⟩ | ⟨kind, hplain, hsome⟩⟩ := hlines
    · simp [kind?, hnone] at hkind
    · obtain rfl : kind = .statement block := by simpa [kind?, hsome] using hkind
      simp [NodeKind.isPlain] at hplain
  · obtain ⟨raw, rest, statements, hopens, -, rfl⟩ := exists_opensWith hstatement
    obtain rfl : ⟨raw, statements⟩ = block := by simpa [kind?, Claim.leaf] using hkind
    obtain ⟨rfl, -⟩ := hcovers.eq_leaf hread hkind
    exact ⟨rest, hopens⟩
  · obtain ⟨-, rfl⟩ := quote?_eq_some hquote
    simp [kind?] at hkind
  · obtain ⟨marker, items, -, rfl⟩ := list?_eq_some hlist
    simp [kind?] at hkind

end Outline

namespace Parser

-- The empty line behind a statement block is prose, or stands in the terminator.
theorem prose_append_terminator {text rest : Text}
    (h : text ++ terminator = '\n' :: '\n' :: rest) :
    ∃ more, prose text ++ terminator = '\n' :: '\n' :: more := by
  rcases text with _ | ⟨c, _ | ⟨d, text⟩⟩
  · exact ⟨[], by rw [prose_nil]; rfl⟩
  · obtain ⟨rfl, -⟩ := List.cons.inj h
    exact ⟨['\n'], by rw [prose_feed, prose_nil]; rfl⟩
  · obtain ⟨rfl, hrest⟩ := List.cons.inj h
    obtain ⟨rfl, -⟩ := List.cons.inj hrest
    exact ⟨prose text ++ terminator, by rw [prose_feed, prose_feed]; rfl⟩

/-- A text and its prose are the same up to the first statement block. There the text goes on with
the block, and its prose with two empty lines. -/
structure FirstStatement (text kept old new : Text) : Prop where
  text_eq : text = kept ++ old
  prose_eq : prose text = kept ++ new
  kept : kept = [] ∨ kept.getLast? = some '\n'
  old : ∃ raw rest, Statement.OpensWith (old ++ terminator) raw rest
  new : ∃ more, new ++ terminator = '\n' :: '\n' :: more

theorem FirstStatement.ne_nil {text kept old new : Text} (h : FirstStatement text kept old new) :
    text ≠ [] := by
  rintro rfl
  obtain ⟨raw, rest, hopens⟩ := h.old
  rw [(List.append_eq_nil_iff.1 h.text_eq.symm).2] at hopens
  exact absurd hopens.opens (by decide)

-- A text above it that stops at the end of a line can be taken for a part of what is kept.
theorem FirstStatement.getLast?_append {front text kept old new : Text}
    (h : FirstStatement text kept old new) (hfront : front.getLast? = some '\n') :
    (front ++ kept).getLast? = some '\n' := by
  rcases h.kept with rfl | hkept
  · rwa [List.append_nil]
  · rw [List.getLast?_append, hkept]
    rfl

theorem exists_firstStatement (text : Text) :
    prose text = text ∨ ∃ kept old new, FirstStatement text kept old new := by
  -- By induction on the length, one outline at a time, up to the first that is a statement block.
  induction hn : text.length using Nat.strong_induction_on generalizing text with
  | h n ih =>
    by_cases hne : text = []
    · exact .inl (by rw [hne, prose_nil])
    obtain ⟨outline, hread⟩ := @Outline.exists_read? (text ++ terminator) (by simp [hne])
    obtain ⟨front, back, hcovers⟩ := Outline.exists_covers hne hread
    have hprose := prose_eq_append hne hread hcovers
    have hlt := Outline.length_after_lt hne hread
    rw [hcovers.after] at hlt
    by_cases hkind : ∃ block, outline.kind? = some (.statement block)
    · obtain ⟨block, hblock⟩ := hkind
      obtain ⟨rest, hopens⟩ := Outline.exists_opensWith_of_kind? hread hcovers hblock
      have hback : back ++ terminator = '\n' :: '\n' :: rest := by
        have htext := StatementBlock.eq_of_cutAt? hopens.cut
        rw [hcovers.split, List.append_assoc] at htext
        exact List.append_cancel_left htext
      rw [Outline.prose_of_statement hblock] at hprose
      exact .inr ⟨[], text, prose back, rfl, hprose, .inl rfl, ⟨front, rest, hopens⟩,
        prose_append_terminator hback⟩
    · rw [Outline.prose_of_not_statement (not_exists.1 hkind)] at hprose
      rcases ih back.length (by omega) back rfl with hsame | ⟨kept, old, new, hfirst⟩
      · exact .inl (by rw [hprose, hsame, ← hcovers.split])
      · refine .inr ⟨front ++ kept, old, new, ?_, ?_, .inr ?_, hfirst.old, hfirst.new⟩
        · rw [List.append_assoc, ← hfirst.text_eq, hcovers.split]
        · rw [List.append_assoc, ← hfirst.prose_eq, hprose]
        · have hlast := hcovers.lines (not_exists.1 hkind)
          exact hfirst.getLast?_append (hlast.resolve_left hfirst.ne_nil)

/-! ## Removing one block after another -/

/-- A text has no statement blocks, and nests no deeper than another one. -/
structure Settles (text other : Text) : Prop where
  statementNodes : Node.statementNodes (documentNodes text) = []
  levels : Node.levelsAll (documentNodes text) ≤ Node.levelsAll (documentNodes other)

-- Texts that start with the same nodes settle when what is left of them does.
theorem Settles.of_append {text other textLeft otherLeft : Text} {front otherFront : List Node}
    {m n : Nat}
    (htext : documentNodes text = front ++ (documentNodes textLeft).map (Node.moved m))
    (hother : documentNodes other = otherFront ++ (documentNodes otherLeft).map (Node.moved n))
    (hfront : Node.statementNodes front = [])
    (hlevels : Node.levelsAll front ≤ Node.levelsAll otherFront) (h : Settles textLeft otherLeft) :
    Settles text other where
  statementNodes := by
    rw [htext, Node.statementNodes_append, hfront, Node.statementNodes_moved, h.statementNodes]
    rfl
  levels := by
    rw [htext, hother, Node.levelsAll_append, Node.levelsAll_append,
      Node.levelsAll_map (Node.levels_moved m), Node.levelsAll_map (Node.levels_moved n)]
    exact max_le_max hlevels h.levels

theorem Settles.space {space text other : Text} (hspace : ∀ c ∈ space, Text.isSpace c = true)
    (hlast : space.getLast? = some '\n') (h : Settles text other) :
    Settles (space ++ text) (space ++ other) := by
  have hnodes : ∀ rest, documentNodes (space ++ rest) =
      [] ++ (documentNodes rest).map (Node.moved (Text.byteLength space)) :=
    fun _ => documentNodes_space hspace (.inr (.inl hlast))
  exact .of_append (hnodes text) (hnodes other) rfl (Nat.le_refl _) h

/-- The same outline at the start of two texts, in front of texts that settle. -/
theorem Settles.outline {front text other : Text} {outline : Outline} (hne : front ≠ [])
    (hsize : outline.length = Text.byteLength front)
    (hkind : ∀ block, outline.kind? ≠ some (.statement block))
    (htext : Outline.read? (front ++ text ++ terminator) = some outline)
    (hother : Outline.read? (front ++ other ++ terminator) = some outline)
    (h : Settles text other) : Settles (front ++ text) (front ++ other) := by
  have hnodes := fun (rest : Text) =>
    @documentNodes_eq_append (front ++ rest) outline (by simp [hne])
  simp only [hsize, after_append] at hnodes
  refine .of_append (hnodes text htext) (hnodes other hother)
    (Piece.statementNodes_unlimitedNodes hkind) ?_ h
  -- The contents nest as deep here as there.
  have hlevels := fun (rest : Text) (hread : Outline.read? (front ++ rest ++ terminator) =
    some outline) => @Piece.levels_cases _ ⟨0, Text.byteLength (front ++ rest), outline⟩ hread
  exact ((hlevels text htext _).1).2 (((hlevels other hother _).1).1 (Nat.le_refl _))

-- The last nodes of a text that settles settle.
theorem Settles.of_eq_append {text other left : Text} {front : List Node} {n : Nat}
    (h : Settles text other)
    (htext : documentNodes text = front ++ (documentNodes left).map (Node.moved n)) :
    Settles left other where
  statementNodes := by
    have hnil := h.statementNodes
    rw [htext, Node.statementNodes_append, Node.statementNodes_moved] at hnil
    exact List.map_eq_nil_iff.1 (List.append_eq_nil_iff.1 hnil).2
  levels := by
    have hlevels := h.levels
    rw [htext, Node.levelsAll_append, Node.levelsAll_map (Node.levels_moved n)] at hlevels
    exact (le_max_right _ _).trans hlevels

/-- Indented code above two texts. It may go on in the one that settles. -/
theorem Settles.code {lines : List Line} {text other : Text} {outline : Outline}
    (hwhole : ∀ line ∈ lines, line.IsWhole) (hcode : Block.codeLines lines = lines)
    {first : Line} {more : List Line} (hlines : lines = first :: more)
    (hfirst : first.isBlank = false) (hsize : outline.length = Line.totalSize lines)
    (hother : Outline.read? (Line.toText lines ++ other ++ terminator) = some outline)
    (h : Settles text other) :
    Settles (Line.toText lines ++ text) (Line.toText lines ++ other) := by
  have hne : Line.toText lines ≠ [] := Line.toText_ne_nil (by simp [hlines]) hwhole
  have hnodes := documentNodes_eq_append (by simp [hne]) hother
  rw [hsize, ← Line.byteLength_toText, after_append] at hnodes
  obtain ⟨front, n, hafter⟩ := exists_documentNodes_after_code text
  exact .of_append (documentNodes_code_append hwhole hcode hlines hfirst text) hnodes
    (Piece.statementNodes_unlimitedNodes fun block => by
      simp [Outline.code, Outline.kind?, Claim.leaf])
    (Nat.zero_le _) (h.of_eq_append hafter)

namespace FirstStatement

variable {front text kept old new : Text}

/-- Below a line that is not blank the removal of a statement block is a cut. -/
theorem cutBelow (h : FirstStatement text kept old new) (hfront : front.getLast? = some '\n')
    {first : Line} {more : List Line} (hlines : Line.ofText front = first :: more)
    (hfirst : first.isBlank = false) :
    Outline.CutBelow (Line.ofText (front ++ kept)) (front ++ text ++ terminator)
      (front ++ prose text ++ terminator) where
  opening := by
    rw [Line.ofText_append hfront, hlines]
    exact ⟨first, _, rfl, hfirst⟩
  old := by
    obtain ⟨raw, rest, hopens⟩ := h.old
    obtain ⟨line, below, hbelow⟩ := List.exists_cons_of_ne_nil
      (@Line.ofText_ne_nil (old ++ terminator) (by simp [terminator]))
    refine ⟨line, below, ?_, isWhole_of_mem (hbelow ▸ List.mem_cons_self ..),
      Statement.not_isBlank_of_opensLine hbelow hopens.opens⟩
    rw [h.text_eq, ← List.append_assoc, List.append_assoc _ old,
      Line.ofText_append (h.getLast?_append hfront), hbelow]
  new := by
    obtain ⟨other, hother⟩ := h.new
    refine ⟨Line.ofText other, ?_⟩
    rw [h.prose_eq, ← List.append_assoc, List.append_assoc _ new,
      Line.ofText_append (h.getLast?_append hfront), hother, Line.ofText_feed, Line.ofText_feed]
    rfl

/-- The removal does not make a statement block of what stands above. -/
theorem statement?_eq_none (h : FirstStatement text kept old new)
    (hfront : front.getLast? = some '\n') (hapart : Statement.KeywordsApart (front ++ text))
    (hnone : Outline.statement? (front ++ text ++ terminator) = none) :
    Outline.statement? (front ++ prose text ++ terminator) = none := by
  obtain ⟨above, habove⟩ := List.getLast?_eq_some_iff.1 (h.getLast?_append hfront)
  obtain ⟨raw, rest, hopens⟩ := h.old
  obtain ⟨other, hother⟩ := h.new
  have hold : front ++ text = above ++ '\n' :: old := by
    rw [h.text_eq, ← List.append_assoc, habove, List.append_assoc]
    rfl
  have hnew : front ++ prose text ++ terminator = above ++ '\n' :: '\n' :: '\n' :: other := by
    rw [h.prose_eq, ← List.append_assoc, habove, List.append_assoc, hother, List.append_assoc]
    rfl
  rw [hold, List.append_assoc, List.cons_append] at hnone
  rw [hnew]
  refine Outline.statement?_eq_none_of_cut hnone hopens
    (fun before line hline hbefore hbare => ?_) _
  -- The keyword would stand right above the statement block.
  rw [hold, hline] at hapart
  have hapart := hapart.opensLine_eq_false hbefore hbare
  rw [Statement.opensLine_append_feed old [] ['\n']] at hapart
  exact absurd (hopens.opens.symm.trans hapart) (by decide)

end FirstStatement

-- Where the first outline is indented code, it covers the lines of the code.
theorem eq_code_of_covers {front back : Text} {outline : Outline} {line : Line} {lines : List Line}
    (hlines : Line.ofText (front ++ back ++ terminator) = line :: lines)
    (hblank : line.isBlank = false)
    (hcode : Outline.ofLines? Block.indentedCode (front ++ back ++ terminator) ≠ none)
    (hread : Outline.read? (front ++ back ++ terminator) = some outline)
    (hsize : outline.length = Text.byteLength front) :
    ∃ code first more, front = Line.toText code ∧ (∀ line ∈ code, line.IsWhole) ∧
      Block.codeLines code = code ∧ code = first :: more ∧ first.isBlank = false := by
  obtain ⟨all, hall⟩ : ∃ all, Line.ofText (front ++ back ++ terminator) = all := ⟨_, rfl⟩
  have hne : Block.codeLines all ≠ [] := fun hnil => hcode (by
    rw [Outline.ofLines?, Block.indentedCode, hall, hnil]
    rfl)
  rw [Outline.read?_of_code hlines hblank (hall ▸ hne), hall] at hread
  obtain rfl := Option.some.inj hread
  obtain ⟨first, more, hcons⟩ := List.exists_cons_of_ne_nil hne
  obtain ⟨rest, hrest⟩ := Block.codeLines_prefix all
  refine ⟨Block.codeLines all, first, more, ?_, fun line hline => ?_, Block.codeLines_codeLines all,
    hcons, ?_⟩
  · have htext : front ++ (back ++ terminator) =
        Line.toText (Block.codeLines all) ++ Line.toText rest := by
      rw [← Line.toText_append, hrest, ← hall, Line.toText_ofText, List.append_assoc]
    refine (Text.append_inj_of_byteLength htext ?_).1
    rw [← hsize, Line.byteLength_toText]
    rfl
  · have hmem : line ∈ Line.ofText (front ++ back ++ terminator) := by
      rw [hall, ← hrest]
      exact List.mem_append_left _ hline
    exact isWhole_of_mem hmem
  · rw [hcons, hall.symm.trans hlines] at hrest
    obtain ⟨rfl, -⟩ := List.cons.inj hrest
    exact hblank

/-- What an outline covers above a text with a statement block settles with the prose of the
text. -/
theorem FirstStatement.settles {front back kept old new : Text} {outline : Outline}
    (h : FirstStatement back kept old new)
    (hread : Outline.read? (front ++ back ++ terminator) = some outline)
    (hcovers : outline.Covers (front ++ back) front back)
    (hkind : ∀ block, outline.kind? ≠ some (.statement block))
    (hapart : Statement.KeywordsApart (front ++ back)) (hback : Settles (prose back) back) :
    Settles (front ++ prose back) (front ++ back) := by
  have hlast := (hcovers.lines hkind).resolve_left h.ne_nil
  have hsize := hcovers.length_eq h.ne_nil
  obtain ⟨line, lines, hlines⟩ := List.exists_cons_of_ne_nil (Line.ofText_ne_nil hcovers.nonempty)
  have hall : Line.ofText (front ++ back ++ terminator) =
      line :: (lines ++ Line.ofText (back ++ terminator)) := by
    rw [List.append_assoc, Line.ofText_append hlast, hlines]
    rfl
  by_cases hnone : outline.kind? = none
  · exact hback.space (hcovers.blank hnone) hlast
  have hblank : line.isBlank = false := by
    cases hline : line.isBlank with
    | false => rfl
    | true =>
      rw [Outline.read?_of_isBlank hall hline] at hread
      obtain rfl := Option.some.inj hread
      exact absurd rfl hnone
  by_cases hcode : Outline.ofLines? Block.indentedCode (front ++ back ++ terminator) = none
  · have hcut := Outline.read?_cut (h.cutBelow hlast hlines hblank) hcode
      (h.statement?_eq_none hlast hapart) hkind hread (by
        rw [Line.totalSize_ofText, Text.byteLength_append, hsize]
        exact Nat.le_add_right _ _)
    exact hback.outline hcovers.nonempty hsize hkind hcut hread
  · obtain ⟨code, first, more, rfl, hwhole, hcodes, hcons, hfirst⟩ :=
      eq_code_of_covers hall hblank hcode hread hsize
    exact hback.code hwhole hcodes hcons hfirst (by rw [hsize, Line.byteLength_toText]) hread

/-- The prose of a text settles when bare keywords and keywords are apart in the text. -/
theorem settles_prose {text : Text} (hapart : Statement.KeywordsApart text) :
    Settles (prose text) text := by
  -- By induction on the length, with what is left behind the first outline.
  induction hn : text.length using Nat.strong_induction_on generalizing text with
  | h n ih =>
    by_cases hne : text = []
    · rw [hne, prose_nil]
      exact ⟨by rw [documentNodes_nil]; rfl, Nat.le_refl _⟩
    obtain ⟨outline, hread⟩ := @Outline.exists_read? (text ++ terminator) (by simp [hne])
    obtain ⟨front, back, hcovers⟩ := Outline.exists_covers hne hread
    have hprose := prose_eq_append hne hread hcovers
    have hnodes := documentNodes_eq_append hne hread
    have hlt := Outline.length_after_lt hne hread
    rw [hcovers.after] at hnodes hlt
    obtain rfl := hcovers.split
    have hback := ih back.length (by omega) (hapart.of_append (hcovers.resumes [])) rfl
    by_cases hkind : ∃ block, outline.kind? = some (.statement block)
    · obtain ⟨block, hblock⟩ := hkind
      rw [hprose, Outline.prose_of_statement hblock, List.nil_append]
      refine ⟨hback.statementNodes, hback.levels.trans ?_⟩
      rw [hnodes, Node.levelsAll_append, Node.levelsAll_map (Node.levels_moved _)]
      exact le_max_right _ _
    · rw [hprose, Outline.prose_of_not_statement (not_exists.1 hkind)]
      rcases exists_firstStatement back with hsame | ⟨kept, old, new, hfirst⟩
      · -- There is nothing to remove.
        rw [hsame] at hback ⊢
        exact .of_append hnodes hnodes
          (Piece.statementNodes_unlimitedNodes (not_exists.1 hkind)) (Nat.le_refl _) hback
      · exact hfirst.settles hread hcovers (not_exists.1 hkind) hapart hback

theorem prose_eq_self {text : Text} (h : Node.statementNodes (documentNodes text) = []) :
    prose text = text := by
  rw [prose, h]
  rfl

end Parser

/-! ## Documents -/

/-- The prose of a document is what is left between its top-level statement blocks, each of which
stands at the span of its node. Where no bare keyword stands right above a line that opens with a
keyword, the prose has a tree without such blocks, so it is its own prose. -/
theorem stripStatements_removes {text prose : Text} (h : stripStatements [] text = .ok prose) :
    ∃ tree, parseDocument [] (Text.unifyBreaks text) = .ok tree ∧
      Interleaved 0 (Text.unifyBreaks text) (Node.statementNodes tree.children) prose ∧
      (Statement.KeywordsApart (Text.unifyBreaks text) →
        ∃ left, parseDocument [] prose = .ok left ∧ Node.statementNodes left.children = [] ∧
          stripStatements [] prose = .ok prose) := by
  obtain ⟨hlevels, rfl⟩ := stripStatements_eq_ok_iff.1 h
  have htree : documentTree (Text.unifyBreaks text) = documentTree text := by
    rw [documentTree, Text.unifyBreaks_unifyBreaks, documentTree]
  refine ⟨documentTree text, ?_, Parser.interleaved_prose _, fun hapart => ?_⟩
  · rw [← htree]
    exact parseDocument_of_levels_le (htree ▸ hlevels)
  · obtain ⟨hstatements, hdeep⟩ := Parser.settles_prose hapart
    have hbreaks : Text.unifyBreaks (Parser.prose (Text.unifyBreaks text)) =
        Parser.prose (Text.unifyBreaks text) :=
      Text.unifyBreaks_of_not_mem fun hmem =>
        Text.not_mem_unifyBreaks text (Parser.mem_of_mem_prose hmem)
    have hprose : (documentTree (Parser.prose (Text.unifyBreaks text))).levels ≤ nestingLimit := by
      rw [levels_documentTree, hbreaks]
      exact hdeep.trans hlevels
    refine ⟨_, parseDocument_of_levels_le hprose, ?_, ?_⟩
    · rw [documentTree, hbreaks]
      exact hstatements
    · rw [stripStatements_eq_ok_iff, hbreaks, Parser.prose_eq_self hstatements]
      exact ⟨hprose, rfl⟩

/-- A statement block between two blocks of code, which become one, below a bare keyword that has
prose under it. -/
theorem stripStatements_removes_between_code :
    stripStatements [] "import\nfoo\r\n\n    code\n\nimport \"a\"\r\n\n    more\n".toList =
        .ok "import\nfoo\n\n    code\n\n\n\n    more\n".toList ∧
      stripStatements [] "import\nfoo\n\n    code\n\n\n\n    more\n".toList =
        .ok "import\nfoo\n\n    code\n\n\n\n    more\n".toList := by
  have hstrip : (stripStatements []
      "import\nfoo\r\n\n    code\n\nimport \"a\"\r\n\n    more\n".toList).toOption.any
        (· = "import\nfoo\n\n    code\n\n\n\n    more\n".toList) = true := by
    decide +kernel
  obtain ⟨prose, hprose, hsame⟩ := exists_ok_of_any hstrip
  obtain rfl := of_decide_eq_true hsame
  obtain ⟨tree, -, -, hapart⟩ := stripStatements_removes hprose
  obtain ⟨left, -, -, hagain⟩ := hapart (by decide +kernel)
  exact ⟨hprose, hagain⟩

/-- Two bare keywords above a statement. With the statement gone, the second one ends a block, and
there it does not open a statement of its own: it is what the first one exports. -/
theorem stripStatements_bare_keyword :
    stripStatements [] "export default\n \n    import\nexport default 1\n".toList =
        .ok "export default\n \n    import\n\n".toList ∧
      (∃ left, parseDocument [] "export default\n \n    import\n\n".toList = .ok left ∧
        Node.statementNodes left.children ≠ []) ∧
      stripStatements [] "export default\n \n    import\n\n".toList = .ok "\n\n".toList := by
  have hstrip : (stripStatements []
      "export default\n \n    import\nexport default 1\n".toList).toOption.any
        (· = "export default\n \n    import\n\n".toList) = true := by
    decide +kernel
  have hparse : (parseDocument [] "export default\n \n    import\n\n".toList).toOption.any
      (fun left => !(Node.statementNodes left.children).isEmpty) = true := by
    decide +kernel
  have hagain : (stripStatements [] "export default\n \n    import\n\n".toList).toOption.any
      (· = "\n\n".toList) = true := by
    decide +kernel
  obtain ⟨prose, hprose, hsame⟩ := exists_ok_of_any hstrip
  obtain ⟨left, hleft, hnodes⟩ := exists_ok_of_any hparse
  obtain ⟨twice, htwice, hfeeds⟩ := exists_ok_of_any hagain
  obtain rfl := of_decide_eq_true hsame
  obtain rfl := of_decide_eq_true hfeeds
  exact ⟨hprose, ⟨left, hleft, by simpa using hnodes⟩, htwice⟩

end DocumentLayout
