import DocumentLayout.Proofs.Block.Resumption
import DocumentLayout.Proofs.Block.Tiling

/-!
# Indented code

Indented code goes on over blank lines to more code. So code that comes to stand above another text
takes the code that this text starts with, and nothing else of it.
-/

namespace DocumentLayout

namespace Block

/-! ## Lines of code -/

/-- Lines of code above other lines go on with the code that those start with. -/
theorem codeLines_append (lines more : List Line) :
    codeLines (codeLines lines ++ more) = codeLines lines ++ codeLines more := by
  induction lines with
  | nil => rfl
  | cons line lines ih =>
    rw [codeLines]
    split
    · rename_i hblank
      split
      · rfl
      · -- The blank line has code below it, whatever comes further down.
        rename_i code hcode
        obtain ⟨first, rest, hfirst⟩ := List.exists_cons_of_ne_nil hcode
        rw [List.cons_append, codeLines, if_pos hblank, ih, hfirst]
        rfl
    · split
      · rename_i hblank hindent
        rw [List.cons_append, codeLines, if_neg hblank, if_pos hindent, ih]
        rfl
      · rfl

theorem codeLines_codeLines (lines : List Line) :
    codeLines (codeLines lines) = codeLines lines := by
  simpa [codeLines] using codeLines_append lines []

/-- Blank lines belong to the code below them, if there is any. -/
theorem codeLines_blank {blank lines : List Line} (h : ∀ line ∈ blank, line.isBlank = true)
    (hcode : codeLines lines ≠ []) : codeLines (blank ++ lines) = blank ++ codeLines lines := by
  induction blank with
  | nil => rfl
  | cons line blank ih =>
    obtain ⟨hline, hblank⟩ := List.forall_mem_cons.1 h
    rw [List.cons_append, codeLines, if_pos hline, ih hblank]
    split
    · rename_i hnil
      exact absurd (List.append_eq_nil_iff.1 hnil).2 hcode
    · rfl

theorem codeLines_eq_nil_of_blank {blank lines : List Line}
    (h : ∀ line ∈ blank, line.isBlank = true) (hcode : codeLines lines = []) :
    codeLines (blank ++ lines) = [] := by
  induction blank with
  | nil => exact hcode
  | cons line blank ih =>
    obtain ⟨hline, hblank⟩ := List.forall_mem_cons.1 h
    rw [List.cons_append, codeLines, if_pos hline, ih hblank]

end Block

/-! ## Code in a document -/

namespace Outline

/-- Indented code of this many bytes. -/
def code (size : Nat) : Outline := leaf (.leaf size (.code false none))

theorem read?_of_code {text : Text} {line : Line} {lines : List Line}
    (hlines : Line.ofText text = line :: lines) (hblank : line.isBlank = false)
    (hcode : Block.codeLines (Line.ofText text) ≠ []) :
    read? text = some (code (Line.totalSize (Block.codeLines (Line.ofText text)))) := by
  have hnone : ofLines? Block.blankLines text = none := by
    rw [ofLines?, hlines, Block.blankLines, List.takeWhile_cons_of_neg (by simp [hblank])]
    rfl
  have hsome : ofLines? Block.indentedCode text =
      some (code (Line.totalSize (Block.codeLines (Line.ofText text)))) := by
    rw [ofLines?, Block.indentedCode]
    split
    · exact absurd ‹_› hcode
    · rfl
  rw [read?, readers, List.findSome?_cons, hnone, List.findSome?_cons, hsome]

end Outline

namespace Parser

/-- The bytes of the indented code that a text starts with, blank lines in front of it included. -/
def codeSize (text : Text) : Nat :=
  Line.totalSize (Block.codeLines (Line.ofText (text ++ terminator)))

-- Where code is left, something of the text is left in front of the terminator.
theorem exists_of_ofText_eq {text : Text} {blank lines : List Line}
    (h : Line.ofText (text ++ terminator) = blank ++ lines)
    (hcode : Block.codeLines lines ≠ []) :
    ∃ rest, text = Line.toText blank ++ rest ∧ Line.ofText (rest ++ terminator) = lines := by
  have hwhole : ∀ line ∈ blank, line.IsWhole := fun line hline =>
    isWhole_of_mem (h ▸ List.mem_append_left lines hline)
  have htext : text ++ terminator = Line.toText blank ++ Line.toText lines := by
    rw [← Line.toText_append, ← h, Line.toText_ofText]
  rcases List.append_eq_append_iff.1 htext with ⟨extra, -, hrest⟩ | ⟨rest, rfl, hrest⟩
  · -- The lines would be blank, so there would be no code among them.
    have hblank : ∀ line ∈ lines, line.isBlank = true := fun line hline =>
      List.all_eq_true.2 fun c hc => by
        have hmem : c ∈ terminator := hrest ▸ List.mem_append_right extra (Line.mem_toText hline hc)
        obtain rfl : c = '\n' := by simpa [terminator] using hmem
        decide
    have hnil := Block.codeLines_eq_nil_of_blank hblank (show Block.codeLines [] = [] from rfl)
    rw [List.append_nil] at hnil
    exact absurd hnil hcode
  · refine ⟨rest, rfl, ?_⟩
    rw [List.append_assoc, Line.ofText_toText_append hwhole] at h
    exact List.append_cancel_left h

-- A text whose first line is code starts with a node for all the code there.
theorem documentNodes_code {text : Text} {line : Line} {lines : List Line}
    (hlines : Line.ofText (text ++ terminator) = line :: lines) (hblank : line.isBlank = false)
    (hcode : Block.codeLines (Line.ofText (text ++ terminator)) ≠ []) :
    documentNodes text =
      Piece.unlimitedNodes ⟨0, Text.byteLength text, Outline.code (codeSize text)⟩ ++
        (documentNodes (after (codeSize text) text)).map (Node.moved (codeSize text)) := by
  have hne : text ≠ [] := by
    rintro rfl
    have hcode : Block.codeLines (Line.ofText ([] ++ terminator)) = [] := rfl
    contradiction
  exact documentNodes_eq_append hne (Outline.read?_of_code hlines hblank hcode)

/-- Behind the code that a text starts with come the last of its nodes. -/
theorem exists_documentNodes_after_code (text : Text) :
    ∃ front n, documentNodes text =
      front ++ (documentNodes (after (codeSize text) text)).map (Node.moved n) := by
  obtain ⟨blank, lines, hlines, hblank, hfirst⟩ :=
    Line.exists_blank_append (Line.ofText (text ++ terminator))
  by_cases hcode : Block.codeLines lines = []
  · -- The text starts with no code.
    have hnil : codeSize text = 0 := by
      rw [codeSize, hlines, Block.codeLines_eq_nil_of_blank hblank hcode]
      rfl
    refine ⟨[], 0, ?_⟩
    rw [hnil, show Node.moved 0 = id from funext Node.moved_zero, List.map_id, after,
      Text.dropBytes?]
    rfl
  · have hwhole : ∀ line ∈ blank, line.IsWhole ∧ line.isBlank = true := fun line hline =>
      ⟨isWhole_of_mem (hlines ▸ List.mem_append_left lines hline), hblank line hline⟩
    obtain ⟨rest, rfl, hrest⟩ := exists_of_ofText_eq hlines hcode
    have hsize : codeSize (Line.toText blank ++ rest) = Line.totalSize blank + codeSize rest := by
      rw [codeSize, hlines, Block.codeLines_blank hblank hcode, Line.totalSize_append, codeSize,
        hrest]
    have hafter : after (codeSize (Line.toText blank ++ rest)) (Line.toText blank ++ rest) =
        after (codeSize rest) rest := by
      rw [hsize, after, ← Line.byteLength_toText, Text.dropBytes?_add_append]
      rfl
    obtain ⟨line, more, hcons⟩ := List.exists_cons_of_ne_nil
      (show lines ≠ [] from fun hnil => hcode (by rw [hnil]; rfl))
    rw [hafter, documentNodes_blank hwhole,
      documentNodes_code (hrest.trans hcons) (hfirst line more hcons) (hrest ▸ hcode),
      List.map_append, Node.map_moved_map_moved]
    exact ⟨_, _, rfl⟩

/-- Code above a text makes one node with the code that the text starts with. -/
theorem documentNodes_code_append {lines : List Line} (hwhole : ∀ line ∈ lines, line.IsWhole)
    (hcode : Block.codeLines lines = lines) {first : Line} {more : List Line}
    (hlines : lines = first :: more) (hfirst : first.isBlank = false) (text : Text) :
    documentNodes (Line.toText lines ++ text) =
      Piece.unlimitedNodes ⟨0, Text.byteLength (Line.toText lines ++ text),
          Outline.code (Line.totalSize lines + codeSize text)⟩ ++
        (documentNodes (after (codeSize text) text)).map
          (Node.moved (Line.totalSize lines + codeSize text)) := by
  have hall : Line.ofText (Line.toText lines ++ text ++ terminator) =
      lines ++ Line.ofText (text ++ terminator) := by
    rw [List.append_assoc, Line.ofText_toText_append hwhole]
  have hmerged : Block.codeLines (Line.ofText (Line.toText lines ++ text ++ terminator)) =
      lines ++ Block.codeLines (Line.ofText (text ++ terminator)) := by
    rw [hall]
    conv_lhs => rw [← hcode]
    rw [Block.codeLines_append, hcode]
  have hsize : codeSize (Line.toText lines ++ text) = Line.totalSize lines + codeSize text := by
    rw [codeSize, hmerged, Line.totalSize_append, codeSize]
  have hafter : after (Line.totalSize lines + codeSize text) (Line.toText lines ++ text) =
      after (codeSize text) text := by
    rw [after, ← Line.byteLength_toText, Text.dropBytes?_add_append]
    rfl
  rw [documentNodes_code (by rw [hall, hlines]; rfl) hfirst (by rw [hmerged, hlines]; simp), hsize,
    hafter]

end Parser

end DocumentLayout
