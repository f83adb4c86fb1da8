import DocumentLayout.Proofs.Block.Openings
import DocumentLayout.Proofs.Block.Resumption
import DocumentLayout.Proofs.Statement.Lexemes

/-!
# The statements of a layout

The two statements that bring in a layout are read back as what they are, an import and a default
export in blocks of their own, whatever characters the path of the layout has apart from line
breaks. Whatever follows them keeps its nodes.
-/

namespace DocumentLayout

/-! ## The two statements -/

/-- The import of a layout. -/
def layoutImport (layout : Text) : Text :=
  "import DefaultLayout from ".toList ++ '"' :: (escapeQuotes (slash layout) ++ ['"'])

/-- The default export of a layout. -/
def layoutExport : Text := "export default DefaultLayout".toList

theorem layoutStatements_eq (layout : Text) :
    layoutStatements layout =
      layoutImport layout ++ '\n' :: '\n' :: (layoutExport ++ ['\n', '\n']) := by
  have hfront : "import ".toList ++ layoutBinding ++ " from \"".toList =
      "import DefaultLayout from ".toList ++ ['"'] := rfl
  have hback : "\"\n\nexport default ".toList ++ layoutBinding ++ "\n\n".toList =
      '"' :: '\n' :: '\n' :: (layoutExport ++ ['\n', '\n']) := rfl
  unfold layoutStatements layoutImport
  generalize escapeQuotes (slash layout) = escaped
  calc "import ".toList ++ layoutBinding ++ " from \"".toList ++ escaped ++
        "\"\n\nexport default ".toList ++ layoutBinding ++ "\n\n".toList
      = ("import ".toList ++ layoutBinding ++ " from \"".toList) ++ escaped ++
        ("\"\n\nexport default ".toList ++ layoutBinding ++ "\n\n".toList) := by
        simp only [List.append_assoc]
    _ = ("import DefaultLayout from ".toList ++ ['"']) ++ escaped ++
        '"' :: '\n' :: '\n' :: (layoutExport ++ ['\n', '\n']) := by rw [hfront, hback]
    _ = _ := by simp only [List.append_assoc, List.cons_append, List.nil_append]

theorem mem_slash {layout : Text} {c : Char} (h : c ∈ slash layout) : c ∈ layout ∨ c = '/' := by
  unfold slash at h
  split at h
  · exact .inl h
  · obtain ⟨d, hd, rfl⟩ := List.mem_map.1 h
    split
    · exact .inr rfl
    · exact .inl hd

theorem not_mem_layoutImport {layout : Text} {c : Char} (h : c ∉ layout)
    (hc : c = '\n' ∨ c = '\r') : c ∉ layoutImport layout := by
  have hslash : c ∉ slash layout := by
    intro hmem
    rcases mem_slash hmem with hmem | rfl
    · exact h hmem
    · simp at hc
  have hescaped : c ∉ escapeQuotes (slash layout) :=
    not_mem_escapeQuotes hslash (by rcases hc with rfl | rfl <;> decide)
  have hfront : c ∉ "import DefaultLayout from ".toList := by
    rcases hc with rfl | rfl <;> decide +kernel
  have hquote : c ≠ '"' := by rcases hc with rfl | rfl <;> decide
  intro hmem
  rcases List.mem_append.1 hmem with hmem | hmem
  · exact hfront hmem
  rcases List.mem_cons.1 hmem with hmem | hmem
  · exact hquote hmem
  rcases List.mem_append.1 hmem with hmem | hmem
  · exact hescaped hmem
  · exact hquote (List.mem_singleton.1 hmem)

theorem not_mem_layoutStatements {layout : Text} (h : '\r' ∉ layout) :
    '\r' ∉ layoutStatements layout := by
  have himport := not_mem_layoutImport h (.inr rfl)
  have hexport : '\r' ∉ '\n' :: '\n' :: (layoutExport ++ ['\n', '\n']) := by decide +kernel
  rw [layoutStatements_eq]
  intro hmem
  rcases List.mem_append.1 hmem with hmem | hmem
  · exact himport hmem
  · exact hexport hmem

/-! ## Reading them back -/

theorem lexemes_layoutImport {layout : Text} (h : '\n' ∉ layout) :
    Statement.Lexeme.ofText (layoutImport layout) = [
      ⟨some .import, "import".toList, [' ']⟩,
      ⟨some .identifier, "DefaultLayout".toList, [' ']⟩,
      ⟨some .from, "from".toList, [' ']⟩,
      ⟨some .string, '"' :: (escapeQuotes (slash layout) ++ ['"']), []⟩] := by
  have hslash : '\n' ∉ slash layout := by
    intro hmem
    rcases mem_slash hmem with hmem | hmem
    · exact h hmem
    · exact absurd hmem (by decide)
  have hbody := stringBody_escapeQuotes hslash
  unfold layoutImport
  -- What the string is does not matter any more, only that it is closed at its end.
  generalize escapeQuotes (slash layout) ++ ['"'] = body at hbody ⊢
  have himport := @Statement.Lexeme.ofTrimmed_word 'i' 'D' "mport".toList
    ("efaultLayout from ".toList ++ '"' :: body) (by decide) (by decide +kernel) (by decide)
  have hbinding := @Statement.Lexeme.ofTrimmed_word 'D' 'f' "efaultLayout".toList
    ("rom ".toList ++ '"' :: body) (by decide) (by decide +kernel) (by decide)
  have hfrom := @Statement.Lexeme.ofTrimmed_word 'f' '"' "rom".toList body
    (by decide) (by decide +kernel) (by decide)
  rw [show Statement.Token.ofWord ('i' :: "mport".toList) = .import by decide +kernel] at himport
  rw [show Statement.Token.ofWord ('D' :: "efaultLayout".toList) = .identifier by decide +kernel]
    at hbinding
  rw [show Statement.Token.ofWord ('f' :: "rom".toList) = .from by decide +kernel,
    Statement.Lexeme.ofTrimmed_string hbody] at hfrom
  exact himport.trans (congrArg _ (hbinding.trans (congrArg _ hfrom)))

/-- The block of the import of a layout. -/
def layoutImportBlock (layout : Text) : StatementBlock :=
  ⟨layoutImport layout, [⟨.import, false, layoutImport layout⟩]⟩

/-- The block of the default export of a layout. -/
def layoutExportBlock : StatementBlock := ⟨layoutExport, [⟨.export, true, layoutExport⟩]⟩

theorem trimEnd_layoutImport (layout : Text) :
    Text.trimEnd (layoutImport layout) = layoutImport layout := by
  -- The text ends with a quote, behind which there is nothing to trim.
  have hlast : layoutImport layout =
      ("import DefaultLayout from ".toList ++ '"' :: escapeQuotes (slash layout)) ++ ['"'] := by
    rw [List.append_assoc]
    rfl
  rw [hlast, Text.trimEnd, List.reverse_append, List.reverse_singleton, List.singleton_append,
    List.dropWhile_cons_of_neg (by decide), List.reverse_cons, List.reverse_reverse]

theorem split?_layoutImport {layout : Text} (h : '\n' ∉ layout) :
    Statement.split? (layoutImport layout) = some (layoutImportBlock layout).statements := by
  have hspans : Statement.Lexeme.spans (Statement.Lexeme.ofText (layoutImport layout)) =
      layoutImport layout := by
    exact Statement.Lexeme.spans_ofTrimmed _
  -- An import clause, so all lexemes make one statement, and they make up the text again.
  rw [lexemes_layoutImport h] at hspans
  rw [Statement.split?, lexemes_layoutImport h]
  show some [Statement.ofShape ⟨.import, false⟩ _] = _
  rw [hspans, Statement.ofShape, trimEnd_layoutImport]
  rfl

theorem split?_layoutExport :
    Statement.split? layoutExport = some layoutExportBlock.statements := by
  decide +kernel

-- A line that reads as statements is a block of them when an empty line stands below it.
theorem statement_of_split? {line : Text} {statements : List Statement} (h : '\n' ∉ line)
    (hsplit : Statement.split? line = some statements) (rest : Text) :
    Block.statement (line ++ '\n' :: '\n' :: rest) =
      some (.leaf (Text.byteLength line) (.statement ⟨line, statements⟩)) := by
  rw [Block.statement, StatementBlock.read?, StatementBlock.separator, Text.cutAt?_emptyLine h,
    Option.bind_some]
  dsimp only
  rw [hsplit]
  rfl

-- Such a line that opens with a keyword is a node of its own.
theorem documentNodes_of_split? {line : Text} {statements : List Statement} {kind : StatementKind}
    {front : Text} (h : '\n' ∉ line) (hkeyword : line = kind.keyword ++ ' ' :: front)
    (hsplit : Statement.split? line = some statements) (rest : Text) :
    Parser.documentNodes (line ++ '\n' :: '\n' :: rest) =
      ⟨.statement ⟨line, statements⟩, ⟨0, Text.byteLength line⟩, []⟩ ::
        (Parser.documentNodes rest).map (Node.moved (Text.byteLength line + 2)) := by
  refine Parser.documentNodes_statement ?_ ?_
  · rw [hkeyword]
    simp
  · rw [List.append_assoc]
    have hlines : Line.ofText (line ++ '\n' :: '\n' :: (rest ++ Parser.terminator)) =
        ⟨line, true⟩ :: ⟨[], true⟩ :: Line.ofText (rest ++ Parser.terminator) := by
      rw [Line.ofText_line h, Line.ofText_feed]
    refine Outline.read?_of_keyword hlines hkeyword ?_ (statement_of_split? h hsplit _)
    rw [hkeyword]
    cases kind <;> rfl

/-- The nodes of the statements of a layout and what follows them. -/
theorem documentNodes_layoutStatements {layout : Text} (h : '\n' ∉ layout) (rest : Text) :
    Parser.documentNodes (layoutStatements layout ++ rest) =
      ⟨.statement (layoutImportBlock layout), ⟨0, Text.byteLength (layoutImport layout)⟩, []⟩ ::
      ⟨.statement layoutExportBlock,
        Span.shift ⟨0, Text.byteLength layoutExport⟩ (Text.byteLength (layoutImport layout) + 2),
        []⟩ ::
      (Parser.documentNodes rest).map
        (Node.moved (Text.byteLength (layoutStatements layout))) := by
  have himport := not_mem_layoutImport h (.inl rfl)
  have hexport : '\n' ∉ layoutExport := by decide +kernel
  have htext : layoutStatements layout ++ rest =
      layoutImport layout ++ '\n' :: '\n' :: (layoutExport ++ '\n' :: '\n' :: rest) := by
    rw [layoutStatements_eq, List.append_assoc, List.cons_append, List.cons_append,
      List.append_assoc]
    rfl
  have hsize : Text.byteLength (layoutStatements layout) =
      Text.byteLength layoutExport + 2 + (Text.byteLength (layoutImport layout) + 2) := by
    have hfeed : Text.byteLength ['\n', '\n'] = 2 := rfl
    rw [layoutStatements_eq, Text.byteLength_append]
    show _ + (1 + (1 + Text.byteLength (layoutExport ++ ['\n', '\n']))) = _
    rw [Text.byteLength_append, hfeed]
    omega
  rw [htext, hsize, ← Node.map_moved_map_moved,
    @documentNodes_of_split? _ _ .import _ himport rfl (split?_layoutImport h),
    @documentNodes_of_split? _ _ .export _ hexport rfl split?_layoutExport]
  rfl

end DocumentLayout
