import DocumentLayout.Preprocessor
import DocumentLayout.Proofs.Block.Walk
import DocumentLayout.Proofs.FrontMatter.Extraction
import DocumentLayout.Proofs.Statement.Layout
import DocumentLayout.Proofs.Traversal

/-!
# Injecting a layout

A layout goes between the front matter and the body of a document. Both are found again in the
result as they were, the blocks of the body only move on, and the default export that comes with
the layout keeps a second one from being injected.
-/

namespace DocumentLayout

/-! ## The injected text -/

/-- What stands in front of the body of a document after its layout was injected: the statements
of the layout, on a line of their own when there is front matter. -/
def layoutFront (matter : Option Text) (layout : Text) : Text :=
  (if matter.isSome then ['\n'] else []) ++ layoutStatements layout

theorem layoutFront_none (layout : Text) : layoutFront none layout = layoutStatements layout := rfl

theorem layoutFront_some (matter layout : Text) :
    layoutFront (some matter) layout = '\n' :: layoutStatements layout := rfl

-- A delimiter without a line feed that the statements of a layout do not start with is nowhere at
-- the start of a text that starts with them.
theorem dropPrefix?_layoutStatements {delimiter layout : Text} (hfeed : '\n' ∉ delimiter)
    (hstarts : ¬ delimiter <+: layoutStatements layout) (rest : Text) :
    Text.dropPrefix? delimiter (layoutStatements layout ++ rest) = none := by
  rw [Text.dropPrefix?_eq_none]
  intro after hafter
  have hdelimiter : delimiter <+: layoutStatements layout ++ rest := ⟨after, hafter.symm⟩
  -- A delimiter that reaches beyond the statements would have their line feeds.
  rcases List.prefix_or_prefix_of_prefix hdelimiter (List.prefix_append _ rest) with
    hshort | hlong
  · exact hstarts hshort
  · refine hfeed (hlong.subset ?_)
    rw [layoutStatements_eq]
    exact List.mem_append_right _ (List.mem_cons_self ..)

theorem injectLayout?_eq_some {document input : Text} {matter layout? : Option Text}
    {exportsDefault : Bool}
    (h : injectLayout? document matter exportsDefault layout? = some input) :
    ∃ layout, layout? = some layout ∧ exportsDefault = false ∧
      input = (FrontMatter.cutMark document).1 ++
        (splitMatter matter (FrontMatter.cutMark document).2).1 ++ layoutStatements layout ++
        (splitMatter matter (FrontMatter.cutMark document).2).2 := by
  unfold injectLayout? at h
  split at h
  · rename_i layout hlayout
    obtain rfl := Option.some.inj h
    exact ⟨layout, (Option.filter_eq_some_iff.1 hlayout).1, rfl, rfl⟩
  · simp at h

theorem injectLayout?_of_not_blank (document : Text) (matter : Option Text) {layout : Text}
    (hblank : Text.isBlank layout = false) :
    injectLayout? document matter false (some layout) =
      some ((FrontMatter.cutMark document).1 ++
        (splitMatter matter (FrontMatter.cutMark document).2).1 ++ layoutStatements layout ++
        (splitMatter matter (FrontMatter.cutMark document).2).2) := by
  unfold injectLayout?
  rw [show (some layout).filter (!Text.isBlank ·) = some layout by simp [Option.filter, hblank]]

/-! ## Front matter -/

namespace FrontMatter

/-- A document with a layout injected has the front matter of the document, and its body with the
statements of the layout in front of it. -/
theorem extract_injected {delimiter text layout input : Text} {front : FrontMatter}
    (hreturn : '\r' ∉ delimiter) (hfeed : '\n' ∉ delimiter)
    (hstarts : ¬ delimiter <+: layoutStatements layout)
    (hextract : extract delimiter text = .ok front)
    (hinput : input = (cutMark text).1 ++ (splitMatter front.matter (cutMark text).2).1 ++
      layoutStatements layout ++ (splitMatter front.matter (cutMark text).2).2) :
    ∃ again, extract delimiter input = .ok again ∧ again.metadata = front.metadata ∧
      again.language = front.language ∧
      again.body = layoutFront front.matter layout ++ front.body := by
  rcases extract_eq_ok hextract with ⟨-, rfl⟩ | ⟨parts, metadata, hopening, hmetadata, rfl⟩
  · -- Without front matter the statements are the start of the text, and no delimiter is.
    have hinput : input =
        (cutMark text).1 ++ (layoutStatements layout ++ (cutMark text).2) := by
      rw [hinput, List.append_assoc]
      exact congrArg (· ++ _) (List.append_nil _)
    have hhead : (layoutStatements layout ++ (cutMark text).2).head? = some 'i' := rfl
    have hcut := @cutMark_append text (layoutStatements layout ++ (cutMark text).2)
      (.inr (by rw [hhead]; decide))
    refine ⟨absent (layoutStatements layout ++ (cutMark text).2), ?_, rfl, rfl, rfl⟩
    rw [hinput, extract_of_absent, hcut]
    rw [hcut, opening, dropPrefix?_layoutStatements hfeed hstarts]
  · -- With front matter the text starts with its block as before, closed by the first line feed.
    obtain ⟨block, rest, hblock, hcontent, rfl, -⟩ := exists_block hopening
    have hsplit : splitMatter (some (block.text delimiter)) (cutMark text).2 =
        (block.text delimiter ++ ['\n', '\n'], Text.dropBreak rest) := by
      rw [hcontent, splitMatter, Text.dropPrefix?_append]
    have hinput : input = (cutMark text).1 ++ (block.text delimiter ++
        '\n' :: ('\n' :: layoutStatements layout ++ Text.dropBreak rest)) := by
      rw [hinput, ofFenced, hsplit]
      simp
    have hcut := @cutMark_append text (block.text delimiter ++
        '\n' :: ('\n' :: layoutStatements layout ++ Text.dropBreak rest)) (.inl (by
      rw [hcontent, hblock.head?_append, hblock.head?_append]))
    have hagain := opening_block (mt List.mem_of_getLast? hreturn) hblock
      ('\n' :: layoutStatements layout ++ Text.dropBreak rest)
    rw [show block.text delimiter ++ '\n' :: ('\n' :: layoutStatements layout ++
      Text.dropBreak rest) = (cutMark input).2 by rw [hinput, hcut]] at hagain
    exact ⟨_, extract_of_fenced hagain hmetadata, rfl, rfl, rfl⟩

end FrontMatter

/-! ## Blocks -/

/-- The nodes of the statements of a layout, the first of which stands at `start`. -/
def layoutNodes (layout : Text) (start : Nat) : List Node := [
  ⟨.statement (layoutImportBlock layout),
    ⟨start, start + Text.byteLength (layoutImport layout)⟩, []⟩,
  ⟨.statement layoutExportBlock,
    ⟨start + Text.byteLength (layoutImport layout) + 2,
      start + Text.byteLength (layoutImport layout) + 2 + Text.byteLength layoutExport⟩, []⟩]

theorem documentNodes_layoutFront {layout : Text} (h : '\n' ∉ layout) (matter : Option Text)
    (rest : Text) :
    Parser.documentNodes (layoutFront matter layout ++ rest) =
      layoutNodes layout (if matter.isSome then 1 else 0) ++
        (Parser.documentNodes rest).map
          (Node.moved (Text.byteLength (layoutFront matter layout))) := by
  cases matter with
  | none =>
    rw [layoutFront_none, documentNodes_layoutStatements h]
    simp [layoutNodes, Span.shift, Nat.add_comm]
  | some matter =>
    have hfeed : Text.byteLength ('\n' :: layoutStatements layout) =
        Text.byteLength (layoutStatements layout) + 1 := Nat.add_comm 1 _
    rw [layoutFront_some, hfeed, List.cons_append, Parser.documentNodes_feed,
      documentNodes_layoutStatements h, List.map_cons, List.map_cons, Node.map_moved_map_moved]
    simp [layoutNodes, Node.moved, Node.moveChildren, Span.shift, Nat.add_comm, Nat.add_left_comm]

theorem levelsAll_layoutNodes (layout : Text) (start : Nat) (nodes : List Node) :
    Node.levelsAll (layoutNodes layout start ++ nodes) = Node.levelsAll nodes := by
  simp [layoutNodes, Node.levelsAll, Node.levels, NodeKind.isContainer]

/-- In front of the blocks of a document the statements of a layout are blocks of their own, and
the blocks of the document only move on. -/
theorem parseDocument_layoutFront {layout text : Text} {tree : Node} (hreturn : '\r' ∉ layout)
    (hfeed : '\n' ∉ layout) (htree : parseDocument [] text = .ok tree) (matter : Option Text) :
    parseDocument [] (layoutFront matter layout ++ text) =
      .ok ⟨.root, ⟨0, Text.byteLength (layoutFront matter layout) + tree.span.stop⟩,
        layoutNodes layout (if matter.isSome then 1 else 0) ++
          tree.children.map (Node.moved (Text.byteLength (layoutFront matter layout)))⟩ := by
  obtain ⟨rfl, hlevels⟩ := parseDocument_eq_ok_iff.1 htree
  have hfront : '\r' ∉ layoutFront matter layout := by
    have hstatements := not_mem_layoutStatements hreturn
    cases matter with
    | none => exact hstatements
    | some matter => simpa [layoutFront_some] using hstatements
  refine parseDocument_eq_ok_iff.2 ⟨Eq.symm ?_, ?_⟩
  · rw [documentTree, Text.unifyBreaks_append hfront, documentNodes_layoutFront hfeed,
      Text.byteLength_append]
    rfl
  · rw [Node.levels, levelsAll_layoutNodes, Node.levelsAll_map (Node.levels_moved _)]
    exact hlevels

theorem statements_layoutNodes (layout : Text) (start : Nat) (span : Span) (nodes : List Node) :
    (Node.mk .root span (layoutNodes layout start ++ nodes)).statements =
      layoutImportBlock layout :: layoutExportBlock :: Node.statementsAll nodes := by
  rw [Node.statements_mk (by simp), layoutNodes, List.cons_append, List.cons_append,
    Node.statementsAll_leaf, Node.statementsAll_leaf, List.nil_append]

/-- A document with a layout injected exports a default. -/
theorem hasDefaultExport_layoutFront {layout text : Text} {tree : Node} (hreturn : '\r' ∉ layout)
    (hfeed : '\n' ∉ layout) (htree : parseDocument [] text = .ok tree) (matter : Option Text) :
    hasDefaultExport [] (layoutFront matter layout ++ text) = .ok true := by
  have hexport : layoutExportBlock.isDefaultExport = true := rfl
  rw [hasDefaultExport_eq_ok (parseDocument_layoutFront hreturn hfeed htree matter),
    statements_layoutNodes]
  simp [hexport]

/-! ## The pipeline -/

namespace Preprocessor

/-- What a document without errors is compiled to when it is compiled to itself. -/
def outcome (preprocessor : Preprocessor) (group : Option Text) (text : Text) (front : FrontMatter)
    (exportsDefault : Bool) : CompiledDocument :=
  let layout := preprocessor.layoutOf (group.getD Layouts.defaultGroup)
  let injected := injectLayout? text front.matter exportsDefault layout
  ⟨front.metadata, injected.getD text, injected.getD text, injected.isSome⟩

theorem process_of_scanned {preprocessor : Preprocessor} {group : Option Text} {text : Text}
    {front : FrontMatter} {exportsDefault : Bool}
    (hextract : FrontMatter.extract preprocessor.delimiter text = .ok front)
    (hexports : hasDefaultExport preprocessor.extensions front.body = .ok exportsDefault) :
    preprocessor.process group text =
      (preprocessor.compile (preprocessor.outcome group text front exportsDefault).input).map
        fun compiled => { preprocessor.outcome group text front exportsDefault with compiled } := by
  simp only [process, hextract, hexports, bind, Except.bind]
  cases hcompile : preprocessor.compile
    (preprocessor.outcome group text front exportsDefault).input with
  | error error =>
    rw [outcome] at hcompile
    rw [hcompile]
    rfl
  | ok compiled =>
    rw [outcome] at hcompile
    rw [hcompile]
    rfl

/-- A document is compiled when its front matter and its blocks can be read and the compiler takes
the text that it gets. -/
theorem process_eq_ok_iff_compile {preprocessor : Preprocessor} {group : Option Text} {text : Text}
    {document : CompiledDocument} :
    preprocessor.process group text = .ok document ↔
      ∃ front exportsDefault compiled,
        FrontMatter.extract preprocessor.delimiter text = .ok front ∧
        hasDefaultExport preprocessor.extensions front.body = .ok exportsDefault ∧
        preprocessor.compile (preprocessor.outcome group text front exportsDefault).input =
          .ok compiled ∧
        document = { preprocessor.outcome group text front exportsDefault with compiled } := by
  constructor
  · intro h
    cases hextract : FrontMatter.extract preprocessor.delimiter text with
    | error error => simp [process, hextract, bind, Except.bind] at h
    | ok front =>
      cases hexports : hasDefaultExport preprocessor.extensions front.body with
      | error error => simp [process, hextract, hexports, bind, Except.bind] at h
      | ok exportsDefault =>
        rw [process_of_scanned hextract hexports] at h
        obtain ⟨compiled, hcompile, rfl⟩ := exists_of_map_eq_ok h
        exact ⟨front, exportsDefault, compiled, rfl, hexports, hcompile, rfl⟩
  · rintro ⟨front, exportsDefault, compiled, hextract, hexports, hcompile, rfl⟩
    rw [process_of_scanned hextract hexports, hcompile]
    rfl

theorem process_eq_ok_iff {preprocessor : Preprocessor}
    (hcompile : preprocessor.compile = Compiler.passthrough) {group : Option Text} {text : Text}
    {document : CompiledDocument} :
    preprocessor.process group text = .ok document ↔
      ∃ front exportsDefault, FrontMatter.extract preprocessor.delimiter text = .ok front ∧
        hasDefaultExport preprocessor.extensions front.body = .ok exportsDefault ∧
        document = preprocessor.outcome group text front exportsDefault := by
  rw [process_eq_ok_iff_compile, hcompile]
  constructor
  · rintro ⟨front, exportsDefault, compiled, hextract, hexports, hcompiled, rfl⟩
    obtain rfl := Except.ok.inj hcompiled
    exact ⟨front, exportsDefault, hextract, hexports, rfl⟩
  · rintro ⟨front, exportsDefault, hextract, hexports, rfl⟩
    exact ⟨front, exportsDefault, _, hextract, hexports, rfl, rfl⟩

/-- A document that got a layout keeps its metadata, its language and its body, in which the
statements of the layout stand in front of the blocks that were there before, and it gets no second
layout. -/
theorem process_injected {preprocessor : Preprocessor} {group : Option Text} {text layout : Text}
    {document : CompiledDocument} (hcompile : preprocessor.compile = Compiler.passthrough)
    (hextensions : preprocessor.extensions = [])
    (hlayout : preprocessor.layoutOf (group.getD Layouts.defaultGroup) = some layout)
    (hbreaks : '\r' ∉ layout ∧ '\n' ∉ layout)
    (hdelimiter : '\r' ∉ preprocessor.delimiter ∧ '\n' ∉ preprocessor.delimiter)
    (hstarts : ¬ preprocessor.delimiter <+: layoutStatements layout)
    (hprocess : preprocessor.process group text = .ok document)
    (hinjected : document.layoutInjected = true) :
    ∃ front again tree,
      FrontMatter.extract preprocessor.delimiter text = .ok front ∧
      FrontMatter.extract preprocessor.delimiter document.input = .ok again ∧
      again.metadata = front.metadata ∧ again.language = front.language ∧
      again.body = (if front.matter.isSome then ['\n'] else []) ++ layoutStatements layout ++
        front.body ∧
      parseDocument [] front.body = .ok tree ∧
      parseDocument [] again.body =
        .ok ⟨.root, ⟨0, Text.byteLength (layoutFront front.matter layout) + tree.span.stop⟩,
          layoutNodes layout (if front.matter.isSome then 1 else 0) ++
            tree.children.map (Node.moved (Text.byteLength (layoutFront front.matter layout)))⟩ ∧
      (layoutImportBlock layout).kind = .import ∧ layoutExportBlock.isDefaultExport = true ∧
      document.metadata = front.metadata ∧
      preprocessor.process group document.input =
        .ok ⟨document.metadata, document.input, document.input, false⟩ := by
  obtain ⟨front, exportsDefault, hextract, hexports, rfl⟩ := (process_eq_ok_iff hcompile).1 hprocess
  rw [hextensions] at hexports
  obtain ⟨input, hinput⟩ := Option.isSome_iff_exists.1 hinjected
  obtain ⟨layout', hlayout', rfl, hparts⟩ := injectLayout?_eq_some hinput
  obtain rfl : layout' = layout := by simpa [hlayout] using hlayout'.symm
  have hdocument : preprocessor.outcome group text front false =
      ⟨front.metadata, input, input, true⟩ := by
    rw [outcome, hinput]
    rfl
  obtain ⟨again, hagain, hmetadata, hlanguage, hbody⟩ := FrontMatter.extract_injected
    hdelimiter.1 hdelimiter.2 hstarts hextract hparts
  obtain ⟨tree, htree⟩ : ∃ tree, parseDocument [] front.body = .ok tree := by
    cases htree : parseDocument [] front.body with
    | error error => simp [hasDefaultExport, htree, Except.map] at hexports
    | ok tree => exact ⟨tree, rfl⟩
  rw [hdocument]
  refine ⟨front, again, tree, hextract, hagain, hmetadata, hlanguage, hbody, htree, ?_, rfl, rfl,
    rfl, ?_⟩
  · rw [hbody]
    exact parseDocument_layoutFront hbreaks.1 hbreaks.2 htree front.matter
  · -- The second time the default export of the layout is there already.
    have hsecond : hasDefaultExport preprocessor.extensions again.body = .ok true := by
      rw [hextensions, hbody]
      exact hasDefaultExport_layoutFront hbreaks.1 hbreaks.2 htree front.matter
    refine (process_eq_ok_iff hcompile).2 ⟨again, true, hagain, hsecond, ?_⟩
    rw [outcome, hmetadata]
    rfl

/-- A byte order mark, front matter with line breaks of two characters, and a layout with a quote in
its path. -/
theorem process_injected_quoted_path :
    let preprocessor := new (fun _ => some "lay\"out.js".toList) Compiler.passthrough
    let input := ("\ufeff---toml\r\n\r\n---\n\nimport DefaultLayout from \"lay\\\"out.js\"\n\n" ++
      "export default DefaultLayout\n\n\r\n- c").toList
    ∃ document,
      preprocessor.process none "\ufeff---toml\r\n\r\n---\r\n\r\n- c".toList = .ok document ∧
      document.input = input ∧
      preprocessor.process none input = .ok ⟨document.metadata, input, input, false⟩ := by
  intro preprocessor input
  have h : (preprocessor.process none
      "\ufeff---toml\r\n\r\n---\r\n\r\n- c".toList).toOption.any
      (fun document => document.layoutInjected ∧ document.input = input) = true := by
    decide +kernel
  obtain ⟨document, hprocess, hdocument⟩ := exists_ok_of_any h
  obtain ⟨hinjected, hinput⟩ := of_decide_eq_true hdocument
  have hstarts : ¬ preprocessor.delimiter <+: layoutStatements "lay\"out.js".toList := by
    decide +kernel
  obtain ⟨front, again, tree, -, -, -, -, -, -, -, -, -, -, hagain⟩ :=
    @process_injected preprocessor none _ _ document rfl rfl rfl (by decide) (by decide) hstarts
      hprocess hinjected
  rw [hinput] at hagain
  exact ⟨document, hprocess, hinput, hagain⟩

end Preprocessor

end DocumentLayout
