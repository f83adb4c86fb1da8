import DocumentLayout.Metadata.Export
import DocumentLayout.Proofs.Injection

/-!
# Specifiers

Paths of modules stand in the generated texts as string literals, where a backslash lets the next
character stand for itself. The path of a layout is escaped on its way into its literal and comes
back out of it whatever its characters are. The request for a component is not, so it comes back
only when it has nothing to escape.
-/

namespace DocumentLayout

/-! ## String literals -/

/-- The value of a string literal, read from behind its opening quote, and the text behind the quote
that closes it. -/
def readLiteral? : Text → Option (Text × Text)
  | [] => none
  | c :: rest =>
    if c = '"' then some ([], rest)
    else if c = '\\' then
      match rest with
      | [] => none
      | d :: rest => (readLiteral? rest).map fun (value, after) => (d :: value, after)
    else (readLiteral? rest).map fun (value, after) => (c :: value, after)

theorem readLiteral?_quote (rest : Text) : readLiteral? ('"' :: rest) = some ([], rest) := by
  unfold readLiteral?
  rw [if_pos rfl]

theorem readLiteral?_escape (c : Char) (rest : Text) :
    readLiteral? ('\\' :: c :: rest) =
      (readLiteral? rest).map fun (value, after) => (c :: value, after) := by
  conv_lhs => unfold readLiteral?
  rw [if_neg (by decide), if_pos rfl]

theorem readLiteral?_cons {c : Char} (hquote : c ≠ '"') (hback : c ≠ '\\') (rest : Text) :
    readLiteral? (c :: rest) =
      (readLiteral? rest).map fun (value, after) => (c :: value, after) := by
  conv_lhs => unfold readLiteral?
  rw [if_neg hquote, if_neg hback]

theorem length_lt_of_readLiteral? {text value after : Text}
    (h : readLiteral? text = some (value, after)) : value.length + after.length < text.length := by
  fun_induction readLiteral? text generalizing value with
  | case1 => simp at h
  | case2 rest =>
    simp only [Option.some.injEq, Prod.mk.injEq] at h
    rw [← h.1, ← h.2, List.length_nil, List.length_cons]
    omega
  | case3 => simp at h
  | case4 d rest _ ih =>
    obtain ⟨⟨inner, _⟩, hinner, hparts⟩ := Option.map_eq_some_iff.1 h
    simp only [Prod.mk.injEq] at hparts
    rw [hparts.2] at hinner
    have hlt := ih hinner
    rw [← hparts.1, List.length_cons, List.length_cons, List.length_cons]
    omega
  | case5 c rest _ _ ih =>
    obtain ⟨⟨inner, _⟩, hinner, hparts⟩ := Option.map_eq_some_iff.1 h
    simp only [Prod.mk.injEq] at hparts
    rw [hparts.2] at hinner
    have hlt := ih hinner
    rw [← hparts.1, List.length_cons, List.length_cons]
    omega

/-- Escaped text is read back as what it was before, up to the quote behind it. -/
theorem readLiteral?_escapeQuotes (text rest : Text) :
    readLiteral? (escapeQuotes text ++ '"' :: rest) = some (text, rest) := by
  induction text with
  | nil => exact readLiteral?_quote rest
  | cons c text ih =>
    rw [escapeQuotes_cons]
    by_cases hc : c = '\\' ∨ c = '"'
    · rw [if_pos hc]
      show readLiteral? ('\\' :: c :: (escapeQuotes text ++ '"' :: rest)) = _
      rw [readLiteral?_escape, ih]
      rfl
    · rw [if_neg hc]
      show readLiteral? (c :: (escapeQuotes text ++ '"' :: rest)) = _
      rw [not_or] at hc
      rw [readLiteral?_cons hc.2 hc.1, ih]
      rfl

theorem readLiteral?_of_not_mem {text : Text} (hquote : '"' ∉ text) (hback : '\\' ∉ text)
    (rest : Text) : readLiteral? (text ++ '"' :: rest) = some (text, rest) := by
  induction text with
  | nil => exact readLiteral?_quote rest
  | cons c text ih =>
    rw [List.mem_cons, not_or] at hquote hback
    rw [List.cons_append, readLiteral?_cons (Ne.symm hquote.1) (Ne.symm hback.1),
      ih hquote.2 hback.2]
    rfl

/-- Text that is not escaped is read as it stands exactly when it has nothing to escape. -/
theorem readLiteral?_self_iff (text rest : Text) :
    readLiteral? (text ++ '"' :: rest) = some (text, rest) ↔ '"' ∉ text ∧ '\\' ∉ text := by
  constructor
  · intro h
    induction text with
    | nil => simp
    | cons c text ih =>
      have hquote : c ≠ '"' := by
        rintro rfl
        rw [List.cons_append, readLiteral?_quote] at h
        simp at h
      have hback : c ≠ '\\' := by
        rintro rfl
        -- The backslash is not part of the value, so one character would be missing from it.
        obtain ⟨d, tail, htail⟩ : ∃ d tail, text ++ '"' :: rest = d :: tail :=
          List.exists_cons_of_ne_nil (by simp)
        have hlength := congrArg List.length htail
        rw [List.cons_append, htail, readLiteral?_escape] at h
        obtain ⟨⟨value, _⟩, hvalue, hparts⟩ := Option.map_eq_some_iff.1 h
        simp only [Prod.mk.injEq, List.cons.injEq] at hparts
        rw [hparts.1.2, hparts.2] at hvalue
        have hlt := length_lt_of_readLiteral? hvalue
        rw [List.length_append, List.length_cons, List.length_cons] at hlength
        omega
      rw [List.cons_append, readLiteral?_cons hquote hback] at h
      obtain ⟨⟨value, _⟩, hvalue, hparts⟩ := Option.map_eq_some_iff.1 h
      simp only [Prod.mk.injEq, List.cons.injEq] at hparts
      rw [hparts.1.2, hparts.2] at hvalue
      have hrest := ih hvalue
      rw [List.mem_cons, List.mem_cons, not_or, not_or]
      exact ⟨⟨hquote.symm, hrest.1⟩, hback.symm, hrest.2⟩
  · intro h
    exact readLiteral?_of_not_mem h.1 h.2 rest

/-! ## Escapes one after the other -/

/-- A text with another one in place of each `c`. -/
def Text.replaceEach (c : Char) (other text : Text) : Text :=
  text.flatMap fun d => if d = c then other else [d]

-- Backslashes go first, so those that the quotes get are not escaped once more.
theorem escapeQuotes_eq_replaceEach (text : Text) :
    escapeQuotes text =
      Text.replaceEach '"' ['\\', '"'] (Text.replaceEach '\\' ['\\', '\\'] text) := by
  unfold escapeQuotes Text.replaceEach
  rw [List.flatMap_assoc]
  congr 1
  funext c
  by_cases hback : c = '\\'
  · subst hback
    rfl
  · by_cases hquote : c = '"'
    · subst hquote
      rfl
    · simp [hback, hquote]

/-! ## Paths -/

theorem slash_of_verbatim {path : Text} (h : verbatimPathPrefix <+: path) : slash path = path := by
  unfold slash
  rw [if_pos (List.isPrefixOf_iff_prefix.2 h)]

theorem slash_of_not_verbatim {path : Text} (h : ¬ verbatimPathPrefix <+: path) :
    slash path = path.map fun c => if c = '\\' then '/' else c := by
  unfold slash
  rw [if_neg (List.isPrefixOf_iff_prefix.not.2 h)]

theorem backslash_mem_slash_iff {path : Text} :
    '\\' ∈ slash path ↔ verbatimPathPrefix <+: path := by
  by_cases h : verbatimPathPrefix <+: path
  · rw [slash_of_verbatim h]
    exact ⟨fun _ => h, fun _ => h.subset (by decide)⟩
  · rw [slash_of_not_verbatim h, List.mem_map]
    refine ⟨?_, fun hstarts => absurd hstarts h⟩
    rintro ⟨c, -, hc⟩
    by_cases hback : c = '\\'
    · rw [if_pos hback] at hc
      exact absurd hc (by decide)
    · rw [if_neg hback] at hc
      exact absurd hc hback

theorem quote_mem_slash_iff {path : Text} : '"' ∈ slash path ↔ '"' ∈ path := by
  by_cases h : verbatimPathPrefix <+: path
  · rw [slash_of_verbatim h]
  · rw [slash_of_not_verbatim h, List.mem_map]
    constructor
    · rintro ⟨c, hmem, hc⟩
      by_cases hback : c = '\\'
      · rw [if_pos hback] at hc
        exact absurd hc (by decide)
      · rw [if_neg hback] at hc
        exact hc ▸ hmem
    · intro hmem
      exact ⟨'"', hmem, rfl⟩

/-- Without a prefix to keep them the path has no backslashes left that could be turned again. -/
theorem slash_slash (path : Text) : slash (slash path) = slash path := by
  by_cases h : verbatimPathPrefix <+: path
  · rw [slash_of_verbatim h, slash_of_verbatim h]
  · have hback : '\\' ∉ slash path := backslash_mem_slash_iff.not.2 h
    have hprefix : ¬ verbatimPathPrefix <+: slash path :=
      fun hstarts => hback (hstarts.subset (by decide))
    rw [slash_of_not_verbatim hprefix]
    calc (slash path).map (fun c => if c = '\\' then '/' else c)
        = (slash path).map id :=
          List.map_congr_left fun c hc => if_neg (ne_of_mem_of_not_mem hc hback)
      _ = slash path := List.map_id _

/-! ## The path of a layout -/

theorem layoutStatements_eq_literal (layout : Text) :
    layoutStatements layout = "import DefaultLayout from ".toList ++
      '"' :: (escapeQuotes (slash layout) ++
        '"' :: "\n\nexport default DefaultLayout\n\n".toList) := by
  have hexport : '\n' :: '\n' :: (layoutExport ++ ['\n', '\n']) =
      "\n\nexport default DefaultLayout\n\n".toList := rfl
  calc layoutStatements layout
      = layoutImport layout ++ '\n' :: '\n' :: (layoutExport ++ ['\n', '\n']) :=
        layoutStatements_eq layout
    _ = layoutImport layout ++ "\n\nexport default DefaultLayout\n\n".toList :=
        congrArg (layoutImport layout ++ ·) hexport
    _ = _ := by
        unfold layoutImport
        simp only [List.append_assoc, List.cons_append, List.nil_append]

/-- The path of a layout stands in the injected import as a literal with first its backslashes and
then its quotes escaped. Read back from behind its opening quote it is closed by the quote that was
put behind it, and its value is the path with forward slashes: all of them in place of backslashes,
unless the path has the prefix that keeps them. -/
theorem injectLayout?_specifier (document : Text) (front : FrontMatter) {layout : Text}
    (hblank : Text.isBlank layout = false) :
    (∃ before literal after,
      injectLayout? document front.matter false (some layout) =
        some (before ++ "import DefaultLayout from ".toList ++ '"' :: (literal ++ '"' :: after)) ∧
      before = (FrontMatter.cutMark document).1 ++
        (splitMatter front.matter (FrontMatter.cutMark document).2).1 ∧
      literal =
        Text.replaceEach '"' ['\\', '"'] (Text.replaceEach '\\' ['\\', '\\'] (slash layout)) ∧
      after = "\n\nexport default DefaultLayout\n\n".toList ++
        (splitMatter front.matter (FrontMatter.cutMark document).2).2 ∧
      readLiteral? (literal ++ '"' :: after) = some (slash layout, after)) ∧
    ∀ path, slash (slash path) = slash path ∧
      (verbatimPathPrefix <+: path → slash path = path) ∧
      (¬ verbatimPathPrefix <+: path →
        slash path = path.map fun c => if c = '\\' then '/' else c) := by
  refine ⟨⟨_, escapeQuotes (slash layout), _, ?_, rfl, escapeQuotes_eq_replaceEach _, rfl,
    readLiteral?_escapeQuotes _ _⟩, fun path => ⟨slash_slash path, slash_of_verbatim,
    slash_of_not_verbatim⟩⟩
  rw [injectLayout?_of_not_blank document front.matter hblank, layoutStatements_eq_literal]
  simp only [List.append_assoc, List.cons_append]

/-- A path that keeps its backslashes, with a backslash in front of a quote and one at its end. -/
theorem injectLayout?_specifier_verbatim :
    let layout := "\\\\?\\C:\\\"x\\".toList
    Text.isBlank layout = false ∧
    ∃ literal after,
      injectLayout? "---\n---\na".toList (some "---\n---".toList) false (some layout) =
        some ("---\n---\n\nimport DefaultLayout from ".toList ++ '"' :: (literal ++ '"' :: after)) ∧
      literal = "\\\\\\\\?\\\\C:\\\\\\\"x\\\\".toList ∧
      readLiteral? (literal ++ '"' :: after) = some (layout, after) := by
  intro layout
  have hblank : Text.isBlank layout = false := by decide
  obtain ⟨⟨before, literal, after, hinjected, hbefore, hliteral, -, hread⟩, hslash⟩ :=
    injectLayout?_specifier "---\n---\na".toList
      ⟨[], some "---\n---".toList, none, ['a']⟩ hblank
  have hkeeps : slash layout = layout := (hslash layout).2.1 (by decide)
  rw [hkeeps] at hliteral hread
  refine ⟨hblank, literal, after, ?_, hliteral.trans (by decide), hread⟩
  have hfront : before = "---\n---\n\n".toList := hbefore.trans (by decide)
  rw [hinjected, hfront]
  rfl

/-! ## The request for a component -/

theorem mem_componentRequest {path : Text} {c : Char} (hslash : c ≠ '/')
    (hquery : c ∉ componentQuery) : c ∈ componentRequest path ↔ c ∈ slash path := by
  unfold componentRequest
  rw [List.mem_append, or_iff_left hquery]
  by_cases hstarts : (slash path).head? = some '/'
  · rw [if_pos hstarts]
  · rw [if_neg hstarts, List.mem_cons, or_iff_right hslash]

/-- The request for a component is read back as it stands when its path has nothing to escape. -/
theorem readLiteral?_componentRequest_iff (path rest : Text) :
    readLiteral? (componentRequest path ++ '"' :: rest) = some (componentRequest path, rest) ↔
      '"' ∉ path ∧ ¬ verbatimPathPrefix <+: path := by
  rw [readLiteral?_self_iff, mem_componentRequest (by decide) (by decide),
    mem_componentRequest (by decide) (by decide), quote_mem_slash_iff, backslash_mem_slash_iff]

theorem Metadata.exportModule_eq (path : Text) {metadata : Metadata} {json : Json}
    (hjson : metadata.toJson = .ok json) :
    metadata.exportModule path =
      .ok ("import MDXContent from ".toList ++ '"' :: (componentRequest path ++
        '"' :: (";\nexport default MDXContent;\nexport * from ".toList ++
          '"' :: (componentRequest path ++
            '"' :: ("\n\nexport const _frontmatter = ".toList ++ json.compact ++ [';']))))) := by
  unfold exportModule
  rw [hjson]
  show Except.ok _ = _
  simp only [List.append_assoc, List.cons_append, List.nil_append]

/-- The module of the metadata asks for the component twice, in its import and where it passes the
exports on. Each of the two literals is closed by the quote that was put behind it and has the
request as its value exactly when the path has no quote and no prefix that keeps its
backslashes. -/
theorem Metadata.exportModule_specifiers (path : Text) {metadata : Metadata} {json : Json}
    (hjson : metadata.toJson = .ok json) :
    ∃ middle after,
      metadata.exportModule path =
        .ok ("import MDXContent from ".toList ++ '"' :: (componentRequest path ++ '"' :: middle)) ∧
      middle = ";\nexport default MDXContent;\nexport * from ".toList ++
        '"' :: (componentRequest path ++ '"' :: after) ∧
      after = "\n\nexport const _frontmatter = ".toList ++ json.compact ++ [';'] ∧
      (readLiteral? (componentRequest path ++ '"' :: middle) =
          some (componentRequest path, middle) ↔
        '"' ∉ path ∧ ¬ verbatimPathPrefix <+: path) ∧
      (readLiteral? (componentRequest path ++ '"' :: after) =
          some (componentRequest path, after) ↔
        '"' ∉ path ∧ ¬ verbatimPathPrefix <+: path) :=
  ⟨_, _, exportModule_eq path hjson, rfl, rfl, readLiteral?_componentRequest_iff path _,
    readLiteral?_componentRequest_iff path _⟩

/-- A path with a backslash that it need not keep. -/
theorem Metadata.exportModule_specifiers_slash :
    let request := "/posts/hello.mdx?type=component".toList
    ∃ json middle after,
      Metadata.toJson [(.string "a".toList, .null)] = .ok json ∧
      Metadata.exportModule "posts\\hello.mdx".toList [(.string "a".toList, .null)] =
        .ok ("import MDXContent from ".toList ++ '"' :: (request ++ '"' :: middle)) ∧
      readLiteral? (request ++ '"' :: middle) = some (request, middle) ∧
      readLiteral? (request ++ '"' :: after) = some (request, after) := by
  intro request
  have hjson : Metadata.toJson [(.string "a".toList, .null)] =
      .ok (.object [("a".toList, .null)]) := rfl
  have hrequest : componentRequest "posts\\hello.mdx".toList = request := by decide
  obtain ⟨middle, after, hmodule, -, -, himport, hexport⟩ :=
    exportModule_specifiers "posts\\hello.mdx".toList hjson
  rw [hrequest] at hmodule himport hexport
  exact ⟨_, middle, after, hjson, hmodule, himport.2 (by decide), hexport.2 (by decide)⟩

/-- A quote in the path closes the literal, and a path that keeps its backslashes loses them to the
characters behind them. -/
theorem Metadata.exportModule_quote :
    (∃ middle, Metadata.exportModule "a\"b".toList [] =
        .ok ("import MDXContent from ".toList ++
          '"' :: (componentRequest "a\"b".toList ++ '"' :: middle)) ∧
      componentRequest "a\"b".toList = "/a\"b?type=component".toList ∧
      readLiteral? (componentRequest "a\"b".toList ++ '"' :: middle) =
        some ("/a".toList, "b?type=component".toList ++ '"' :: middle)) ∧
    ∃ middle, Metadata.exportModule "\\\\?\\C:\\x".toList [] =
        .ok ("import MDXContent from ".toList ++
          '"' :: (componentRequest "\\\\?\\C:\\x".toList ++ '"' :: middle)) ∧
      componentRequest "\\\\?\\C:\\x".toList = "/\\\\?\\C:\\x?type=component".toList ∧
      readLiteral? (componentRequest "\\\\?\\C:\\x".toList ++ '"' :: middle) =
        some ("/\\?C:x?type=component".toList, middle) := by
  have hjson : Metadata.toJson [] = .ok (.object []) := rfl
  have hquote : componentRequest "a\"b".toList = "/a\"b?type=component".toList := by decide
  have hback : componentRequest "\\\\?\\C:\\x".toList =
      "/\\\\?\\C:\\x?type=component".toList := by
    decide
  constructor
  · refine ⟨_, Metadata.exportModule_eq _ hjson, hquote, ?_⟩
    rw [hquote]
    exact @readLiteral?_of_not_mem "/a".toList (by decide) (by decide) _
  · have hread (rest : Text) :
        readLiteral? ("/\\\\?\\C:\\x?type=component".toList ++ '"' :: rest) =
          some ("/\\?C:x?type=component".toList, rest) := by
      show readLiteral? ('/' :: '\\' :: '\\' :: '?' :: '\\' :: 'C' :: ':' :: '\\' :: 'x' ::
        ("?type=component".toList ++ '"' :: rest)) = _
      rw [readLiteral?_cons (by decide) (by decide), readLiteral?_escape,
        readLiteral?_cons (by decide) (by decide), readLiteral?_escape,
        readLiteral?_cons (by decide) (by decide), readLiteral?_escape,
        readLiteral?_of_not_mem (by decide) (by decide)]
      rfl
    refine ⟨_, Metadata.exportModule_eq _ hjson, hback, ?_⟩
    rw [hback, hread]

end DocumentLayout
