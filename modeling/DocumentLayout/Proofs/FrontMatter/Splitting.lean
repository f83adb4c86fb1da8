import DocumentLayout.Proofs.Injection

/-!
# Splitting

A document is its mark, its block of front matter, the break behind the block and its body, one
after another. Injection splits the document at the same places, so all of them are found again in
its result byte for byte, and the result is another text than the document.
-/

namespace DocumentLayout

/-! ## Lines between line feeds -/

namespace Text

theorem splitOn_toText_append {lines : List Line} (hlines : ∀ line ∈ lines, line.IsWhole)
    {last : Text} (hlast : '\n' ∉ last) :
    (Line.toText lines ++ last).splitOn '\n' = lines.map Line.text ++ [last] := by
  induction lines with
  | nil => exact List.splitOn_eq_singleton hlast
  | cons line lines ih =>
    have hline := hlines line (List.mem_cons_self ..)
    rw [Line.toText_cons_of_whole hline, List.append_assoc, List.cons_append,
      List.splitOn_append_cons_self_of_not_mem hline.2,
      ih fun other hother => hlines other (List.mem_cons_of_mem _ hother)]
    rfl

end Text

/-! ## The parts of a document -/

namespace FrontMatter

/-- The byte order mark that a text starts with, if there is one. -/
def leadingMark (text : Text) : Text :=
  if text.head? = some byteOrderMark then [byteOrderMark] else []

theorem cutMark_fst (text : Text) : (cutMark text).1 = leadingMark text := by
  unfold leadingMark
  rcases cutMark_cases text with ⟨rest, rfl, hcut⟩ | ⟨hhead, hcut⟩
  · rw [hcut]
    rfl
  · rw [hcut, if_neg hhead]

theorem leadingMark_append_cutMark (text : Text) : leadingMark text ++ (cutMark text).2 = text := by
  rw [← cutMark_fst]
  rcases cutMark_cases text with ⟨rest, rfl, hcut⟩ | ⟨-, hcut⟩ <;> rw [hcut] <;> rfl

/-- A block between two delimiter lines: its first line starts with the delimiter, its last line is
the delimiter with at most white space after it, and no line between them is, also without a
carriage return at its end. -/
def IsFenced (delimiter matter : Text) : Prop :=
  ∃ first between after,
    List.splitOn '\n' matter = first :: between ++ [delimiter ++ after] ∧ delimiter <+: first ∧
      Text.isBlank after = true ∧
      ∀ line ∈ between, ∀ rest, dropReturn line = delimiter ++ rest → Text.isBlank rest = false

/-- The line break between a block and the body. It is missing only where the document ends with
the block, or with a lone carriage return behind it. -/
def IsBreak (lineBreak body : Text) : Prop :=
  lineBreak = ['\n'] ∨ lineBreak = ['\r', '\n'] ∨ lineBreak = [] ∧ (body = [] ∨ body = ['\r'])

/-- Nothing of the document gets lost between its mark, its block and its body. -/
structure Splits (delimiter text : Text) (front : FrontMatter) : Prop where
  absent : front.matter = none → text = leadingMark text ++ front.body
  present : ∀ matter, front.matter = some matter → IsFenced delimiter matter ∧
    ∃ lineBreak, text = leadingMark text ++ matter ++ lineBreak ++ front.body ∧
      IsBreak lineBreak front.body

theorem Block.IsReadable.isFenced {delimiter : Text} {block : Block}
    (h : block.IsReadable delimiter) (hfeed : '\n' ∉ delimiter) :
    IsFenced delimiter (block.text delimiter) := by
  obtain ⟨after, hclosing, hblank⟩ := h.closes
  have hfirst : '\n' ∉ delimiter ++ block.words := by
    rw [List.mem_append, not_or]
    exact ⟨hfeed, h.words⟩
  refine ⟨delimiter ++ block.words, block.source.map Line.text, after, ?_,
    List.prefix_append _ _, hblank, ?_⟩
  · calc List.splitOn '\n' (block.text delimiter)
        = List.splitOn '\n' (delimiter ++ block.words ++
            '\n' :: (Line.toText block.source ++ block.closing)) := by simp [Block.text]
      _ = (delimiter ++ block.words) :: (block.source.map Line.text ++ [block.closing]) := by
          rw [List.splitOn_append_cons_self_of_not_mem hfirst,
            Text.splitOn_toText_append (fun line hline => (h.source line hline).1) h.closing]
      _ = _ := by rw [hclosing, List.cons_append]
  · intro line hline rest hrest
    obtain ⟨source, hsource, rfl⟩ := List.mem_map.1 hline
    -- A line with nothing but white space behind the delimiter would have closed the block.
    have hopen := (h.source source hsource).2
    cases hrestBlank : Text.isBlank rest with
    | false => rfl
    | true =>
      rw [closes_iff.2 ⟨rest, hrest, hrestBlank⟩] at hopen
      exact absurd hopen (by decide)

-- A break of one or two characters is dropped as a whole, and a lone carriage return is none.
theorem exists_break {rest : Text}
    (h : rest = [] ∨ rest = ['\r'] ∨ ∃ body, rest = '\n' :: body ∨ rest = '\r' :: '\n' :: body) :
    ∃ lineBreak, rest = lineBreak ++ Text.dropBreak rest ∧
      IsBreak lineBreak (Text.dropBreak rest) := by
  rcases h with rfl | rfl | ⟨body, rfl | rfl⟩
  · exact ⟨[], rfl, .inr (.inr ⟨rfl, .inl rfl⟩)⟩
  · exact ⟨[], rfl, .inr (.inr ⟨rfl, .inr rfl⟩)⟩
  · exact ⟨['\n'], rfl, .inl rfl⟩
  · exact ⟨['\r', '\n'], rfl, .inr (.inl rfl)⟩

-- The closing line of a block ends where a line ends, so no delimiter with a line feed closes one.
theorem Block.IsReadable.feed_not_mem {delimiter : Text} {block : Block}
    (h : block.IsReadable delimiter) : '\n' ∉ delimiter := by
  obtain ⟨after, hclosing, -⟩ := h.closes
  intro hmem
  exact h.closing (hclosing ▸ List.mem_append_left _ hmem)

/-- A document that can be read is made up by the parts it is read into. -/
theorem splits_of_extract {delimiter text : Text} {front : FrontMatter}
    (h : extract delimiter text = .ok front) : Splits delimiter text front := by
  rcases extract_eq_ok h with ⟨-, rfl⟩ | ⟨parts, metadata, hopening, -, rfl⟩
  · exact {
      absent := fun _ => (leadingMark_append_cutMark text).symm
      present := fun matter hmatter => by simp [FrontMatter.absent] at hmatter }
  · obtain ⟨block, rest, hblock, hcontent, rfl, hrest⟩ := exists_block hopening
    refine { absent := fun hnone => by simp [ofFenced] at hnone, present := ?_ }
    intro matter hmatter
    obtain rfl : block.text delimiter = matter := Option.some.inj hmatter
    obtain ⟨lineBreak, hbreak, hisBreak⟩ := exists_break hrest
    refine ⟨hblock.isFenced hblock.feed_not_mem, lineBreak, ?_, hisBreak⟩
    calc text = leadingMark text ++ (cutMark text).2 := (leadingMark_append_cutMark text).symm
      _ = leadingMark text ++ (block.text delimiter ++ (lineBreak ++ Text.dropBreak rest)) := by
          rw [hcontent, ← hbreak]
      _ = _ := by simp [ofFenced]

end FrontMatter

/-! ## Injection -/

/-- The front of a document with a layout: its mark, its block with an empty line behind it, and
the two statements of the layout with an empty line behind each. -/
def injectedFront (text : Text) (matter : Option Text) (layout : Text) : Text :=
  FrontMatter.leadingMark text ++ matter.elim [] (· ++ ['\n', '\n']) ++
    layoutImport layout ++ ['\n', '\n'] ++ layoutExport ++ ['\n', '\n']

-- Injection takes the same block and the same break off the document as reading it does.
theorem splitMatter_of_extract {delimiter text : Text} {front : FrontMatter}
    (h : FrontMatter.extract delimiter text = .ok front) :
    splitMatter front.matter (FrontMatter.cutMark text).2 =
      (front.matter.elim [] (· ++ ['\n', '\n']), front.body) := by
  rcases FrontMatter.extract_eq_ok h with ⟨-, rfl⟩ | ⟨parts, metadata, hopening, -, rfl⟩
  · rfl
  · obtain ⟨block, rest, -, hcontent, rfl, -⟩ := FrontMatter.exists_block hopening
    rw [FrontMatter.ofFenced, splitMatter, hcontent, Text.dropPrefix?_append]
    rfl

theorem injectLayout?_eq_none {text : Text} {matter layout? : Option Text} {exportsDefault : Bool} :
    injectLayout? text matter exportsDefault layout? = none ↔
      exportsDefault = true ∨ ∀ layout, layout? = some layout → Text.isBlank layout = true := by
  unfold injectLayout?
  cases exportsDefault with
  | true => simp
  | false =>
    cases layout? with
    | none => simp
    | some layout => cases hblank : Text.isBlank layout <;> simp [hblank, Option.filter]

-- What is injected is the layout itself, and it is not blank.
theorem exists_layout_of_injected {text input : Text} {matter layout? : Option Text}
    {exportsDefault : Bool} (h : injectLayout? text matter exportsDefault layout? = some input) :
    ∃ layout, layout? = some layout ∧ exportsDefault = false ∧ Text.isBlank layout = false := by
  obtain ⟨layout, rfl, rfl, -⟩ := injectLayout?_eq_some h
  refine ⟨layout, rfl, rfl, ?_⟩
  cases hblank : Text.isBlank layout with
  | false => rfl
  | true =>
    rw [injectLayout?_eq_none.2 (.inr (by simpa using hblank))] at h
    simp at h

theorem injectLayout?_of_extract {delimiter text layout : Text} {front : FrontMatter}
    (h : FrontMatter.extract delimiter text = .ok front) (hblank : Text.isBlank layout = false) :
    injectLayout? text front.matter false (some layout) =
      some (injectedFront text front.matter layout ++ front.body) := by
  rw [injectLayout?_of_not_blank text front.matter hblank, splitMatter_of_extract h,
    FrontMatter.cutMark_fst, layoutStatements_eq, injectedFront]
  simp

-- The break that is dropped has two characters at most, and those come back with the block.
theorem length_lt_injected {delimiter text layout : Text} {front : FrontMatter}
    (h : FrontMatter.extract delimiter text = .ok front) :
    text.length < (injectedFront text front.matter layout ++ front.body).length := by
  obtain ⟨habsent, hpresent⟩ := FrontMatter.splits_of_extract h
  have hstatements : ∀ rest : Text, rest.length <
      (layoutImport layout ++ ['\n', '\n'] ++ layoutExport ++ ['\n', '\n'] ++ rest).length := by
    intro rest
    simp only [List.length_append, List.length_cons, List.length_nil]
    omega
  have hbody := hstatements front.body
  simp only [List.length_append] at hbody
  cases hmatter : front.matter with
  | none =>
    have hlength := congrArg List.length (habsent hmatter)
    simp only [injectedFront, Option.elim_none, List.length_append, List.length_nil] at hlength ⊢
    omega
  | some matter =>
    obtain ⟨-, lineBreak, htext, hbreak⟩ := hpresent matter hmatter
    have hlength := congrArg List.length htext
    have hle : lineBreak.length ≤ 2 := by
      rcases hbreak with rfl | rfl | ⟨rfl, -⟩ <;> simp
    simp only [injectedFront, Option.elim_some, List.length_append, List.length_cons,
      List.length_nil] at hlength hbody ⊢
    omega

theorem Preprocessor.process_eq_ok {preprocessor : Preprocessor} {group : Option Text} {text : Text}
    {document : CompiledDocument} (h : preprocessor.process group text = .ok document) :
    ∃ front exportsDefault layout?,
      FrontMatter.extract preprocessor.delimiter text = .ok front ∧
      document.input = (injectLayout? text front.matter exportsDefault layout?).getD text ∧
      document.layoutInjected =
        (injectLayout? text front.matter exportsDefault layout?).isSome := by
  obtain ⟨front, exportsDefault, compiled, hextract, -, -, rfl⟩ := process_eq_ok_iff_compile.1 h
  exact ⟨front, exportsDefault, _, hextract, rfl, rfl⟩

/-! ## Both at once -/

-- What is injected into differs from the document, and nothing else does.
theorem isSome_injectLayout?_iff {delimiter text : Text} {front : FrontMatter}
    (h : FrontMatter.extract delimiter text = .ok front) (exportsDefault : Bool)
    (layout? : Option Text) :
    (injectLayout? text front.matter exportsDefault layout?).isSome = true ↔
      (injectLayout? text front.matter exportsDefault layout?).getD text ≠ text := by
  cases hinjected : injectLayout? text front.matter exportsDefault layout? with
  | none => simp
  | some input =>
    obtain ⟨layout, rfl, rfl, hblank⟩ := exists_layout_of_injected hinjected
    rw [injectLayout?_of_extract h hblank] at hinjected
    obtain rfl := Option.some.inj hinjected
    simp only [Option.isSome_some, Option.getD_some, true_iff]
    intro heq
    exact absurd (congrArg List.length heq) (length_lt_injected h).ne'

/-- A document is made up by its mark, its block of front matter, the break behind the block and its
body. Injection leaves it as it is when it exports a default or when there is no layout but a blank
one, and otherwise puts the two statements between the same block and the same body, so that a
layout was injected exactly when the text is another one. -/
theorem extract_splits {delimiter text : Text} {front : FrontMatter}
    (h : FrontMatter.extract delimiter text = .ok front) :
    FrontMatter.Splits delimiter text front ∧
    (∀ exportsDefault layout?,
      ((injectLayout? text front.matter exportsDefault layout?).getD text = text ↔
        exportsDefault = true ∨ ∀ layout, layout? = some layout → Text.isBlank layout = true) ∧
      (∀ layout, exportsDefault = false → layout? = some layout → Text.isBlank layout = false →
        (injectLayout? text front.matter exportsDefault layout?).getD text =
          FrontMatter.leadingMark text ++ front.matter.elim [] (· ++ ['\n', '\n']) ++
            layoutImport layout ++ ['\n', '\n'] ++ layoutExport ++ ['\n', '\n'] ++ front.body) ∧
      ((injectLayout? text front.matter exportsDefault layout?).isSome = true ↔
        (injectLayout? text front.matter exportsDefault layout?).getD text ≠ text)) ∧
    ∀ (preprocessor : Preprocessor) group document, preprocessor.delimiter = delimiter →
      preprocessor.process group text = .ok document →
      (document.layoutInjected = true ↔ document.input ≠ text) := by
  refine ⟨FrontMatter.splits_of_extract h, fun exportsDefault layout? => ⟨?_, ?_, ?_⟩, ?_⟩
  · have hsome := isSome_injectLayout?_iff h exportsDefault layout?
    rw [← injectLayout?_eq_none, ← Option.not_isSome_iff_eq_none, hsome, not_not]
  · rintro layout rfl rfl hblank
    rw [injectLayout?_of_extract h hblank]
    rfl
  · exact isSome_injectLayout?_iff h exportsDefault layout?
  · rintro preprocessor group document rfl hprocess
    obtain ⟨again, exportsDefault, layout?, hagain, hinput, hinjected⟩ :=
      preprocessor.process_eq_ok hprocess
    obtain rfl := Except.ok.inj (h.symm.trans hagain)
    rw [hinput, hinjected]
    exact isSome_injectLayout?_iff h exportsDefault layout?

/-- A byte order mark, a delimiter of more than one character, and a closing line with white space
and a lone carriage return at the very end of the document. -/
theorem extract_splits_lone_return :
    ∃ front, FrontMatter.extract "é|".toList "\ufeffé|json\n \r\né|\u3000\r".toList = .ok front ∧
      front.matter = some "é|json\n \r\né|\u3000".toList ∧ front.body = ['\r'] ∧
      FrontMatter.Splits "é|".toList "\ufeffé|json\n \r\né|\u3000\r".toList front ∧
      (injectLayout? "\ufeffé|json\n \r\né|\u3000\r".toList front.matter false
        (some "a.js".toList)).isSome = true := by
  have h : (FrontMatter.extract "é|".toList "\ufeffé|json\n \r\né|\u3000\r".toList).toOption.any
      (fun front => front.matter = some "é|json\n \r\né|\u3000".toList ∧ front.body = ['\r']) =
      true := by
    decide +kernel
  obtain ⟨front, hextract, hparts⟩ := exists_ok_of_any h
  obtain ⟨hmatter, hbody⟩ := of_decide_eq_true hparts
  obtain ⟨hsplits, hinjection, -⟩ := extract_splits hextract
  refine ⟨front, hextract, hmatter, hbody, hsplits, ?_⟩
  obtain ⟨hsame, -, hchanged⟩ := hinjection false (some "a.js".toList)
  rw [hchanged, Ne, hsame]
  decide

end DocumentLayout
