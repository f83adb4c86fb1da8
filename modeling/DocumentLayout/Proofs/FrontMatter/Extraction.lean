import DocumentLayout.FrontMatter.Basic
import DocumentLayout.Injection
import DocumentLayout.Proofs.Text.Lines
import DocumentLayout.Proofs.Traversal

/-!
# Extraction

A block of front matter ends at the first line that closes it, and what stands behind that line
does not matter for what is read from the block. So the block keeps its metadata and its language
when something else follows it.
-/

namespace DocumentLayout

namespace FrontMatter

/-! ## The mark -/

theorem cutMark_cases (text : Text) :
    (∃ rest, text = byteOrderMark :: rest ∧ cutMark text = ([byteOrderMark], rest)) ∨
      (text.head? ≠ some byteOrderMark ∧ cutMark text = ([], text)) := by
  cases text with
  | nil => exact .inr ⟨by simp, rfl⟩
  | cons c rest =>
    rw [cutMark]
    by_cases hc : c = byteOrderMark
    · subst hc
      exact .inl ⟨rest, rfl, if_pos rfl⟩
    · exact .inr ⟨by simpa using hc, if_neg hc⟩

-- The mark of a text is found again in front of another text that starts like the content of the
-- first, or with no mark at all.
theorem cutMark_append {text other : Text}
    (h : other.head? = (cutMark text).2.head? ∨ other.head? ≠ some byteOrderMark) :
    cutMark ((cutMark text).1 ++ other) = ((cutMark text).1, other) := by
  rcases cutMark_cases text with ⟨rest, rfl, hcut⟩ | ⟨hhead, hcut⟩
  · rw [hcut, List.singleton_append, cutMark, if_pos rfl]
  · rw [hcut] at h ⊢
    have hother : other.head? ≠ some byteOrderMark := by
      rcases h with hsame | hother
      · rw [hsame]
        exact hhead
      · exact hother
    -- No mark was cut off, and none comes in with the other text.
    rcases cutMark_cases other with ⟨rest, rfl, -⟩ | ⟨-, hnone⟩
    · simp at hother
    · exact hnone

/-! ## The closing line -/

-- A line loses nothing but one carriage return.
theorem exists_dropReturn (line : Text) :
    ∃ back, (back = [] ∨ back = ['\r']) ∧ dropReturn line ++ back = line ∧
      line.drop (dropReturn line).length = back := by
  obtain ⟨back, hback, hline⟩ : ∃ back, (back = [] ∨ back = ['\r']) ∧
      dropReturn line ++ back = line := by
    unfold dropReturn Text.dropLast?
    split
    · rename_i hlast
      exact ⟨['\r'], .inr rfl, List.dropLast_append_getLast? _ hlast⟩
    · exact ⟨[], .inl rfl, List.append_nil line⟩
  refine ⟨back, hback, hline, ?_⟩
  calc line.drop (dropReturn line).length
      = (dropReturn line ++ back).drop (dropReturn line).length := by rw [hline]
    _ = back := List.drop_left

theorem dropReturn_of_not_mem {line : Text} (h : '\r' ∉ line) : dropReturn line = line := by
  obtain ⟨back, rfl | rfl, hline, -⟩ := exists_dropReturn line
  · rwa [List.append_nil] at hline
  · exact absurd (hline ▸ List.mem_append_right _ (List.mem_singleton.2 rfl)) h

theorem closes_iff {delimiter line : Text} :
    closes delimiter line = true ↔
      ∃ after, dropReturn line = delimiter ++ after ∧ Text.isBlank after = true := by
  unfold closes
  constructor
  · intro h
    split at h
    · rename_i after hstarts
      exact ⟨after, (List.append_eq_of_isPrefixOf?_eq_some hstarts).symm, h⟩
    · simp at h
  · rintro ⟨after, hline, hblank⟩
    rw [hline, Text.dropPrefix?_append]
    exact hblank

-- The delimiter with white space after it closes as it is, also when a carriage return is dropped.
theorem closes_append {delimiter after : Text} (hreturn : delimiter.getLast? ≠ some '\r')
    (hblank : Text.isBlank after = true) : closes delimiter (delimiter ++ after) = true := by
  refine closes_iff.2 ?_
  obtain ⟨back, rfl | rfl, hback, -⟩ := exists_dropReturn (delimiter ++ after)
  · rw [List.append_nil] at hback
    exact ⟨after, hback, hblank⟩
  · -- The carriage return stands behind the delimiter, which does not end in one.
    rcases List.eq_nil_or_concat after with rfl | ⟨front, last, rfl⟩
    · rw [List.append_nil] at hback
      exact absurd (hback ▸ List.getLast?_concat) hreturn
    · rw [List.concat_eq_append, ← List.append_assoc] at hback ⊢
      refine ⟨front, List.append_inj_left' hback rfl, ?_⟩
      simp only [Text.isBlank, List.concat_eq_append, List.all_append, Bool.and_eq_true] at hblank
      exact hblank.1

/-- A block ends at its first closing line. -/
theorem cutAtClose?_eq_some {delimiter source closing rest : Text} {lines : List Line}
    (h : cutAtClose? delimiter lines = some (source, closing, rest)) :
    ∃ before line after, lines = before ++ line :: after ∧
      (∀ other ∈ before, closes delimiter other.text = false) ∧
      closes delimiter line.text = true ∧ source = Line.toText before ∧
      closing = dropReturn line.text ∧
      rest = line.text.drop closing.length ++ (if line.broken then ['\n'] else []) ++
        Line.toText after := by
  induction lines generalizing source closing rest with
  | nil => simp [cutAtClose?] at h
  | cons line lines ih =>
    rw [cutAtClose?] at h
    split at h
    · rename_i hcloses
      obtain ⟨rfl, rfl, rfl⟩ : [] = source ∧ dropReturn line.text = closing ∧ _ = rest := by
        simpa using h
      exact ⟨[], line, lines, rfl, by simp, hcloses, rfl, rfl, by simp⟩
    · rename_i hopen
      obtain ⟨⟨inner, _, _⟩, hcut, hparts⟩ := Option.map_eq_some_iff.1 h
      obtain ⟨rfl, rfl, rfl⟩ : _ = source ∧ _ = closing ∧ _ = rest := by simpa using hparts
      obtain ⟨before, closer, after, rfl, hbefore, hcloses, rfl, rfl, rfl⟩ := ih hcut
      exact ⟨line :: before, closer, after, rfl,
        List.forall_mem_cons.2 ⟨by simpa using hopen, hbefore⟩, hcloses,
        by simp [Line.toText], rfl, rfl⟩

-- Lines that do not close a block become part of it.
theorem cutAtClose?_skip {delimiter : Text} {before : List Line}
    (hbefore : ∀ other ∈ before, closes delimiter other.text = false) (lines : List Line) :
    cutAtClose? delimiter (before ++ lines) =
      (cutAtClose? delimiter lines).map fun (source, closing, rest) =>
        (Line.toText before ++ source, closing, rest) := by
  induction before with
  | nil => exact Option.map_id'.symm
  | cons other before ih =>
    rw [List.cons_append, cutAtClose?, hbefore other (List.mem_cons_self ..),
      if_neg Bool.false_ne_true, ih fun line hline => hbefore line (List.mem_cons_of_mem _ hline),
      Option.map_map]
    congr 1
    funext ⟨source, closing, rest⟩
    simp [Line.toText]

theorem cutAtClose?_append {delimiter : Text} {before after : List Line} {line : Line}
    (hbefore : ∀ other ∈ before, closes delimiter other.text = false)
    (hline : closes delimiter line.text = true) :
    cutAtClose? delimiter (before ++ line :: after) =
      some (Line.toText before, dropReturn line.text,
        line.text.drop (dropReturn line.text).length ++ (if line.broken then ['\n'] else []) ++
          Line.toText after) := by
  rw [cutAtClose?_skip hbefore, cutAtClose?, if_pos hline]
  simp

-- Where the lines of a text are cut, and what they lose there. What is left behind the closing line
-- starts with its break, unless the text ends there.
theorem exists_source {delimiter content source closing rest : Text}
    (h : cutAtClose? delimiter (Line.ofText content) = some (source, closing, rest)) :
    ∃ before, source = Line.toText before ∧
      (∀ line ∈ before, line.IsWhole ∧ closes delimiter line.text = false) ∧
      (∃ after, closing = delimiter ++ after ∧ Text.isBlank after = true) ∧ '\n' ∉ closing ∧
      content = source ++ closing ++ rest ∧
      (rest = [] ∨ rest = ['\r'] ∨ ∃ body, rest = '\n' :: body ∨ rest = '\r' :: '\n' :: body) := by
  obtain ⟨before, line, after, hlines, hbefore, hcloses, rfl, rfl, rfl⟩ := cutAtClose?_eq_some h
  obtain ⟨hwhole, hline⟩ := Line.whole_of_ofText_eq hlines
  obtain ⟨back, hback, hline', hdrop⟩ := exists_dropReturn line.text
  refine ⟨before, rfl, fun other hother => ⟨hwhole other hother, hbefore other hother⟩,
    closes_iff.1 hcloses, ?_, ?_, ?_⟩
  · rw [← hline'] at hline
    exact fun hmem => hline (List.mem_append_left _ hmem)
  · rw [← Line.toText_ofText content, hlines, Line.toText_append, Line.toText, hdrop]
    conv_lhs => rw [← hline']
    simp only [List.append_assoc]
  · -- Without a break the line is the last one.
    rw [hdrop]
    cases hbroken : line.broken with
    | true => rcases hback with rfl | rfl <;> simp
    | false =>
      obtain rfl := Line.after_eq_nil hlines hbroken
      rcases hback with rfl | rfl <;> simp [Line.toText]

/-! ## The block -/

/-- A block of front matter: the words after the opening delimiter, the lines in front of the first
that closes the block, and the line that closes it. -/
structure Block where
  words : Text
  source : List Line
  closing : Text

/-- The text of a block. -/
def Block.text (delimiter : Text) (block : Block) : Text :=
  delimiter ++ block.words ++ '\n' :: Line.toText block.source ++ block.closing

/-- What makes a block readable behind a delimiter. -/
structure Block.IsReadable (delimiter : Text) (block : Block) : Prop where
  last : ∃ last, delimiter.getLast? = some last ∧ (block.words ++ ['\n']).head? ≠ some last
  words : '\n' ∉ block.words
  tag : (Text.trim block.words).all isTagChar = true
  source : ∀ line ∈ block.source, line.IsWhole ∧ closes delimiter line.text = false
  closes : ∃ after, block.closing = delimiter ++ after ∧ Text.isBlank after = true
  closing : '\n' ∉ block.closing

theorem Block.IsReadable.delimiter_ne_nil {delimiter : Text} {block : Block}
    (h : block.IsReadable delimiter) : delimiter ≠ [] := by
  obtain ⟨last, hlast, -⟩ := h.last
  rintro rfl
  simp at hlast

theorem opening_words {delimiter words : Text} {last : Char}
    (hlast : delimiter.getLast? = some last) (hwords : '\n' ∉ words) (content : Text) :
    opening delimiter (delimiter ++ (words ++ '\n' :: content)) =
      if (words ++ ['\n']).head? = some last ∨ ¬ (Text.trim words).all isTagChar then .absent
      else
        match cutAtClose? delimiter (Line.ofText content) with
        | none => .unclosed
        | some (source, closing, after) =>
          .fenced ⟨Text.trim words, source, delimiter ++ words ++ '\n' :: source ++ closing,
            Text.dropBreak after⟩ := by
  have hhead : (words ++ '\n' :: content).head? = (words ++ ['\n']).head? := by
    cases words <;> rfl
  unfold opening
  rw [Text.dropPrefix?_append, hlast]
  dsimp only
  rw [Text.cutLine_append hwords, hhead]
  rfl

/-- A text that has a block starts with one that is readable, and the break of its closing line
follows unless the text ends there. -/
theorem exists_block {delimiter text : Text} {parts : Fenced}
    (h : opening delimiter text = .fenced parts) :
    ∃ block rest, Block.IsReadable delimiter block ∧ text = block.text delimiter ++ rest ∧
      parts = ⟨Text.trim block.words, Line.toText block.source, block.text delimiter,
        Text.dropBreak rest⟩ ∧
      (rest = [] ∨ rest = ['\r'] ∨ ∃ body, rest = '\n' :: body ∨ rest = '\r' :: '\n' :: body) := by
  cases hstarts : Text.dropPrefix? delimiter text with
  | none => simp [opening, hstarts] at h
  | some afterDelimiter =>
    cases hlast : delimiter.getLast? with
    | none => simp [opening, hstarts, hlast] at h
    | some last =>
      obtain rfl := List.append_eq_of_isPrefixOf?_eq_some hstarts
      rcases Text.line_cases afterDelimiter with hfeed | ⟨words, content, hwords, rfl⟩
      · -- Nothing stands below the opening line, so nothing closes the block.
        have hcut : cutAtClose? delimiter (Line.ofText []) = none := rfl
        unfold opening at h
        rw [hstarts, hlast] at h
        dsimp only at h
        rw [Text.cutLine_of_not_mem hfeed] at h
        dsimp only at h
        rw [Option.getD_none, hcut] at h
        split at h <;> simp at h
      · rw [opening_words hlast hwords] at h
        split at h
        · simp at h
        · rename_i htag
          obtain ⟨hhead, htag⟩ := not_or.1 htag
          cases hcut : cutAtClose? delimiter (Line.ofText content) with
          | none => simp [hcut] at h
          | some found =>
            obtain ⟨source, closing, rest⟩ := found
            rw [hcut] at h
            obtain rfl := Opening.fenced.inj h
            obtain ⟨before, rfl, hbefore, hcloses, hclosing, rfl, hrest⟩ := exists_source hcut
            refine ⟨⟨words, before, closing⟩, rest, ?_, ?_, rfl, hrest⟩
            · exact {
                last := ⟨last, hlast, hhead⟩
                words := hwords
                tag := by simpa using htag
                source := hbefore
                closes := hcloses
                closing := hclosing }
            · simp [Block.text]

/-- A readable block is read back whatever follows the line feed behind it. -/
theorem opening_block {delimiter : Text} {block : Block}
    (hreturn : delimiter.getLast? ≠ some '\r') (h : block.IsReadable delimiter) (rest : Text) :
    opening delimiter (block.text delimiter ++ '\n' :: rest) =
      .fenced ⟨Text.trim block.words, Line.toText block.source,
        delimiter ++ block.words ++ '\n' :: Line.toText block.source ++ dropReturn block.closing,
        rest⟩ := by
  obtain ⟨last, hlast, hhead⟩ := h.last
  have hcloses : closes delimiter block.closing = true := by
    obtain ⟨after, hclosing, hblank⟩ := h.closes
    rw [hclosing]
    exact closes_append hreturn hblank
  have htext : block.text delimiter ++ '\n' :: rest = delimiter ++ (block.words ++
      '\n' :: (Line.toText block.source ++ (block.closing ++ '\n' :: rest))) := by
    simp [Block.text]
  have hcut : cutAtClose? delimiter
      (Line.ofText (Line.toText block.source ++ (block.closing ++ '\n' :: rest))) =
      some (Line.toText block.source, dropReturn block.closing,
        block.closing.drop (dropReturn block.closing).length ++ '\n' :: rest) := by
    rw [Line.ofText_toText_append fun line hline => (h.source line hline).1,
      Line.ofText_line h.closing,
      cutAtClose?_append (fun line hline => (h.source line hline).2) hcloses]
    simp [Line.toText_ofText]
  -- What the closing line loses is part of the break behind it.
  have hbreak : Text.dropBreak
      (block.closing.drop (dropReturn block.closing).length ++ '\n' :: rest) = rest := by
    obtain ⟨back, rfl | rfl, -, hback⟩ := exists_dropReturn block.closing <;> rw [hback] <;> rfl
  rw [htext, opening_words hlast h.words,
    if_neg (not_or.2 ⟨hhead, by rw [h.tag]; exact not_not.2 rfl⟩), hcut]
  dsimp only
  rw [hbreak]

/-! ## Documents -/

/-- The front matter that a fenced block with this metadata stands for. -/
def ofFenced (metadata : Metadata) (parts : Fenced) : FrontMatter :=
  ⟨metadata, some parts.matter, if parts.language = [] then none else some parts.language,
    parts.body⟩

theorem extract_of_absent {delimiter text : Text}
    (h : opening delimiter (cutMark text).2 = .absent) :
    extract delimiter text = .ok (absent (cutMark text).2) := by
  unfold extract
  dsimp only
  rw [h]

theorem extract_of_fenced {delimiter text : Text} {parts : Fenced} {metadata : Metadata}
    (hopening : opening delimiter (cutMark text).2 = .fenced parts)
    (hmetadata : readMetadata parts.language parts.source = .ok metadata) :
    extract delimiter text = .ok (ofFenced metadata parts) := by
  unfold extract
  dsimp only
  rw [hopening]
  dsimp only
  rw [hmetadata]
  rfl

/-- A document that can be read has no block, or one whose metadata can be read. -/
theorem extract_eq_ok {delimiter text : Text} {front : FrontMatter}
    (h : extract delimiter text = .ok front) :
    (opening delimiter (cutMark text).2 = .absent ∧ front = absent (cutMark text).2) ∨
      ∃ parts metadata, opening delimiter (cutMark text).2 = .fenced parts ∧
        readMetadata parts.language parts.source = .ok metadata ∧
        front = ofFenced metadata parts := by
  cases hopening : opening delimiter (cutMark text).2 with
  | absent =>
    rw [extract_of_absent hopening] at h
    exact .inl ⟨rfl, (Except.ok.inj h).symm⟩
  | unclosed => simp [extract, hopening] at h
  | fenced parts =>
    cases hmetadata : readMetadata parts.language parts.source with
    | error fault => simp [extract, hopening, hmetadata] at h
    | ok metadata =>
      rw [extract_of_fenced hopening hmetadata] at h
      exact .inr ⟨parts, metadata, rfl, hmetadata, (Except.ok.inj h).symm⟩

/-! ## Other bodies -/

theorem cutMark_mark (text : Text) :
    cutMark (byteOrderMark :: text) = ([byteOrderMark], text) := by
  show (if byteOrderMark = byteOrderMark then ([byteOrderMark], text)
    else ([], byteOrderMark :: text)) = _
  rw [if_pos rfl]

theorem cutMark_of_head? {text : Text} (h : text.head? ≠ some byteOrderMark) :
    cutMark text = ([], text) := by
  rcases cutMark_cases text with ⟨rest, rfl, -⟩ | ⟨-, hcut⟩
  · exact absurd rfl h
  · exact hcut

theorem dropReturn_append_return (line : Text) : dropReturn (line ++ ['\r']) = line := by
  unfold dropReturn Text.dropLast?
  rw [if_pos (List.getLast?_concat ..), List.dropLast_concat]
  rfl

theorem dropReturn_of_getLast? {line : Text} (h : line.getLast? ≠ some '\r') :
    dropReturn line = line := by
  unfold dropReturn Text.dropLast?
  rw [if_neg h]
  rfl

theorem Block.getLast?_text {delimiter : Text} {block : Block} (h : block.closing ≠ []) :
    (block.text delimiter).getLast? = block.closing.getLast? := by
  unfold Block.text
  exact List.getLast?_append_of_ne_nil _ h

namespace Block.IsReadable

variable {delimiter : Text} {block : Block}

theorem closing_ne_nil (h : block.IsReadable delimiter) : block.closing ≠ [] := by
  obtain ⟨after, hclosing, -⟩ := h.closes
  rw [hclosing]
  exact List.append_ne_nil_of_left_ne_nil h.delimiter_ne_nil after

theorem head?_append (h : block.IsReadable delimiter) (rest : Text) :
    (block.text delimiter ++ rest).head? = delimiter.head? := by
  unfold Block.text
  simp only [List.append_assoc]
  exact List.head?_append_of_ne_nil _ h.delimiter_ne_nil

/-- The block goes on being readable when its closing line gets a carriage return, which is white
space like any other there. -/
theorem withReturn (h : block.IsReadable delimiter) :
    Block.IsReadable delimiter { block with closing := block.closing ++ ['\r'] } where
  last := h.last
  words := h.words
  tag := h.tag
  source := h.source
  closes := by
    obtain ⟨after, hclosing, hblank⟩ := h.closes
    refine ⟨after ++ ['\r'], ?_, ?_⟩
    · rw [hclosing, List.append_assoc]
    · unfold Text.isBlank at hblank ⊢
      rw [List.all_append, hblank]
      decide
  closing := by
    rw [List.mem_append, not_or]
    exact ⟨h.closing, by decide⟩

/-- A readable block that does not end in a carriage return is found in front of either line
break. -/
theorem opening_break (h : block.IsReadable delimiter) (hreturn : '\r' ∉ delimiter)
    (hlast : block.closing.getLast? ≠ some '\r') {lineBreak : Text}
    (hbreak : lineBreak = ['\n'] ∨ lineBreak = ['\r', '\n']) (body : Text) :
    opening delimiter (block.text delimiter ++ lineBreak ++ body) =
      .fenced ⟨Text.trim block.words, Line.toText block.source, block.text delimiter, body⟩ := by
  have hreturn : delimiter.getLast? ≠ some '\r' := mt List.mem_of_getLast? hreturn
  rcases hbreak with rfl | rfl
  · have hopening := opening_block hreturn h body
    rw [dropReturn_of_getLast? hlast] at hopening
    rw [List.append_assoc]
    exact hopening
  · -- The carriage return is taken for white space of the closing line and then dropped from it.
    have hopening := opening_block hreturn h.withReturn body
    rw [dropReturn_append_return] at hopening
    have htext : Block.text delimiter { block with closing := block.closing ++ ['\r'] } ++
        '\n' :: body = block.text delimiter ++ ['\r', '\n'] ++ body := by
      simp [Block.text]
    rw [← htext]
    exact hopening

end Block.IsReadable

/-- A block of front matter means the same in front of any body: with either line break behind it,
and with a byte order mark in front of it or without one, it is found again with its metadata and
its language, and what stands behind the break is the body, whatever it is. -/
theorem extract_other_body {delimiter text matter : Text} {front : FrontMatter}
    (hreturn : '\r' ∉ delimiter) (hmark : delimiter.head? ≠ some byteOrderMark)
    (hextract : extract delimiter text = .ok front) (hmatter : front.matter = some matter)
    (hlast : matter.getLast? ≠ some '\r') (body : Text) {mark lineBreak : Text}
    (hfront : mark = [] ∨ mark = [byteOrderMark])
    (hbreak : lineBreak = ['\n'] ∨ lineBreak = ['\r', '\n']) :
    extract delimiter (mark ++ (matter ++ lineBreak ++ body)) = .ok { front with body } := by
  rcases extract_eq_ok hextract with ⟨-, rfl⟩ | ⟨parts, metadata, hopening, hmetadata, rfl⟩
  · exact absurd hmatter (by simp [absent])
  · obtain ⟨block, rest, hblock, -, rfl, -⟩ := exists_block hopening
    obtain rfl : block.text delimiter = matter := Option.some.inj hmatter
    rw [Block.getLast?_text hblock.closing_ne_nil] at hlast
    have hcut : (cutMark (mark ++ (block.text delimiter ++ lineBreak ++ body))).2 =
        block.text delimiter ++ lineBreak ++ body := by
      rcases hfront with rfl | rfl
      · rw [List.nil_append, cutMark_of_head?]
        rw [List.append_assoc, hblock.head?_append]
        exact hmark
      · rw [List.singleton_append, cutMark_mark]
    have hagain := hblock.opening_break hreturn hlast hbreak body
    rw [← hcut] at hagain
    exact extract_of_fenced hagain hmetadata

/-- A closing line with white space behind its delimiter, and a body that starts with another
closing line, a carriage return and a byte order mark. -/
theorem extract_other_body_delimiter :
    ∃ front,
      extract "+++".toList "+++json\r\n\x7b\"a\":1\x7d\r\n+++ \nold".toList = .ok front ∧
      front.matter = some "+++json\r\n\x7b\"a\":1\x7d\r\n+++ ".toList ∧
      front.metadata ≠ [] ∧
      extract "+++".toList ([byteOrderMark] ++ ("+++json\r\n\x7b\"a\":1\x7d\r\n+++ ".toList ++
        ['\r', '\n'] ++ "+++\n\r\ufeff".toList)) =
          .ok { front with body := "+++\n\r\ufeff".toList } := by
  have h : (extract "+++".toList "+++json\r\n\x7b\"a\":1\x7d\r\n+++ \nold".toList).toOption.any
      (fun front => front.matter = some "+++json\r\n\x7b\"a\":1\x7d\r\n+++ ".toList ∧
        front.metadata.length = 1) = true := by
    decide +kernel
  obtain ⟨front, hextract, hparts⟩ := exists_ok_of_any h
  obtain ⟨hmatter, hlength⟩ := of_decide_eq_true hparts
  refine ⟨front, hextract, hmatter, fun hnil => by simp [hnil] at hlength, ?_⟩
  exact extract_other_body (by decide) (by decide) hextract hmatter (by decide +kernel)
    "+++\n\r\ufeff".toList (.inr rfl) (.inr rfl)

end FrontMatter

end DocumentLayout
