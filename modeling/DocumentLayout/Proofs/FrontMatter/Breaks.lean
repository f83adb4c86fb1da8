import DocumentLayout.Proofs.FrontMatter.Splitting
import DocumentLayout.Proofs.Text.Breaks

/-!
# Front matter with line breaks of two characters

Where a document has a carriage return in front of every line feed, its front matter begins and ends
at the same places as without, its body has the same tree, and a layout is injected into the one if
and only if it is injected into the other.
-/

namespace DocumentLayout

namespace FrontMatter

/-! ## The closing line -/

theorem dropReturn_withReturn {line : Line} (h : '\r' ∉ line.text) :
    dropReturn line.withReturn.text = line.text := by
  cases hbroken : line.broken with
  | false =>
    rw [Line.withReturn, hbroken, if_neg Bool.false_ne_true, List.append_nil]
    exact dropReturn_of_not_mem h
  | true => simp [Line.withReturn, hbroken, dropReturn, Text.dropLast?]

theorem closes_withReturn (delimiter : Text) {line : Line} (h : '\r' ∉ line.text) :
    closes delimiter line.withReturn.text = closes delimiter line.text := by
  unfold closes
  rw [dropReturn_withReturn h, dropReturn_of_not_mem h]

/-- The block ends at the same line, and what that line loses stays in front of its line feed. -/
theorem cutAtClose?_withReturn (delimiter : Text) {lines : List Line}
    (h : ∀ line ∈ lines, '\r' ∉ line.text ∧ '\n' ∉ line.text) :
    cutAtClose? delimiter (lines.map Line.withReturn) =
      (cutAtClose? delimiter lines).map fun (source, closing, rest) =>
        (Text.withReturns source, closing, Text.withReturns rest) := by
  induction lines with
  | nil => rfl
  | cons line lines ih =>
    obtain ⟨hline, hlines⟩ := List.forall_mem_cons.1 h
    rw [List.map_cons, cutAtClose?, cutAtClose?, closes_withReturn delimiter hline.1]
    split
    · have htext := Line.toText_map_withReturn fun other hother => (hlines other hother).2
      rw [dropReturn_withReturn hline.1, dropReturn_of_not_mem hline.1, htext]
      cases hbroken : line.broken <;> simp [Line.withReturn, hbroken]
    · have hkeep := Text.withReturns_of_not_mem hline.2
      rw [ih hlines, Option.map_map, Option.map_map]
      refine congrArg (Option.map · _) (funext fun cut => ?_)
      cases hbroken : line.broken <;> simp [Line.withReturn, hbroken, hkeep]

/-! ## The opening line -/

/-- How a text stands to a delimiter when its line feeds have got carriage returns in front of
them. -/
def Opening.withReturns : Opening → Opening
  | .absent => .absent
  | .unclosed => .unclosed
  | .fenced parts =>
    .fenced ⟨parts.language, Text.withReturns parts.source, Text.withReturns parts.matter,
      Text.withReturns parts.body⟩

-- A text of one line opens no block, or one that nothing closes.
theorem opening_of_not_mem (delimiter : Text) {text : Text} (h : '\n' ∉ text) :
    opening delimiter text = .absent ∨ opening delimiter text = .unclosed := by
  cases hopening : opening delimiter text with
  | absent => exact .inl rfl
  | unclosed => exact .inr rfl
  | fenced parts =>
    obtain ⟨block, rest, -, htext, -, -⟩ := exists_block hopening
    exact absurd (by simp [htext, Block.text]) h

-- What is behind the opening line is cut at the same lines.
theorem cutAtClose?_withReturns {delimiter content : Text} (h : '\r' ∉ content) :
    cutAtClose? delimiter (Line.ofText (Text.withReturns content)) =
      (cutAtClose? delimiter (Line.ofText content)).map fun (source, closing, rest) =>
        (Text.withReturns source, closing, Text.withReturns rest) := by
  have hlines : ∀ line ∈ Line.ofText content, '\r' ∉ line.text ∧ '\n' ∉ line.text := by
    intro line hline
    obtain ⟨before, after, hsplit⟩ := List.append_of_mem hline
    exact ⟨fun hmem => h ((Line.text_infix_of_mem hline).subset hmem),
      (Line.whole_of_ofText_eq hsplit).2⟩
  rw [Line.ofText_withReturns, cutAtClose?_withReturn delimiter hlines]

theorem opening_words_withReturns {delimiter words content : Text} {last : Char}
    (hlast : delimiter.getLast? = some last) (hreturn : '\r' ∉ delimiter) (hfeed : '\n' ∉ delimiter)
    (hwords : '\n' ∉ words) (hcontent : '\r' ∉ content) :
    opening delimiter (delimiter ++ (words ++ ['\r'] ++ '\n' :: Text.withReturns content)) =
      (opening delimiter (delimiter ++ (words ++ '\n' :: content))).withReturns := by
  have hwords' : '\n' ∉ words ++ ['\r'] := by simpa using hwords
  -- Neither break goes on with the last character of the delimiter.
  have hhead : (words ++ ['\r'] ++ ['\n']).head? = some last ↔
      (words ++ ['\n']).head? = some last := by
    have hmem : last ∈ delimiter := List.mem_of_getLast? hlast
    cases words with
    | nil =>
      have hneReturn : '\r' ≠ last := fun hsame => hreturn (hsame ▸ hmem)
      have hneFeed : '\n' ≠ last := fun hsame => hfeed (hsame ▸ hmem)
      simp [hneReturn, hneFeed]
    | cons c words => rfl
  have habsent : ((words ++ ['\r'] ++ ['\n']).head? = some last ∨
      ¬ (Text.trim (words ++ ['\r'])).all isTagChar) ↔
      ((words ++ ['\n']).head? = some last ∨ ¬ (Text.trim words).all isTagChar) := by
    rw [hhead, Text.trim_append_return]
  rw [opening_words hlast hwords', opening_words hlast hwords]
  by_cases hbad : (words ++ ['\n']).head? = some last ∨ ¬ (Text.trim words).all isTagChar
  · rw [if_pos (habsent.2 hbad), if_pos hbad]
    rfl
  · rw [if_neg (mt habsent.1 hbad), if_neg hbad, cutAtClose?_withReturns hcontent,
      Text.trim_append_return]
    cases hcut : cutAtClose? delimiter (Line.ofText content) with
    | none => rfl
    | some cut =>
      obtain ⟨source, closing, rest⟩ := cut
      obtain ⟨-, -, -, -, hclosing, hparts, -⟩ := exists_source hcut
      have hrest : '\r' ∉ rest := fun hmem => hcontent (hparts ▸ List.mem_append_right _ hmem)
      simp [Opening.withReturns, Text.withReturns_of_not_mem hfeed,
        Text.withReturns_of_not_mem hwords, Text.withReturns_of_not_mem hclosing,
        Text.dropBreak_withReturns hrest]

/-- The same block is found in a text with carriage returns. -/
theorem opening_withReturns {delimiter text : Text} (hreturn : '\r' ∉ delimiter)
    (hfeed : '\n' ∉ delimiter) (h : '\r' ∉ text) :
    opening delimiter (Text.withReturns text) = (opening delimiter text).withReturns := by
  cases hstarts : Text.dropPrefix? delimiter text with
  | none =>
    have hnone := Text.dropPrefix?_withReturns hreturn hfeed text
    rw [hstarts, Option.map_none] at hnone
    simp [opening, hstarts, hnone, Opening.withReturns]
  | some afterDelimiter =>
    obtain rfl := List.append_eq_of_isPrefixOf?_eq_some hstarts
    rw [List.mem_append, not_or] at h
    rcases Text.line_cases afterDelimiter with hline | ⟨words, content, hwords, rfl⟩
    · -- A text of one line stays as it is.
      have hone : '\n' ∉ delimiter ++ afterDelimiter := by
        rw [List.mem_append, not_or]
        exact ⟨hfeed, hline⟩
      rw [Text.withReturns_of_not_mem hone]
      rcases opening_of_not_mem delimiter hone with hopening | hopening <;> rw [hopening] <;> rfl
    · have hcontent : '\r' ∉ content := fun hmem => h.2 (by simp [hmem])
      have htext : Text.withReturns (delimiter ++ (words ++ '\n' :: content)) =
          delimiter ++ (words ++ ['\r'] ++ '\n' :: Text.withReturns content) := by
        simp [Text.withReturns_of_not_mem hfeed, Text.withReturns_of_not_mem hwords]
      rw [htext]
      cases hlast : delimiter.getLast? with
      | none => simp [opening, hlast, Opening.withReturns]
      | some last => exact opening_words_withReturns hlast hreturn hfeed hwords hcontent

/-! ## Documents -/

theorem cutMark_withReturns (text : Text) :
    cutMark (Text.withReturns text) = ((cutMark text).1, Text.withReturns (cutMark text).2) := by
  cases text with
  | nil => rfl
  | cons c rest =>
    by_cases hc : c = '\n'
    · subst hc
      rfl
    · rw [Text.withReturns_cons hc, cutMark, cutMark]
      split
      · rfl
      · rw [Text.withReturns_cons hc]

theorem leadingMark_withReturns (text : Text) :
    leadingMark (Text.withReturns text) = leadingMark text := by
  rw [← cutMark_fst, ← cutMark_fst, cutMark_withReturns]

theorem not_mem_cutMark {c : Char} {text : Text} (h : c ∉ text) : c ∉ (cutMark text).2 := by
  rw [← leadingMark_append_cutMark text, List.mem_append, not_or] at h
  exact h.2

theorem readMetadata_ne_neverClosed (language source delimiter : Text) :
    readMetadata language source ≠ .error (.neverClosed delimiter) := by
  intro h
  unfold readMetadata at h
  dsimp only at h
  split at h
  · simp at h
  · split at h
    · simp at h
    · split at h <;> simp at h

/-- A document without front matter is one that opens no block. -/
theorem extract_absent_iff {delimiter text : Text} :
    (∃ front, extract delimiter text = .ok front ∧ front.matter = none) ↔
      opening delimiter (cutMark text).2 = .absent := by
  constructor
  · rintro ⟨front, hextract, hmatter⟩
    rcases extract_eq_ok hextract with ⟨habsent, -⟩ | ⟨parts, metadata, -, -, rfl⟩
    · exact habsent
    · simp [ofFenced] at hmatter
  · intro habsent
    exact ⟨_, extract_of_absent habsent, rfl⟩

theorem extract_neverClosed_iff {delimiter text : Text} :
    extract delimiter text = .error (.malformedMetadata (.neverClosed delimiter)) ↔
      opening delimiter (cutMark text).2 = .unclosed := by
  unfold extract
  dsimp only
  cases opening delimiter (cutMark text).2 with
  | absent => simp
  | unclosed => simp
  | fenced parts =>
    cases hmetadata : readMetadata parts.language parts.source with
    | error fault =>
      have hfault : fault ≠ .neverClosed delimiter := fun hsame =>
        readMetadata_ne_neverClosed _ _ _ (hsame ▸ hmetadata)
      simp [hmetadata, hfault]
    | ok metadata => simp [hmetadata]

/-- Read with carriage returns or without, a document has the same language, and the same block and
the same body but for the carriage returns. -/
theorem parts_withReturns {delimiter text : Text} {front again : FrontMatter}
    (hreturn : '\r' ∉ delimiter) (hfeed : '\n' ∉ delimiter) (h : '\r' ∉ text)
    (hfront : extract delimiter text = .ok front)
    (hagain : extract delimiter (Text.withReturns text) = .ok again) :
    again.language = front.language ∧ again.matter = front.matter.map Text.withReturns ∧
      again.body = Text.withReturns front.body := by
  have hopening := opening_withReturns hreturn hfeed (not_mem_cutMark h)
  rcases extract_eq_ok hfront with ⟨habsent, rfl⟩ | ⟨parts, metadata, hfenced, -, rfl⟩
  · rw [habsent] at hopening
    rw [extract_of_absent (by rw [cutMark_withReturns]; exact hopening)] at hagain
    obtain rfl := Except.ok.inj hagain
    exact ⟨rfl, rfl, by rw [cutMark_withReturns]; rfl⟩
  · rw [hfenced] at hopening
    rcases extract_eq_ok hagain with ⟨habsent, -⟩ | ⟨parts', metadata', hfenced', -, rfl⟩
    · rw [cutMark_withReturns, hopening] at habsent
      simp [Opening.withReturns] at habsent
    · rw [cutMark_withReturns, hopening] at hfenced'
      obtain rfl := Opening.fenced.inj hfenced'
      exact ⟨rfl, rfl, rfl⟩

theorem return_not_mem_body {delimiter text : Text} {front : FrontMatter} (h : '\r' ∉ text)
    (hfront : extract delimiter text = .ok front) : '\r' ∉ front.body := by
  intro hmem
  obtain ⟨habsent, hpresent⟩ := splits_of_extract hfront
  cases hmatter : front.matter with
  | none => exact h (habsent hmatter ▸ List.mem_append_right _ hmem)
  | some matter =>
    obtain ⟨-, lineBreak, htext, -⟩ := hpresent matter hmatter
    exact h (htext ▸ List.mem_append_right _ hmem)

end FrontMatter

/-! ## Injection -/

theorem parseDocument_withReturns (extensions : List Parser.Extension) {text : Text}
    (h : '\r' ∉ text) :
    parseDocument extensions (Text.withReturns text) = parseDocument extensions text := by
  unfold parseDocument Parser.parse
  rw [Text.unifyBreaks_withReturns h, Text.unifyBreaks_of_not_mem h]

-- Whether a layout is injected depends on neither the document nor its front matter.
theorem isSome_injectLayout?_congr (text text' : Text) (matter matter' : Option Text)
    (exportsDefault : Bool) (layout? : Option Text) :
    (injectLayout? text matter exportsDefault layout?).isSome =
      (injectLayout? text' matter' exportsDefault layout?).isSome := by
  rw [Bool.eq_iff_iff, ← not_iff_not]
  simp only [Option.not_isSome_iff_eq_none, injectLayout?_eq_none]

namespace Preprocessor

/-- The text of a document that was read, with its layout if it gets one. -/
theorem input_outcome {preprocessor : Preprocessor} {group : Option Text} {delimiter text : Text}
    {front : FrontMatter} {exportsDefault : Bool}
    (hextract : FrontMatter.extract delimiter text = .ok front) :
    let document := preprocessor.outcome group text front exportsDefault
    (document.layoutInjected = false → document.input = text) ∧
    (document.layoutInjected = true → ∃ layout,
      preprocessor.layoutOf (group.getD Layouts.defaultGroup) = some layout ∧
        document.input = injectedFront text front.matter layout ++ front.body) := by
  intro document
  cases hinjected : injectLayout? text front.matter exportsDefault
      (preprocessor.layoutOf (group.getD Layouts.defaultGroup)) with
  | none =>
    have hdocument : document = ⟨front.metadata, text, text, false⟩ := by
      simp [document, outcome, hinjected]
    rw [hdocument]
    exact ⟨fun _ => rfl, fun h => absurd h Bool.false_ne_true⟩
  | some input =>
    have hdocument : document = ⟨front.metadata, input, input, true⟩ := by
      simp [document, outcome, hinjected]
    obtain ⟨layout, hlayout, rfl, hblank⟩ := exists_layout_of_injected hinjected
    rw [hlayout, injectLayout?_of_extract hextract hblank] at hinjected
    rw [hdocument]
    exact ⟨fun h => absurd h.symm Bool.false_ne_true,
      fun _ => ⟨layout, hlayout, (Option.some.inj hinjected).symm⟩⟩

end Preprocessor

/-! ## Both documents -/

section

variable {delimiter text : Text} {front again : FrontMatter} (hreturn : '\r' ∉ delimiter)
  (hfeed : '\n' ∉ delimiter) (htext : '\r' ∉ text)
  (hfront : FrontMatter.extract delimiter text = .ok front)
  (hagain : FrontMatter.extract delimiter (Text.withReturns text) = .ok again)

include hreturn hfeed htext hfront hagain

theorem parseDocument_body_withReturns (extensions : List Parser.Extension) :
    parseDocument extensions again.body = parseDocument extensions front.body := by
  rw [(FrontMatter.parts_withReturns hreturn hfeed htext hfront hagain).2.2]
  exact parseDocument_withReturns extensions (FrontMatter.return_not_mem_body htext hfront)

theorem hasDefaultExport_body_withReturns (extensions : List Parser.Extension) :
    hasDefaultExport extensions again.body = hasDefaultExport extensions front.body := by
  unfold hasDefaultExport
  rw [parseDocument_body_withReturns hreturn hfeed htext hfront hagain]

/-- Without a compiler of its own a preprocessor takes both documents or neither. -/
theorem Preprocessor.exists_process_withReturns {preprocessor : Preprocessor}
    (hdelimiter : preprocessor.delimiter = delimiter)
    (hcompile : preprocessor.compile = Compiler.passthrough) (group : Option Text) :
    (∃ document, preprocessor.process group (Text.withReturns text) = .ok document) ↔
      ∃ document, preprocessor.process group text = .ok document := by
  have hexports := hasDefaultExport_body_withReturns hreturn hfeed htext hfront hagain
    preprocessor.extensions
  simp only [process_eq_ok_iff hcompile, hdelimiter, hfront, hagain, Except.ok.injEq]
  constructor
  · rintro ⟨_, _, exportsDefault, rfl, hscan, -⟩
    exact ⟨_, front, exportsDefault, rfl, hexports.symm.trans hscan, rfl⟩
  · rintro ⟨_, _, exportsDefault, rfl, hscan, -⟩
    exact ⟨_, again, exportsDefault, rfl, hexports.trans hscan, rfl⟩

/-- A layout is injected into both documents or into neither. -/
theorem Preprocessor.process_withReturns {preprocessor : Preprocessor} {group : Option Text}
    {document document' : CompiledDocument} (hdelimiter : preprocessor.delimiter = delimiter)
    (hdocument : preprocessor.process group text = .ok document)
    (hdocument' : preprocessor.process group (Text.withReturns text) = .ok document') :
    document'.layoutInjected = document.layoutInjected ∧
    (document.layoutInjected = false → document'.input = Text.withReturns text) ∧
    (document.layoutInjected = true → ∃ layout,
      preprocessor.layoutOf (group.getD Layouts.defaultGroup) = some layout ∧
      document.input = injectedFront text front.matter layout ++ front.body ∧
      document'.input = injectedFront text (front.matter.map Text.withReturns) layout ++
        Text.withReturns front.body) := by
  obtain ⟨-, hmatter, hbody⟩ := FrontMatter.parts_withReturns hreturn hfeed htext hfront hagain
  simp only [process_eq_ok_iff_compile, hdelimiter, hfront, hagain, Except.ok.injEq]
    at hdocument hdocument'
  obtain ⟨_, exportsDefault, compiled, rfl, hscan, -, rfl⟩ := hdocument
  obtain ⟨_, exportsDefault', compiled', rfl, hscan', -, rfl⟩ := hdocument'
  rw [hasDefaultExport_body_withReturns hreturn hfeed htext hfront hagain, hscan] at hscan'
  obtain rfl := Except.ok.inj hscan'
  have hsame : (preprocessor.outcome group (Text.withReturns text) again
      exportsDefault).layoutInjected =
      (preprocessor.outcome group text front exportsDefault).layoutInjected :=
    isSome_injectLayout?_congr ..
  obtain ⟨-, hinjected⟩ := @input_outcome preprocessor group _ _ _ exportsDefault hfront
  obtain ⟨hkept', hinjected'⟩ := @input_outcome preprocessor group _ _ _ exportsDefault hagain
  refine ⟨hsame, fun hnone => hkept' (hsame.trans hnone), fun hsome => ?_⟩
  obtain ⟨layout, hlayout, hinput⟩ := hinjected hsome
  obtain ⟨layout', hlayout', hinput'⟩ := hinjected' (hsame.trans hsome)
  obtain rfl := Option.some.inj (hlayout.symm.trans hlayout')
  refine ⟨layout, hlayout, hinput, hinput'.trans ?_⟩
  rw [hmatter, hbody, injectedFront, injectedFront, FrontMatter.leadingMark_withReturns]

end

/-- A document whose line feeds have got carriage returns in front of them opens a block of front
matter, or one that is never closed, exactly when it does without them. Where both can be read, the
language, the block and the body are the same but for the carriage returns, and so are the blocks of
the body under any extensions. So a layout is injected into both or into neither, and it goes
between the same block and the same body. -/
theorem extract_withReturns {delimiter text : Text} (htext : '\r' ∉ text)
    (hreturn : '\r' ∉ delimiter) (hfeed : '\n' ∉ delimiter) :
    ((∃ again, FrontMatter.extract delimiter (Text.withReturns text) = .ok again ∧
        again.matter = none) ↔
      ∃ front, FrontMatter.extract delimiter text = .ok front ∧ front.matter = none) ∧
    (FrontMatter.extract delimiter (Text.withReturns text) =
        .error (.malformedMetadata (.neverClosed delimiter)) ↔
      FrontMatter.extract delimiter text = .error (.malformedMetadata (.neverClosed delimiter))) ∧
    ∀ front again, FrontMatter.extract delimiter text = .ok front →
      FrontMatter.extract delimiter (Text.withReturns text) = .ok again →
      again.language = front.language ∧ again.matter = front.matter.map Text.withReturns ∧
      again.body = Text.withReturns front.body ∧
      (∀ extensions,
        parseDocument extensions again.body = parseDocument extensions front.body) ∧
      ∀ (preprocessor : Preprocessor) group, preprocessor.delimiter = delimiter →
        (preprocessor.compile = Compiler.passthrough →
          ((∃ document, preprocessor.process group (Text.withReturns text) = .ok document) ↔
            ∃ document, preprocessor.process group text = .ok document)) ∧
        ∀ document document', preprocessor.process group text = .ok document →
          preprocessor.process group (Text.withReturns text) = .ok document' →
          document'.layoutInjected = document.layoutInjected ∧
          (document.layoutInjected = false → document'.input = Text.withReturns text) ∧
          (document.layoutInjected = true → ∃ layout,
            preprocessor.layoutOf (group.getD Layouts.defaultGroup) = some layout ∧
            document.input = injectedFront text front.matter layout ++ front.body ∧
            document'.input = injectedFront text (front.matter.map Text.withReturns) layout ++
              Text.withReturns front.body) := by
  have hopening := FrontMatter.opening_withReturns hreturn hfeed (FrontMatter.not_mem_cutMark htext)
  refine ⟨?_, ?_, fun front again hfront hagain => ?_⟩
  · rw [FrontMatter.extract_absent_iff, FrontMatter.extract_absent_iff,
      FrontMatter.cutMark_withReturns, hopening]
    cases FrontMatter.opening delimiter (FrontMatter.cutMark text).2 <;>
      simp [FrontMatter.Opening.withReturns]
  · rw [FrontMatter.extract_neverClosed_iff, FrontMatter.extract_neverClosed_iff,
      FrontMatter.cutMark_withReturns, hopening]
    cases FrontMatter.opening delimiter (FrontMatter.cutMark text).2 <;>
      simp [FrontMatter.Opening.withReturns]
  · obtain ⟨hlanguage, hmatter, hbody⟩ :=
      FrontMatter.parts_withReturns hreturn hfeed htext hfront hagain
    refine ⟨hlanguage, hmatter, hbody,
      parseDocument_body_withReturns hreturn hfeed htext hfront hagain,
      fun preprocessor group hdelimiter => ⟨fun hcompile => ?_, fun document document' => ?_⟩⟩
    · exact Preprocessor.exists_process_withReturns hreturn hfeed htext hfront hagain hdelimiter
        hcompile group
    · exact Preprocessor.process_withReturns hreturn hfeed htext hfront hagain hdelimiter

/-- A byte order mark, white space behind both delimiters, and a body that starts with an empty
line. -/
theorem extract_withReturns_white_space :
    let text := "\ufeff--- \n\t\n---\u3000\n\n- a\n- b".toList
    let preprocessor := Preprocessor.new (fun _ => some "l.js".toList) Compiler.passthrough
    '\r' ∉ text ∧ '\r' ∉ FrontMatter.defaultDelimiter ∧ '\n' ∉ FrontMatter.defaultDelimiter ∧
    ∃ front again document document',
      FrontMatter.extract FrontMatter.defaultDelimiter text = .ok front ∧
      FrontMatter.extract FrontMatter.defaultDelimiter (Text.withReturns text) = .ok again ∧
      again.matter = front.matter.map Text.withReturns ∧
      front.matter = some "--- \n\t\n---\u3000".toList ∧
      preprocessor.process none text = .ok document ∧
      preprocessor.process none (Text.withReturns text) = .ok document' ∧
      document.layoutInjected = true ∧ document'.layoutInjected = document.layoutInjected := by
  intro text preprocessor
  have hreturn : '\r' ∉ text := by decide
  have hextract : (FrontMatter.extract FrontMatter.defaultDelimiter text).toOption.any
      (fun front => front.matter = some "--- \n\t\n---\u3000".toList) = true := by
    decide +kernel
  have hextract' : (FrontMatter.extract FrontMatter.defaultDelimiter
      (Text.withReturns text)).toOption.any (fun _ => true) = true := by
    decide +kernel
  have hprocess : (preprocessor.process none text).toOption.any (·.layoutInjected) = true := by
    decide +kernel
  obtain ⟨front, hfront, hmatter⟩ := exists_ok_of_any hextract
  obtain ⟨again, hagain, -⟩ := exists_ok_of_any hextract'
  obtain ⟨document, hdocument, hinjected⟩ := exists_ok_of_any hprocess
  obtain ⟨-, -, hboth⟩ := extract_withReturns hreturn
    (show '\r' ∉ FrontMatter.defaultDelimiter by decide) (by decide)
  obtain ⟨-, hmatters, -, -, hprocesses⟩ := hboth front again hfront hagain
  obtain ⟨hexists, hdocuments⟩ := hprocesses preprocessor none rfl
  obtain ⟨document', hdocument'⟩ := (hexists rfl).2 ⟨document, hdocument⟩
  exact ⟨hreturn, by decide, by decide, front, again, document, document', hfront, hagain, hmatters,
    of_decide_eq_true hmatter, hdocument, hdocument', hinjected,
    (hdocuments document document' hdocument hdocument').1⟩

end DocumentLayout
