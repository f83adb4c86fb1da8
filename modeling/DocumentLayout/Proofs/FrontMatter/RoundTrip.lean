import DocumentLayout.FrontMatter.Writer
import DocumentLayout.Proofs.FrontMatter.Extraction
import DocumentLayout.Proofs.Yaml.Blank

/-!
# Writing front matter and reading it back

Metadata that was written as a block is read back from it, whatever body follows the block, and the
body comes back as it was. Of YAML all that counts is that it writes whole lines, that none of them
looks like the end of the block, and that it reads them back.
-/

namespace DocumentLayout

/-! ## Metadata as YAML -/

theorem Yaml.read?_pair :
    read? "a: b\n".toList = some (.mapping [(.string ['a'], .string ['b'])]) := by
  have hevents : (tokens? "a: b\n".toList).bind Event.ofTokens? =
      some [.mappingStart Event.bare, .scalar Event.bare ['a'] true,
        .scalar Event.bare ['b'] true, .mappingEnd] := by
    decide +kernel
  have hkey : plainValue? ['a'] = some (.string ['a']) := rfl
  have hvalue : plainValue? ['b'] = some (.string ['b']) := rfl
  rw [read?, hevents]
  simp [ofEvents?, link?, targets, Event.bare, depthLimit, value?, node?, entries?, taggedScalar?,
    ownTag?, scalarValue?, hkey, hvalue, withTag, Value.find?]

/-- The metadata `again` are what YAML reads in the lines that it writes for metadata, none of which
closes a block of this delimiter. Metadata without entries are not written as YAML at all. -/
inductive Metadata.ReadsBack (delimiter : Text) : Metadata → Metadata → Prop
  | empty : ReadsBack delimiter [] []
  | yaml {metadata again : Metadata} {yaml : Text} (hne : metadata ≠ [])
    (hwrite : Yaml.write? metadata = some yaml) (hfeed : yaml.getLast? = some '\n')
    (hread : Yaml.read? yaml = some (.mapping again))
    (hopen : ∀ line ∈ List.splitOn '\n' yaml, ∀ after, line = delimiter ++ after →
      Text.isBlank after = false) :
    ReadsBack delimiter metadata again

namespace FrontMatter

/-! ## A block without a language -/

-- A carriage return at the end of a line is white space as well.
theorem closes_eq_false {delimiter line : Text}
    (h : ∀ after, line = delimiter ++ after → Text.isBlank after = false) :
    closes delimiter line = false := by
  by_contra hcloses
  obtain ⟨after, hline, hblank⟩ := closes_iff.1 (Bool.not_eq_false _ ▸ hcloses)
  obtain ⟨back, hback, hwhole, -⟩ := exists_dropReturn line
  have hall : Text.isBlank (after ++ back) = true := by
    rw [Text.isBlank, List.all_append, Bool.and_eq_true]
    refine ⟨hblank, ?_⟩
    rcases hback with rfl | rfl <;> decide
  have hfalse := h (after ++ back) (by rw [← hwhole, hline, List.append_assoc])
  rw [hall] at hfalse
  exact absurd hfalse (by decide)

-- The lines of a text that ends in a line feed are whole.
theorem lines_of_open {delimiter source : Text} (hlast : source.getLast? = some '\n')
    (hopen : ∀ line ∈ List.splitOn '\n' source, ∀ after, line = delimiter ++ after →
      Text.isBlank after = false) :
    ∀ line ∈ Line.ofText source, line.IsWhole ∧ closes delimiter line.text = false := by
  obtain ⟨front, rfl⟩ := List.getLast?_eq_some_iff.1 hlast
  intro line hline
  refine ⟨Line.whole_of_mem_ofText hline, closes_eq_false (hopen line.text ?_)⟩
  rw [List.splitOn_append_cons_self, ← Line.map_text_ofText]
  exact List.mem_append_left _ (List.mem_map_of_mem hline)

/-- Whole lines between two lines of the delimiter are a block in front of any body. -/
theorem extract_lines {delimiter : Text} {source : List Line} {metadata : Metadata}
    (hdelimiter : delimiter ≠ []) (hreturn : delimiter.getLast? ≠ some '\r')
    (hfeed : '\n' ∉ delimiter) (hmark : delimiter.head? ≠ some byteOrderMark)
    (hsource : ∀ line ∈ source, line.IsWhole ∧ closes delimiter line.text = false)
    (hread : readMetadata [] (Line.toText source) = .ok metadata) (body : Text) :
    extract delimiter (delimiter ++ '\n' :: Line.toText source ++ delimiter ++ ['\n'] ++ body) =
      .ok ⟨metadata, some (delimiter ++ '\n' :: Line.toText source ++ delimiter), none, body⟩ := by
  let block : Block := ⟨[], source, delimiter⟩
  have hblock : block.IsReadable delimiter := {
    last := by
      obtain ⟨last, hlast⟩ :=
        Option.ne_none_iff_exists'.1 (mt List.getLast?_eq_none_iff.1 hdelimiter)
      refine ⟨last, hlast, fun hhead => hfeed ?_⟩
      obtain rfl : '\n' = last := Option.some.inj hhead
      exact List.mem_of_getLast? hlast
    words := List.not_mem_nil
    tag := rfl
    source := hsource
    closes := ⟨[], (List.append_nil _).symm, rfl⟩
    closing := hfeed }
  have hopening := opening_block hreturn hblock body
  have hcut : cutMark (block.text delimiter ++ '\n' :: body) =
      ([], block.text delimiter ++ '\n' :: body) := by
    apply cutMark_of_head?
    rw [hblock.head?_append]
    exact hmark
  have htext : block.text delimiter ++ '\n' :: body =
      delimiter ++ '\n' :: Line.toText source ++ delimiter ++ ['\n'] ++ body := by
    simp [Block.text, block]
  rw [dropReturn_of_getLast? hreturn] at hopening
  have hextract := extract_of_fenced (by rw [hcut]; exact hopening) hread
  rw [htext] at hextract
  rw [hextract]
  simp [ofFenced, block, Text.trim, Text.trimStart, Text.trimEnd]

/-! ## The round trip -/

theorem readMetadata_yaml {yaml : Text} {metadata : Metadata}
    (h : Yaml.read? yaml = some (.mapping metadata)) : readMetadata [] yaml = .ok metadata := by
  have hblank : Text.isBlank yaml = false := by
    by_contra hblank
    exact Yaml.read?_ne_mapping_of_isBlank (Bool.not_eq_false _ ▸ hblank) metadata h
  have htag : MetadataLanguage.ofTag? (Text.lowerAscii []) = some .yaml := rfl
  have hread : MetadataLanguage.yaml.read? yaml = some (.mapping metadata) := h
  unfold readMetadata
  dsimp only
  rw [hblank, htag]
  dsimp only
  rw [hread]
  rfl

/-- Metadata written as a block come back from it as YAML reads them, without a language and with
the whole text but its last line feed as the block. The body behind it comes back as it was, also
when it starts with a line of the delimiter, a carriage return or a byte order mark. -/
theorem extract_write {delimiter : Text} {metadata again : Metadata} (hdelimiter : delimiter ≠ [])
    (hreturn : '\r' ∉ delimiter) (hfeed : '\n' ∉ delimiter)
    (hmark : delimiter.head? ≠ some byteOrderMark)
    (hreads : metadata.ReadsBack delimiter again) (body : Text) :
    ∃ matter, metadata.write delimiter = .ok (matter ++ ['\n']) ∧
      extract delimiter (matter ++ ['\n'] ++ body) = .ok ⟨again, some matter, none, body⟩ := by
  have hreturn : delimiter.getLast? ≠ some '\r' := mt List.mem_of_getLast? hreturn
  cases hreads with
  | empty =>
    have hextract :=
      @extract_lines delimiter [] [] hdelimiter hreturn hfeed hmark (by simp) rfl body
    refine ⟨delimiter ++ '\n' :: delimiter, rfl, ?_⟩
    simpa [Line.toText] using hextract
  | @yaml _ _ yaml hne hwrite hlast hread hopen =>
    refine ⟨delimiter ++ '\n' :: yaml ++ delimiter, ?_, ?_⟩
    · obtain ⟨entry, entries, rfl⟩ := List.exists_cons_of_ne_nil hne
      simp [Metadata.write, hwrite]
    · have hlines := lines_of_open hlast hopen
      have hmetadata := readMetadata_yaml hread
      rw [← Line.toText_ofText yaml] at hmetadata ⊢
      exact extract_lines hdelimiter hreturn hfeed hmark hlines hmetadata body

/-- A delimiter that a line of the metadata starts with, and a body that starts with a line of the
delimiter, a carriage return and a byte order mark. -/
theorem extract_write_delimiter_in_key :
    let metadata : Metadata := [(.string ['a'], .string ['b'])]
    metadata.ReadsBack ['a'] metadata ∧
    ∃ matter, metadata.write ['a'] = .ok (matter ++ ['\n']) ∧
      extract ['a'] (matter ++ ['\n'] ++ "a\n\r\ufeff".toList) =
        .ok ⟨metadata, some matter, none, "a\n\r\ufeff".toList⟩ := by
  intro metadata
  have hwrite : Yaml.write? metadata = some "a: b\n".toList := by decide +kernel
  have hread : Yaml.read? "a: b\n".toList = some (.mapping metadata) := Yaml.read?_pair
  have hopen : ∀ line ∈ List.splitOn '\n' "a: b\n".toList, ∀ after, line = 'a' :: after →
      Text.isBlank after = false := by
    have hsplit : List.splitOn '\n' "a: b\n".toList = ["a: b".toList, []] := by decide
    intro line hline after hafter
    rw [hsplit, hafter] at hline
    obtain rfl : after = ": b".toList := by simpa using hline
    decide
  have hreads : metadata.ReadsBack ['a'] metadata :=
    .yaml (by simp [metadata]) hwrite rfl hread hopen
  exact ⟨hreads, extract_write (by simp) (by decide) (by decide) (by decide) hreads _⟩

end FrontMatter

end DocumentLayout
