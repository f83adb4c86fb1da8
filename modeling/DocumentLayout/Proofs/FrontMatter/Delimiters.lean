import DocumentLayout.Config
import DocumentLayout.Proofs.FrontMatter.RoundTrip

/-!
# Delimiters of a configuration

A configuration may choose any delimiter that is not blank, but blocks are looked for in the lines
of a document, behind its byte order mark and without the carriage returns of line breaks. So a
block between two delimiter lines is found exactly when nothing of the delimiter gets lost there.
-/

namespace DocumentLayout

theorem Config.isBlank_delimiter {toml : Text} {config : Config} (h : read toml = .ok config) :
    Text.isBlank config.delimiter = false := by
  unfold read at h
  split at h
  · simp at h
  · split at h
    · simp at h
    · rename_i hblank
      obtain rfl := Except.ok.inj h
      exact eq_false_of_ne_true hblank

theorem Text.dropBreak_suffix (text : Text) : dropBreak text <:+ text := by
  unfold dropBreak
  split
  · exact List.suffix_append ['\r', '\n'] _
  · exact List.suffix_cons ..
  · exact List.suffix_rfl

namespace FrontMatter

/-- What a delimiter may not have if a line is to hold it whole: a line feed, a carriage return at
its end, which would be taken for a part of the line break, and a byte order mark at its start,
which would be taken for that of the document. -/
structure CanFence (delimiter : Text) : Prop where
  feed : '\n' ∉ delimiter
  final : delimiter.getLast? ≠ some '\r'
  mark : delimiter.head? ≠ some byteOrderMark

variable {delimiter : Text} {parts : Fenced}

/-! ## What a block says about its delimiter -/

theorem feed_of_fenced {text : Text} (h : opening delimiter text = .fenced parts) :
    '\n' ∉ delimiter := by
  obtain ⟨block, rest, hblock, -, -, -⟩ := exists_block h
  obtain ⟨after, hclosing, -⟩ := hblock.closes
  intro hmem
  apply hblock.closing
  rw [hclosing]
  exact List.mem_append_left _ hmem

theorem mark_of_fenced {content : Text}
    (h : opening delimiter (cutMark (delimiter ++ '\n' :: content)).2 = .fenced parts) :
    delimiter.head? ≠ some byteOrderMark := by
  intro hmark
  obtain ⟨rest, rfl⟩ := List.head?_eq_some_iff.1 hmark
  apply feed_of_fenced h
  rw [List.cons_append, cutMark_mark] at h
  obtain ⟨block, after, -, htext, -, -⟩ := exists_block h
  dsimp only at htext
  -- Without the mark the first line feed stands where the delimiter would have to go on.
  have hline : rest ++ ['\n'] <+: rest ++ '\n' :: content := ⟨content, by simp⟩
  have hdelimiter : byteOrderMark :: rest <+: rest ++ '\n' :: content := by
    rw [htext, Block.text]
    simp only [List.append_assoc]
    exact List.prefix_append ..
  have hprefix := List.prefix_of_prefix_length_le hline hdelimiter (by simp)
  apply hprefix.subset
  exact List.mem_append_right _ (List.mem_singleton.2 rfl)

-- The carriage return is dropped from the line before it is compared with the delimiter.
theorem closes_self (h : delimiter.getLast? = some '\r') : closes delimiter delimiter = false := by
  obtain ⟨front, rfl⟩ := List.getLast?_eq_some_iff.1 h
  by_contra hcloses
  obtain ⟨after, hline, -⟩ := closes_iff.1 (Bool.not_eq_false _ ▸ hcloses)
  rw [dropReturn_append_return] at hline
  have hlength := congrArg List.length hline
  simp only [List.length_append, List.length_singleton] at hlength
  omega

/-- Behind a delimiter that ends in a carriage return the block goes on past the second delimiter
line, so that a part of the body gets lost if the block is closed at all. -/
theorem body_lt_of_fenced {source : List Line} {body : Text} (hfeed : '\n' ∉ delimiter)
    (hfinal : delimiter.getLast? = some '\r')
    (hsource : ∀ line ∈ source, line.IsWhole ∧ closes delimiter line.text = false)
    (h : opening delimiter
      (delimiter ++ '\n' :: Line.toText source ++ delimiter ++ ['\n'] ++ body) = .fenced parts) :
    parts.body.length < body.length := by
  have htext : delimiter ++ '\n' :: Line.toText source ++ delimiter ++ ['\n'] ++ body =
      delimiter ++ ([] ++ '\n' :: (Line.toText source ++ (delimiter ++ '\n' :: body))) := by
    simp
  have hlines : Line.ofText (Line.toText source ++ (delimiter ++ '\n' :: body)) =
      (source ++ [⟨delimiter, true⟩]) ++ Line.ofText body := by
    rw [Line.ofText_toText_append fun line hline => (hsource line hline).1,
      Line.ofText_line hfeed, List.append_assoc, List.singleton_append]
  have hskip : ∀ line ∈ source ++ [⟨delimiter, true⟩], closes delimiter line.text = false := by
    intro line hline
    rcases List.mem_append.1 hline with hline | hline
    · exact (hsource line hline).2
    · obtain rfl := List.mem_singleton.1 hline
      exact closes_self hfinal
  rw [htext, opening_words hfinal List.not_mem_nil, if_neg (by decide), hlines,
    cutAtClose?_skip hskip] at h
  cases hcut : cutAtClose? delimiter (Line.ofText body) with
  | none => simp [hcut] at h
  | some found =>
    obtain ⟨before, closing, rest⟩ := found
    rw [hcut] at h
    obtain rfl := Opening.fenced.inj h
    obtain ⟨lines, -, -, ⟨after, rfl, -⟩, -, hbody, -⟩ := exists_source hcut
    have hne : delimiter ≠ [] := by
      rintro rfl
      simp at hfinal
    have hdelimiter := List.length_pos_iff.2 hne
    have hbreak := (Text.dropBreak_suffix rest).length_le
    show (Text.dropBreak rest).length < body.length
    rw [hbody]
    simp only [List.length_append]
    omega

/-! ## Blocks of a configured delimiter -/

/-- Between two lines of the delimiter of a configuration, a mapping in YAML without such a line is
read as the front matter of any body exactly when a line can hold the delimiter whole. -/
theorem extract_configured {toml : Text} {config : Config} (hconfig : Config.read toml = .ok config)
    {yaml : Text} {metadata : Metadata} (hlast : yaml.getLast? = some '\n')
    (hread : Yaml.read? yaml = some (.mapping metadata))
    (hopen : ∀ line ∈ List.splitOn '\n' yaml, ∀ after, line = config.delimiter ++ after →
      Text.isBlank after = false) (body : Text) :
    (∃ front,
      extract config.delimiter
          (config.delimiter ++ '\n' :: yaml ++ config.delimiter ++ ['\n'] ++ body) = .ok front ∧
        front.matter.isSome = true ∧ front.metadata = metadata ∧ front.body = body) ↔
      CanFence config.delimiter := by
  have hdelimiter : config.delimiter ≠ [] := by
    intro hnil
    have hblank := Config.isBlank_delimiter hconfig
    rw [hnil] at hblank
    exact absurd hblank (by decide)
  have hsource := lines_of_open hlast hopen
  constructor
  · rintro ⟨front, hextract, hmatter, -, hbody⟩
    rcases extract_eq_ok hextract with ⟨-, rfl⟩ | ⟨parts, _, hopening, -, rfl⟩
    · simp [absent] at hmatter
    · have hfeed := feed_of_fenced hopening
      have hmark : config.delimiter.head? ≠ some byteOrderMark := by
        simp only [List.append_assoc, List.cons_append] at hopening
        exact mark_of_fenced hopening
      refine ⟨hfeed, fun hfinal => ?_, hmark⟩
      rw [cutMark_of_head?, ← Line.toText_ofText yaml] at hopening
      · have hlt := body_lt_of_fenced hfeed hfinal hsource hopening
        have hsame : parts.body = body := hbody
        rw [hsame] at hlt
        exact lt_irrefl _ hlt
      · simp only [List.append_assoc]
        rw [List.head?_append_of_ne_nil _ hdelimiter]
        exact hmark
  · intro hfence
    have hmetadata := readMetadata_yaml hread
    rw [← Line.toText_ofText yaml] at hmetadata
    have hextract := extract_lines hdelimiter hfence.final hfence.feed hfence.mark hsource
      hmetadata body
    rw [Line.toText_ofText] at hextract
    exact ⟨_, hextract, rfl, rfl, rfl⟩

theorem open_pair {c : Char} {rest : Text} (hc : c ≠ 'a') :
    ∀ line ∈ List.splitOn '\n' "a: b\n".toList, ∀ after, line = c :: rest ++ after →
      Text.isBlank after = false := by
  have hsplit : List.splitOn '\n' "a: b\n".toList = ["a: b".toList, []] := by decide
  rw [hsplit]
  intro line hline after hafter
  rcases List.mem_pair.1 hline with rfl | rfl
  · exact absurd (List.head_eq_of_cons_eq hafter).symm hc
  · simp at hafter

/-- A delimiter with a carriage return that does not end it, and a body that starts with a line of
the delimiter. -/
theorem extract_configured_return :
    ∃ config,
      Config.read "front_matter.delimiter = \"\\r-\"".toList = .ok config ∧
      config.delimiter = "\r-".toList ∧
      ∃ front,
        extract config.delimiter (config.delimiter ++ '\n' :: "a: b\n".toList ++
          config.delimiter ++ ['\n'] ++ "\r-\nb".toList) = .ok front ∧
        front.matter.isSome = true ∧ front.metadata = [(.string ['a'], .string ['b'])] ∧
        front.body = "\r-\nb".toList := by
  have h : (Config.read "front_matter.delimiter = \"\\r-\"".toList).toOption.any
      (fun config => config.delimiter = "\r-".toList) = true := by
    decide +kernel
  obtain ⟨config, hconfig, hdelimiter⟩ := exists_ok_of_any h
  have hdelimiter : config.delimiter = "\r-".toList := of_decide_eq_true hdelimiter
  have hopen : ∀ line ∈ List.splitOn '\n' "a: b\n".toList, ∀ after,
      line = config.delimiter ++ after → Text.isBlank after = false := by
    rw [hdelimiter]
    exact open_pair (by decide)
  have hfence : CanFence config.delimiter := by
    rw [hdelimiter]
    exact ⟨by decide, by decide, by decide⟩
  exact ⟨config, hconfig, hdelimiter,
    (extract_configured hconfig rfl Yaml.read?_pair hopen "\r-\nb".toList).2 hfence⟩

/-- A delimiter of two lines is accepted, but it opens a block that nothing closes. -/
theorem extract_configured_feed :
    ∃ config,
      Config.read "front_matter.delimiter = \"-\\n-\"".toList = .ok config ∧
      (∀ line ∈ List.splitOn '\n' "a: b\n".toList, ∀ after, line = config.delimiter ++ after →
        Text.isBlank after = false) ∧
      Yaml.read? "a: b\n".toList = some (.mapping [(.string ['a'], .string ['b'])]) ∧
      extract config.delimiter (config.delimiter ++ '\n' :: "a: b\n".toList ++
        config.delimiter ++ ['\n'] ++ "c".toList) =
          .error (.malformedMetadata (.neverClosed "-\n-".toList)) := by
  have h : (Config.read "front_matter.delimiter = \"-\\n-\"".toList).toOption.any
      (fun config => config.delimiter = "-\n-".toList) = true := by
    decide +kernel
  obtain ⟨config, hconfig, hdelimiter⟩ := exists_ok_of_any h
  have hdelimiter : config.delimiter = "-\n-".toList := of_decide_eq_true hdelimiter
  refine ⟨config, hconfig, ?_, Yaml.read?_pair, ?_⟩
  · rw [hdelimiter]
    exact open_pair (by decide)
  · have hopening : opening "-\n-".toList
        (cutMark "-\n-\na: b\n-\n-\nc".toList).2 = .unclosed := by
      decide +kernel
    rw [hdelimiter]
    show extract "-\n-".toList "-\n-\na: b\n-\n-\nc".toList = _
    unfold extract
    dsimp only
    rw [hopening]

end FrontMatter

end DocumentLayout
