import DocumentLayout.Proofs.Statement.Candidates
import Mathlib.Data.List.DropRight

/-!
# Splitting a block

The statements of a block and the white space around them make up the block again. Candidates are
cut at lexemes and those that are no statements go back to the statement in front of them, so
nothing gets lost; what a statement is trimmed of is white space, and as the next statement starts
on a line of its own, there is a line feed in it.
-/

namespace DocumentLayout

/-! ## Trimmed texts -/

namespace Text

theorem exists_eq_trimEnd_append (text : Text) :
    ∃ gap, text = trimEnd text ++ gap ∧ isBlank gap = true :=
  ⟨text.rtakeWhile isSpace, List.rdropWhile_append_rtakeWhile.symm,
    List.all_eq_true.2 fun _ => List.mem_rtakeWhile_imp⟩

theorem isSpace_of_getLast?_trimEnd {text : Text} {c : Char}
    (h : (trimEnd text).getLast? = some c) : isSpace c = false := by
  have hne : trimEnd text ≠ [] := by
    intro hnil
    simp [hnil] at h
  have hlast := List.rdropWhile_last_not isSpace text hne
  rw [List.getLast?_eq_some_getLast hne] at h
  rw [← Option.some.inj h]
  exact Bool.eq_false_iff.2 hlast

-- A trim stops at the first character from the end that is not white space.
theorem trimEnd_append {front back : Text} {c : Char} (hc : c ∈ back) (hspace : isSpace c = false) :
    trimEnd (front ++ back) = front ++ trimEnd back := by
  have hne : back.reverse.dropWhile isSpace ≠ [] := by
    intro hnil
    have hall := List.dropWhile_eq_nil_iff.1 hnil c (List.mem_reverse.2 hc)
    simp [hspace] at hall
  rw [trimEnd, List.reverse_append, List.dropWhile_append, if_neg (by simpa using hne),
    List.reverse_append, List.reverse_reverse, trimEnd]

/-- A text that ends with the break of a line, and maybe with white space behind it. -/
def EndsLine (text : Text) : Prop := ∃ front gap, text = front ++ '\n' :: gap ∧ isBlank gap = true

theorem EndsLine.append {text : Text} (h : text.EndsLine) (front : Text) :
    (front ++ text).EndsLine := by
  obtain ⟨before, gap, rfl, hgap⟩ := h
  exact ⟨front ++ before, gap, (List.append_assoc ..).symm, hgap⟩

-- The break at the end of a line is trimmed off.
theorem EndsLine.feed_mem {text gap : Text} (h : text.EndsLine)
    (hgap : text = trimEnd text ++ gap) : '\n' ∈ gap := by
  obtain ⟨before, blank, htext, hblank⟩ := h
  rcases List.append_eq_append_iff.1 (hgap.symm.trans htext) with
    ⟨extra, -, rfl⟩ | ⟨extra, htrimmed, hextra⟩
  · simp
  · rcases List.eq_nil_or_concat extra with rfl | ⟨more, c, rfl⟩
    · rw [← List.nil_append gap, ← hextra]
      exact List.mem_cons_self ..
    · -- The trimmed text would end within the white space.
      have hc : isSpace c = true := by
        have hmem : c ∈ '\n' :: blank := by simp [hextra]
        rcases List.mem_cons.1 hmem with rfl | hmem
        · decide
        · exact List.all_eq_true.1 hblank c hmem
      have hlast : (trimEnd text).getLast? = some c := by simp [htrimmed]
      simp [isSpace_of_getLast?_trimEnd hlast] at hc

end Text

namespace Statement

/-! ## Shapes -/

theorem mem_of_hasPair {a b : Token} {tokens : List (Option Token)}
    (h : hasPair a b tokens = true) : some a ∈ tokens := by
  fun_induction hasPair a b tokens with
  | case1 x y rest ih =>
    rcases Bool.or_eq_true_iff.1 h with hpair | hrest
    · simp only [Bool.and_eq_true, beq_iff_eq] at hpair
      exact List.mem_cons.2 (.inl hpair.1.symm)
    · exact List.mem_cons_of_mem _ (ih hrest)
  | case2 => simp at h

/-- The tokens of a statement are its keyword and at least one more. -/
theorem shape?_eq_some {tokens : List (Option Token)} {shape : Shape}
    (h : shape? tokens = some shape) :
    ∃ token rest, tokens = some shape.kind.token :: rest ∧ some token ∈ rest ∧
      (shape.isDefaultExport = true → shape.kind = .export) := by
  unfold shape? at h
  split at h
  · rename_i rest
    split at h
    · rename_i hsource
      obtain rfl := Option.some.inj h
      rcases Bool.or_eq_true_iff.1 hsource with hstring | hsource
      · exact ⟨.string, rest, rfl, List.mem_of_head? (of_decide_eq_true hstring), nofun⟩
      · exact ⟨.from, rest, rfl, mem_of_hasPair hsource, nofun⟩
    · simp at h
  · obtain rfl := Option.some.inj h
    exact ⟨.default, _, rfl, List.mem_cons_self .., fun _ => rfl⟩
  · obtain rfl := Option.some.inj h
    exact ⟨.declaration, _, rfl, List.mem_cons_self .., fun _ => rfl⟩
  · obtain ⟨specifiers, -, rfl⟩ := Option.map_eq_some_iff.1 h
    exact ⟨.braceOpen, _, rfl, List.mem_cons_self .., fun _ => rfl⟩
  · split at h
    · obtain rfl := Option.some.inj h
      exact ⟨.star, _, rfl, List.mem_cons_self .., fun _ => rfl⟩
    · simp at h
  · simp at h

/-! ## Lexemes -/

theorem Token.isWordRest_of_isWordStart {c : Char} (h : isWordStart c = true) :
    isWordRest c = true := by
  simp only [isWordStart, Bool.or_eq_true] at h
  simp only [isWordRest, Char.isAlphanum, Bool.or_eq_true]
  exact h.imp_left (.imp_left .inl)

theorem Token.isSpace_of_longest {c : Char} {rest : Text} {token : Token}
    (h : (longest c rest).1 = some token) (hnewline : token ≠ .newline) :
    Text.isSpace c = false := by
  unfold longest at h
  split at h
  · rename_i hword
    have hrest := isWordRest_of_isWordStart hword
    cases hspace : Text.isSpace c with
    | false => rfl
    | true => simp [isWordRest_of_isSpace hspace] at hrest
  · split at h
    · rename_i hquote
      simp only [isQuote, Bool.or_eq_true, beq_iff_eq] at hquote
      rcases hquote with rfl | rfl <;> decide
    · -- What is left are the marks, and of them the line feed is a line break.
      revert h
      fun_cases ofMark? c <;> intro h
      case case6 => exact absurd (Option.some.inj h).symm hnewline
      case case7 => simp at h
      all_goals decide

namespace Lexeme

/-- A lexeme as it is read off the start of some text. -/
def IsRead (lexeme : Lexeme) : Prop := ∃ c rest, lexeme = (cut c rest).1

theorem isRead_of_mem {text : Text} {lexeme : Lexeme} (h : lexeme ∈ ofTrimmed text) :
    lexeme.IsRead := by
  fun_induction ofTrimmed text with
  | case1 => simp at h
  | case2 c rest ih =>
    rcases List.mem_cons.1 h with rfl | h
    · exact ⟨c, rest, rfl⟩
    · exact ih h

theorem IsRead.isBlank_gap {lexeme : Lexeme} (h : lexeme.IsRead) :
    Text.isBlank lexeme.gap = true := by
  obtain ⟨c, rest, rfl⟩ := h
  exact List.all_eq_true.2 fun d hd => isSpace_of_isGap (List.all_eq_true.1 (gap_cut c rest) d hd)

theorem IsRead.text_of_newline {lexeme : Lexeme} (h : lexeme.IsRead)
    (hnewline : lexeme.is .newline = true) : lexeme.text = ['\n'] := by
  obtain ⟨c, rest, rfl⟩ := h
  exact Token.longest_of_newline (beq_iff_eq.1 hnewline)

theorem IsRead.text_of_keyword {lexeme : Lexeme} (h : lexeme.IsRead) {kind : StatementKind}
    (hkind : lexeme.token = some kind.token) : lexeme.text = kind.keyword := by
  obtain ⟨c, rest, rfl⟩ := h
  exact Token.longest_of_keyword hkind

theorem IsRead.exists_not_isSpace {lexeme : Lexeme} (h : lexeme.IsRead) {token : Token}
    (htoken : lexeme.token = some token) (hnewline : lexeme.is .newline = false) :
    ∃ c ∈ lexeme.text, Text.isSpace c = false := by
  obtain ⟨c, rest, rfl⟩ := h
  obtain ⟨more, hmore⟩ := Token.longest_eq_cons c rest
  refine ⟨c, ?_, Token.isSpace_of_longest htoken ?_⟩
  · rw [show (cut c rest).1.text = c :: more from hmore]
    exact List.mem_cons_self ..
  · rintro rfl
    simp [is, htoken] at hnewline

theorem spans_append (a b : List Lexeme) : spans (a ++ b) = spans a ++ spans b :=
  List.flatMap_append

theorem spans_cons (lexeme : Lexeme) (lexemes : List Lexeme) :
    spans (lexeme :: lexemes) = lexeme.text ++ (lexeme.gap ++ spans lexemes) := by
  rw [spans, List.flatMap_cons, span, List.append_assoc]
  rfl

theorem mem_spans {lexeme : Lexeme} {lexemes : List Lexeme} (h : lexeme ∈ lexemes) {c : Char}
    (hc : c ∈ lexeme.text) : c ∈ spans lexemes :=
  List.mem_flatMap.2 ⟨lexeme, h, List.mem_append_left _ hc⟩

theorem isBlank_spans {lexemes : List Lexeme}
    (h : ∀ lexeme ∈ lexemes, lexeme.IsRead ∧ lexeme.is .newline = true) :
    Text.isBlank (spans lexemes) = true := by
  refine List.all_eq_true.2 fun c hc => ?_
  obtain ⟨lexeme, hlexeme, hc⟩ := List.mem_flatMap.1 hc
  obtain ⟨hread, hnewline⟩ := h lexeme hlexeme
  rcases List.mem_append.1 hc with hc | hc
  · rw [hread.text_of_newline hnewline, List.mem_singleton] at hc
    rw [hc]
    decide
  · exact List.all_eq_true.1 hread.isBlank_gap c hc

/-- Whether the last of some lexemes is a line break. -/
def EndsLine (lexemes : List Lexeme) : Prop :=
  ∃ last, lexemes.getLast? = some last ∧ last.is .newline = true

theorem endsLine_spans {lexemes : List Lexeme} (hread : ∀ lexeme ∈ lexemes, lexeme.IsRead)
    (h : EndsLine lexemes) : (spans lexemes).EndsLine := by
  obtain ⟨last, hlast, hnewline⟩ := h
  obtain ⟨front, rfl⟩ := List.getLast?_eq_some_iff.1 hlast
  have hlastRead := hread last (by simp)
  refine ⟨spans front, last.gap, ?_, hlastRead.isBlank_gap⟩
  rw [spans_append, spans_cons, hlastRead.text_of_newline hnewline]
  simp [spans]

end Lexeme

/-! ## Candidates -/

theorem candidates_flatten (atLineStart : Bool) (lexemes : List Lexeme) :
    (candidates atLineStart lexemes).1 ++ (candidates atLineStart lexemes).2.flatten = lexemes := by
  induction lexemes generalizing atLineStart with
  | nil => rfl
  | cons lexeme rest ih =>
    cases hopens : atLineStart && lexeme.opens rest with
    | true =>
      rw [candidates_of_opens hopens, List.flatten_cons, List.cons_append, ih, List.nil_append]
    | false => rw [candidates_of_not_opens hopens, List.cons_append, ih]

theorem opens_of_mem_candidates {atLineStart : Bool} {lexemes group : List Lexeme}
    (h : group ∈ (candidates atLineStart lexemes).2) :
    ∃ lexeme more later, group = lexeme :: more ∧ lexeme.opens (more ++ later) = true := by
  induction lexemes generalizing atLineStart with
  | nil => simp [candidates] at h
  | cons lexeme rest ih =>
    cases hopens : atLineStart && lexeme.opens rest with
    | true =>
      rw [candidates_of_opens hopens] at h
      rcases List.mem_cons.1 h with rfl | h
      · refine ⟨lexeme, _, (candidates (lexeme.is .newline) rest).2.flatten, rfl, ?_⟩
        rw [candidates_flatten]
        exact (Bool.and_eq_true_iff.1 hopens).2
      · exact ih h
    | false =>
      rw [candidates_of_not_opens hopens] at h
      exact ih h

/-- A candidate as it is cut off the lexemes of a text: it opens with a keyword that has white space
behind it. -/
structure IsCandidate (group : List Lexeme) : Prop where
  read : ∀ lexeme ∈ group, lexeme.IsRead
  opens : ∃ lexeme more later, group = lexeme :: more ∧ lexeme.opens (more ++ later) = true

theorem isCandidate_of_mem {atLineStart : Bool} {text : Text} {group : List Lexeme}
    (h : group ∈ (candidates atLineStart (Lexeme.ofTrimmed text)).2) : IsCandidate group where
  read lexeme hlexeme := by
    refine @Lexeme.isRead_of_mem text _ ?_
    rw [← candidates_flatten atLineStart (Lexeme.ofTrimmed text)]
    exact List.mem_append_right _ (List.mem_flatten_of_mem h hlexeme)
  opens := opens_of_mem_candidates h

/-- A candidate starts a line: what stands in front of it ends with a line break. -/
theorem endsLine_cons_candidates {lexeme : Lexeme} {rest : List Lexeme}
    (h : (candidates (lexeme.is .newline) rest).2 ≠ []) :
    Lexeme.EndsLine (lexeme :: (candidates (lexeme.is .newline) rest).1) := by
  induction rest generalizing lexeme with
  | nil => simp [candidates] at h
  | cons next rest ih =>
    cases hopens : lexeme.is .newline && next.opens rest with
    | true =>
      rw [candidates_of_opens hopens]
      exact ⟨lexeme, rfl, (Bool.and_eq_true_iff.1 hopens).1⟩
    | false =>
      rw [candidates_of_not_opens hopens] at h ⊢
      obtain ⟨last, hlast, hnewline⟩ := ih h
      exact ⟨last, by rw [List.getLast?_cons_cons, hlast], hnewline⟩

/-- Every candidate but the last one ends with a line break. -/
theorem isChain_candidates (atLineStart : Bool) (lexemes : List Lexeme) :
    (candidates atLineStart lexemes).2.IsChain fun group _ => Lexeme.EndsLine group := by
  induction lexemes generalizing atLineStart with
  | nil => exact .nil
  | cons lexeme rest ih =>
    cases hopens : atLineStart && lexeme.opens rest with
    | true =>
      rw [candidates_of_opens hopens]
      have hfirst := @endsLine_cons_candidates lexeme rest
      have hrest := ih (lexeme.is .newline)
      revert hfirst hrest
      cases (candidates (lexeme.is .newline) rest).2 with
      | nil => exact fun _ _ => .singleton _
      | cons group groups =>
        exact fun hfirst hrest => List.isChain_cons_cons.2 ⟨hfirst (by simp), hrest⟩
    | false =>
      rw [candidates_of_not_opens hopens]
      exact ih _

/-! ## Texts of statements -/

/-- A text that can make a statement of a shape: it starts with the keyword and white space, and
something else stands behind that. -/
structure Makes (shape : Shape) (text : Text) : Prop where
  keyword : ∃ c rest, text = shape.kind.keyword ++ c :: rest ∧ Text.isSpace c = true ∧
    ∃ d ∈ rest, Text.isSpace d = false
  exports : shape.isDefaultExport = true → shape.kind = .export

theorem Makes.append {shape : Shape} {text : Text} (h : Makes shape text) (more : Text) :
    Makes shape (text ++ more) := by
  obtain ⟨c, rest, rfl, hc, d, hd, hspace⟩ := h.keyword
  exact ⟨⟨c, rest ++ more, by simp, hc, d, List.mem_append_left _ hd, hspace⟩, h.exports⟩

-- The white space behind a keyword belongs to the candidate when other lexemes do.
theorem Lexeme.exists_space_of_isSpaced {lexeme : Lexeme} {more later : List Lexeme}
    (hread : lexeme.IsRead) (hne : more ≠ []) (h : lexeme.isSpaced (more ++ later) = true) :
    ∃ c rest, lexeme.gap ++ spans more = c :: rest ∧ Text.isSpace c = true := by
  obtain ⟨next, others, rfl⟩ := List.exists_cons_of_ne_nil hne
  cases hgap : lexeme.gap with
  | cons c gap =>
    have hblank := hread.isBlank_gap
    rw [hgap] at hblank
    exact ⟨c, _, rfl, List.all_eq_true.1 hblank c (List.mem_cons_self ..)⟩
  | nil =>
    simp only [isSpaced, hgap, List.cons_append] at h
    obtain ⟨c, hc, hspace⟩ := (Option.any_eq_true _ _).1 h
    obtain ⟨letters, hletters⟩ := List.head?_eq_some_iff.1 hc
    exact ⟨c, letters ++ (next.gap ++ spans others), by rw [spans_cons, hletters]; rfl, hspace⟩

theorem makes_spans {later more : List Lexeme} {lexeme : Lexeme} {shape : Shape}
    (hread : ∀ other ∈ lexeme :: more, other.IsRead)
    (hopens : lexeme.opens (more ++ later) = true)
    (hshape : candidateShape? (lexeme :: more) = some shape) :
    Makes shape (Lexeme.spans (lexeme :: more)) := by
  obtain ⟨hfirst, hmore⟩ := List.forall_mem_cons.1 hread
  obtain ⟨hkeyword, hspaced⟩ := Bool.and_eq_true_iff.1 hopens
  obtain ⟨token, rest, htokens, htoken, hexports⟩ := shape?_eq_some hshape
  obtain ⟨kind, hkind⟩ := Lexeme.is_keyword_iff.1 hkeyword
  -- The keyword is no line break, so its token is the first one.
  have hnewline : lexeme.is .newline = false := by
    cases kind <;> simp [Lexeme.is, hkind, StatementKind.token]
  rw [List.filter_cons_of_pos (by simp [hnewline]), List.map_cons] at htokens
  obtain ⟨hshapeKind, rfl⟩ := List.cons.inj htokens
  obtain ⟨other, hother, htoken⟩ := List.mem_map.1 htoken
  obtain ⟨hmem, hother⟩ := List.mem_filter.1 hother
  obtain ⟨d, hd, hspace⟩ := (hmore other hmem).exists_not_isSpace htoken (by simpa using hother)
  obtain ⟨c, behind, hbehind, hc⟩ :=
    Lexeme.exists_space_of_isSpaced hfirst (List.ne_nil_of_mem hmem) hspaced
  have hmemBehind : d ∈ c :: behind :=
    hbehind ▸ List.mem_append_right _ (Lexeme.mem_spans hmem hd)
  refine ⟨⟨c, behind, ?_, hc, d, ?_, hspace⟩, hexports⟩
  · rw [Lexeme.spans_cons, hbehind, hfirst.text_of_keyword hshapeKind]
  · rcases List.mem_cons.1 hmemBehind with rfl | hmemBehind
    · simp [hspace] at hc
    · exact hmemBehind

theorem IsCandidate.makes {group : List Lexeme} (h : IsCandidate group) {shape : Shape}
    (hshape : candidateShape? group = some shape) : Makes shape (Lexeme.spans group) := by
  obtain ⟨lexeme, more, later, rfl, hopens⟩ := h.opens
  exact makes_spans h.read hopens hshape

/-- A statement has its keyword and white space at the start and no white space at the end, and only
an export is a default export. -/
structure IsProper (statement : Statement) : Prop where
  keyword : ∃ c rest, statement.text = statement.kind.keyword ++ c :: rest ∧
    Text.isSpace c = true
  trimmed : ∀ c ∈ statement.text.getLast?, Text.isSpace c = false
  exports : statement.isDefaultExport = true → statement.kind = .export

theorem Makes.isProper {shape : Shape} {text : Text} (h : Makes shape text) :
    (ofShape shape text).IsProper := by
  obtain ⟨c, rest, rfl, hc, d, hd, hspace⟩ := h.keyword
  refine ⟨⟨c, Text.trimEnd rest, ?_, hc⟩, fun e => Text.isSpace_of_getLast?_trimEnd, h.exports⟩
  rw [ofShape, List.append_cons, Text.trimEnd_append hd hspace, ← List.append_cons]

/-! ## Settled candidates -/

/-- The texts of statements one behind another: white space with a line feed in it stands between
any two of them, and white space behind the last one. -/
inductive MakeUp : List Statement → Text → Prop
  | last {statement : Statement} {gap : Text} (hgap : Text.isBlank gap = true) :
      MakeUp [statement] (statement.text ++ gap)
  | next {statement : Statement} {gap text : Text} {statements : List Statement}
      (hgap : Text.isBlank gap = true) (hfeed : '\n' ∈ gap) (h : MakeUp statements text) :
      MakeUp (statement :: statements) (statement.text ++ gap ++ text)

theorem MakeUp.ne_nil {statements : List Statement} {text : Text} (h : MakeUp statements text) :
    statements ≠ [] := by
  cases h <;> simp

theorem makeUp_ofShape (shape : Shape) (text : Text) : MakeUp [ofShape shape text] text := by
  obtain ⟨gap, hgap, hblank⟩ := Text.exists_eq_trimEnd_append text
  have hlast := @MakeUp.last (ofShape shape text) gap hblank
  rwa [show (ofShape shape text).text ++ gap = text from hgap.symm] at hlast

theorem MakeUp.cons_ofShape {statements : List Statement} {text more : Text}
    (h : MakeUp statements more) (shape : Shape) (hends : text.EndsLine) :
    MakeUp (ofShape shape text :: statements) (text ++ more) := by
  obtain ⟨gap, hgap, hblank⟩ := Text.exists_eq_trimEnd_append text
  have hnext := @MakeUp.next (ofShape shape text) gap more statements hblank
    (hends.feed_mem hgap) h
  rwa [show (ofShape shape text).text ++ gap = text from hgap.symm] at hnext

-- A candidate in front of another one ends with a line break.
theorem IsCandidate.endsLine {group : List Lexeme} {groups : List (List Lexeme)}
    (h : IsCandidate group) (hchain : (group :: groups).IsChain fun part _ => Lexeme.EndsLine part)
    (hne : groups ≠ []) : (Lexeme.spans group).EndsLine := by
  obtain ⟨next, more, rfl⟩ := List.exists_cons_of_ne_nil hne
  exact Lexeme.endsLine_spans h.read (List.isChain_cons_cons.1 hchain).1

/-- Nothing is lost when the candidates are settled: the statements make up what has been read so
far and the candidates. -/
theorem makeUp_settle {groups : List (List Lexeme)} {shape : Shape} {text : Text}
    (hgroups : ∀ group ∈ groups, IsCandidate group)
    (hchain : groups.IsChain fun group _ => Lexeme.EndsLine group)
    (hends : groups ≠ [] → text.EndsLine) (hmakes : Makes shape text) :
    MakeUp (settle shape text groups) (text ++ Lexeme.spans groups.flatten) ∧
      ∀ statement ∈ settle shape text groups, statement.IsProper := by
  induction groups generalizing shape text with
  | nil =>
    refine ⟨?_, List.forall_mem_singleton.2 hmakes.isProper⟩
    rw [settle, List.flatten_nil, Lexeme.spans, List.flatMap_nil, List.append_nil]
    exact makeUp_ofShape shape text
  | cons group groups ih =>
    obtain ⟨hgroup, hgroups⟩ := List.forall_mem_cons.1 hgroups
    have hgroupEnds := hgroup.endsLine hchain
    rw [settle, List.flatten_cons, Lexeme.spans_append]
    cases hshape : candidateShape? group with
    | some next =>
      obtain ⟨hmakeUp, hproper⟩ := ih hgroups hchain.of_cons hgroupEnds (hgroup.makes hshape)
      exact ⟨hmakeUp.cons_ofShape shape (hends (List.cons_ne_nil group groups)),
        List.forall_mem_cons.2 ⟨hmakes.isProper, hproper⟩⟩
    | none =>
      -- The candidate goes on with what has been read so far.
      have hsettled := ih hgroups hchain.of_cons
        (fun hne => (hgroupEnds hne).append text) (hmakes.append (Lexeme.spans group))
      rwa [List.append_assoc] at hsettled

theorem makeUp_split? {text : Text} {statements : List Statement}
    (h : split? text = some statements) :
    (∃ front rest, text = front ++ rest ∧ Text.isBlank front = true ∧ MakeUp statements rest) ∧
      ∀ statement ∈ statements, statement.IsProper := by
  have hall := candidates_flatten true (Lexeme.ofText text)
  have hchain := isChain_candidates true (Lexeme.ofText text)
  have hgroups : ∀ group ∈ (candidates true (Lexeme.ofText text)).2, IsCandidate group :=
    fun group => isCandidate_of_mem
  rw [split?] at h
  generalize candidates true (Lexeme.ofText text) = parts at h hall hchain hgroups
  obtain ⟨front, groups⟩ := parts
  dsimp only at h hall hchain hgroups
  split at h
  · rename_i hfront
    cases groups with
    | nil => simp at h
    | cons group groups =>
      obtain ⟨shape, hshape, rfl⟩ := Option.map_eq_some_iff.1 h
      obtain ⟨hgroup, hgroups⟩ := List.forall_mem_cons.1 hgroups
      obtain ⟨hmakeUp, hproper⟩ := makeUp_settle hgroups hchain.of_cons (hgroup.endsLine hchain)
        (hgroup.makes hshape)
      refine ⟨⟨text.takeWhile Token.isGap ++ Lexeme.spans front, _, ?_, ?_, hmakeUp⟩, hproper⟩
      · rw [← Lexeme.spans_append, ← List.flatten_cons, List.append_assoc, ← Lexeme.spans_append,
          hall, Lexeme.ofText, Lexeme.spans_ofTrimmed, List.takeWhile_append_dropWhile]
      · -- The gap at the start and the lexemes in front are white space.
        have hgap : Text.isBlank (text.takeWhile Token.isGap) = true :=
          List.all_eq_true.2 fun c hc =>
            isSpace_of_isGap (List.all_eq_true.1 List.all_takeWhile c hc)
        have hnewlines : Text.isBlank (Lexeme.spans front) = true :=
          Lexeme.isBlank_spans fun lexeme hlexeme =>
            ⟨Lexeme.isRead_of_mem (hall ▸ List.mem_append_left _ hlexeme),
              List.all_eq_true.1 hfront lexeme hlexeme⟩
        exact List.all_append.trans (Bool.and_eq_true_iff.2 ⟨hgap, hnewlines⟩)
  · simp at h

end Statement

/-! ## Blocks -/

/-- A statement block is the text up to the first empty line. Its statements make it up with white
space in front of them, between them and behind them, each starts with its keyword, and the block
exports, and exports a default, when one of them does. -/
theorem StatementBlock.read?_makeUp {text : Text} {block : StatementBlock}
    (h : StatementBlock.read? text = some block) :
    (∃ rest, text = block.text ++ '\n' :: '\n' :: rest) ∧ ¬ ['\n', '\n'] <:+: block.text ∧
    block.statements ≠ [] ∧
    (∃ front rest, block.text = front ++ rest ∧ Text.isBlank front = true ∧
      Statement.MakeUp block.statements rest) ∧
    (∀ statement ∈ block.statements, statement.IsProper) ∧
    (block.kind = .export ↔ ∃ statement ∈ block.statements, statement.kind = .export) ∧
    (block.isDefaultExport = true ↔
      ∃ statement ∈ block.statements, statement.isDefaultExport = true) := by
  obtain ⟨⟨raw, after⟩, hcut, hblock⟩ := Option.bind_eq_some_iff.1 h
  obtain ⟨statements, hsplit, rfl⟩ := Option.map_eq_some_iff.1 hblock
  obtain ⟨hmakeUp, hproper⟩ := Statement.makeUp_split? hsplit
  obtain ⟨front, rest, hraw, hfront, hrest⟩ := hmakeUp
  refine ⟨⟨after, ?_⟩, fun hpart => ?_, hrest.ne_nil, ⟨front, rest, hraw, hfront, hrest⟩, hproper,
    ?_, ?_⟩
  · rw [Text.eq_of_cutAt? hcut]
    exact List.append_assoc ..
  · exact Text.not_infix_of_cutAt? (by decide) hcut
      (hpart.trans (List.prefix_append raw _).isInfix)
  · unfold StatementBlock.kind
    split <;> simp_all
  · rw [StatementBlock.isDefaultExport, List.any_eq_true]

/-- A block that starts with an empty line and a tab. Its second keyword line is no statement and
goes on with the first one, and the string of its last line is never closed. -/
theorem StatementBlock.read?_makeUp_continued :
    ∃ block,
      read? "\n\timport \"a\"\nimport b\nexport default \"é \n\nimport \"c\"".toList = some block ∧
      block.statements.map Statement.text =
        ["import \"a\"\nimport b".toList, "export default \"é".toList] ∧
      (∃ front rest, block.text = front ++ rest ∧ Text.isBlank front = true ∧
        Statement.MakeUp block.statements rest) ∧
      (∀ statement ∈ block.statements, statement.IsProper) ∧
      block.kind = .export ∧ block.isDefaultExport = true := by
  have hread : read? "\n\timport \"a\"\nimport b\nexport default \"é \n\nimport \"c\"".toList =
      some ⟨"\n\timport \"a\"\nimport b\nexport default \"é ".toList,
        [⟨.import, false, "import \"a\"\nimport b".toList⟩,
          ⟨.export, true, "export default \"é".toList⟩]⟩ := by
    decide +kernel
  obtain ⟨-, -, -, hmakeUp, hproper, -⟩ := read?_makeUp hread
  exact ⟨_, hread, rfl, hmakeUp, hproper, rfl, rfl⟩

end DocumentLayout
