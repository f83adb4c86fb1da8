import DocumentLayout.Proofs.Statement.Relexing
import DocumentLayout.Proofs.Statement.Runs

/-!
# Statements on their own

A statement of a block that is read once more, now with nothing but an empty line behind it, is the
one statement of its block. The candidates that it is made of are cut at the same places, and the
one that makes it a statement stays the first of them. There is one exception: where the text ends
with a bare keyword, the keyword has no white space behind it any more and belongs to the candidate
in front of it, and an `export` in need of one more token takes it for that.
-/

namespace DocumentLayout

namespace Statement

/-! ## White space off the end -/

/-- The candidates `trimmed` that are left of others when white space is taken off the end of the
text. They have the same tokens, but for the last one: where it is a bare keyword, it opens no
candidate without the white space and belongs to what stands in front of it. -/
inductive Trims (bare : List Lexeme) (last : Lexeme) :
    (whole trimmed : List Lexeme × List (List Lexeme)) → Prop
  | same {front front' : List Lexeme} {groups groups' : List (List Lexeme)}
      (hfront : Lexeme.tokens front = Lexeme.tokens front')
      (hgroups : groups.map Lexeme.tokens = groups'.map Lexeme.tokens) :
      Trims bare last (front, groups) (front', groups')
  | first (front : List Lexeme) : Trims bare last (front, [bare]) (front ++ [last], [])
  | later (front group : List Lexeme) (groups : List (List Lexeme)) :
      Trims bare last (front, groups ++ [group, bare]) (front, groups ++ [group ++ [last]])

theorem Lexeme.Extends.tokens_eq {lexeme other : Lexeme} (h : Extends lexeme other)
    {feeds : List Lexeme} (hfeeds : ∀ feed ∈ feeds, feed.is .newline = true) :
    Lexeme.tokens (lexeme :: feeds) = Lexeme.tokens [other] := by
  have his : lexeme.is .newline = other.is .newline := by rw [is, h.token, is]
  rw [tokens_cons, tokens_cons, tokens_eq_nil_iff.2 hfeeds, his, h.token]
  rfl

theorem Lexeme.opens_nil {lexeme : Lexeme} (h : lexeme.gap = []) : lexeme.opens [] = false := by
  simp [opens, isSpaced, h]

-- A lexeme looks no further than to the first character of the next one.
theorem Lexeme.opens_extends {lexeme last last' : Lexeme} (h : Extends last' last)
    (rest feeds : List Lexeme) :
    lexeme.opens (rest ++ last' :: feeds) = lexeme.opens (rest ++ [last]) := by
  cases rest with
  | nil =>
    unfold opens isSpaced
    cases lexeme.gap with
    | nil =>
      simp only [List.nil_append]
      rw [h.head]
    | cons c gap => rfl
  | cons next rest =>
    unfold opens isSpaced
    cases lexeme.gap <;> rfl

section

variable {bare front front' : List Lexeme} {last : Lexeme} {groups groups' : List (List Lexeme)}

theorem Trims.cons_front (h : Trims bare last (front, groups) (front', groups'))
    (lexeme : Lexeme) : Trims bare last (lexeme :: front, groups) (lexeme :: front', groups') := by
  cases h with
  | same hfront hgroups =>
    refine .same ?_ hgroups
    rw [Lexeme.tokens_cons, Lexeme.tokens_cons, hfront]
  | first => exact .first (lexeme :: front)
  | later _ group groups => exact .later (lexeme :: front) group groups

-- What stood in front of the first candidate goes to the one that opens there.
theorem Trims.cons_group (h : Trims bare last (front, groups) (front', groups'))
    (lexeme : Lexeme) :
    Trims bare last ([], (lexeme :: front) :: groups) ([], (lexeme :: front') :: groups') := by
  cases h with
  | same hfront hgroups =>
    refine .same rfl ?_
    rw [List.map_cons, List.map_cons, hgroups, Lexeme.tokens_cons, Lexeme.tokens_cons, hfront]
  | first => exact .later [] (lexeme :: front) []
  | later _ group groups => exact .later [] group ((lexeme :: front) :: groups)

end

section

variable {last last' : Lexeme} {feeds : List Lexeme} (hextends : Lexeme.Extends last' last)
  (hgap : last.gap = []) (hfeeds : ∀ feed ∈ feeds, feed.is .newline = true)

include hextends hgap hfeeds

theorem trims_last (atLineStart : Bool) :
    Trims (last' :: feeds) last (candidates atLineStart (last' :: feeds))
      (candidates atLineStart [last]) := by
  have hclosed : candidates (last'.is .newline) feeds = (feeds, []) := by
    refine candidates_of_closed (fun feed hfeed kind hkind => ?_) _
    have hnewline : feed.token = some .newline := beq_iff_eq.1 (hfeeds feed hfeed)
    rw [hnewline] at hkind
    cases kind <;> simp [StatementKind.token] at hkind
  rw [@candidates_of_not_opens atLineStart last [] (by rw [Lexeme.opens_nil hgap, Bool.and_false])]
  cases hopens : atLineStart && last'.opens feeds with
  | true =>
    rw [candidates_of_opens hopens, hclosed]
    exact .first []
  | false =>
    rw [candidates_of_not_opens hopens, hclosed]
    exact .same (hextends.tokens_eq hfeeds) rfl

/-- The candidates of lexemes whose last one has lost its gap, and the line breaks behind it. -/
theorem trims_candidates (init : List Lexeme) (atLineStart : Bool) :
    Trims (last' :: feeds) last (candidates atLineStart (init ++ last' :: feeds))
      (candidates atLineStart (init ++ [last])) := by
  induction init generalizing atLineStart with
  | nil => exact trims_last hextends hgap hfeeds atLineStart
  | cons lexeme init ih =>
    have hsame : lexeme.opens (init ++ last' :: feeds) = lexeme.opens (init ++ [last]) :=
      Lexeme.opens_extends hextends init feeds
    rw [List.cons_append, List.cons_append]
    cases hopens : atLineStart && lexeme.opens (init ++ [last]) with
    | true =>
      rw [candidates_of_opens hopens, candidates_of_opens (by rw [hsame, hopens])]
      exact (ih _).cons_group lexeme
    | false =>
      rw [candidates_of_not_opens hopens, candidates_of_not_opens (by rw [hsame, hopens])]
      exact (ih _).cons_front lexeme

end

theorem IsRun.of_tokens {shape : Shape} {run run' : List (List Lexeme)} (h : IsRun shape run)
    (htokens : run.map Lexeme.tokens = run'.map Lexeme.tokens) : IsRun shape run' := by
  obtain ⟨hshape, hothers⟩ := h
  cases run' with
  | nil => simp at htokens
  | cons group groups =>
    obtain ⟨hgroup, hgroups⟩ := List.cons.inj htokens
    refine .mk (by rw [candidateShape?_eq, ← hgroup, ← candidateShape?_eq, hshape]) ?_
    intro other hother
    have hmem : Lexeme.tokens other ∈ groups.map Lexeme.tokens := List.mem_map_of_mem hother
    rw [← hgroups] at hmem
    obtain ⟨same, hsame, heq⟩ := List.mem_map.1 hmem
    rw [candidateShape?_eq, ← heq, ← candidateShape?_eq, hothers same hsame]

/-- The candidates of a statement are still those of one statement when white space is taken off
their end, unless a keyword at the end makes up for the one token that an export was short of. -/
theorem Trims.isRun {bare : List Lexeme} {last : Lexeme}
    {whole trimmed : List Lexeme × List (List Lexeme)} (h : Trims bare last whole trimmed)
    (hfront : trimmed.1 = []) {shape : Shape} (hrun : IsRun shape whole.2)
    (hbare : bare ∈ whole.2 → ∃ kind : StatementKind, Lexeme.tokens [last] = [some kind.token]) :
    IsRun shape trimmed.2 ∨
      ∃ before group token, ∃ kind : StatementKind, before ≠ [] ∧
        trimmed.2 = before ++ [group ++ [last]] ∧ (token = .default ∨ token = .declaration) ∧
        Lexeme.tokens (group ++ [last]) = [some .export, some token, some kind.token] := by
  cases h with
  | same _ hgroups => exact .inl (hrun.of_tokens hgroups)
  | first front => simp at hfront
  | later front group groups =>
    obtain ⟨kind, hkind⟩ := hbare (by simp)
    dsimp only at hrun ⊢
    cases groups with
    | nil =>
      obtain ⟨hshape, -⟩ := hrun
      refine .inl (.mk ?_ (by simp))
      rw [candidateShape?_eq, Lexeme.tokens_append]
      exact shape?_append hshape _
    | cons first others =>
      obtain ⟨hshape, hothers⟩ := hrun
      have hgroup : shape? (Lexeme.tokens group) = none := hothers group (by simp)
      cases htaken : candidateShape? (group ++ [last]) with
      | none =>
        have hbefore : IsRun shape (first :: others) :=
          .mk hshape fun other hother => hothers other (List.mem_append_left _ hother)
        exact .inl (hbefore.concat htaken)
      | some next =>
        rw [candidateShape?_eq, Lexeme.tokens_append, hkind] at htaken
        obtain ⟨token, htoken, htokens⟩ := eq_of_shape?_keyword hgroup htaken
        refine .inr ⟨first :: others, group, token, kind, by simp, rfl, htoken, ?_⟩
        rw [Lexeme.tokens_append, htokens, hkind]
        rfl

/-! ## Statements read again -/

/-- A text that ends with an `export` on a line below, `default` or the first word of a declaration,
and a statement keyword. Taken for what is exported, the keyword makes a statement of them. -/
def EndsInKeyword (text : Text) : Prop :=
  ∃ front back token, ∃ kind : StatementKind, text = front ++ '\n' :: back ∧
    StartsKeyword (back.dropWhile Token.isGap) ∧ (token = .default ∨ token = .declaration) ∧
    tokens back = [some .export, some token, some kind.token]

-- The lines below are one of finitely many ends of the text, so it can be decided.
theorem endsInKeyword_iff {text : Text} :
    EndsInKeyword text ↔
      ∃ tail ∈ text.tails, tail.head? = some '\n' ∧
        StartsKeyword (tail.tail.dropWhile Token.isGap) ∧
        ∃ token ∈ [Token.default, .declaration], ∃ kind ∈ [StatementKind.import, .export],
          tokens tail.tail = [some .export, some token, some kind.token] := by
  constructor
  · rintro ⟨front, back, token, kind, rfl, hback, htoken, htokens⟩
    refine ⟨'\n' :: back, (List.mem_tails _ _).2 (List.suffix_append front _), rfl, hback, token,
      by simpa using htoken, kind, by cases kind <;> simp, htokens⟩
  · rintro ⟨tail, htail, hhead, hback, token, htoken, kind, -, htokens⟩
    obtain ⟨front, htext⟩ := (List.mem_tails _ _).1 htail
    obtain ⟨back, rfl⟩ := List.head?_eq_some_iff.1 hhead
    exact ⟨front, back, token, kind, htext.symm, hback, by simpa using htoken, htokens⟩

instance (text : Text) : Decidable (EndsInKeyword text) :=
  decidable_of_iff' _ endsInKeyword_iff

theorem StartsKeyword.ofText_eq {text : Text} (h : StartsKeyword text) :
    Lexeme.ofText text = Lexeme.ofTrimmed text := by
  rw [Lexeme.ofText, h.dropWhile_eq]

theorem StartsKeyword.exists_candidates {text : Text} (h : StartsKeyword text) :
    ∃ groups, candidates true (Lexeme.ofTrimmed text) = ([], groups) := by
  obtain ⟨lexeme, lexemes, hall, hopens⟩ := Lexeme.exists_opens_of_startsKeyword h
  rw [hall, candidates_of_opens (by rw [hopens]; rfl)]
  exact ⟨_, rfl⟩

-- A text that does not end in white space ends with a lexeme that is no line break.
theorem Lexeme.last_of_trimmed {text : Text}
    (htrimmed : ∀ c ∈ text.getLast?, Text.isSpace c = false)
    {init : List Lexeme} {last : Lexeme} (h : ofTrimmed text = init ++ [last]) :
    last.gap = [] ∧ last.is .newline = false := by
  have hread : last.IsRead := @isRead_of_mem text last (by rw [h]; simp)
  have htext : text = spans init ++ (last.text ++ last.gap) := by
    rw [← spans_ofTrimmed text, h, spans_append, spans_cons]
    simp [spans]
  have hgap : last.gap = [] := by
    rcases List.eq_nil_or_concat' last.gap with hnil | ⟨gap, c, hc⟩
    · exact hnil
    · have hspace := htrimmed c (by rw [htext, hc, ← List.append_assoc, ← List.append_assoc]; simp)
      have hblank := List.all_eq_true.1 hread.isBlank_gap c (by rw [hc]; simp)
      simp [hspace] at hblank
  refine ⟨hgap, Bool.eq_false_iff.2 fun hnewline => ?_⟩
  have hspace := htrimmed '\n' (by rw [htext, hgap, hread.text_of_newline hnewline]; simp)
  exact absurd hspace (by decide)

-- The first lexeme of a candidate opens it.
theorem startsKeyword_of_candidates {group : List Lexeme}
    (hgroup : candidates true group = ([], [group]))
    (hread : Lexeme.ofTrimmed (Lexeme.spans group) = group) :
    StartsKeyword (Lexeme.spans group) := by
  cases group with
  | nil => simp [candidates] at hgroup
  | cons lexeme rest =>
    refine Lexeme.startsKeyword_of_opens hread ?_
    cases hopens : lexeme.opens rest with
    | true => rfl
    | false =>
      rw [candidates_of_not_opens (by simp [hopens])] at hgroup
      simp at hgroup

/-- The last candidate of a text stands on lines of its own. -/
theorem exists_back_of_candidates {text : Text} {before : List (List Lexeme)} {group : List Lexeme}
    (h : candidates true (Lexeme.ofTrimmed text) = ([], before ++ [group])) (hne : before ≠ []) :
    ∃ front back, text = front ++ '\n' :: back ∧ StartsKeyword (back.dropWhile Token.isGap) ∧
      Lexeme.ofText back = group := by
  have hall : Lexeme.ofTrimmed text = before.flatten ++ group := by
    rw [← candidates_flatten true (Lexeme.ofTrimmed text), h]
    simp
  have hread : Lexeme.ofTrimmed (Lexeme.spans group) = group := Lexeme.ofTrimmed_spans_back hall
  have hgroup : candidates true group = ([], [group]) := by simpa using candidates_back h
  have hstarts := startsKeyword_of_candidates hgroup hread
  -- The line break in front of the candidate is the last lexeme of the one before.
  obtain ⟨-, hends⟩ := @candidates_part true _ [] [] before [group] hne (by simpa using h)
  obtain ⟨feed, hfeed, hnewline⟩ := hends.resolve_left (by simp)
  obtain ⟨init, hinit⟩ := List.getLast?_eq_some_iff.1 hfeed
  have hfeedRead : feed.IsRead := @Lexeme.isRead_of_mem text feed (by rw [hall, hinit]; simp)
  have hdrop : (feed.gap ++ Lexeme.spans group).dropWhile Token.isGap = Lexeme.spans group := by
    rw [List.dropWhile_append_of_pos (List.all_eq_true.1 hfeedRead.isGap_gap),
      hstarts.dropWhile_eq]
  refine ⟨Lexeme.spans init, feed.gap ++ Lexeme.spans group, ?_, by rwa [hdrop], ?_⟩
  · rw [← Lexeme.spans_ofTrimmed text, hall, hinit, Lexeme.spans_append, Lexeme.spans_append,
      Lexeme.spans_cons, hfeedRead.text_of_newline hnewline]
    simp [Lexeme.spans]
  · rw [Lexeme.ofText, hdrop, hread]

theorem IsProper.startsKeyword {statement : Statement} (h : statement.IsProper) :
    StartsKeyword statement.text := by
  obtain ⟨c, rest, htext, hspace⟩ := h.keyword
  exact ⟨statement.kind, c, rest, htext, hspace⟩

theorem ofShape_trimEnd (shape : Shape) (text : Text) :
    ofShape shape (Text.trimEnd text) = ofShape shape text := by
  rw [ofShape, Text.trimEnd, Text.trimEnd, List.reverse_reverse, List.dropWhile_idempotent]
  rfl

-- Where the last lexeme opens a candidate in front of the white space, it is a keyword without it.
theorem tokens_of_mem_candidates {lexemes feeds : List Lexeme} {last last' : Lexeme}
    (hextends : Lexeme.Extends last' last) (hnewline : last.is .newline = false)
    (h : last' :: feeds ∈ (candidates true lexemes).2) :
    ∃ kind : StatementKind, Lexeme.tokens [last] = [some kind.token] := by
  obtain ⟨lexeme, more, later, hcons, hopens⟩ := opens_of_mem_candidates h
  obtain ⟨rfl, -⟩ := List.cons.inj hcons
  obtain ⟨kind, hkind⟩ := Lexeme.is_keyword_iff.1 (Bool.and_eq_true_iff.1 hopens).1
  refine ⟨kind, ?_⟩
  rw [Lexeme.tokens_cons, if_neg (by simp [hnewline]), ← hextends.token, hkind]
  rfl

/-- A text that is trimmed and opens with a keyword has the candidates of the text with white space
behind it, trimmed alike. -/
theorem exists_trims {text blank : Text} (hstarts : StartsKeyword text)
    (htrimmed : ∀ c ∈ text.getLast?, Text.isSpace c = false) (hblank : Lexeme.IsBreaks blank) :
    ∃ bare last groups, candidates true (Lexeme.ofTrimmed text) = ([], groups) ∧
      Trims bare last (candidates true (Lexeme.ofTrimmed (text ++ blank))) ([], groups) ∧
      (bare ∈ (candidates true (Lexeme.ofTrimmed (text ++ blank))).2 →
        ∃ kind : StatementKind, Lexeme.tokens [last] = [some kind.token]) := by
  have hne : text ≠ [] := by
    obtain ⟨kind, c, rest, rfl, -⟩ := hstarts
    simp
  obtain ⟨init, last, last', feeds, hinit, hinit', hextends, hfeeds⟩ :=
    Lexeme.ofTrimmed_append_isBreaks hblank hne
  obtain ⟨hgap, hnewline⟩ := Lexeme.last_of_trimmed htrimmed hinit
  obtain ⟨groups, hgroups⟩ := hstarts.exists_candidates
  refine ⟨last' :: feeds, last, groups, hgroups, ?_,
    tokens_of_mem_candidates hextends hnewline⟩
  rw [hinit', ← hgroups, hinit]
  exact trims_candidates hextends hgap hfeeds init true

-- A run of candidates that is read from its own characters, as it is when they are trimmed.
theorem split?_trimEnd_of_run {shape : Shape} {run : List (List Lexeme)}
    (hread : Lexeme.ofTrimmed (Lexeme.spans run.flatten) = run.flatten)
    (hcandidates : candidates true run.flatten = ([], run)) (hrun : IsRun shape run)
    (hspaces : ∀ c ∈ Lexeme.spans run.flatten, Text.isSpace c = true →
      Token.isGap c = true ∨ c = '\n')
    (hproper : (ofShape shape (Lexeme.spans run.flatten)).IsProper) :
    split? (Text.trimEnd (Lexeme.spans run.flatten)) =
        some [ofShape shape (Lexeme.spans run.flatten)] ∨
      EndsInKeyword (Text.trimEnd (Lexeme.spans run.flatten)) := by
  have hstarts : StartsKeyword (Text.trimEnd (Lexeme.spans run.flatten)) := hproper.startsKeyword
  have htrimmed : ∀ c ∈ (Text.trimEnd (Lexeme.spans run.flatten)).getLast?,
      Text.isSpace c = false := hproper.trimmed
  rw [← ofShape_trimEnd]
  obtain ⟨blank, hwhole, hblank⟩ := Text.exists_eq_trimEnd_append (Lexeme.spans run.flatten)
  generalize Text.trimEnd (Lexeme.spans run.flatten) = text at hstarts htrimmed hwhole ⊢
  have hbreaks : Lexeme.IsBreaks blank := fun c hc =>
    hspaces c (by rw [hwhole]; exact List.mem_append_right _ hc) (List.all_eq_true.1 hblank c hc)
  obtain ⟨bare, last, groups, hgroups, htrims, hbare⟩ := exists_trims hstarts htrimmed hbreaks
  rw [← hwhole, hread, hcandidates] at htrims hbare
  rcases htrims.isRun rfl hrun hbare with hsame | ⟨before, group, token, kind, hbefore, hall,
    htoken, htokens⟩
  · refine .inl (split?_of_run (by rw [hstarts.ofText_eq, hgroups]) hsame ?_)
    have hflatten := candidates_flatten true (Lexeme.ofTrimmed text)
    rw [hgroups, List.nil_append] at hflatten
    rw [hflatten, Lexeme.spans_ofTrimmed]
  · dsimp only at hall
    rw [hall] at hgroups
    obtain ⟨front, back, htext, hback, hgroup⟩ := exists_back_of_candidates hgroups hbefore
    refine .inr ⟨front, back, token, kind, htext, hback, htoken, ?_⟩
    rw [← htokens, ← hgroup]
    rfl

/-- A statement of a text is what a part of the text is read as by itself. -/
theorem exists_part_of_split? {text : Text} {statements : List Statement}
    (h : split? text = some statements) {statement : Statement} (hmem : statement ∈ statements) :
    ∃ run shape, Lexeme.ofTrimmed (Lexeme.spans run.flatten) = run.flatten ∧
      candidates true run.flatten = ([], run) ∧ IsRun shape run ∧
      Lexeme.spans run.flatten <:+: text ∧
      statement = ofShape shape (Lexeme.spans run.flatten) := by
  obtain ⟨front, before, run, after, shape, hcandidates, hrun, rfl⟩ := exists_run_of_split? h hmem
  obtain ⟨hpart, hends⟩ := candidates_part hrun.ne_nil hcandidates
  have hall : Lexeme.ofText text = (front ++ before.flatten) ++ (run.flatten ++ after.flatten) := by
    rw [← candidates_flatten true (Lexeme.ofText text), hcandidates]
    simp
  have hread := Lexeme.ofTrimmed_spans_part hall (hends.imp_left (by rintro rfl; rfl))
  refine ⟨run, shape, hread, hpart, hrun, ?_, rfl⟩
  have hspans : Lexeme.spans (Lexeme.ofText text) <:+ text := by
    rw [Lexeme.ofText, Lexeme.spans_ofTrimmed]
    exact List.dropWhile_suffix _
  rw [hall, Lexeme.spans_append, Lexeme.spans_append run.flatten] at hspans
  exact List.IsInfix.trans ⟨_, _, List.append_assoc ..⟩ hspans.isInfix

theorem infix_of_mem_split? {text : Text} {statements : List Statement}
    (h : split? text = some statements) {statement : Statement} (hmem : statement ∈ statements) :
    statement.text <:+: text := by
  obtain ⟨run, shape, -, -, -, hpart, rfl⟩ := exists_part_of_split? h hmem
  obtain ⟨gap, hgap, -⟩ := Text.exists_eq_trimEnd_append (Lexeme.spans run.flatten)
  exact List.IsInfix.trans ⟨[], gap, hgap.symm⟩ hpart

/-- A statement of a text is the one statement of its own text, unless that ends in a keyword. -/
theorem split?_of_mem {text : Text} {statements : List Statement}
    (h : split? text = some statements)
    (hspaces : ∀ c ∈ text, Text.isSpace c = true → Token.isGap c = true ∨ c = '\n')
    {statement : Statement} (hmem : statement ∈ statements) :
    split? statement.text = some [statement] ∨ EndsInKeyword statement.text := by
  have hproper := (makeUp_split? h).2 statement hmem
  obtain ⟨run, shape, hread, hcandidates, hrun, hpart, rfl⟩ := exists_part_of_split? h hmem
  exact split?_trimEnd_of_run hread hcandidates hrun (fun c hc => hspaces c (hpart.subset hc))
    hproper

/-! ## Keywords taken for what is exported -/

-- A keyword without white space behind it opens nothing, nor does anything that is no keyword.
theorem candidates_concat_of_closed {lexemes : List Lexeme} {last : Lexeme}
    (h : ∀ lexeme ∈ lexemes, ∀ kind : StatementKind, lexeme.token ≠ some kind.token)
    (hgap : last.gap = []) (atLineStart : Bool) :
    candidates atLineStart (lexemes ++ [last]) = (lexemes ++ [last], []) := by
  induction lexemes generalizing atLineStart with
  | nil =>
    rw [List.nil_append, candidates_of_not_opens (by rw [Lexeme.opens_nil hgap, Bool.and_false])]
    rfl
  | cons lexeme lexemes ih =>
    obtain ⟨hlexeme, hrest⟩ := List.forall_mem_cons.1 h
    have hclosed : lexeme.opens (lexemes ++ [last]) = false := by
      refine Bool.eq_false_iff.2 fun hopens => ?_
      obtain ⟨kind, hkind⟩ := Lexeme.is_keyword_iff.1 (Bool.and_eq_true_iff.1 hopens).1
      exact hlexeme kind hkind
    rw [List.cons_append, candidates_of_not_opens (by rw [hclosed, Bool.and_false]), ih hrest]

-- The keyword at the end belongs to the candidate that the `export` opens.
theorem candidates_of_taken {lexeme last : Lexeme} {mid : List Lexeme} {token : Token}
    {kind : StatementKind} (hopens : lexeme.opens (mid ++ [last]) = true) (hgap : last.gap = [])
    (hnewline : last.is .newline = false) (htoken : token = .default ∨ token = .declaration)
    (htokens : Lexeme.tokens (lexeme :: (mid ++ [last])) =
      [some .export, some token, some kind.token]) :
    candidates true (lexeme :: (mid ++ [last])) = ([], [lexeme :: (mid ++ [last])]) := by
  obtain ⟨other, hother⟩ := Lexeme.is_keyword_iff.1 (Bool.and_eq_true_iff.1 hopens).1
  have hkeyword : lexeme.is .newline = false := by
    cases other <;> simp [Lexeme.is, hother, StatementKind.token]
  have hmid : Lexeme.tokens mid = [some token] := by
    rw [Lexeme.tokens_cons, if_neg (by simp [hkeyword]), Lexeme.tokens_append,
      Lexeme.tokens_cons last, if_neg (by simp [hnewline])] at htokens
    have hrest : Lexeme.tokens mid ++ [last.token] = [some token] ++ [some kind.token] :=
      (List.cons.inj htokens).2
    exact (List.append_inj' hrest rfl).1
  have hclosed : ∀ lexeme ∈ mid, ∀ kind : StatementKind, lexeme.token ≠ some kind.token := by
    intro lexeme hlexeme kind
    refine ne_token_of_tokens ?_ lexeme hlexeme
    show some kind.token ∉ Lexeme.tokens mid
    rw [hmid]
    rcases htoken with rfl | rfl <;> cases kind <;> decide
  rw [candidates_of_opens (by rw [hopens]; rfl), hkeyword,
    candidates_concat_of_closed hclosed hgap false]

-- In a text that is trimmed no white space stands behind that keyword.
theorem candidates_ofText_of_taken {text back : Text} {lines : List Lexeme} {token : Token}
    {kind : StatementKind} (htrimmed : ∀ c ∈ text.getLast?, Text.isSpace c = false)
    (hall : Lexeme.ofTrimmed text = lines ++ Lexeme.ofText back)
    (hback : StartsKeyword (back.dropWhile Token.isGap))
    (htoken : token = .default ∨ token = .declaration)
    (htokens : tokens back = [some .export, some token, some kind.token]) :
    candidates true (Lexeme.ofText back) = ([], [Lexeme.ofText back]) := by
  obtain ⟨lexeme, lexemes, hlexemes, hopens⟩ := Lexeme.exists_opens_of_startsKeyword hback
  rw [show tokens back = Lexeme.tokens (Lexeme.ofText back) from rfl] at htokens
  rw [Lexeme.ofText, hlexemes] at hall htokens ⊢
  rcases List.eq_nil_or_concat' lexemes with rfl | ⟨mid, last, rfl⟩
  · -- One lexeme has no more than one token.
    rw [Lexeme.tokens_cons] at htokens
    split at htokens <;> simp [Lexeme.tokens] at htokens
  · rw [← List.cons_append, ← List.append_assoc] at hall
    obtain ⟨hgap, hnewline⟩ := Lexeme.last_of_trimmed htrimmed hall
    exact candidates_of_taken hopens hgap hnewline htoken htokens

theorem candidates_of_endsInKeyword {text : Text} (hstarts : StartsKeyword text)
    (htrimmed : ∀ c ∈ text.getLast?, Text.isSpace c = false) (h : EndsInKeyword text) :
    ∃ first others, candidates true (Lexeme.ofText text) = ([], first :: others) ∧
      ∃ other ∈ others, (candidateShape? other).isSome = true := by
  obtain ⟨groups, hgroups⟩ := hstarts.exists_candidates
  rw [hstarts.ofText_eq]
  obtain ⟨front, back, token, kind, rfl, hback, htoken, htokens⟩ := h
  obtain ⟨lines, hlines⟩ : ∃ lines, Lexeme.ofTrimmed front ++
      [⟨some .newline, ['\n'], back.takeWhile Token.isGap⟩] = lines := ⟨_, rfl⟩
  have hall : Lexeme.ofTrimmed (front ++ '\n' :: back) = lines ++ Lexeme.ofText back := by
    rw [Lexeme.ofTrimmed_append, Lexeme.ofTrimmed_feed, ← hlines, List.append_assoc]
    rfl
  have htaken := candidates_ofText_of_taken htrimmed hall hback htoken htokens
  have hends : Lexeme.EndsLine lines := ⟨_, by rw [← hlines, List.getLast?_concat], rfl⟩
  have happend := candidates_append_of_endsLine hends (by rw [htaken]) true
  rw [← hall, hgroups, htaken] at happend
  obtain ⟨hfront, hafter⟩ := Prod.mk.inj happend
  -- The text opens with a keyword, so there is a candidate above the line.
  have hflatten := candidates_flatten true lines
  rw [← hfront, List.nil_append] at hflatten
  cases hfirst : (candidates true lines).2 with
  | nil =>
    rw [hfirst, ← hlines] at hflatten
    simp at hflatten
  | cons first others =>
    rw [hfirst] at hafter
    refine ⟨first, others ++ [Lexeme.ofText back], by rw [hgroups, hafter]; rfl, _,
      List.mem_append_right _ (List.mem_singleton_self _), ?_⟩
    rw [candidateShape?_eq, show Lexeme.tokens (Lexeme.ofText back) = tokens back from rfl, htokens]
    rcases htoken with rfl | rfl <;> rfl

theorem split?_ne_of_endsInKeyword {text : Text} (hstarts : StartsKeyword text)
    (htrimmed : ∀ c ∈ text.getLast?, Text.isSpace c = false) (h : EndsInKeyword text)
    (statement : Statement) : split? text ≠ some [statement] := by
  obtain ⟨first, others, hcandidates, other, hother, hshape⟩ :=
    candidates_of_endsInKeyword hstarts htrimmed h
  intro hsplit
  rw [split?, hcandidates] at hsplit
  simp only [List.all_nil, ↓reduceIte] at hsplit
  obtain ⟨shape, -, hsettle⟩ := Option.map_eq_some_iff.1 hsplit
  -- There is one statement for the first candidate and one more for the other.
  have hlength := length_settle shape (Lexeme.spans first) others
  rw [hsettle, List.length_singleton] at hlength
  have hpos : 0 < others.countP fun group => (candidateShape? group).isSome :=
    List.countP_pos_iff.2 ⟨other, hother, hshape⟩
  omega

end Statement

/-! ## Blocks of one statement -/

namespace StatementBlock

theorem split?_of_read? {text : Text} {block : StatementBlock} (h : read? text = some block) :
    Statement.split? block.text = some block.statements := by
  obtain ⟨⟨raw, rest⟩, -, hblock⟩ := Option.bind_eq_some_iff.1 h
  obtain ⟨statements, hsplit, rfl⟩ := Option.map_eq_some_iff.1 hblock
  exact hsplit

/-- Every statement of a block stands on its own: in front of an empty line its text is a block of
that one statement, unless it ends in a keyword that is then taken for what an `export` exports. -/
theorem read?_statement {text : Text} {block : StatementBlock} (h : read? text = some block)
    (hspaces : ∀ c ∈ block.text, Text.isSpace c = true → c ∈ [' ', '\t', '\r', '\x0c', '\n'])
    {statement : Statement} (hmem : statement ∈ block.statements) (rest : Text) :
    read? (statement.text ++ '\n' :: '\n' :: rest) = some ⟨statement.text, [statement]⟩ ↔
      ¬ Statement.EndsInKeyword statement.text := by
  obtain ⟨-, hsingle, -, -, hproper, -⟩ := read?_makeUp h
  have hstatement := hproper statement hmem
  have hsplit := split?_of_read? h
  constructor
  · intro hread hends
    exact Statement.split?_ne_of_endsInKeyword hstatement.startsKeyword hstatement.trimmed hends
      statement (split?_of_read? hread)
  · intro hends
    have hbreaks : ∀ c ∈ block.text, Text.isSpace c = true →
        Statement.Token.isGap c = true ∨ c = '\n' := by
      intro c hc hspace
      have hsome := hspaces c hc hspace
      simp only [List.mem_cons, List.not_mem_nil, or_false] at hsome
      rcases hsome with rfl | rfl | rfl | rfl | rfl <;> decide
    refine read?_of_split? ((Statement.split?_of_mem hsplit hbreaks hmem).resolve_right hends)
      (fun hpart => ?_) (fun hlast => ?_) rest
    · exact hsingle (hpart.trans (Statement.infix_of_mem_split? hsplit hmem))
    · exact absurd (hstatement.trimmed '\n' hlast) (by decide)

theorem mem_spaces_of_all {text spaces : Text}
    (h : (text.all fun c => !Text.isSpace c || spaces.contains c) = true) :
    ∀ c ∈ text, Text.isSpace c = true → c ∈ spaces := by
  intro c hc hspace
  have hone := List.all_eq_true.1 h c hc
  rw [hspace, Bool.not_true, Bool.false_or] at hone
  exact List.contains_iff_mem.1 hone

/-- A block that starts with an empty line and a tab. Two more keyword lines go on with the first
statement, the last of them with a word behind the keyword, so the three lines are that statement
when they are read again. -/
theorem read?_statement_continued :
    ∃ block statement,
      read? "\n\timport \"a\"\nexport default\nimport b\nexport default \"é \n\nc".toList =
        some block ∧
      (∀ c ∈ block.text, Text.isSpace c = true → c ∈ [' ', '\t', '\r', '\x0c', '\n']) ∧
      statement ∈ block.statements ∧
      statement.text = "import \"a\"\nexport default\nimport b".toList ∧
      ¬ Statement.EndsInKeyword statement.text ∧
      read? (statement.text ++ ['\n', '\n']) = some ⟨statement.text, [statement]⟩ := by
  have hread :
      read? "\n\timport \"a\"\nexport default\nimport b\nexport default \"é \n\nc".toList =
        some ⟨"\n\timport \"a\"\nexport default\nimport b\nexport default \"é ".toList,
          [⟨.import, false, "import \"a\"\nexport default\nimport b".toList⟩,
            ⟨.export, true, "export default \"é".toList⟩]⟩ := by
    decide +kernel
  have hspaces : ∀ c ∈ "\n\timport \"a\"\nexport default\nimport b\nexport default \"é ".toList,
      Text.isSpace c = true → c ∈ [' ', '\t', '\r', '\x0c', '\n'] :=
    mem_spaces_of_all (by decide +kernel)
  have hends : ¬ Statement.EndsInKeyword "import \"a\"\nexport default\nimport b".toList := by
    decide +kernel
  exact ⟨_, _, hread, hspaces, List.mem_cons_self .., rfl, hends,
    (read?_statement hread hspaces (List.mem_cons_self ..) []).2 hends⟩

/-- The last line of the block is a keyword and a space, so it is no part of the `export` above it,
and all of them go on with the import. Without the space the keyword is what that `export` exports
by default, and there are two statements. -/
theorem read?_statement_keyword :
    ∃ block statement, read? "import \"a\"\nexport default\nimport \n\n".toList = some block ∧
      (∀ c ∈ block.text, Text.isSpace c = true → c ∈ [' ', '\t', '\r', '\x0c', '\n']) ∧
      block.statements = [statement] ∧
      statement = ⟨.import, false, "import \"a\"\nexport default\nimport".toList⟩ ∧
      read? (statement.text ++ ['\n', '\n']) = some ⟨statement.text,
        [⟨.import, false, "import \"a\"".toList⟩,
          ⟨.export, true, "export default\nimport".toList⟩]⟩ ∧
      read? (statement.text ++ ['\n', '\n']) ≠ some ⟨statement.text, [statement]⟩ := by
  refine ⟨⟨"import \"a\"\nexport default\nimport ".toList,
    [⟨.import, false, "import \"a\"\nexport default\nimport".toList⟩]⟩, _, ?_,
    mem_spaces_of_all (by decide +kernel), rfl, rfl, ?_, ?_⟩
  all_goals decide +kernel

end StatementBlock

end DocumentLayout
