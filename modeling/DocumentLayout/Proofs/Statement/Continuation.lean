import DocumentLayout.Proofs.Statement.Candidates

/-!
# Statements above a statement

A text that splits into statements still does so when a line with a statement is put below it. The
one exception is a text that ends with a bare keyword on a line of its own: only with a line below
it has the keyword white space behind it, and then it opens a candidate itself.
-/

namespace DocumentLayout

namespace Statement

/-! ## Lexemes above a line -/

-- A string does not run over the end of a line, so it is the same at the end of the text.
theorem Token.stringBody_append {quote : Char} (h : isQuote quote = true) (text rest : Text) :
    stringBody quote (text ++ '\n' :: rest) = stringBody quote text := by
  have hfeed : quote ≠ '\n' := by
    rintro rfl
    exact absurd h (by decide)
  have hback : quote ≠ '\\' := by
    rintro rfl
    exact absurd h (by decide)
  fun_induction stringBody quote text with
  | case1 => simp [stringBody, Ne.symm hfeed]
  | case2 rest => simp [stringBody]
  | case3 c text hc body closed hbody ih =>
    rw [hbody] at ih
    rw [List.cons_append, List.cons_append, stringBody, ih]
    exact hc
  | case4 text =>
    rw [List.cons_append, stringBody, if_pos rfl]
    · exact fun _ hslash => absurd hslash hback
    · exact fun _ _ hslash => absurd hslash hback
  | case5 text _ _ hquote =>
    rw [List.cons_append, stringBody, if_neg hquote, if_pos rfl]
    · exact fun _ hslash => absurd hslash (by decide)
    · exact fun _ _ hslash => absurd hslash (by decide)
  | case6 c text hslashFeed hslash hquote hc body closed hbody ih =>
    by_cases hcback : c = '\\'
    · -- A backslash at the end of the text takes nothing with it.
      have hnil : text = [] := by
        cases text with
        | nil => rfl
        | cons d text => exact absurd rfl (hslash d text hcback)
      subst hcback hnil
      obtain ⟨rfl, rfl⟩ := Prod.mk.inj hbody
      simp [stringBody]
    · rw [hbody] at ih
      rw [List.cons_append, stringBody, if_neg hquote, if_neg hc, ih]
      · exact fun _ hslash => absurd hslash hcback
      · exact fun _ _ hslash => absurd hslash hcback

theorem Token.longest_append (c : Char) (text rest : Text) :
    longest c (text ++ '\n' :: rest) = longest c text := by
  unfold longest
  split
  · rw [Text.takeWhile_append_cons (by decide)]
  · split
    · rw [stringBody_append ‹_›]
    · rfl

namespace Lexeme

theorem cut_append (c : Char) (text rest : Text) :
    cut c (text ++ '\n' :: rest) = ((cut c text).1, (cut c text).2 ++ '\n' :: rest) := by
  have hle : (Token.longest c text).2.length ≤ (c :: text).length :=
    (Token.longest_prefix c text).length_le
  unfold cut
  rw [Token.longest_append]
  dsimp only
  rw [← List.cons_append, List.drop_append_of_le_length hle,
    Text.takeWhile_append_cons (by decide), Text.dropWhile_append_cons (by decide)]

/-- The lexemes of a text do not depend on the lines below it. -/
theorem ofTrimmed_append (text rest : Text) :
    ofTrimmed (text ++ '\n' :: rest) = ofTrimmed text ++ ofTrimmed ('\n' :: rest) := by
  fun_induction ofTrimmed text with
  | case1 => rfl
  | case2 c text ih => rw [List.cons_append, ofTrimmed, cut_append, ih, List.cons_append]

theorem ofTrimmed_feed (rest : Text) :
    ofTrimmed ('\n' :: rest) =
      ⟨some .newline, ['\n'], rest.takeWhile Token.isGap⟩ ::
        ofTrimmed (rest.dropWhile Token.isGap) := by
  have hlongest : Token.longest '\n' rest = (some .newline, ['\n']) := rfl
  rw [ofTrimmed, cut, hlongest]
  rfl

-- A keyword with white space behind it is a lexeme that opens a candidate.
theorem exists_opens_of_startsKeyword {text : Text} (h : StartsKeyword text) :
    ∃ lexeme lexemes, ofTrimmed text = lexeme :: lexemes ∧ lexeme.opens lexemes = true := by
  obtain ⟨kind, c, rest, rfl, hspace⟩ := h
  obtain ⟨d, letters, hkeyword, hstart, -⟩ := keyword_eq_cons kind
  have hletters : (letters ++ c :: rest).takeWhile Token.isWordRest = letters := by
    have hall : ∀ e ∈ letters, Token.isWordRest e = true := fun e he =>
      isWordRest_of_mem_keyword (hkeyword ▸ List.mem_cons_of_mem d he)
    rw [Text.takeWhile_append_cons (isWordRest_of_isSpace hspace),
      List.takeWhile_eq_self_iff.2 hall]
  have hlongest : Token.longest d (letters ++ c :: rest) = (some kind.token, kind.keyword) := by
    rw [Token.longest, if_pos hstart, hletters, ← hkeyword]
    dsimp only
    rw [ofWord_eq_token.2 rfl]
  have hdrop : (d :: (letters ++ c :: rest)).drop kind.keyword.length = c :: rest := by
    rw [hkeyword, ← List.cons_append, List.drop_left]
  rw [hkeyword, List.cons_append, ofTrimmed]
  refine ⟨_, _, rfl, ?_⟩
  rw [cut, hlongest]
  dsimp only
  rw [hdrop]
  refine Bool.and_eq_true_iff.2 ⟨is_keyword_iff.2 ⟨kind, rfl⟩, ?_⟩
  cases hgap : Token.isGap c with
  | true =>
    rw [List.takeWhile_cons_of_pos hgap]
    rfl
  | false =>
    -- The white space is the first character of the lexeme that comes next.
    rw [List.takeWhile_cons_of_neg (by simp [hgap]), List.dropWhile_cons_of_neg (by simp [hgap]),
      ofTrimmed]
    obtain ⟨more, hnext⟩ := Token.longest_eq_cons c rest
    show (Token.longest c rest).2.head?.any Text.isSpace = true
    rw [hnext]
    exact hspace

end Lexeme

/-! ## Bare keywords -/

/-- Whether the last of some lexemes is a statement keyword at the start of a line, with nothing
behind it. -/
def endsBare (atLineStart : Bool) : List Lexeme → Bool
  | [] => false
  | [lexeme] => atLineStart && (lexeme.is .import || lexeme.is .export) && lexeme.gap.isEmpty
  | lexeme :: next :: rest => endsBare (lexeme.is .newline) (next :: rest)

/-- A line that is a statement keyword behind a gap, with nothing behind it. -/
def IsBare (line : Text) : Prop :=
  ∃ kind, line.dropWhile Token.isGap = StatementKind.keyword kind

theorem isBare_append {gap : Text} (h : gap.all Token.isGap = true) (kind : StatementKind) :
    IsBare (gap ++ kind.keyword) := by
  refine ⟨kind, ?_⟩
  obtain ⟨c, rest, hkeyword, -, hgap⟩ := keyword_eq_cons kind
  rw [List.dropWhile_append_of_pos (List.all_eq_true.1 h), hkeyword,
    List.dropWhile_cons_of_neg (by simp [hgap])]

-- The last lexeme is the keyword of a bare line, which may be the first line of the text.
theorem exists_bare_of_endsBare {atLineStart : Bool} {text : Text}
    (h : endsBare atLineStart (Lexeme.ofTrimmed text) = true) :
    (atLineStart = true ∧ ∃ kind, text = StatementKind.keyword kind) ∨
      ∃ before line, text = before ++ line ∧ before.getLast? = some '\n' ∧ IsBare line := by
  fun_induction Lexeme.ofTrimmed text generalizing atLineStart with
  | case1 => simp [endsBare] at h
  | case2 c rest ih =>
    have hspan := Lexeme.span_cut c rest
    cases hrest : Lexeme.ofTrimmed (Lexeme.cut c rest).2 with
    | nil =>
      have hnil : (Lexeme.cut c rest).2 = [] := by
        rw [← Lexeme.spans_ofTrimmed (Lexeme.cut c rest).2, hrest]
        rfl
      rw [hrest, endsBare, Bool.and_eq_true, Bool.and_eq_true, Lexeme.is_keyword_iff,
        List.isEmpty_iff] at h
      obtain ⟨⟨hstart, kind, hkind⟩, hgap⟩ := h
      have htext : (Lexeme.cut c rest).1.text = kind.keyword := Token.longest_of_keyword hkind
      rw [Lexeme.span, htext, hgap, hnil, List.append_nil, List.append_nil] at hspan
      exact .inl ⟨hstart, kind, hspan.symm⟩
    | cons next more =>
      rw [hrest, endsBare, ← hrest] at h
      rcases ih h with ⟨hnewline, kind, hkeyword⟩ | ⟨before, line, hbefore, hlast, hbare⟩
      · -- The keyword stands directly behind a line break and its gap.
        have hfeed : (Lexeme.cut c rest).1.text = ['\n'] :=
          Token.longest_of_newline (beq_iff_eq.1 hnewline)
        rw [Lexeme.span, hfeed, hkeyword, List.append_assoc] at hspan
        exact .inr ⟨['\n'], _, hspan.symm, rfl, isBare_append (Lexeme.gap_cut c rest) kind⟩
      · rw [hbefore, ← List.append_assoc] at hspan
        refine .inr ⟨_, line, hspan.symm, ?_, hbare⟩
        rw [List.getLast?_append, hlast]
        rfl

/-! ## Candidates above a line -/

theorem Lexeme.opens_append {lexeme : Lexeme} {lexemes : List Lexeme} (more : List Lexeme)
    (h : lexemes ≠ [] ∨ lexeme.gap ≠ []) :
    lexeme.opens (lexemes ++ more) = lexeme.opens lexemes := by
  unfold opens isSpaced
  congr 1
  cases hgap : lexeme.gap with
  | cons c gap => rfl
  | nil =>
    cases lexemes with
    | nil => simp [hgap] at h
    | cons next rest => rfl

-- Without a bare keyword at the end the same lexemes open candidates as before.
theorem opens_append_of_endsBare {atLineStart : Bool} {lexeme : Lexeme} {lexemes : List Lexeme}
    (h : endsBare atLineStart (lexeme :: lexemes) = false) (more : List Lexeme) :
    (atLineStart && lexeme.opens (lexemes ++ more)) = (atLineStart && lexeme.opens lexemes) ∧
      endsBare (lexeme.is .newline) lexemes = false := by
  cases lexemes with
  | cons next rest => exact ⟨by rw [Lexeme.opens_append more (.inl (by simp))], h⟩
  | nil =>
    refine ⟨?_, rfl⟩
    by_cases hgap : lexeme.gap = []
    · cases hkeyword : (lexeme.is .import || lexeme.is .export) with
      | false => simp only [Lexeme.opens, hkeyword, Bool.false_and]
      | true =>
        -- The keyword is bare, so it does not stand at the start of a line.
        rw [endsBare, hkeyword, hgap] at h
        obtain rfl : atLineStart = false := by simpa using h
        rfl
    · rw [Lexeme.opens_append more (.inr hgap)]

/-- A line break and further candidates behind some lexemes leave the first candidate as it is, but
for the line break. -/
theorem candidates_append {atLineStart : Bool} {lexemes more : List Lexeme} {feed : Lexeme}
    (hbare : endsBare atLineStart lexemes = false) (hfeed : feed.token = some .newline)
    (hmore : (candidates true more).1 = []) :
    (∀ front, candidates atLineStart lexemes = (front, []) →
      candidates atLineStart (lexemes ++ feed :: more) =
        (front ++ [feed], (candidates true more).2)) ∧
    ∀ front group groups, candidates atLineStart lexemes = (front, group :: groups) →
      ∃ first others, candidates atLineStart (lexemes ++ feed :: more) = (front, first :: others) ∧
        (first.filter fun lexeme => !lexeme.is .newline) =
          group.filter fun lexeme => !lexeme.is .newline := by
  have hnewline : feed.is .newline = true := beq_iff_eq.2 hfeed
  have hclosed : ∀ following, feed.opens following = false := by
    intro following
    simp [Lexeme.opens, Lexeme.is, hfeed]
  induction lexemes generalizing atLineStart with
  | nil =>
    refine ⟨fun front hfront => ?_, fun front group groups hgroups => ?_⟩
    · obtain ⟨rfl, -⟩ := Prod.mk.inj hfront
      rw [List.nil_append, candidates_of_not_opens (by simp [hclosed]), hnewline, hmore]
      rfl
    · simp [candidates] at hgroups
  | cons lexeme lexemes ih =>
    obtain ⟨hopens, hrest⟩ := opens_append_of_endsBare hbare (feed :: more)
    obtain ⟨ihnone, ihsome⟩ := ih hrest
    obtain ⟨⟨front, groups⟩, hcandidates⟩ :
        ∃ found, candidates (lexeme.is .newline) lexemes = found := ⟨_, rfl⟩
    rw [List.cons_append]
    cases hstart : (atLineStart && lexeme.opens lexemes) with
    | true =>
      -- The lexeme opens the first candidate, which ends where the next one starts.
      rw [candidates_of_opens hstart, candidates_of_opens (hopens.trans hstart), hcandidates]
      refine ⟨fun front hfront => by simp at hfront, fun none group others hgroup => ?_⟩
      obtain ⟨rfl, hgroups⟩ := Prod.mk.inj hgroup
      obtain ⟨rfl, rfl⟩ := List.cons.inj hgroups
      cases groups with
      | nil =>
        rw [ihnone front hcandidates]
        exact ⟨_, _, rfl, by simp [List.filter_cons, hnewline]⟩
      | cons group groups =>
        obtain ⟨first, others, hfound, -⟩ := ihsome front group groups hcandidates
        rw [hfound]
        exact ⟨_, _, rfl, rfl⟩
    | false =>
      rw [candidates_of_not_opens hstart, candidates_of_not_opens (hopens.trans hstart),
        hcandidates]
      refine ⟨fun all hall => ?_, fun all group others hgroup => ?_⟩
      · obtain ⟨rfl, rfl⟩ := Prod.mk.inj hall
        rw [ihnone front hcandidates]
        rfl
      · obtain ⟨rfl, rfl⟩ := Prod.mk.inj hgroup
        obtain ⟨first, others, hfound, hsame⟩ := ihsome front group _ hcandidates
        rw [hfound]
        exact ⟨first, others, rfl, hsame⟩

/-! ## Statements above a line -/

-- The lexemes of a text end with a bare keyword only where its last line is one.
theorem endsBare_ofText {text : Text}
    (hbare : ∀ before line, text = before ++ line →
      (before = [] ∨ before.getLast? = some '\n') → ¬ IsBare line) :
    endsBare true (Lexeme.ofText text) = false := by
  cases hends : endsBare true (Lexeme.ofText text) with
  | false => rfl
  | true =>
    have hgap := @List.takeWhile_append_dropWhile _ Token.isGap text
    rcases exists_bare_of_endsBare hends with
      ⟨-, kind, hkeyword⟩ | ⟨before, line, hbefore, hlast, hline⟩
    · exact absurd ⟨kind, hkeyword⟩ (hbare [] text rfl (.inl rfl))
    · rw [hbefore, ← List.append_assoc] at hgap
      refine absurd hline (hbare _ line hgap.symm (.inr ?_))
      rw [List.getLast?_append, hlast]
      rfl

/-- A text that splits into statements also splits into some with a line below it that opens with a
keyword, unless it ends with a bare keyword. -/
theorem exists_split?_append {text below : Text} {statements : List Statement}
    (h : split? text = some statements) (hbelow : StartsKeyword (below.dropWhile Token.isGap))
    (hbare : ∀ before line, text = before ++ line →
      (before = [] ∨ before.getLast? = some '\n') → ¬ IsBare line) :
    ∃ more, split? (text ++ '\n' :: below) = some more := by
  obtain ⟨lexeme, lexemes, hlexemes, hopens⟩ := Lexeme.exists_opens_of_startsKeyword hbelow
  have hmore : (candidates true (Lexeme.ofTrimmed (below.dropWhile Token.isGap))).1 = [] := by
    rw [hlexemes, candidates_of_opens (by simpa using hopens)]
  have hall : Lexeme.ofText (text ++ '\n' :: below) = Lexeme.ofText text ++
      ⟨some .newline, ['\n'], below.takeWhile Token.isGap⟩ ::
        Lexeme.ofTrimmed (below.dropWhile Token.isGap) := by
    rw [Lexeme.ofText, Text.dropWhile_append_cons (by decide), Lexeme.ofTrimmed_append,
      Lexeme.ofTrimmed_feed]
    rfl
  unfold split? at h ⊢
  rw [hall]
  obtain ⟨⟨front, groups⟩, hcandidates⟩ :
      ∃ found, candidates true (Lexeme.ofText text) = found := ⟨_, rfl⟩
  rw [hcandidates] at h
  cases groups with
  | nil => simp at h
  | cons group groups =>
    obtain ⟨first, others, hfound, hsame⟩ :=
      (@candidates_append true _ _ ⟨some .newline, ['\n'], below.takeWhile Token.isGap⟩
        (endsBare_ofText hbare) rfl hmore).2 front group groups hcandidates
    rw [hfound]
    dsimp only at h ⊢
    split at h
    · rename_i hfront
      obtain ⟨shape, hshape, -⟩ := Option.map_eq_some_iff.1 h
      have hfirst : candidateShape? first = some shape := by
        rw [candidateShape?, hsame]
        exact hshape
      rw [if_pos hfront, hfirst]
      exact ⟨_, rfl⟩
    · simp at h

end Statement

end DocumentLayout
