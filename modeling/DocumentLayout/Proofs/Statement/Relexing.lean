import DocumentLayout.Proofs.Statement.Spelling

/-!
# Reading lexemes again

The lexemes of a text are read again when the text is cut at one of them: the reader keeps no memory
of what stood in front, and it does not look beyond the end of a line. White space at the end of a
text can be trimmed off as well. It takes line breaks away, and of the lexemes it leaves it changes
the last one alone, whose gap it is or who is a string that is never closed.
-/

namespace DocumentLayout

namespace Statement

/-! ## Parts of a text -/

namespace Lexeme

theorem IsRead.text_ne_nil {lexeme : Lexeme} (h : lexeme.IsRead) : lexeme.text ≠ [] := by
  obtain ⟨c, rest, rfl⟩ := h
  exact Token.longest_ne_nil c rest

theorem eq_nil_of_spans {lexemes : List Lexeme} (hread : ∀ lexeme ∈ lexemes, lexeme.IsRead)
    (h : spans lexemes = []) : lexemes = [] := by
  cases lexemes with
  | nil => rfl
  | cons lexeme rest =>
    rw [spans_cons] at h
    exact absurd (List.append_eq_nil_iff.1 h).1 (hread lexeme (List.mem_cons_self ..)).text_ne_nil

-- Where two readings of one text go on differently, they still agree on what has been read.
theorem eq_of_append_eq {first rest first' rest' : List Lexeme}
    (hread : ∀ lexeme ∈ first ++ rest, lexeme.IsRead)
    (h : first ++ rest = first' ++ rest') (hspans : spans first = spans first') :
    first = first' := by
  have hread' : ∀ lexeme ∈ first' ++ rest', lexeme.IsRead := h ▸ hread
  rcases List.append_eq_append_iff.1 h with ⟨more, rfl, -⟩ | ⟨more, rfl, -⟩
  · have hnil : spans more = [] := by simpa [spans_append] using hspans
    rw [eq_nil_of_spans (fun lexeme hmem => hread' lexeme (by simp [hmem])) hnil, List.append_nil]
  · have hnil : spans more = [] := by simpa [spans_append] using hspans
    rw [eq_nil_of_spans (fun lexeme hmem => hread lexeme (by simp [hmem])) hnil, List.append_nil]

theorem ofTrimmed_spans_back {text : Text} {front back : List Lexeme}
    (h : ofTrimmed text = front ++ back) : ofTrimmed (spans back) = back := by
  induction front generalizing text with
  | nil =>
    rw [List.nil_append] at h
    rw [← h, spans_ofTrimmed]
  | cons lexeme front ih =>
    obtain ⟨c, rest, -, -, hrest⟩ := ofTrimmed_eq_cons h
    exact ih hrest.symm

theorem IsRead.eq_of_newline {lexeme : Lexeme} (h : lexeme.IsRead)
    (hnewline : lexeme.is .newline = true) : lexeme = ⟨some .newline, ['\n'], lexeme.gap⟩ := by
  have htext := h.text_of_newline hnewline
  have htoken : lexeme.token = some .newline := beq_iff_eq.1 hnewline
  obtain ⟨token, text, gap⟩ := lexeme
  obtain rfl : text = ['\n'] := htext
  obtain rfl : token = some .newline := htoken
  rfl

theorem IsRead.isGap_gap {lexeme : Lexeme} (h : lexeme.IsRead) :
    lexeme.gap.all Token.isGap = true := by
  obtain ⟨c, rest, rfl⟩ := h
  exact gap_cut c rest

-- A line break is one lexeme with the gap behind it.
theorem ofTrimmed_feed_gap {gap : Text} (h : gap.all Token.isGap = true) :
    ofTrimmed ('\n' :: gap) = [⟨some .newline, ['\n'], gap⟩] := by
  rw [ofTrimmed_feed, List.takeWhile_eq_self_iff.2 (List.all_eq_true.1 h),
    List.dropWhile_eq_nil_iff.2 (List.all_eq_true.1 h), ofTrimmed]

/-- Consecutive lexemes of a text up to its end or to the end of a line are the lexemes of their own
characters. -/
theorem ofTrimmed_spans_part {text : Text} {front part back : List Lexeme}
    (h : ofTrimmed text = front ++ (part ++ back)) (hends : back = [] ∨ EndsLine part) :
    ofTrimmed (spans part) = part := by
  have hback := ofTrimmed_spans_back h
  rcases hends with rfl | ⟨last, hlast, hnewline⟩
  · rwa [List.append_nil] at hback
  · obtain ⟨init, rfl⟩ := List.getLast?_eq_some_iff.1 hlast
    have hread : ∀ lexeme ∈ init ++ [last] ++ back, lexeme.IsRead := fun lexeme hmem =>
      isRead_of_mem (hback.symm ▸ hmem)
    have hlastRead := hread last (by simp)
    have hfeed := hlastRead.eq_of_newline hnewline
    have hspan : spans [last] = '\n' :: last.gap := by
      rw [spans_cons, hlastRead.text_of_newline hnewline]
      simp [spans]
    -- The line break does not let the lexemes in front of it depend on those behind it.
    have hinit : ofTrimmed (spans init) = init := by
      rw [spans_append, spans_append, hspan, List.append_assoc, List.cons_append, ofTrimmed_append,
        List.append_assoc] at hback
      refine eq_of_append_eq (fun lexeme hmem => hread lexeme ?_) hback (spans_ofTrimmed _)
      rw [List.append_assoc, ← hback]
      exact hmem
    rw [spans_append, hspan, ofTrimmed_append, hinit, ofTrimmed_feed_gap hlastRead.isGap_gap,
      ← hfeed]

end Lexeme

/-! ## White space at the end -/

namespace Token

theorem not_special_of_isGap {c : Char} (h : isGap c = true) :
    c ≠ '\\' ∧ c ≠ '\n' ∧ isQuote c = false ∧ isWordRest c = false := by
  simp only [isGap, Bool.or_eq_true, beq_iff_eq] at h
  rcases h with ((rfl | rfl) | rfl) | rfl <;> decide

section

variable {quote : Char} (hquote : isQuote quote = true)

include hquote

theorem stringBody_quote (rest : Text) : stringBody quote (quote :: rest) = ([quote], true) := by
  have hback : quote ≠ '\\' := by
    rintro rfl
    exact absurd hquote (by decide)
  rw [stringBody, if_pos rfl]
  · exact fun _ hslash => absurd hslash hback
  · exact fun _ _ hslash => absurd hslash hback

theorem stringBody_feed (rest : Text) : stringBody quote ('\n' :: rest) = ([], false) := by
  have hfeed : '\n' ≠ quote := by
    rintro rfl
    exact absurd hquote (by decide)
  rw [stringBody, if_neg hfeed, if_pos rfl]
  · exact fun _ hslash => absurd hslash (by decide)
  · exact fun _ _ hslash => absurd hslash (by decide)

omit hquote

theorem stringBody_escape {c : Char} (hfeed : c ≠ '\n') (rest : Text) :
    stringBody quote ('\\' :: c :: rest) =
      ('\\' :: c :: (stringBody quote rest).1, (stringBody quote rest).2) := by
  rw [stringBody]
  exact hfeed

theorem stringBody_plain {c : Char} (hback : c ≠ '\\') (hquote : c ≠ quote) (hfeed : c ≠ '\n')
    (rest : Text) :
    stringBody quote (c :: rest) =
      (c :: (stringBody quote rest).1, (stringBody quote rest).2) := by
  rw [stringBody, if_neg hquote, if_neg hfeed]
  · exact fun _ hslash => absurd hslash hback
  · exact fun _ _ hslash => absurd hslash hback

end

-- A gap closes no string and ends no line.
theorem stringBody_gap {quote : Char} (hquote : isQuote quote = true) {gap : Text}
    (h : gap.all isGap = true) : stringBody quote gap = (gap, false) := by
  induction gap with
  | nil => rfl
  | cons c gap ih =>
    rw [List.all_cons, Bool.and_eq_true] at h
    obtain ⟨hback, hfeed, hother, -⟩ := not_special_of_isGap h.1
    have hc : c ≠ quote := by
      rintro rfl
      simp [hquote] at hother
    rw [stringBody_plain hback hc hfeed, ih h.2]

/-- A gap at the end of a text is part of a string only where that is not closed. -/
theorem stringBody_append_gap {quote : Char} (hquote : isQuote quote = true) {gap : Text}
    (hgap : gap.all isGap = true) (text : Text) :
    stringBody quote (text ++ gap) = stringBody quote text ∨
      stringBody quote text = (text, false) ∧
        stringBody quote (text ++ gap) = (text ++ gap, false) := by
  fun_induction stringBody quote text with
  | case1 => exact .inr ⟨rfl, stringBody_gap hquote hgap⟩
  | case2 rest => exact .inl (by simp [stringBody])
  | case3 c text hc body closed hbody ih =>
    rw [hbody] at ih
    rw [List.cons_append, List.cons_append, stringBody_escape hc]
    rcases ih with ih | ⟨ihtext, ih⟩
    · exact .inl (by rw [ih])
    · obtain ⟨rfl, rfl⟩ := Prod.mk.inj ihtext
      exact .inr ⟨rfl, by rw [ih]⟩
  | case4 text => exact .inl (stringBody_quote hquote (text ++ gap))
  | case5 text => exact .inl (stringBody_feed hquote (text ++ gap))
  | case6 c text hslashFeed hslash hne hc body closed hbody ih =>
    by_cases hcback : c = '\\'
    · -- A backslash at the end of the text takes the first character of the gap with it.
      have hnil : text = [] := by
        cases text with
        | nil => rfl
        | cons d text => exact absurd rfl (hslash d text hcback)
      subst hcback hnil
      obtain ⟨rfl, rfl⟩ := Prod.mk.inj hbody
      cases gap with
      | nil => exact .inl (by simp [stringBody, hne])
      | cons d gap =>
        rw [List.all_cons, Bool.and_eq_true] at hgap
        refine .inr ⟨rfl, ?_⟩
        rw [List.cons_append, List.nil_append,
          stringBody_escape (not_special_of_isGap hgap.1).2.1, stringBody_gap hquote hgap.2]
    · rw [hbody] at ih
      rw [List.cons_append, stringBody_plain hcback hne hc]
      rcases ih with ih | ⟨ihtext, ih⟩
      · exact .inl (by rw [ih])
      · obtain ⟨rfl, rfl⟩ := Prod.mk.inj ihtext
        exact .inr ⟨rfl, by rw [ih]⟩

theorem takeWhile_append_gap {gap : Text} (hgap : gap.all isGap = true) (text : Text) :
    (text ++ gap).takeWhile isWordRest = text.takeWhile isWordRest := by
  cases gap with
  | nil => rw [List.append_nil]
  | cons c gap =>
    rw [List.all_cons, Bool.and_eq_true] at hgap
    exact Text.takeWhile_append_cons (not_special_of_isGap hgap.1).2.2.2 text gap

/-- The same holds for a lexeme: none but a string that is not closed takes the gap in. -/
theorem longest_append_gap {gap : Text} (hgap : gap.all isGap = true) (c : Char)
    (text : Text) :
    longest c (text ++ gap) = longest c text ∨
      longest c text = (none, c :: text) ∧
        longest c (text ++ gap) = (none, c :: (text ++ gap)) := by
  unfold longest
  split
  · exact .inl (by rw [takeWhile_append_gap hgap])
  · split
    · rcases stringBody_append_gap ‹_› hgap text with hsame | ⟨htext, hall⟩
      · exact .inl (by rw [hsame])
      · exact .inr ⟨by rw [htext]; rfl, by rw [hall]; rfl⟩
    · exact .inl rfl

end Token

namespace Lexeme

/-- A lexeme that differs from another one in what stands behind its first character alone. -/
structure Extends (lexeme other : Lexeme) : Prop where
  token : lexeme.token = other.token
  head : lexeme.text.head? = other.text.head?

theorem cut_append_gap {gap : Text} (hgap : gap.all Token.isGap = true) (c : Char) (text : Text) :
    (cut c text).2 ≠ [] ∧ cut c (text ++ gap) = ((cut c text).1, (cut c text).2 ++ gap) ∨
      (cut c text).2 = [] ∧ (cut c (text ++ gap)).2 = [] ∧
        Extends (cut c (text ++ gap)).1 (cut c text).1 := by
  have hle : (Token.longest c text).2.length ≤ (c :: text).length :=
    (Token.longest_prefix c text).length_le
  unfold cut
  rcases Token.longest_append_gap hgap c text with hsame | ⟨htext, hall⟩
  · rw [hsame]
    dsimp only
    rw [← List.cons_append, List.drop_append_of_le_length hle]
    generalize (c :: text).drop (Token.longest c text).2.length = after
    by_cases hafter : after.dropWhile Token.isGap = []
    · -- The gap goes on with the one behind the last lexeme.
      refine .inr ⟨hafter, ?_, rfl, rfl⟩
      rw [List.dropWhile_append, hafter, List.isEmpty_nil, if_pos rfl]
      exact List.dropWhile_eq_nil_iff.2 (List.all_eq_true.1 hgap)
    · have htake : (after.takeWhile Token.isGap).length ≠ after.length := by
        intro hlength
        have heq := @List.takeWhile_append_dropWhile _ Token.isGap after
        rw [(List.takeWhile_prefix _).eq_of_length hlength] at heq
        exact hafter (List.append_right_eq_self.1 heq)
      refine .inl ⟨hafter, ?_⟩
      rw [List.dropWhile_append, if_neg (by simpa using hafter), List.takeWhile_append,
        if_neg htake]
  · rw [htext, hall]
    dsimp only
    rw [List.drop_length, ← List.cons_append, List.drop_length]
    exact .inr ⟨rfl, rfl, rfl, rfl⟩

/-- A gap behind a text changes the last lexeme alone. -/
theorem ofTrimmed_append_gap {gap : Text} (hgap : gap.all Token.isGap = true) {text : Text}
    (hne : text ≠ []) :
    ∃ init last last', ofTrimmed text = init ++ [last] ∧
      ofTrimmed (text ++ gap) = init ++ [last'] ∧ Extends last' last := by
  fun_induction ofTrimmed text with
  | case1 => exact absurd rfl hne
  | case2 c text ih =>
    rw [List.cons_append, ofTrimmed]
    rcases cut_append_gap hgap c text with ⟨hmore, hcut⟩ | ⟨hnil, hnil', hextends⟩
    · obtain ⟨init, last, last', hinit, hinit', hextends⟩ := ih hmore
      rw [hcut, hinit, hinit']
      exact ⟨(cut c text).1 :: init, last, last', rfl, rfl, hextends⟩
    · rw [hnil, hnil', ofTrimmed]
      exact ⟨[], _, _, rfl, rfl, hextends⟩

/-- White space that holds gaps and line breaks alone. -/
def IsBreaks (text : Text) : Prop := ∀ c ∈ text, Token.isGap c = true ∨ c = '\n'

theorem IsBreaks.dropWhile_cases {text : Text} (h : IsBreaks text) :
    text.dropWhile Token.isGap = [] ∨
      ∃ rest, text.dropWhile Token.isGap = '\n' :: rest ∧ IsBreaks rest ∧
        rest.length < text.length := by
  cases hdrop : text.dropWhile Token.isGap with
  | nil => exact .inl rfl
  | cons c rest =>
    have hsuffix : c :: rest <:+ text := hdrop ▸ List.dropWhile_suffix _
    have hgap : Token.isGap c = false := by
      simpa [hdrop] using List.head?_dropWhile_not Token.isGap text
    obtain rfl : c = '\n' := by
      rcases h c (hsuffix.subset (List.mem_cons_self ..)) with hc | hc
      · simp [hgap] at hc
      · exact hc
    exact .inr ⟨rest, rfl, fun d hd => h d (hsuffix.subset (List.mem_cons_of_mem _ hd)),
      hsuffix.length_le⟩

theorem is_newline_of_isBreaks {text : Text} (h : IsBreaks text) :
    ∀ lexeme ∈ ofText text, lexeme.is .newline = true := by
  -- The induction is on the text, which every line break with its gap makes shorter.
  induction hn : text.length using Nat.strongRecOn generalizing text with
  | ind n ih =>
    unfold ofText
    rcases h.dropWhile_cases with hnil | ⟨rest, hcons, hrest, hlength⟩
    · simp [hnil, ofTrimmed]
    · rw [hcons, ofTrimmed_feed]
      exact List.forall_mem_cons.2 ⟨rfl, ih rest.length (hn ▸ hlength) hrest rfl⟩

/-- White space behind a text adds line breaks to its lexemes, and changes the last one alone. -/
theorem ofTrimmed_append_isBreaks {blank : Text} (hblank : IsBreaks blank) {text : Text}
    (hne : text ≠ []) :
    ∃ init last last' feeds, ofTrimmed text = init ++ [last] ∧
      ofTrimmed (text ++ blank) = init ++ last' :: feeds ∧ Extends last' last ∧
      ∀ feed ∈ feeds, feed.is .newline = true := by
  obtain ⟨init, last, last', hinit, hinit', hextends⟩ :=
    ofTrimmed_append_gap (@List.all_takeWhile _ Token.isGap blank) hne
  have hsplit := @List.takeWhile_append_dropWhile _ Token.isGap blank
  have hfeeds := is_newline_of_isBreaks hblank
  unfold ofText at hfeeds
  rcases hblank.dropWhile_cases with hnil | ⟨rest, hcons, -, -⟩
  · rw [hnil, List.append_nil] at hsplit
    rw [hsplit] at hinit'
    exact ⟨init, last, last', [], hinit, hinit', hextends, by simp⟩
  · rw [hcons] at hfeeds hsplit
    refine ⟨init, last, last', ofTrimmed ('\n' :: rest), hinit, ?_, hextends, hfeeds⟩
    rw [← hsplit, ← List.append_assoc, ofTrimmed_append, hinit', List.append_assoc]
    rfl

end Lexeme

end Statement

end DocumentLayout
