import DocumentLayout.Proofs.Statement.Continuation
import DocumentLayout.Proofs.Statement.Splitting
import Mathlib.Data.List.Chain

/-!
# Runs of candidates

A statement is made of a run of candidates: one that has the shape of a statement, and those behind
it that have none. Its shape goes by the first tokens of the first one, so more of them change
nothing, and candidates are cut alike whatever stands on the lines above and below.
-/

namespace DocumentLayout

namespace Statement

/-! ## Shapes of longer candidates -/

theorem hasPair_append_of_hasPair {a b : Token} {tokens : List (Option Token)}
    (h : hasPair a b tokens = true) (more : List (Option Token)) :
    hasPair a b (tokens ++ more) = true := by
  fun_induction hasPair a b tokens with
  | case1 x y rest ih =>
    rw [List.cons_append, List.cons_append, hasPair, Bool.or_eq_true]
    rcases Bool.or_eq_true_iff.1 h with hpair | hrest
    · exact .inl hpair
    · exact .inr (ih hrest)
  | case2 => simp at h

theorem hasPair_concat {a b : Token} {token : Option Token} (h : token ≠ some b)
    (tokens : List (Option Token)) : hasPair a b (tokens ++ [token]) = hasPair a b tokens := by
  have hlast : (token == some b) = false := beq_eq_false_iff_ne.2 h
  induction tokens with
  | nil => rfl
  | cons x tokens ih =>
    cases tokens with
    | nil => simp [hasPair, hlast]
    | cons y tokens =>
      rw [List.cons_append, List.cons_append, hasPair, ← List.cons_append, ih, hasPair]

theorem throughBrace?_append_of_some {tokens through : List (Option Token)}
    (h : throughBrace? tokens = some through) (more : List (Option Token)) :
    throughBrace? (tokens ++ more) = some through := by
  fun_induction throughBrace? tokens generalizing through with
  | case1 => simp at h
  | case2 rest => exact h
  | case3 token rest hclose ih =>
    obtain ⟨through, hrest, rfl⟩ := Option.map_eq_some_iff.1 h
    rw [List.cons_append, throughBrace?, ih hrest, Option.map_some]
    exact hclose

theorem throughBrace?_concat {token : Option Token} (h : token ≠ some .braceClose)
    {tokens : List (Option Token)} (hnone : throughBrace? tokens = none) :
    throughBrace? (tokens ++ [token]) = none := by
  fun_induction throughBrace? tokens with
  | case1 =>
    rw [List.nil_append, throughBrace?, throughBrace?, Option.map_none]
    exact h
  | case2 rest => simp at hnone
  | case3 other rest hclose ih =>
    rw [List.cons_append, throughBrace?, ih (Option.map_eq_none_iff.1 hnone), Option.map_none]
    exact hclose

/-- What makes a statement stands at its start, so more tokens change nothing. -/
theorem shape?_append {tokens : List (Option Token)} {shape : Shape}
    (h : shape? tokens = some shape) (more : List (Option Token)) :
    shape? (tokens ++ more) = some shape := by
  unfold shape? at h
  split at h
  · rename_i rest
    split at h
    · rename_i hsource
      rw [List.cons_append, shape?, if_pos, h]
      rcases Bool.or_eq_true_iff.1 hsource with hstring | hsource
      · rw [List.head?_append, of_decide_eq_true hstring]
        rfl
      · rw [Bool.or_eq_true]
        exact .inr (hasPair_append_of_hasPair hsource more)
    · simp at h
  · exact h
  · exact h
  · obtain ⟨specifiers, hbrace, rfl⟩ := Option.map_eq_some_iff.1 h
    rw [List.cons_append, List.cons_append, shape?, throughBrace?_append_of_some hbrace,
      Option.map_some]
  · split at h
    · rename_i rest hsource
      have hmore : hasSource (rest ++ more) = true := hasPair_append_of_hasPair hsource more
      rw [List.cons_append, List.cons_append, shape?, if_pos hmore, h]
    · simp at h
  · simp at h

section

variable {token : Option Token}

theorem shape?_import_concat (h : token ≠ some .string) (rest : List (Option Token)) :
    shape? (some .import :: (rest ++ [token])) = shape? (some .import :: rest) := by
  have hhead : ((rest ++ [token]).head? = some (some .string)) ↔
      rest.head? = some (some .string) := by
    cases rest <;> simp [h]
  have hsource : hasSource (rest ++ [token]) = hasSource rest := hasPair_concat h rest
  simp only [shape?, hhead, hsource]

theorem shape?_star_concat (h : token ≠ some .string) (rest : List (Option Token)) :
    shape? (some .export :: some .star :: (rest ++ [token])) =
      shape? (some .export :: some .star :: rest) := by
  have hsource : hasSource (rest ++ [token]) = hasSource rest := hasPair_concat h rest
  rw [shape?, shape?, hsource]

theorem shape?_brace_concat (h : token ≠ some .braceClose) {rest : List (Option Token)}
    (hnone : shape? (some .export :: some .braceOpen :: rest) = none) :
    shape? (some .export :: some .braceOpen :: (rest ++ [token])) = none := by
  rw [shape?, Option.map_eq_none_iff] at hnone
  rw [shape?, throughBrace?_concat h hnone, Option.map_none]

end

theorem exists_of_concat_eq {tokens more : List (Option Token)} {a b token : Option Token}
    (h : tokens ++ [token] = a :: b :: more) (hne : b ≠ token) :
    ∃ rest, tokens = a :: b :: rest ∧ more = rest ++ [token] := by
  rcases tokens with _ | ⟨first, _ | ⟨second, rest⟩⟩
  · simp at h
  · obtain ⟨-, hsecond⟩ := List.cons.inj h
    exact absurd (List.cons.inj hsecond).1.symm hne
  · obtain ⟨rfl, hsecond⟩ := List.cons.inj h
    obtain ⟨rfl, rfl⟩ := List.cons.inj hsecond
    exact ⟨rest, rfl, rfl⟩

/-- A keyword makes a statement only of what lacks just one token, whichever it is. -/
theorem eq_of_shape?_keyword {tokens : List (Option Token)} {kind : StatementKind} {shape : Shape}
    (hnone : shape? tokens = none) (h : shape? (tokens ++ [some kind.token]) = some shape) :
    ∃ token, (token = .default ∨ token = .declaration) ∧ tokens = [some .export, some token] := by
  have hclosed : some kind.token ≠ some .string ∧ some kind.token ≠ some .braceClose ∧
      some .default ≠ some kind.token ∧ some .declaration ≠ some kind.token ∧
      some .braceOpen ≠ some kind.token ∧ some .star ≠ some kind.token := by
    cases kind <;> decide
  obtain ⟨hstring, hclose, hdefault, hdeclaration, hbrace, hstar⟩ := hclosed
  have hall := h
  unfold shape? at h
  split at h
  · rename_i rest heq
    cases tokens with
    | nil =>
      obtain rfl : rest = [] := (List.cons.inj heq).2.symm
      simp [hasSource, hasPair] at h
    | cons first tokens =>
      obtain ⟨rfl, -⟩ := List.cons.inj heq
      rw [List.cons_append, shape?_import_concat hstring, hnone] at hall
      simp at hall
  · rename_i heq
    obtain ⟨rest, rfl, -⟩ := exists_of_concat_eq heq hdefault
    cases rest with
    | nil => exact ⟨.default, .inl rfl, rfl⟩
    | cons => simp [shape?] at hnone
  · rename_i heq
    obtain ⟨rest, rfl, -⟩ := exists_of_concat_eq heq hdeclaration
    cases rest with
    | nil => exact ⟨.declaration, .inr rfl, rfl⟩
    | cons => simp [shape?] at hnone
  · rename_i heq
    obtain ⟨rest, rfl, -⟩ := exists_of_concat_eq heq hbrace
    rw [List.cons_append, List.cons_append, shape?_brace_concat hclose hnone] at hall
    simp at hall
  · rename_i heq
    obtain ⟨rest, rfl, -⟩ := exists_of_concat_eq heq hstar
    rw [List.cons_append, List.cons_append, shape?_star_concat hstring, hnone] at hall
    simp at hall
  · simp at h

/-! ## Tokens of candidates -/

/-- The tokens of some lexemes, line breaks left out. -/
def Lexeme.tokens (lexemes : List Lexeme) : List (Option Token) :=
  (lexemes.filter fun lexeme => !lexeme.is .newline).map (·.token)

theorem candidateShape?_eq (group : List Lexeme) :
    candidateShape? group = shape? (Lexeme.tokens group) := rfl

namespace Lexeme

theorem tokens_append (lexemes more : List Lexeme) :
    tokens (lexemes ++ more) = tokens lexemes ++ tokens more := by
  rw [tokens, List.filter_append, List.map_append, tokens, tokens]

theorem tokens_cons (lexeme : Lexeme) (lexemes : List Lexeme) :
    tokens (lexeme :: lexemes) =
      if lexeme.is .newline then tokens lexemes else lexeme.token :: tokens lexemes := by
  unfold tokens
  cases h : lexeme.is .newline <;> simp [h]

theorem tokens_eq_nil_iff {lexemes : List Lexeme} :
    tokens lexemes = [] ↔ ∀ lexeme ∈ lexemes, lexeme.is .newline = true := by
  simp [tokens]

end Lexeme

/-! ## Parts of the candidates -/

/-- Candidates behind the end of a line are cut as they are without the lines above. -/
theorem candidates_append_of_endsLine {lexemes more : List Lexeme}
    (hends : Lexeme.EndsLine lexemes) (hmore : (candidates true more).1 = [])
    (atLineStart : Bool) :
    candidates atLineStart (lexemes ++ more) =
      ((candidates atLineStart lexemes).1,
        (candidates atLineStart lexemes).2 ++ (candidates true more).2) := by
  induction lexemes generalizing atLineStart with
  | nil =>
    obtain ⟨last, hlast, -⟩ := hends
    simp at hlast
  | cons lexeme rest ih =>
    cases rest with
    | nil =>
      obtain ⟨last, hlast, hnewline⟩ := hends
      obtain rfl : lexeme = last := by simpa using hlast
      have htoken : lexeme.token = some .newline := beq_iff_eq.1 hnewline
      have hclosed (following : List Lexeme) : lexeme.opens following = false := by
        simp [Lexeme.opens, Lexeme.is, htoken]
      rw [List.singleton_append, candidates_of_not_opens (by simp [hclosed]),
        candidates_of_not_opens (by simp [hclosed]), hnewline, hmore]
      rfl
    | cons next rest =>
      have hrest : Lexeme.EndsLine (next :: rest) := by
        obtain ⟨last, hlast, hnewline⟩ := hends
        exact ⟨last, by rwa [List.getLast?_cons_cons] at hlast, hnewline⟩
      have hopens : lexeme.opens (next :: rest ++ more) = lexeme.opens (next :: rest) :=
        Lexeme.opens_append more (.inl (by simp))
      rw [List.cons_append]
      cases hstart : atLineStart && lexeme.opens (next :: rest) with
      | true =>
        rw [candidates_of_opens hstart, candidates_of_opens (by rw [hopens, hstart]), ih hrest]
        rfl
      | false =>
        rw [candidates_of_not_opens hstart, candidates_of_not_opens (by rw [hopens, hstart]),
          ih hrest]

/-- The last candidates of some lexemes are the candidates of the lexemes in them. -/
theorem candidates_back {atLineStart : Bool} {lexemes front : List Lexeme}
    {before after : List (List Lexeme)}
    (h : candidates atLineStart lexemes = (front, before ++ after)) :
    candidates true after.flatten = ([], after) := by
  induction lexemes generalizing atLineStart front before with
  | nil =>
    obtain ⟨-, hnil⟩ := Prod.mk.inj h
    rw [(List.append_eq_nil_iff.1 hnil.symm).2]
    rfl
  | cons lexeme rest ih =>
    cases hopens : atLineStart && lexeme.opens rest with
    | true =>
      rw [candidates_of_opens hopens] at h
      obtain ⟨-, hgroups⟩ := Prod.mk.inj h
      cases before with
      | nil =>
        -- The first of them starts here, so the lexemes in them are all that is left.
        rw [List.nil_append] at hgroups
        rw [← hgroups, List.flatten_cons, List.cons_append, candidates_flatten,
          candidates_of_opens]
        exact (Bool.and_eq_true_iff.1 hopens).2
      | cons group before =>
        rw [List.cons_append] at hgroups
        exact ih (Prod.ext rfl (List.cons.inj hgroups).2)
    | false =>
      rw [candidates_of_not_opens hopens] at h
      exact ih (Prod.ext rfl (Prod.mk.inj h).2)

/-- Consecutive candidates are the candidates of the lexemes in them, and end a line when others
follow. -/
theorem candidates_part {atLineStart : Bool} {lexemes front : List Lexeme}
    {before part after : List (List Lexeme)} (hne : part ≠ [])
    (h : candidates atLineStart lexemes = (front, before ++ (part ++ after))) :
    candidates true part.flatten = ([], part) ∧
      (after = [] ∨ Lexeme.EndsLine part.flatten) := by
  have hback := candidates_back h
  cases after with
  | nil =>
    rw [List.append_nil] at hback
    exact ⟨hback, .inl rfl⟩
  | cons next after =>
    have hends : Lexeme.EndsLine part.flatten := by
      have hchain := isChain_candidates true (part ++ next :: after).flatten
      rw [hback] at hchain
      rcases List.eq_nil_or_concat' part with rfl | ⟨init, group, rfl⟩
      · exact absurd rfl hne
      · dsimp only at hchain
        rw [List.append_assoc, List.singleton_append] at hchain
        obtain ⟨last, hlast, hnewline⟩ := (List.isChain_append_cons_cons.1 hchain).2.1
        refine ⟨last, ?_, hnewline⟩
        rw [List.flatten_append, List.flatten_singleton, List.getLast?_append, hlast]
        rfl
    have hafter : candidates true (next :: after).flatten = ([], next :: after) := by
      rw [← List.append_assoc] at h
      exact candidates_back h
    rw [List.flatten_append, candidates_append_of_endsLine hends (by rw [hafter]), hafter] at hback
    obtain ⟨hfront, hgroups⟩ := Prod.mk.inj hback
    exact ⟨Prod.ext hfront (List.append_cancel_right hgroups), .inr hends⟩

/-! ## Candidates of one statement -/

/-- A candidate of some shape, and candidates behind it that are no statements. -/
inductive IsRun (shape : Shape) : List (List Lexeme) → Prop
  | mk {group : List Lexeme} {groups : List (List Lexeme)}
      (hshape : candidateShape? group = some shape)
      (hothers : ∀ other ∈ groups, candidateShape? other = none) : IsRun shape (group :: groups)

theorem IsRun.ne_nil {shape : Shape} {run : List (List Lexeme)} (h : IsRun shape run) :
    run ≠ [] := by
  cases h
  simp

theorem IsRun.concat {shape : Shape} {run : List (List Lexeme)} (h : IsRun shape run)
    {group : List Lexeme} (hgroup : candidateShape? group = none) :
    IsRun shape (run ++ [group]) := by
  obtain ⟨hshape, hothers⟩ := h
  refine .mk hshape fun other hother => ?_
  rcases List.mem_append.1 hother with hother | hother
  · exact hothers other hother
  · rwa [List.mem_singleton.1 hother]

/-- Every statement is made of one run of the candidates. -/
theorem exists_run_of_mem_settle {shape : Shape} {done groups : List (List Lexeme)}
    {statement : Statement} (hdone : IsRun shape done)
    (h : statement ∈ settle shape (Lexeme.spans done.flatten) groups) :
    ∃ before run after shape, done ++ groups = before ++ (run ++ after) ∧ IsRun shape run ∧
      statement = ofShape shape (Lexeme.spans run.flatten) := by
  induction groups generalizing shape done with
  | nil =>
    rw [settle, List.mem_singleton] at h
    exact ⟨[], done, [], shape, rfl, hdone, h⟩
  | cons group groups ih =>
    rw [settle] at h
    cases hgroup : candidateShape? group with
    | some next =>
      rw [hgroup] at h
      rcases List.mem_cons.1 h with rfl | h
      · exact ⟨[], done, group :: groups, shape, rfl, hdone, rfl⟩
      · rw [← @List.flatten_singleton _ group] at h
        obtain ⟨before, run, after, shape, hall, hrun⟩ := ih (.mk hgroup (by simp)) h
        refine ⟨done ++ before, run, after, shape, ?_, hrun⟩
        rw [List.append_assoc, ← hall]
        rfl
    | none =>
      rw [hgroup] at h
      dsimp only at h
      rw [← Lexeme.spans_append, ← @List.flatten_singleton _ group, ← List.flatten_append] at h
      obtain ⟨before, run, after, shape, hall, hrun⟩ := ih (hdone.concat hgroup) h
      exact ⟨before, run, after, shape, by rw [← hall, List.append_assoc]; rfl, hrun⟩

theorem settle_of_none {groups : List (List Lexeme)}
    (h : ∀ group ∈ groups, candidateShape? group = none) (shape : Shape) (text : Text) :
    settle shape text groups = [ofShape shape (text ++ Lexeme.spans groups.flatten)] := by
  induction groups generalizing text with
  | nil => rw [settle, List.flatten_nil, Lexeme.spans, List.flatMap_nil, List.append_nil]
  | cons group groups ih =>
    obtain ⟨hgroup, hgroups⟩ := List.forall_mem_cons.1 h
    rw [settle, hgroup]
    dsimp only
    rw [ih hgroups, List.flatten_cons, Lexeme.spans_append, List.append_assoc]

/-- There is a statement for the first candidate and one for every other that has a shape. -/
theorem length_settle (shape : Shape) (text : Text) (groups : List (List Lexeme)) :
    (settle shape text groups).length =
      groups.countP (fun group => (candidateShape? group).isSome) + 1 := by
  induction groups generalizing shape text with
  | nil => rfl
  | cons group groups ih =>
    rw [settle]
    cases hgroup : candidateShape? group with
    | some next =>
      dsimp only
      rw [List.length_cons, ih, List.countP_cons_of_pos (by simp [hgroup])]
    | none =>
      dsimp only
      rw [ih, List.countP_cons_of_neg (by simp [hgroup])]

/-- A text whose candidates are one run is one statement. -/
theorem split?_of_run {text : Text} {shape : Shape} {run : List (List Lexeme)}
    (hcandidates : candidates true (Lexeme.ofText text) = ([], run)) (hrun : IsRun shape run)
    (hspans : Lexeme.spans run.flatten = text) : split? text = some [ofShape shape text] := by
  obtain ⟨hshape, hothers⟩ := hrun
  rw [split?, hcandidates]
  simp only [List.all_nil, ↓reduceIte]
  rw [hshape, Option.map_some, settle_of_none hothers, ← Lexeme.spans_append, ← List.flatten_cons,
    hspans]

theorem exists_run_of_split? {text : Text} {statements : List Statement}
    (h : split? text = some statements) {statement : Statement} (hmem : statement ∈ statements) :
    ∃ front before run after shape,
      candidates true (Lexeme.ofText text) = (front, before ++ (run ++ after)) ∧
      IsRun shape run ∧ statement = ofShape shape (Lexeme.spans run.flatten) := by
  unfold split? at h
  obtain ⟨⟨front, groups⟩, hcandidates⟩ :
      ∃ found, candidates true (Lexeme.ofText text) = found := ⟨_, rfl⟩
  rw [hcandidates] at h ⊢
  dsimp only at h
  split at h
  · cases groups with
    | nil => simp at h
    | cons group groups =>
      obtain ⟨shape, hshape, rfl⟩ := Option.map_eq_some_iff.1 h
      rw [← @List.flatten_singleton _ group] at hmem
      obtain ⟨before, run, after, shape, hall, hrun⟩ :=
        exists_run_of_mem_settle (.mk hshape (by simp)) hmem
      exact ⟨front, before, run, after, shape, by rw [← hall]; rfl, hrun⟩
  · simp at h

end Statement

end DocumentLayout
