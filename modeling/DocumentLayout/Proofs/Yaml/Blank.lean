import DocumentLayout.Proofs.Text.Cuts
import DocumentLayout.Text.Blank
import DocumentLayout.Yaml.Document

/-!
# YAML without content

A text of white space alone may still hold content for YAML, which takes only some of white space
for such: a no-break space is a scalar. But nothing in such a text opens a block or a bracket, so it
never stands for a mapping.
-/

namespace DocumentLayout

theorem Text.isBlank_of_suffix {text rest : Text} (h : isBlank text = true)
    (hrest : rest <:+ text) : isBlank rest = true := by
  apply List.all_eq_true.2
  intro c hc
  exact List.all_eq_true.1 h c (hrest.subset hc)

namespace Yaml

/-! ## What is left of the input -/

namespace Input

theorem advance_suffix (input : Input) (count : Nat) :
    (input.advance count).rest <:+ input.rest :=
  List.drop_suffix ..

theorem skipComment_suffix (input : Input) : input.skipComment.rest <:+ input.rest := by
  unfold skipComment
  split
  · exact advance_suffix ..
  · exact List.suffix_rfl

theorem takeBreak_suffix (input : Input) : input.takeBreak.2.rest <:+ input.rest := by
  unfold takeBreak
  split
  · exact List.drop_suffix ..
  · split
    · exact List.drop_suffix ..
    · split
      · exact List.drop_suffix ..
      · exact List.suffix_rfl
  · exact List.suffix_rfl

end Input

theorem Gap.read?_suffix {indent fuel : Nat} {gap gap' : Gap} {input input' : Input}
    (h : gap.read? indent fuel input = some (gap', input')) : input'.rest <:+ input.rest := by
  fun_induction Gap.read? indent fuel gap input with
  | case1 | case2 | case7 =>
    obtain rfl := (Prod.mk.inj (Option.some.inj h)).2
    exact List.suffix_rfl
  | case3 _ _ _ _ _ _ _ ih | case5 _ _ _ _ _ _ _ _ _ ih =>
    exact (ih h).trans (Input.advance_suffix ..)
  | case4 => simp at h
  | case6 fuel gap input c _ _ _ text after hafter _ ih =>
    have hbreak := input.takeBreak_suffix
    rw [hafter] at hbreak
    exact (ih h).trans hbreak

theorem plainFrom?_suffix {inFlow : Bool} {indent fuel : Nat} {text : Text} {gap : Gap}
    {input : Input} {scalar : PlainScalar}
    (h : plainFrom? inFlow indent fuel text gap input = some scalar) :
    scalar.input.rest <:+ input.rest := by
  fun_induction plainFrom? inFlow indent fuel text gap input with
  | case1 | case2 | case4 =>
    obtain rfl := Option.some.inj h
    exact List.suffix_rfl
  | case3 | case5 => simp at h
  | case6 _ _ _ _ _ _ _ _ _ _ _ _ _ hgap =>
    obtain rfl := Option.some.inj h
    exact (Gap.read?_suffix hgap).trans (Input.advance_suffix ..)
  | case7 _ _ _ _ _ _ _ _ _ _ _ _ _ hgap _ ih =>
    exact (ih h).trans ((Gap.read?_suffix hgap).trans (Input.advance_suffix ..))
  | case8 =>
    obtain rfl := Option.some.inj h
    exact Input.advance_suffix ..

/-! ## The lexer in white space -/

namespace Lexer

/-- A lexer that has read plain scalars only, and has only white space left. -/
structure IsQuiet (lexer : Lexer) : Prop where
  rest : Text.isBlank lexer.input.rest = true
  tokens : ∀ token ∈ lexer.tokens, ∃ text, token = .scalar text true
  indents : lexer.indents = []

theorem isQuiet_ofText {text : Text} (h : Text.isBlank text = true) : (ofText text).IsQuiet where
  rest := h
  tokens := by simp [ofText]
  indents := rfl

variable {lexer lexer' : Lexer}

theorem IsQuiet.skipSpace (h : lexer.IsQuiet) (fuel : Nat) : (skipSpace fuel lexer).IsQuiet := by
  induction fuel generalizing lexer with
  | zero => exact h
  | succ fuel ih =>
    unfold Lexer.skipSpace
    extract_lets input input' tabs input''
    have hmark : input'.rest <:+ lexer.input.rest := by
      show (if _ then _ else _ : Input).rest <:+ _
      split
      · exact Input.advance_suffix ..
      · exact List.suffix_rfl
    have hskip : input''.rest <:+ lexer.input.rest :=
      (Input.skipComment_suffix _).trans ((Input.advance_suffix ..).trans hmark)
    split
    · apply ih
      have hbreak := (Input.takeBreak_suffix _).trans hskip
      exact ⟨Text.isBlank_of_suffix h.rest hbreak, h.tokens, h.indents⟩
    · exact ⟨Text.isBlank_of_suffix h.rest hskip, h.tokens, h.indents⟩

-- Without blocks there is none to close.
theorem IsQuiet.unindent (h : lexer.IsQuiet) (column : Int) : lexer.unindent column = lexer := by
  unfold Lexer.unindent
  rw [h.indents]
  split <;> rfl

theorem IsQuiet.saveCandidate? (h : lexer.IsQuiet) (hsave : lexer.saveCandidate? = some lexer') :
    lexer'.IsQuiet ∧ lexer'.input = lexer.input := by
  unfold Lexer.saveCandidate? dropCandidate? at hsave
  split at hsave
  · split at hsave
    · simp at hsave
    · obtain rfl := Option.some.inj hsave
      exact ⟨⟨h.rest, h.tokens, h.indents⟩, rfl⟩
  · obtain rfl := Option.some.inj hsave
    exact ⟨h, rfl⟩

theorem IsQuiet.plainScalar? (h : lexer.IsQuiet) (hread : lexer.plainScalar? = some lexer') :
    lexer'.IsQuiet := by
  unfold Lexer.plainScalar? at hread
  obtain ⟨saved, hsave, hread⟩ := Option.bind_eq_some_iff.1 hread
  obtain ⟨scalar, hscalar, hread⟩ := Option.map_eq_some_iff.1 hread
  obtain rfl := hread
  obtain ⟨hsaved, -⟩ := h.saveCandidate? hsave
  exact {
    rest := Text.isBlank_of_suffix hsaved.rest (plainFrom?_suffix hscalar)
    tokens := by
      intro token htoken
      rcases List.mem_cons.1 htoken with rfl | htoken
      · exact ⟨_, rfl⟩
      · exact hsaved.tokens token htoken
    indents := hsaved.indents }

/-- White space that YAML does not skip can only start a plain scalar. -/
theorem token?_of_isSpace {c : Char} {rest : Text} (hinput : lexer.input.rest = c :: rest)
    (hc : Text.isSpace c = true) :
    lexer.token? c rest = if startsPlain lexer.inFlow c rest then lexer.plainScalar? else none := by
  have hne : ∀ d, Text.isSpace d = false → ¬ c = d := by
    rintro d hd rfl
    rw [hc] at hd
    exact absurd hd (by decide)
  have hmarker : ∀ d more, Text.isSpace d = false →
      lexer.input.startsMarker (d :: more) = false := by
    intro d more hd
    unfold Input.startsMarker
    rw [hinput, Text.dropPrefix?, List.isPrefixOf?, if_neg (by simpa using Ne.symm (hne d hd))]
    simp
  have hdashes : lexer.input.startsMarker "---".toList = false := hmarker '-' _ (by decide)
  have hdots : lexer.input.startsMarker "...".toList = false := hmarker '.' _ (by decide)
  unfold token?
  simp only [hdashes, hdots, hne '%' (by decide), hne '[' (by decide), hne '\x7b' (by decide),
    hne ']' (by decide), hne '\x7d' (by decide), hne ',' (by decide), hne '-' (by decide),
    hne '?' (by decide), hne ':' (by decide), hne '*' (by decide), hne '&' (by decide),
    hne '!' (by decide), hne '|' (by decide), hne '>' (by decide), hne '\'' (by decide),
    hne '"' (by decide), and_false, false_and, if_false, Bool.false_eq_true]

theorem IsQuiet.finish? (h : lexer.IsQuiet) (hfinish : lexer.finish? = some lexer') :
    lexer'.IsQuiet := by
  unfold Lexer.finish? atTopLevel? at hfinish
  extract_lets input input' at hfinish
  have hinput : input'.rest = lexer.input.rest := by
    show (if _ then _ else _ : Input).rest = _
    split <;> rfl
  have hquiet : IsQuiet { lexer with input := input' } := ⟨hinput ▸ h.rest, h.tokens, h.indents⟩
  rw [hquiet.unindent] at hfinish
  obtain ⟨dropped, hdrop, rfl⟩ := Option.map_eq_some_iff.1 hfinish
  unfold dropCandidate? at hdrop
  split at hdrop
  · simp at hdrop
  · obtain rfl := Option.some.inj hdrop
    exact ⟨hquiet.rest, hquiet.tokens, hquiet.indents⟩

theorem IsQuiet.run? (h : lexer.IsQuiet) {fuel : Nat} (hrun : run? fuel lexer = some lexer') :
    lexer'.IsQuiet := by
  induction fuel generalizing lexer with
  | zero => simp [Lexer.run?] at hrun
  | succ fuel ih =>
    unfold Lexer.run? at hrun
    dsimp only at hrun
    have hskip := h.skipSpace (lexer.input.rest.length + 1)
    rw [hskip.unindent] at hrun
    split at hrun
    · exact hskip.finish? hrun
    · rename_i c rest hrest
      have hc : Text.isSpace c = true := by
        apply List.all_eq_true.1 hskip.rest
        rw [hrest]
        exact List.mem_cons_self ..
      rw [token?_of_isSpace hrest hc] at hrun
      split at hrun
      · obtain ⟨next, hnext, hrun⟩ := Option.bind_eq_some_iff.1 hrun
        exact ih (hskip.plainScalar? hnext) hrun
      · simp at hrun

end Lexer

theorem tokens?_of_isBlank {text : Text} {tokens : List Token} (h : Text.isBlank text = true)
    (htokens : tokens? text = some tokens) :
    ∀ token ∈ tokens, ∃ text, token = .scalar text true := by
  unfold tokens? at htokens
  extract_lets content at htokens
  have hcontent : content <:+ text := by
    show (Text.dropPrefix? ['\ufeff'] text).getD text <:+ text
    cases hmark : Text.dropPrefix? ['\ufeff'] text with
    | none => exact List.suffix_rfl
    | some rest =>
      obtain rfl := List.append_eq_of_isPrefixOf?_eq_some hmark
      exact List.suffix_append ..
  split at htokens
  · obtain ⟨lexer, hrun, rfl⟩ := Option.map_eq_some_iff.1 htokens
    have hquiet := (Lexer.isQuiet_ofText (Text.isBlank_of_suffix h hcontent)).run? hrun
    intro token htoken
    exact hquiet.tokens token (List.mem_reverse.1 htoken)
  · simp at htokens

/-! ## The value -/

-- A stream of scalars holds one at most, since nothing but the end of the document may follow it.
theorem Event.ofTokens?_scalars {tokens : List Token} {events : List Event}
    (h : ∀ token ∈ tokens, ∃ text, token = .scalar text true)
    (hevents : ofTokens? tokens = some events) :
    events = [] ∨ ∃ text, events = [.scalar bare text true] := by
  cases tokens with
  | nil => exact .inl (Option.some.inj hevents).symm
  | cons token rest =>
    obtain ⟨text, rfl⟩ := h token (List.mem_cons_self ..)
    have hnode : node? standardHandles true false (8 * (rest.length + 1) + 8)
        (.scalar text true :: rest) = some ([.scalar bare text true], rest) := rfl
    unfold ofTokens? at hevents
    dsimp only at hevents
    rw [List.length_cons, hnode] at hevents
    dsimp only at hevents
    split at hevents
    · exact .inr ⟨text, (Option.some.inj hevents).symm⟩
    · simp at hevents

theorem plainValue?_ne_mapping (text : Text) (entries : List (Value × Value)) :
    plainValue? text ≠ some (.mapping entries) := by
  unfold plainValue?
  intro h
  split at h
  · simp at h
  · split at h
    · simp at h
    · split at h
      · split at h <;> simp at h
      · split at h
        · simp at h
        · split at h <;> simp at h

theorem ofEvents?_scalar (text : Text) :
    ofEvents? [.scalar Event.bare text true] = plainValue? text := by
  cases hvalue : plainValue? text <;>
    simp [ofEvents?, link?, targets, Event.bare, depthLimit, value?, node?, taggedScalar?, ownTag?,
      scalarValue?, hvalue]

/-- A text of white space alone is no mapping. -/
theorem read?_ne_mapping_of_isBlank {text : Text} (h : Text.isBlank text = true)
    (entries : List (Value × Value)) : read? text ≠ some (.mapping entries) := by
  intro hread
  unfold read? at hread
  obtain ⟨events, hevents, hvalue⟩ := Option.bind_eq_some_iff.1 hread
  obtain ⟨tokens, htokens, hevents⟩ := Option.bind_eq_some_iff.1 hevents
  rcases Event.ofTokens?_scalars (tokens?_of_isBlank h htokens) hevents with rfl | ⟨scalar, rfl⟩
  · have hnull : ofEvents? [] = some .null := rfl
    rw [hnull] at hvalue
    simp at hvalue
  · rw [ofEvents?_scalar] at hvalue
    exact plainValue?_ne_mapping scalar entries hvalue

end Yaml

end DocumentLayout
