import DocumentLayout.Block.Parser
import Mathlib.Data.List.InsertIdx
import Mathlib.Data.List.Nodup

/-!
# The order of tokenizers

Edits keep the names of the tokenizers distinct, and the parser for documents has the tokenizer of
statement blocks exactly once. It stands directly before that of paragraphs unless the extensions
have registered it themselves and left the two apart: a tokenizer that is registered already stays
where it is.
-/

namespace DocumentLayout.Parser

variable {parser after : Parser} {name anchor : Text} {tokenizer : Tokenizer}
  {front back : List Text}

/-! ## Positions -/

theorem position?_eq_none_iff : parser.position? name = none ↔ name ∉ parser.names := by
  rw [position?, List.findIdx?_eq_none_iff]
  constructor
  · intro h hmem
    simpa using h name hmem
  · intro h other hother
    exact beq_false_of_ne fun hsame => h (hsame ▸ hother)

theorem contains_iff : parser.contains name = true ↔ name ∈ parser.names := by
  rw [contains, Option.isSome_iff_ne_none, ne_eq, position?_eq_none_iff, not_not]

theorem position?_of_names_eq (h : parser.names = front ++ name :: back) (hfront : name ∉ front) :
    parser.position? name = some front.length := by
  have hnone : front.findIdx? (· == name) = none := by
    rw [List.findIdx?_eq_none_iff]
    intro other hother
    exact beq_false_of_ne fun hsame => hfront (hsame ▸ hother)
  rw [position?, h, List.findIdx?_append, hnone, List.findIdx?_cons]
  simp

/-- The position of a name is the number of names in front of it. -/
theorem exists_of_position? {index : Nat} (h : parser.position? name = some index) :
    ∃ front back, parser.names = front ++ name :: back ∧ name ∉ front ∧ front.length = index := by
  have hmem : name ∈ parser.names := by
    by_contra hmem
    rw [position?_eq_none_iff.2 hmem] at h
    exact absurd h (by simp)
  obtain ⟨front, back, hnames, hfront⟩ := List.eq_append_cons_of_mem hmem
  refine ⟨front, back, hnames, hfront, ?_⟩
  rw [position?_of_names_eq hnames hfront] at h
  exact Option.some.inj h

/-! ## One edit -/

theorem names_push? (h : parser.push? tokenizer = some after) :
    tokenizer.name ∉ parser.names ∧ after.names = parser.names ++ [tokenizer.name] := by
  unfold push? at h
  split at h
  · simp at h
  · rename_i hfree
    obtain rfl := Option.some.inj h
    refine ⟨fun hmem => hfree (contains_iff.2 hmem), ?_⟩
    simp [names]

/-- A tokenizer comes directly before its anchor, or last when the anchor is not registered. -/
theorem names_insertBefore? (h : parser.insertBefore? anchor tokenizer = some after) :
    tokenizer.name ∉ parser.names ∧ ∃ front back, parser.names = front ++ back ∧
      after.names = front ++ tokenizer.name :: back ∧
      (anchor ∈ parser.names → back.head? = some anchor) ∧ (anchor ∉ parser.names → back = []) := by
  unfold insertBefore? at h
  split at h
  · simp at h
  · rename_i hfree
    obtain rfl := Option.some.inj h
    refine ⟨fun hmem => hfree (contains_iff.2 hmem), ?_⟩
    cases hposition : parser.position? anchor with
    | none =>
      have hanchor := position?_eq_none_iff.1 hposition
      refine ⟨parser.names, [], by simp, ?_, fun hmem => absurd hmem hanchor, fun _ => rfl⟩
      simp [names]
    | some index =>
      obtain ⟨front, back, hnames, -, rfl⟩ := exists_of_position? hposition
      have hanchor : anchor ∈ parser.names := by simp [hnames]
      refine ⟨front, anchor :: back, hnames, ?_, fun _ => rfl, fun hmem => absurd hanchor hmem⟩
      have htake : (parser.tokenizers.take front.length).map (·.name) = front := by
        rw [List.map_take, show parser.tokenizers.map (·.name) = _ from hnames, List.take_left]
      have hdrop : (parser.tokenizers.drop front.length).map (·.name) = anchor :: back := by
        rw [List.map_drop, show parser.tokenizers.map (·.name) = _ from hnames, List.drop_left]
      simp only [names, Option.getD_some, List.map_append, List.map_cons, htake, hdrop]

theorem names_remove? (h : parser.remove? name = some after) :
    ∃ front back, parser.names = front ++ name :: back ∧ after.names = front ++ back := by
  obtain ⟨index, hposition, rfl⟩ := Option.map_eq_some_iff.1 h
  obtain ⟨front, back, hnames, -, rfl⟩ := exists_of_position? hposition
  refine ⟨front, back, hnames, ?_⟩
  rw [names, ← List.eraseIdx_map, show parser.tokenizers.map (·.name) = _ from hnames]
  simp [List.eraseIdx_append_of_length_le]

theorem edit_eq_or (parser : Parser) (edit : Edit) :
    parser.edit edit = parser ∨ edit.run? parser = some (parser.edit edit) := by
  unfold Parser.edit
  cases edit.run? parser with
  | none => exact .inl rfl
  | some after => exact .inr rfl

/-! ## Distinct names -/

theorem nodup_of_insertBefore? (hparser : parser.names.Nodup)
    (h : parser.insertBefore? anchor tokenizer = some after) : after.names.Nodup := by
  obtain ⟨hfree, front, back, hnames, hafter, -⟩ := names_insertBefore? h
  rw [hnames] at hfree hparser
  rw [hafter]
  exact List.nodup_middle.2 (List.nodup_cons.2 ⟨hfree, hparser⟩)

/-- No edit gives two tokenizers the same name. -/
theorem nodup_edit (hparser : parser.names.Nodup) (edit : Edit) :
    (parser.edit edit).names.Nodup := by
  rcases parser.edit_eq_or edit with hsame | hrun
  · rw [hsame]
    exact hparser
  · cases edit with
    | push tokenizer =>
      obtain ⟨hfree, hafter⟩ := names_push? hrun
      rw [hafter, ← List.concat_eq_append]
      exact hparser.concat hfree
    | insertBefore anchor tokenizer => exact nodup_of_insertBefore? hparser hrun
    | remove name =>
      obtain ⟨front, back, hnames, hafter⟩ := names_remove? hrun
      rw [hnames] at hparser
      rw [hafter]
      exact (List.nodup_cons.1 (List.nodup_middle.1 hparser)).2
    | install => exact nodup_of_insertBefore? hparser hrun

theorem nodup_edits (hparser : parser.names.Nodup) (edits : List Edit) :
    (edits.foldl edit parser).names.Nodup := by
  induction edits generalizing parser with
  | nil => exact hparser
  | cons first edits ih => exact ih (nodup_edit hparser first)

/-- Extensions are one sequence of edits. -/
theorem foldl_extend (extensions : List Extension) (parser : Parser) :
    extensions.foldl extend parser = extensions.flatten.foldl edit parser := by
  rw [List.foldl_flatten]
  rfl

theorem nodup_standard : standard.names.Nodup := by
  decide +kernel

theorem nodup_extensions (extensions : List Extension) :
    (extensions.foldl extend standard).names.Nodup := by
  rw [foldl_extend]
  exact nodup_edits nodup_standard _

/-! ## The tokenizer of statement blocks -/

/-- The name of the tokenizer that takes whatever all others leave. -/
def paragraphName : Text := "paragraph".toList

/-- The tokenizer of statement blocks stands directly before that of paragraphs if both are
registered. -/
def InPlace (parser : Parser) : Prop :=
  ∀ i j, parser.position? statementTokenizer.name = some i →
    parser.position? paragraphName = some j → i + 1 = j

theorem inPlace_of_names_eq (hparser : parser.names.Nodup)
    (hnames : parser.names = front ++ statementTokenizer.name :: back)
    (hback : paragraphName ∈ parser.names → back.head? = some paragraphName) :
    parser.InPlace := by
  intro i j hstatement hparagraph
  have hmem : paragraphName ∈ parser.names := by
    by_contra hmem
    rw [position?_eq_none_iff.2 hmem] at hparagraph
    simp at hparagraph
  obtain ⟨rest, rfl⟩ := List.head?_eq_some_iff.1 (hback hmem)
  -- Both stand at the end of what is in front of them, since no name comes twice.
  rw [hnames] at hparser
  have hfront := (List.nodup_cons.1 (List.nodup_middle.1 hparser)).1
  have hnames' : parser.names =
      (front ++ [statementTokenizer.name]) ++ paragraphName :: rest := by simp [hnames]
  have hparser' := hparser
  rw [← hnames, hnames'] at hparser'
  have hfront' := (List.nodup_cons.1 (List.nodup_middle.1 hparser')).1
  rw [position?_of_names_eq hnames fun h => hfront (List.mem_append_left _ h)] at hstatement
  rw [position?_of_names_eq hnames' fun h => hfront' (List.mem_append_left _ h)] at hparagraph
  simp only [Option.some.injEq, List.length_append, List.length_singleton] at hstatement hparagraph
  omega

/-- What stands directly behind the tokenizer of statement blocks. -/
theorem InPlace.head?_eq (hplace : parser.InPlace) (hparser : parser.names.Nodup)
    (hnames : parser.names = front ++ statementTokenizer.name :: back)
    (hmem : paragraphName ∈ parser.names) : back.head? = some paragraphName := by
  have hfront : statementTokenizer.name ∉ front := by
    rw [hnames] at hparser
    intro h
    exact (List.nodup_cons.1 (List.nodup_middle.1 hparser)).1 (List.mem_append_left _ h)
  have hstatement := position?_of_names_eq hnames hfront
  obtain ⟨before, rest, hsplit, hbefore⟩ := List.eq_append_cons_of_mem hmem
  have hlength := hplace _ _ hstatement (position?_of_names_eq hsplit hbefore)
  -- Of two ways to split the names at the same place both parts are the same.
  have hsame : front ++ [statementTokenizer.name] ++ back = before ++ paragraphName :: rest := by
    rw [List.append_assoc, List.singleton_append, ← hnames, hsplit]
  obtain ⟨-, rfl⟩ := List.append_inj hsame (by simpa using hlength)
  rfl

theorem inPlace_of_not_mem (h : statementTokenizer.name ∉ parser.names) : parser.InPlace := by
  intro i j hstatement _
  rw [position?_eq_none_iff.2 h] at hstatement
  simp at hstatement

/-! ## Edits that keep the place -/

-- One more name somewhere in a list parts a name from the next one only if it comes between them.
theorem exists_split_of_insert {before rest : List Text} {other : Text}
    (h : front ++ back = before ++ other :: rest) (name : Text) :
    ∃ start stop, front ++ name :: back = start ++ other :: stop ∧
      (stop.head? = rest.head? ∨ rest = back ∧ stop = name :: back) := by
  rcases List.append_eq_append_iff.1 h with ⟨inner, rfl, rfl⟩ | ⟨inner, rfl, hback⟩
  · exact ⟨front ++ name :: inner, rest, by simp, .inl rfl⟩
  · cases inner with
    | nil =>
      obtain rfl : other :: rest = back := by simpa using hback
      exact ⟨before ++ [name], rest, by simp, .inl rfl⟩
    | cons c inner =>
      obtain ⟨rfl, rfl⟩ := List.cons.inj hback
      refine ⟨before, inner ++ name :: back, by simp, ?_⟩
      cases inner with
      | nil => exact .inr ⟨rfl, rfl⟩
      | cons d inner => exact .inl rfl

theorem InPlace.insert (hplace : parser.InPlace) (hparser : parser.names.Nodup)
    (hafter : after.names.Nodup) (hnames : parser.names = front ++ back)
    (hnamesAfter : after.names = front ++ name :: back)
    (hstatement : name ≠ statementTokenizer.name)
    (hparagraph : name ≠ paragraphName)
    (hapart : back.head? = some paragraphName → statementTokenizer.name ∉ parser.names) :
    after.InPlace := by
  have hold : ∀ other, name ≠ other → other ∈ after.names → other ∈ parser.names := by
    intro other hother hmem
    rw [hnamesAfter, List.mem_append, List.mem_cons] at hmem
    rw [hnames, List.mem_append]
    rcases hmem with hfront | rfl | hback
    · exact .inl hfront
    · exact absurd rfl hother
    · exact .inr hback
  by_cases hmem : statementTokenizer.name ∈ parser.names
  · obtain ⟨before, rest, hsplit, -⟩ := List.eq_append_cons_of_mem hmem
    obtain ⟨start, stop, hstop, hhead⟩ :=
      exists_split_of_insert (hnames.symm.trans hsplit) name
    refine inPlace_of_names_eq hafter (hnamesAfter.trans hstop) fun h => ?_
    have hrest := hplace.head?_eq hparser hsplit (hold _ hparagraph h)
    rcases hhead with hsame | ⟨rfl, -⟩
    · rw [hsame, hrest]
    · exact absurd hmem (hapart hrest)
  · exact inPlace_of_not_mem fun h => hmem (hold _ hstatement h)

theorem InPlace.remove (hplace : parser.InPlace) (hparser : parser.names.Nodup)
    (hafter : after.names.Nodup) (hnames : parser.names = front ++ name :: back)
    (hnamesAfter : after.names = front ++ back) : after.InPlace := by
  by_cases hmem : statementTokenizer.name ∈ after.names
  · obtain ⟨before, rest, hsplit, -⟩ := List.eq_append_cons_of_mem hmem
    obtain ⟨start, stop, hstop, hhead⟩ :=
      exists_split_of_insert (hnamesAfter.symm.trans hsplit) name
    refine inPlace_of_names_eq hafter hsplit fun h => ?_
    have hmemParser : paragraphName ∈ parser.names := by
      rw [hnamesAfter, List.mem_append] at h
      rw [hnames, List.mem_append, List.mem_cons]
      exact h.imp_right .inr
    have hstopHead := hplace.head?_eq hparser (hnames.trans hstop) hmemParser
    rcases hhead with hsame | ⟨-, rfl⟩
    · rw [← hsame, hstopHead]
    · -- The name that goes would be that of the paragraphs, of which there is no second one.
      obtain rfl : name = paragraphName := by simpa using hstopHead
      rw [hnames] at hparser
      rw [hnamesAfter] at h
      exact absurd h (List.nodup_cons.1 (List.nodup_middle.1 hparser)).1
  · exact inPlace_of_not_mem hmem

/-- Installing the tokenizer of statement blocks puts it in place if it is not registered yet. -/
theorem inPlace_install (hparser : parser.names.Nodup)
    (hfree : statementTokenizer.name ∉ parser.names) : (parser.edit .install).InPlace := by
  have hafter := nodup_edit hparser .install
  rcases parser.edit_eq_or .install with hsame | hrun
  · rw [hsame]
    exact inPlace_of_not_mem hfree
  · obtain ⟨-, front, back, hnames, hnamesAfter, hanchor, -⟩ := names_insertBefore? hrun
    refine inPlace_of_names_eq hafter hnamesAfter fun h => hanchor ?_
    rw [hnamesAfter, List.mem_append, List.mem_cons] at h
    rw [hnames, List.mem_append]
    rcases h with hfront | hsame | hback
    · exact .inl hfront
    · exact absurd hsame (by decide)
    · exact .inr hback

/-- An edit registers nothing of its own under the two names, and puts nothing directly before the
tokenizer of paragraphs when one named for statement blocks is registered. -/
def Edit.keepsPlace (parser : Parser) : Edit → Bool
  | .push tokenizer =>
    tokenizer.name != statementTokenizer.name && tokenizer.name != paragraphName
  | .insertBefore anchor tokenizer =>
    tokenizer.name != statementTokenizer.name && tokenizer.name != paragraphName &&
      !(anchor == paragraphName && parser.contains statementTokenizer.name)
  | .remove _ => true
  | .install => true

/-- Edits each of which keeps the place in the parser that those before it lead to. -/
def keepPlace : Parser → List Edit → Bool
  | _, [] => true
  | parser, edit :: edits => edit.keepsPlace parser && keepPlace (parser.edit edit) edits

theorem InPlace.edit (hplace : parser.InPlace) (hparser : parser.names.Nodup) {edit : Edit}
    (hkeeps : edit.keepsPlace parser = true) : (parser.edit edit).InPlace := by
  have hafter := nodup_edit hparser edit
  rcases parser.edit_eq_or edit with hsame | hrun
  · rw [hsame]
    exact hplace
  · cases edit with
    | push tokenizer =>
      simp only [Edit.keepsPlace, Bool.and_eq_true, bne_iff_ne] at hkeeps
      obtain ⟨-, hnamesAfter⟩ := names_push? hrun
      exact hplace.insert hparser hafter (List.append_nil _).symm hnamesAfter hkeeps.1 hkeeps.2
        (by simp)
    | insertBefore anchor tokenizer =>
      simp only [Edit.keepsPlace, Bool.and_eq_true, bne_iff_ne, Bool.not_eq_true',
        Bool.and_eq_false_iff, beq_eq_false_iff_ne] at hkeeps
      obtain ⟨⟨hstatement, hparagraph⟩, hanchor⟩ := hkeeps
      obtain ⟨-, front, back, hnames, hnamesAfter, hhead, hlast⟩ := names_insertBefore? hrun
      refine hplace.insert hparser hafter hnames hnamesAfter hstatement hparagraph fun hback => ?_
      -- What stands behind the new name is its anchor.
      have hmem : anchor ∈ parser.names := by
        by_contra hmem
        rw [hlast hmem] at hback
        simp at hback
      rw [hhead hmem] at hback
      rcases hanchor with hother | hfree
      · exact absurd (Option.some.inj hback) hother
      · intro h
        rw [contains_iff.2 h] at hfree
        exact absurd hfree (by decide)
    | remove name =>
      obtain ⟨front, back, hnames, hnamesAfter⟩ := names_remove? hrun
      exact hplace.remove hparser hafter hnames hnamesAfter
    | install => exact inPlace_install hparser (names_insertBefore? hrun).1

theorem InPlace.edits (hplace : parser.InPlace) (hparser : parser.names.Nodup) {edits : List Edit}
    (hkeep : keepPlace parser edits = true) : (edits.foldl Parser.edit parser).InPlace := by
  induction edits generalizing parser with
  | nil => exact hplace
  | cons edit edits ih =>
    rw [keepPlace, Bool.and_eq_true] at hkeep
    exact ih (hplace.edit hparser hkeep.1) (nodup_edit hparser edit) hkeep.2

/-! ## Documents -/

theorem nodup_document (extensions : List Extension) : (document extensions).names.Nodup :=
  nodup_edit (nodup_extensions extensions) .install

/-- However the list is edited, the tokenizer of statement blocks is there in the end. -/
theorem mem_document (extensions : List Extension) :
    statementTokenizer.name ∈ (document extensions).names := by
  unfold document
  by_cases hmem : statementTokenizer.name ∈ (extensions.foldl extend standard).names
  · rcases (extensions.foldl extend standard).edit_eq_or .install with hsame | hrun
    · rw [hsame]
      exact hmem
    · exact absurd hmem (names_insertBefore? hrun).1
  · have hrun : ∃ after, Edit.install.run? (extensions.foldl extend standard) = some after := by
      refine ⟨_, if_neg fun h => hmem (contains_iff.1 h)⟩
    obtain ⟨after, hafter⟩ := hrun
    obtain ⟨-, front, back, -, hnames, -⟩ := names_insertBefore? hafter
    rw [Parser.edit, hafter, Option.getD_some, hnames]
    exact List.mem_append_right _ (List.mem_cons_self ..)

/-- A tokenizer that the extensions have registered stays where they have left it. -/
theorem inPlace_document_iff (extensions : List Extension) :
    (document extensions).InPlace ↔ (extensions.foldl extend standard).InPlace := by
  by_cases hmem : statementTokenizer.name ∈ (extensions.foldl extend standard).names
  · rcases (extensions.foldl extend standard).edit_eq_or .install with hsame | hrun
    · rw [document, hsame]
    · exact absurd hmem (names_insertBefore? hrun).1
  · exact iff_of_true (inPlace_install (nodup_extensions extensions) hmem) (inPlace_of_not_mem hmem)

theorem inPlace_iff_of_mem (hmem : statementTokenizer.name ∈ parser.names) :
    parser.InPlace ↔ ∀ j, parser.position? paragraphName = some j →
      ∃ i, parser.position? statementTokenizer.name = some i ∧ i + 1 = j := by
  obtain ⟨front, back, hnames, hfront⟩ := List.eq_append_cons_of_mem hmem
  have hposition := position?_of_names_eq hnames hfront
  constructor
  · intro hplace j hj
    exact ⟨front.length, hposition, hplace _ j hposition hj⟩
  · intro hplace i j hi hj
    obtain ⟨i', hi', hsucc⟩ := hplace j hj
    rw [hi] at hi'
    obtain rfl := Option.some.inj hi'
    exact hsucc

/-- The parser for documents has the tokenizer of statement blocks exactly once. It stands directly
before that of paragraphs if and only if the extensions have not left the two apart, and extensions
that keep the place with each of their edits have not. -/
theorem document_place (extensions : List Extension) :
    (document extensions).names.count statementTokenizer.name = 1 ∧
    ((∀ j, (document extensions).position? paragraphName = some j →
        ∃ i, (document extensions).position? statementTokenizer.name = some i ∧ i + 1 = j) ↔
      (extensions.foldl extend standard).InPlace) ∧
    (keepPlace standard extensions.flatten = true →
      (extensions.foldl extend standard).InPlace) := by
  have hmem := mem_document extensions
  refine ⟨List.count_eq_one_of_mem (nodup_document extensions) hmem, ?_, fun hkeep => ?_⟩
  · rw [← inPlace_iff_of_mem hmem, inPlace_document_iff]
  · have hstandard : standard.InPlace := inPlace_of_not_mem (by decide +kernel)
    rw [foldl_extend]
    exact hstandard.edits nodup_standard hkeep

/-- One extension installs the tokenizer and another one takes away what stood in front of it and
puts a tokenizer of its own last. -/
theorem document_place_math :
    keepPlace standard [.install, .remove "table".toList,
      .push (.always "math" fun _ _ => .ok none)] = true ∧
    (document [[.install], [.remove "table".toList,
      .push (.always "math" fun _ _ => .ok none)]]).position? paragraphName = some 10 ∧
    ∃ i, (document [[.install], [.remove "table".toList,
      .push (.always "math" fun _ _ => .ok none)]]).position? statementTokenizer.name = some i ∧
      i + 1 = 10 := by
  have hkeep : keepPlace standard [.install, .remove "table".toList,
      .push (.always "math" fun _ _ => .ok none)] = true := by
    decide +kernel
  have hposition : (document [[.install], [.remove "table".toList,
      .push (.always "math" fun _ _ => .ok none)]]).position? paragraphName = some 10 := by
    decide +kernel
  obtain ⟨-, hiff, hedits⟩ := document_place [[.install], [.remove "table".toList,
    .push (.always "math" fun _ _ => .ok none)]]
  exact ⟨hkeep, hposition, hiff.2 (hedits hkeep) 10 hposition⟩

/-- A tokenizer that is put before that of paragraphs after the installation parts the two for
good. -/
theorem document_place_parted :
    ¬ ∀ j, (document [[.install], [.insertBefore paragraphName
        (.always "math" fun _ _ => .ok none)]]).position? paragraphName = some j →
      ∃ i, (document [[.install], [.insertBefore paragraphName
        (.always "math" fun _ _ => .ok none)]]).position? statementTokenizer.name = some i ∧
        i + 1 = j := by
  have hparagraph : (document [[.install], [.insertBefore paragraphName
      (.always "math" fun _ _ => .ok none)]]).position? paragraphName = some 12 := by
    decide +kernel
  have hstatement : (document [[.install], [.insertBefore paragraphName
      (.always "math" fun _ _ => .ok none)]]).position? statementTokenizer.name = some 10 := by
    decide +kernel
  intro h
  obtain ⟨i, hi, hsucc⟩ := h 12 hparagraph
  rw [hstatement] at hi
  obtain rfl := Option.some.inj hi
  simp at hsucc

end DocumentLayout.Parser
