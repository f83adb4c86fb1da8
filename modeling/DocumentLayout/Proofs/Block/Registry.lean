import DocumentLayout.Proofs.Block.Order

/-!
# The registry of tokenizers

Whatever edits are made, the tokenizers of a parser stay an ordered list without two of the same
name. Each edit is refused and changes nothing, or it adds or takes away one tokenizer and leaves
the order of all others as it is.
-/

namespace DocumentLayout.Parser

variable {parser after : Parser} {name : Text} {before changed : List Tokenizer}

/-! ## What edits do -/

/-- The name of the tokenizer that an edit adds or takes away. -/
def Edit.subject : Edit → Text
  | .push tokenizer => tokenizer.name
  | .insertBefore _ tokenizer => tokenizer.name
  | .remove name => name
  | .install => statementTokenizer.name

/-- Whether an edit has nothing to do: its name is taken, or there is none of that name to take
away. -/
def Edit.IsRefused (names : List Text) : Edit → Prop
  | .push tokenizer => tokenizer.name ∈ names
  | .insertBefore _ tokenizer => tokenizer.name ∈ names
  | .remove name => name ∉ names
  | .install => statementTokenizer.name ∈ names

/-- What an edit makes of a list of tokenizers. -/
inductive Edit.Makes : Edit → List Tokenizer → List Tokenizer → Prop
  | push (tokenizer : Tokenizer) (list : List Tokenizer) :
    Makes (.push tokenizer) list (list ++ [tokenizer])
  | insertBefore (tokenizer peer : Tokenizer) (front back : List Tokenizer) :
    Makes (.insertBefore peer.name tokenizer) (front ++ peer :: back)
      (front ++ tokenizer :: peer :: back)
  | insertLast (anchor : Text) (tokenizer : Tokenizer) (list : List Tokenizer)
    (hanchor : anchor ∉ list.map (·.name)) :
    Makes (.insertBefore anchor tokenizer) list (list ++ [tokenizer])
  | remove (tokenizer : Tokenizer) (front back : List Tokenizer) :
    Makes (.remove tokenizer.name) (front ++ tokenizer :: back) (front ++ back)
  | install {before after : List Tokenizer}
    (h : Makes (.insertBefore paragraphName statementTokenizer) before after) :
    Makes .install before after

-- The tokenizer that is found under a name, and those on both sides of it.
theorem exists_peer_of_position? {index : Nat} (h : parser.position? name = some index) :
    ∃ front peer back, parser.tokenizers = front ++ peer :: back ∧ peer.name = name ∧
      front.length = index := by
  obtain ⟨frontNames, backNames, hnames, -, hindex⟩ := exists_of_position? h
  obtain ⟨front, rest, hsplit, hfront, hrest⟩ := List.map_eq_append_iff.1 hnames
  obtain ⟨peer, back, rfl, hpeer, -⟩ := List.map_eq_cons_iff.1 hrest
  refine ⟨front, peer, back, hsplit, hpeer, ?_⟩
  rw [← hindex, ← hfront, List.length_map]

theorem makes_push? {tokenizer : Tokenizer} (h : parser.push? tokenizer = some after) :
    (Edit.push tokenizer).Makes parser.tokenizers after.tokenizers := by
  unfold push? at h
  split at h
  · simp at h
  · obtain rfl := Option.some.inj h
    exact .push tokenizer parser.tokenizers

theorem makes_insertBefore? {anchor : Text} {tokenizer : Tokenizer}
    (h : parser.insertBefore? anchor tokenizer = some after) :
    (Edit.insertBefore anchor tokenizer).Makes parser.tokenizers after.tokenizers := by
  unfold insertBefore? at h
  split at h
  · simp at h
  · obtain rfl := Option.some.inj h
    cases hposition : parser.position? anchor with
    | none =>
      have hanchor : anchor ∉ parser.tokenizers.map (·.name) := position?_eq_none_iff.1 hposition
      rw [Option.getD_none, List.take_length, List.drop_length]
      exact .insertLast anchor tokenizer parser.tokenizers hanchor
    | some index =>
      obtain ⟨front, peer, back, hsplit, rfl, rfl⟩ := exists_peer_of_position? hposition
      rw [Option.getD_some, hsplit, List.take_left, List.drop_left]
      exact .insertBefore tokenizer peer front back

theorem makes_remove? (h : parser.remove? name = some after) :
    (Edit.remove name).Makes parser.tokenizers after.tokenizers := by
  obtain ⟨index, hposition, rfl⟩ := Option.map_eq_some_iff.1 h
  obtain ⟨front, peer, back, hsplit, rfl, rfl⟩ := exists_peer_of_position? hposition
  rw [hsplit, List.eraseIdx_append_of_length_le (Nat.le_refl _), Nat.sub_self]
  exact .remove peer front back

/-- An edit that is carried out does what it says. -/
theorem makes_of_run? {edit : Edit} (h : edit.run? parser = some after) :
    edit.Makes parser.tokenizers after.tokenizers := by
  cases edit with
  | push tokenizer => exact makes_push? h
  | insertBefore anchor tokenizer => exact makes_insertBefore? h
  | remove name => exact makes_remove? h
  | install => exact .install (makes_insertBefore? h)

theorem insertBefore?_eq_none_iff {anchor : Text} {tokenizer : Tokenizer} :
    parser.insertBefore? anchor tokenizer = none ↔ tokenizer.name ∈ parser.names := by
  rw [← contains_iff]
  simp [insertBefore?]

/-- And it is carried out unless it is refused. -/
theorem run?_eq_none_iff {edit : Edit} :
    edit.run? parser = none ↔ edit.IsRefused parser.names := by
  cases edit with
  | push tokenizer =>
    rw [Edit.IsRefused, ← contains_iff]
    simp [Edit.run?, push?]
  | insertBefore anchor tokenizer => exact insertBefore?_eq_none_iff
  | remove name =>
    rw [Edit.IsRefused, ← position?_eq_none_iff]
    simp [Edit.run?, remove?]
  | install => exact insertBefore?_eq_none_iff

/-- The names that an edit is not about stay in their order. -/
theorem Edit.Makes.filter_names {edit : Edit} (h : edit.Makes before changed) :
    (changed.map (·.name)).filter (· != edit.subject) =
      (before.map (·.name)).filter (· != edit.subject) := by
  induction h with
  | install _ ih => exact ih
  | _ => simp [Edit.subject]

theorem edit_of_run?_eq_none {edit : Edit} (h : edit.run? parser = none) :
    parser.edit edit = parser := by
  rw [Parser.edit, h, Option.getD_none]

theorem filter_names_edit (parser : Parser) (edit : Edit) :
    (parser.edit edit).names.filter (· != edit.subject) =
      parser.names.filter (· != edit.subject) := by
  rcases parser.edit_eq_or edit with hsame | hrun
  · rw [hsame]
  · exact (makes_of_run? hrun).filter_names

/-! ## Looking names up -/

/-- Among distinct names each stands at the position under which it is found. -/
theorem position?_eq_some_iff (hparser : parser.names.Nodup) {index : Nat} :
    parser.position? name = some index ↔ parser.names[index]? = some name := by
  constructor
  · intro h
    obtain ⟨front, back, hnames, -, rfl⟩ := exists_of_position? h
    rw [hnames, List.getElem?_append_right (Nat.le_refl _), Nat.sub_self]
    rfl
  · intro h
    obtain ⟨hindex, hname⟩ := List.getElem?_eq_some_iff.1 h
    have hsplit : parser.names =
        parser.names.take index ++ name :: parser.names.drop (index + 1) := by
      rw [← hname, List.getElem_cons_drop, List.take_append_drop]
    have hfront : name ∉ parser.names.take index := by
      rw [hsplit] at hparser
      exact fun hmem =>
        (List.nodup_cons.1 (List.nodup_middle.1 hparser)).1 (List.mem_append_left _ hmem)
    rw [position?_of_names_eq hsplit hfront, List.length_take,
      Nat.min_eq_left (Nat.le_of_lt hindex)]

/-! ## Runs -/

/-- The parsers that runs of edits start from. -/
def IsStart (parser : Parser) : Prop :=
  parser = empty ∨ parser = standard ∨ ∃ extensions, parser = document extensions

theorem IsStart.nodup (hparser : parser.IsStart) : parser.names.Nodup := by
  rcases hparser with rfl | rfl | ⟨extensions, rfl⟩
  · exact List.nodup_nil
  · exact nodup_standard
  · exact nodup_document extensions

/-- After any edits the names are distinct, and each is found where it stands. The next edit is
refused and changes nothing, or it adds its tokenizer last or directly before its anchor, or takes
away the one that it names; in any case all others stay in their order. Installing the tokenizer of
statement blocks is such an edit. -/
theorem names_edits {start : Parser} (hstart : start.IsStart) (edits : List Edit) (next : Edit) :
    let parser := edits.foldl edit start
    parser.names.Nodup ∧
    (∀ name index, parser.position? name = some index ↔ parser.names[index]? = some name) ∧
    (∀ name, parser.contains name = true ↔ name ∈ parser.names) ∧
    (next.run? parser = none ↔ next.IsRefused parser.names) ∧
    (next.run? parser = none → parser.edit next = parser) ∧
    (∀ after, next.run? parser = some after →
      parser.edit next = after ∧ next.Makes parser.tokenizers after.tokenizers) ∧
    (parser.edit next).names.filter (· != next.subject) =
      parser.names.filter (· != next.subject) ∧
    parser.edit .install =
      (if statementTokenizer.name ∈ parser.names then parser
      else parser.edit (.insertBefore paragraphName statementTokenizer)) := by
  intro parser
  have hnames : parser.names.Nodup := nodup_edits hstart.nodup edits
  refine ⟨hnames, fun _ _ => position?_eq_some_iff hnames, fun _ => contains_iff, run?_eq_none_iff,
    edit_of_run?_eq_none, fun after hrun => ⟨?_, makes_of_run? hrun⟩,
    filter_names_edit parser next, ?_⟩
  · rw [Parser.edit, hrun, Option.getD_some]
  · split
    · rename_i hinstalled
      exact edit_of_run?_eq_none (run?_eq_none_iff.2 hinstalled)
    · rfl

/-- A tokenizer whose anchor is its own name, and an installation without a tokenizer of
paragraphs. -/
theorem names_edits_without_anchors :
    let math := Tokenizer.always "math" fun _ _ => .ok none
    let start := document [[.remove paragraphName]]
    let parser := [.remove statementTokenizer.name, .insertBefore math.name math].foldl edit start
    start.IsStart ∧ parser.names.Nodup ∧
    Edit.install.Makes parser.tokenizers (parser.edit .install).tokenizers ∧
    (parser.edit .install).names.drop 10 = [math.name, statementTokenizer.name] := by
  intro math start parser
  have hstart : start.IsStart := .inr (.inr ⟨_, rfl⟩)
  obtain ⟨hnames, -, -, hrefused, -, hmakes, -, -⟩ := names_edits hstart
    [.remove statementTokenizer.name, .insertBefore math.name math] .install
  refine ⟨hstart, hnames, ?_, by decide +kernel⟩
  cases hrun : Edit.install.run? parser with
  | none => exact absurd (hrefused.1 hrun) (by unfold Edit.IsRefused; decide +kernel)
  | some after =>
    obtain ⟨hedit, hafter⟩ := hmakes after hrun
    rw [hedit]
    exact hafter

end DocumentLayout.Parser
