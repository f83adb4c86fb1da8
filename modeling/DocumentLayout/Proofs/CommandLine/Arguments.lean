import DocumentLayout.CommandLine.Arguments
import DocumentLayout.Proofs.Text.Cuts

/-!
# Reading arguments

Options in front of a command are read on their own, whatever command follows them. The arguments
of a command that are not written like options are its words, and behind `--` all of them are.
-/

namespace DocumentLayout.CommandLine

/-! ## Words -/

/-- Arguments that are words and nothing else, and the words that they are. None of them is empty,
and one that is written like an option stands behind `--`. -/
inductive Words : List Text → List Text → Prop where
  | nil : Words [] []
  | word {word : Text} {arguments words : List Text} (hne : word ≠ [])
      (hword : isOption word = false) (more : Words arguments words) :
      Words (word :: arguments) (word :: words)
  | rest {words : List Text} (hne : [] ∉ words) : Words (['-', '-'] :: words) words

theorem step_of_not_isOption (forms : List OptionForm) {argument : Text}
    (h : isOption argument = false) : step forms argument = .items [.word argument] := by
  unfold step
  split
  · simp [isOption] at h
  · simp [isOption] at h
  · rfl

theorem ne_end_of_not_isOption {argument : Text} (h : isOption argument = false) :
    argument ≠ ['-', '-'] := by
  rintro rfl
  simp [isOption] at h

theorem exists_option_of_longOption {forms : List OptionForm} {text : Text} {found : List Item}
    (h : longOption forms text = .items found) : ∃ name value, .option name value ∈ found := by
  unfold longOption at h
  dsimp only at h
  split at h
  · simp at h
  · rename_i form value _ _
    split at h
    · exact ⟨form.name, value, by simp [← Step.items.inj h]⟩
    · simp at h
  · rename_i form _ _
    split at h
    · simp at h
    · exact ⟨form.name, [], by simp [← Step.items.inj h]⟩

theorem exists_option_of_shortOptions {forms : List OptionForm} {c : Char} {rest : Text}
    {found : List Item} (h : shortOptions forms (c :: rest) = .items found) :
    ∃ name value, .option name value ∈ found := by
  rw [shortOptions] at h
  split at h
  · simp at h
  · rename_i form _
    split at h
    · split at h
      · simp at h
      · rename_i value
        exact ⟨form.name, value, by simp [← Step.items.inj h]⟩
      · exact ⟨form.name, rest, by simp [← Step.items.inj h]⟩
    · split at h
      · exact ⟨form.name, [], by simp [← Step.items.inj h]⟩
      · simp at h
      · simp at h

theorem exists_option_of_step {forms : List OptionForm} {argument : Text} {found : List Item}
    (hargument : isOption argument = true) (h : step forms argument = .items found) :
    ∃ name value, .option name value ∈ found := by
  unfold step at h
  split at h
  · exact exists_option_of_longOption h
  · exact exists_option_of_shortOptions h
  · rename_i hshort
    match argument with
    | [] => simp [isOption] at hargument
    | [c] => simp [isOption] at hargument
    | c :: d :: rest =>
      obtain rfl : c = '-' := by simpa [isOption] using hargument
      exact absurd rfl (hshort d rest)

theorem words_of_items {forms : List OptionForm} {arguments words : List Text}
    (h : items forms arguments = (words.map .word, true)) (hne : [] ∉ words) :
    Words arguments words := by
  have hoption : ∀ name value, Item.option name value ∉ words.map Item.word := by simp
  fun_induction items forms arguments generalizing words with
  | case1 =>
    obtain rfl : words = [] := by simpa using h
    exact .nil
  | case2 arguments =>
    obtain rfl : arguments = words :=
      (List.map_inj_right fun _ _ => Item.word.inj).1 (Prod.mk.inj h).1
    exact .rest hne
  | case3 => simp at h
  | case4 argument arguments _ found hstep rest understood hitems ih =>
    obtain ⟨hfound, rfl⟩ := Prod.mk.inj h
    cases hargument : isOption argument with
    | true =>
      obtain ⟨name, value, hmem⟩ := exists_option_of_step hargument hstep
      exact absurd (hfound ▸ List.mem_append_left rest hmem) (hoption name value)
    | false =>
      obtain rfl : found = [.word argument] :=
        (Step.items.inj ((step_of_not_isOption forms hargument).symm.trans hstep)).symm
      cases words with
      | nil => simp at hfound
      | cons word words =>
        obtain ⟨hword, hrest⟩ := List.cons.inj hfound
        obtain rfl := Item.word.inj hword
        rw [List.mem_cons, not_or] at hne
        exact .word (Ne.symm hne.1) hargument
          (ih (by rw [hitems]; exact congrArg (·, true) hrest) hne.2 (by simp))
  | case5 => simp at h
  | case6 => simp at h
  | case7 _ _ found name _ value _ _ rest =>
    obtain ⟨hfound, -⟩ := Prod.mk.inj h
    exact absurd (hfound ▸ List.mem_append_right found (List.mem_cons_self ..))
      (hoption name value)

theorem items_of_words (forms : List OptionForm) {arguments words : List Text}
    (h : Words arguments words) : items forms arguments = (words.map .word, true) := by
  induction h with
  | nil => rfl
  | word hne hword more ih =>
    rw [items, if_neg (ne_end_of_not_isOption hword), step_of_not_isOption forms hword]
    simp [ih]
  | rest hne => simp [items]

theorem Words.nil_not_mem {arguments words : List Text} (h : Words arguments words) :
    [] ∉ words := by
  induction h with
  | nil => simp
  | word hne hword more ih => simpa [hne.symm] using ih
  | rest hne => exact hne

/-- These are the arguments that the reader takes as words alone. -/
theorem items_eq_words_iff {forms : List OptionForm} {arguments words : List Text} :
    items forms arguments = (words.map .word, true) ∧ [] ∉ words ↔ Words arguments words :=
  ⟨fun h => words_of_items h.1 h.2, fun h => ⟨items_of_words forms h, h.nil_not_mem⟩⟩

/-! ## Sorting -/

/-- Words are sorted as they are where there is room for all of them. -/
theorem sort_words {words : List Text} (h : [] ∉ words) (options : List (OptionName × Text))
    (before : List Text) :
    sort true none ⟨options, before⟩ (words.map .word) = .ok ⟨options, before ++ words⟩ := by
  induction words generalizing before with
  | nil => simp [sort]
  | cons word words ih =>
    rw [List.mem_cons, not_or] at h
    rw [List.map_cons, sort, if_neg (by simpa using Ne.symm h.1), ih h.2]
    simp

theorem understood_of_sort {understood : Bool} {room : Option Nat} {before found : Found}
    {items : List Item} (h : sort understood room before items = .ok found) :
    understood = true := by
  fun_induction sort understood room before items <;> simp_all

theorem sort_ne_idle (understood : Bool) (room : Option Nat) (before : Found) (items : List Item) :
    sort understood room before items ≠ .error .idle := by
  fun_induction sort understood room before items <;> simp_all

theorem commandArguments_ne_idle (forms : List OptionForm) (room : Option Nat)
    (arguments : List Text) : commandArguments forms room arguments ≠ .error .idle := by
  unfold commandArguments
  have hsort := sort_ne_idle (items forms arguments).2 room ⟨[], []⟩ (items forms arguments).1
  cases h : sort (items forms arguments).2 room ⟨[], []⟩ (items forms arguments).1 with
  | error request =>
    rw [h] at hsort
    simpa [h, bind, Except.bind] using hsort
  | ok found =>
    simp only [h, bind, Except.bind]
    split <;> simp [pure, Except.pure]

-- Every command asks for something, be it only to be told that it is none.
theorem command_ne_idle (root : Found) (name : Text) (arguments : List Text) :
    command root name arguments ≠ .ok .idle ∧ command root name arguments ≠ .error .idle := by
  have hbind : ∀ forms room (request : Found → Request), (∀ found, request found ≠ .idle) →
      (commandArguments forms room arguments).map request ≠ .ok .idle ∧
        (commandArguments forms room arguments).map request ≠ .error .idle := by
    intro forms room request hrequest
    have hne := commandArguments_ne_idle forms room arguments
    cases h : commandArguments forms room arguments with
    | error other =>
      rw [h] at hne
      simpa [Except.map] using hne
    | ok found => simpa [Except.map] using hrequest found
  unfold command
  split
  · exact hbind processOptions (some 1) _ (by simp)
  · split
    · exact hbind metadataOptions (some 1) _ (by simp)
    · split
      · exact hbind commonOptions none _ (by simp)
      · split <;> simp

/-! ## In front of a command -/

theorem cutCommand_append {forms : List OptionForm} {options : List Text} {found : List Item}
    (hend : ['-', '-'] ∉ options) (h : cutCommand forms options = (found, true, none))
    (arguments : List Text) :
    cutCommand forms (options ++ arguments) =
      (found ++ (cutCommand forms arguments).1, (cutCommand forms arguments).2) := by
  fun_induction cutCommand forms options generalizing found with
  | case1 =>
    obtain rfl : found = [] := by simpa using h.symm
    rfl
  | case2 => simp at hend
  | case3 => simp at h
  | case4 => simp at h
  | case5 argument more hne found' hwords hstep rest understood command hcut ih =>
    simp only [Prod.mk.injEq] at h
    obtain ⟨rfl, rfl, rfl⟩ := h
    rw [List.mem_cons, not_or] at hend
    rw [List.cons_append, cutCommand, if_neg hne, hstep]
    simp only [ih hend.2 hcut]
    simp
  | case6 => simp at h
  | case7 => simp at h
  | case8 argument hne found' name hstep value more hvalue rest understood command hcut ih =>
    simp only [Prod.mk.injEq] at h
    obtain ⟨rfl, rfl, rfl⟩ := h
    simp only [List.mem_cons, not_or] at hend
    rw [List.cons_append, List.cons_append, cutCommand, if_neg hne, hstep]
    simp only [ih hend.2.2 hcut, if_neg hvalue]
    simp

theorem cutCommand_name (forms : List OptionForm) {name : Text} (h : isOption name = false)
    (arguments : List Text) :
    cutCommand forms (name :: arguments) = ([], true, some (name, arguments)) := by
  rw [cutCommand, if_neg (ne_end_of_not_isOption h), step_of_not_isOption forms h]

/-- What is read of options without a command. -/
theorem exists_found_of_idle {options : List Text} (h : Request.ofArguments options = .idle) :
    ∃ items root, cutCommand rootOptions options = (items, true, none) ∧
      sort true none ⟨[], []⟩ items = .ok root := by
  unfold Request.ofArguments at h
  rcases hcut : cutCommand rootOptions options with ⟨items, understood, named⟩
  rw [hcut] at h
  dsimp only at h
  have hne := sort_ne_idle understood none ⟨[], []⟩ items
  cases hsort : sort understood none ⟨[], []⟩ items with
  | error request => simp_all
  | ok root =>
    obtain rfl := understood_of_sort hsort
    simp only [hsort] at h
    cases named with
    | none => exact ⟨items, root, rfl, hsort⟩
    | some named =>
      obtain ⟨name, arguments⟩ := named
      obtain ⟨hok, herror⟩ := command_ne_idle root name arguments
      cases hcommand : command root name arguments <;> simp_all

/-- Options in front of a command mean the same with every command. -/
theorem exists_root_of_idle {options : List Text} (h : Request.ofArguments options = .idle)
    (hend : ['-', '-'] ∉ options) :
    ∃ root, (options = [] → root = ⟨[], []⟩) ∧ ∀ name arguments, isOption name = false →
      ∀ request, command root name arguments = .ok request →
        Request.ofArguments (options ++ name :: arguments) = request := by
  obtain ⟨items, root, hcut, hsort⟩ := exists_found_of_idle h
  refine ⟨root, ?_, fun name arguments hname request hcommand => ?_⟩
  · rintro rfl
    obtain rfl : [] = items := congrArg Prod.fst hcut
    exact (Except.ok.inj hsort).symm
  · unfold Request.ofArguments
    rw [cutCommand_append hend hcut, cutCommand_name _ hname]
    simp [hsort, hcommand]

/-! ## Commands -/

/-- A long option with its value in the same argument. -/
theorem step_long {forms : List OptionForm} {form : OptionForm}
    (hfind : forms.find? (·.long == form.long) = some form) (hvalue : form.hasValue = true)
    (hlong : '=' ∉ form.long) (value : Text) :
    step forms ("--".toList ++ form.long ++ '=' :: value) = .items [.option form.name value] := by
  have hcut : Text.cutAt? ['='] (form.long ++ '=' :: value) = some (form.long, value) :=
    Text.cutAt?_of_not_mem hlong [] value
  change longOption forms (form.long ++ '=' :: value) = _
  unfold longOption
  rw [hcut]
  simp [hfind, hvalue]

theorem commandArguments_words (forms : List OptionForm) {arguments words : List Text}
    (h : Words arguments words) (hne : words ≠ []) :
    commandArguments forms none arguments = .ok ⟨[], words⟩ := by
  unfold commandArguments
  rw [items_of_words forms h]
  simp [sort_words h.nil_not_mem, hne, bind, Except.bind, pure, Except.pure]

theorem command_scan (root : Found) {arguments names : List Text} (h : Words arguments names)
    (hne : names ≠ []) :
    command root "scan".toList arguments = .ok (.run (root.common ⟨[], []⟩) (.scan names)) := by
  have hfound := commandArguments_words commonOptions h hne
  simp only [command, hfound]
  rfl

-- The equals sign is the first one, so the layout may have others.
theorem step_layout (layout : Text) :
    step processOptions ("--layout=".toList ++ layout) = .items [.option .layout layout] :=
  @step_long processOptions ⟨.layout, "layout".toList, some 'l', true⟩ (by decide) rfl (by decide)
    layout

theorem items_file_layout {file : Text} (hfile : isOption file = false) (layout : Text) :
    items processOptions [file, "--layout=".toList ++ layout] =
      ([.word file, .option .layout layout], true) := by
  have hend : "--layout=".toList ++ layout ≠ ['-', '-'] := by simp
  rw [items, if_neg (ne_end_of_not_isOption hfile), step_of_not_isOption _ hfile,
    items, if_neg hend, step_layout]
  rfl

theorem items_layout_file (file layout : Text) :
    items processOptions ["--layout=".toList ++ layout, ['-', '-'], file] =
      ([.option .layout layout, .word file], true) := by
  have hend : "--layout=".toList ++ layout ≠ ['-', '-'] := by simp
  rw [items, if_neg hend, step_layout]
  rfl

theorem command_process {root : Found} {arguments : List Text} {file layout : Text}
    (hfile : file ≠ [])
    (h : items processOptions arguments = ([.word file, .option .layout layout], true) ∨
      items processOptions arguments = ([.option .layout layout, .word file], true)) :
    command root "process".toList arguments =
      .ok (.run (root.common ⟨[], []⟩) (.process file none (some layout) false false)) := by
  have hfound : commandArguments processOptions (some 1) arguments =
      .ok ⟨[(.layout, layout)], [file]⟩ := by
    unfold commandArguments
    rcases h with h | h <;> rw [h] <;>
      simp [sort, hfile, Found.has, Found.value?, isValid, bind, Except.bind, pure, Except.pure]
  simp only [command, hfound]
  rfl

/-- Options in front of a command ask for `common`, both in a scan and in the processing of a
document with a layout. The layout may stand behind the document, and in front of any document. -/
structure Sets (options : List Text) (common : Common) : Prop where
  noOptions : options = [] → common = ⟨none, false, false⟩
  scan : ∀ arguments names, Words arguments names → names ≠ [] →
    Request.ofArguments (options ++ "scan".toList :: arguments) = .run common (.scan names)
  process : ∀ file layout, file ≠ [] → isOption file = false →
    Request.ofArguments (options ++ ["process".toList, file, "--layout=".toList ++ layout]) =
      .run common (.process file none (some layout) false false)
  processBehind : ∀ file layout, file ≠ [] →
    Request.ofArguments
        (options ++ ["process".toList, "--layout=".toList ++ layout, ['-', '-'], file]) =
      .run common (.process file none (some layout) false false)

theorem exists_sets_of_idle {options : List Text} (h : Request.ofArguments options = .idle)
    (hend : ['-', '-'] ∉ options) : ∃ common, Sets options common := by
  obtain ⟨root, hroot, hread⟩ := exists_root_of_idle h hend
  refine ⟨root.common ⟨[], []⟩, ?_, ?_, ?_, ?_⟩
  · intro hnone
    rw [hroot hnone]
    rfl
  · intro arguments names hwords hne
    exact hread _ arguments (by decide) _ (command_scan root hwords hne)
  · intro file layout hfile hword
    exact hread _ _ (by decide) _ (command_process hfile (.inl (items_file_layout hword layout)))
  · intro file layout hfile
    exact hread _ _ (by decide) _ (command_process hfile (.inr (items_layout_file file layout)))

end DocumentLayout.CommandLine
