import DocumentLayout.Proofs.Block.Levels
import DocumentLayout.Proofs.Block.Openings

/-!
# Interruption

Prose goes on up to a line that is blank or interrupts a paragraph: paragraphs and tables, quotes
and lists, and raw HTML that is no comment. A text whose first line interrupts a paragraph opens
with a block that needs no blank line above it, so no other block stands directly below prose.
-/

namespace DocumentLayout

open Marker

/-! ## Where prose ends -/

/-- Lines that do not go on with prose above them: there is none, or the first of them is blank or
interrupts a paragraph. -/
def Line.EndProse (lines : List Line) : Prop :=
  ∀ line ∈ lines.head?, line.isBlank = true ∨ interruptsParagraph line.text = true

namespace Line

theorem endProse_cons {line : Line} {lines : List Line} :
    EndProse (line :: lines) ↔ line.isBlank = true ∨ interruptsParagraph line.text = true := by
  simp [EndProse]

theorem endProse_of_isBlank {blank lines : List Line} (hblank : ∀ line ∈ blank, line.isBlank = true)
    (h : blank = [] → EndProse lines) : EndProse (blank ++ lines) := by
  cases blank with
  | nil => exact h rfl
  | cons line blank => exact endProse_cons.2 (.inl (hblank line (List.mem_cons_self ..)))

theorem exists_prose (lines : List Line) :
    ∃ rest, lines = prose lines ++ rest ∧ EndProse rest := by
  refine ⟨_, (List.takeWhile_append_dropWhile ..).symm, fun line hline => ?_⟩
  have hends := List.head?_dropWhile_not
    (fun line => !line.isBlank && !interruptsParagraph line.text) lines
  rw [Option.mem_def.1 hline] at hends
  simpa [or_iff_not_imp_left] using hends

end Line

namespace Block

/-- A claim on the first lines of some, in front of lines that do not go on with prose. -/
def EndsProse (length : Nat) (lines : List Line) : Prop :=
  ∃ taken rest, lines = taken ++ rest ∧ length = Line.totalSize taken ∧ Line.EndProse rest

theorem paragraph_endsProse {lines : List Line} {claim : Claim} (h : paragraph lines = some claim) :
    claim.block = none ∨ EndsProse claim.length lines := by
  cases lines with
  | nil => simp [paragraph] at h
  | cons line lines =>
    rw [paragraph] at h
    split at h
    · obtain rfl := Option.some.inj h
      exact .inl rfl
    · obtain rfl := Option.some.inj h
      obtain ⟨rest, hrest, hends⟩ := Line.exists_prose lines
      exact .inr ⟨line :: Line.prose lines, rest, by rw [List.cons_append, ← hrest], rfl, hends⟩

theorem table_endsProse {lines : List Line} {claim : Claim} (h : table lines = some claim) :
    EndsProse claim.length lines := by
  unfold table at h
  split at h
  · rename_i header delimiter lines
    split at h
    · obtain rfl := Option.some.inj h
      obtain ⟨rest, hrest, hends⟩ := Line.exists_prose lines
      refine ⟨header :: delimiter :: Line.prose lines, rest, ?_, Nat.add_assoc .., hends⟩
      rw [List.cons_append, List.cons_append, ← hrest]
    · simp at h
  · simp at h

theorem html_endsProse {lines : List Line} {claim : Claim} (h : html lines = some claim)
    (hcomment : ∀ line ∈ lines.head?, opensComment line = false) :
    EndsProse claim.length lines := by
  cases lines with
  | nil => simp [html] at h
  | cons line lines =>
    rw [html] at h
    split at h
    · rw [hcomment line rfl, if_neg Bool.false_ne_true] at h
      obtain rfl := Option.some.inj h
      refine ⟨line :: lines.takeWhile (!·.isBlank), lines.dropWhile (!·.isBlank), ?_, rfl, ?_⟩
      · rw [List.cons_append, List.takeWhile_append_dropWhile]
      · intro other hother
        have hends := List.head?_dropWhile_not (fun line : Line => !line.isBlank) lines
        rw [Option.mem_def.1 hother] at hends
        exact .inl (by simpa using hends)
    · simp at h

theorem quoteRest_next (lines : List Line) :
    ∃ rest, lines = (quoteRest lines).map (·.1) ++ rest ∧ Line.EndProse rest := by
  induction lines with
  | nil => exact ⟨[], rfl, nofun⟩
  | cons line lines ih =>
    obtain ⟨rest, hrest, hends⟩ := ih
    rw [quoteRest]
    split
    · exact ⟨rest, congrArg (line :: ·) hrest, hends⟩
    · split
      · exact ⟨rest, congrArg (line :: ·) hrest, hends⟩
      · rename_i hlazy
        refine ⟨line :: lines, rfl, Line.endProse_cons.2 ?_⟩
        simpa [or_iff_not_imp_left] using hlazy

/-- Behind a quote stands a line that does not go on with prose. -/
theorem quoteLines_next {lines : List Line} (h : quoteLines lines ≠ []) :
    ∃ rest, lines = (quoteLines lines).map (·.1) ++ rest ∧ Line.EndProse rest := by
  cases lines with
  | nil => simp [quoteLines] at h
  | cons line lines =>
    rw [quoteLines] at h ⊢
    split at h
    · obtain ⟨rest, hrest, hends⟩ := quoteRest_next lines
      exact ⟨rest, congrArg (line :: ·) hrest, hends⟩
    · exact absurd rfl h

theorem interrupts_of_ends {list last : ListMarker} {line : Line}
    (h : listStep list last false line = .ends) : interruptsParagraph line.text = true := by
  unfold listStep at h
  split at h
  · simp at h
  · split at h
    · split at h
      · rename_i hbreak
        simp [interruptsParagraph, hbreak]
      · simp at h
    · split at h
      · simp at h
      · rename_i hlazy
        simpa using hlazy

/-- Behind an item of a list stands a line that is blank, that interrupts a paragraph, or that opens
an item when another item follows. -/
theorem listItems_next (list last : ListMarker) {item : Item} {blank lines : List Line}
    (hblanks : ∀ line ∈ blank, line.isBlank = true) {front back : List Item} {found : Item}
    (h : listItems list last item blank lines = front ++ found :: back) :
    ∃ rest, item.claimed ++ blank ++ lines = (front ++ [found]).flatMap Item.claimed ++ rest ∧
      ∀ line ∈ rest.head?, (line.isBlank = true ∨ interruptsParagraph line.text = true) ∨
        back ≠ [] ∧ (listItem? line.text).isSome = true := by
  -- The last item, with blank lines below it that do not belong to the list.
  have ends {item : Item} {blank more : List Line} {front back : List Item} {found : Item}
      (hblanks : ∀ line ∈ blank, line.isBlank = true) (hmore : blank = [] → Line.EndProse more)
      (h : [item] = front ++ found :: back) :
      ∃ rest, item.claimed ++ blank ++ more = (front ++ [found]).flatMap Item.claimed ++ rest ∧
        ∀ line ∈ rest.head?, (line.isBlank = true ∨ interruptsParagraph line.text = true) ∨
          back ≠ [] ∧ (listItem? line.text).isSome = true := by
    obtain ⟨rfl, hitem⟩ | ⟨_, _, hnil⟩ := List.cons_eq_append_iff.1 h
    · obtain ⟨rfl, rfl⟩ := List.cons.inj hitem
      exact ⟨blank ++ more, by simp, fun line hline =>
        .inl (Line.endProse_of_isBlank hblanks hmore line hline)⟩
    · simp at hnil
  fun_induction listItems list last item blank lines generalizing front with
  | case1 last item blank => exact ends hblanks (fun _ => by simp [Line.EndProse]) h
  | case2 last item blank line lines hblank hgoes ih =>
    obtain ⟨rest, hrest, hhead⟩ := ih (by simpa [or_imp, forall_and, hblank] using hblanks) h
    exact ⟨rest, by simpa using hrest, hhead⟩
  | case3 last item blank line lines hblank hgoes =>
    exact ends hblanks (fun _ => Line.endProse_cons.2 (.inl hblank)) h
  | case4 last item blank line lines hblank text hstep item' ih =>
    obtain ⟨rest, hrest, hhead⟩ := ih (by simp) h
    exact ⟨rest, by simpa [item', Item.claimed] using hrest, hhead⟩
  | case5 last item blank line lines hblank next hstep ih =>
    rcases List.cons_eq_append_iff.1 h with ⟨rfl, hfound⟩ | ⟨front, rfl, hrest⟩
    · -- The line that opens the next item stands behind this one, maybe below blank lines.
      obtain ⟨rfl, rfl⟩ := List.cons.inj hfound
      refine ⟨blank ++ line :: lines, by simp, fun other hother => ?_⟩
      cases blank with
      | nil =>
        obtain rfl : line = other := by simpa using hother
        exact .inr ⟨listItems_ne_nil _ _ _ _ _, by rw [(listStep_opens hstep).1]; rfl⟩
      | cons first blank =>
        obtain rfl : first = other := by simpa using hother
        exact .inl (.inl (hblanks first (List.mem_cons_self ..)))
    · obtain ⟨rest, hlines, hhead⟩ := ih (by simp) hrest
      exact ⟨rest, by simpa [Item.claimed] using hlines, hhead⟩
  | case6 last item blank line lines hblank hstep item' ih =>
    have hspaced := listStep_lazy hstep
    obtain rfl : blank = [] := by simpa using hspaced
    obtain ⟨rest, hrest, hhead⟩ := ih (by simp) h
    exact ⟨rest, by simpa [item', Item.claimed] using hrest, hhead⟩
  | case7 last item blank line lines hblank hstep =>
    refine ends hblanks (fun hnil => Line.endProse_cons.2 (.inr ?_)) h
    rw [hnil] at hstep
    exact interrupts_of_ends hstep

theorem listLines?_next {lines : List Line} {marker : ListMarker} {front back : List Item}
    {item : Item} (h : listLines? lines = some (marker, front ++ item :: back)) :
    ∃ rest, lines = (front ++ [item]).flatMap Item.claimed ++ rest ∧
      ∀ line ∈ rest.head?, (line.isBlank = true ∨ interruptsParagraph line.text = true) ∨
        back ≠ [] ∧ (listItem? line.text).isSome = true := by
  cases lines with
  | nil => simp [listLines?] at h
  | cons line lines =>
    obtain ⟨found, -, hpair⟩ := Option.map_eq_some_iff.1 h
    obtain ⟨rfl, hitems⟩ := Prod.mk.inj hpair
    exact listItems_next found found (by simp) hitems

theorem listLines?_endsProse {lines : List Line} {marker : ListMarker} {items : List Item}
    (h : listLines? lines = some (marker, items)) :
    EndsProse (Outline.itemsSize items) lines := by
  obtain ⟨front, last, rfl⟩ :=
    (List.eq_nil_or_concat' items).resolve_left (listLines?_eq_some h).2.1
  obtain ⟨rest, hrest, hhead⟩ := listLines?_next h
  refine ⟨_, rest, hrest, Outline.itemsSize_eq _, fun other hother => ?_⟩
  simpa using hhead other hother

/-! ## The kinds of blocks -/

theorem blankLines_block {lines : List Line} {claim : Claim} (h : blankLines lines = some claim) :
    claim.block = none := by
  unfold blankLines at h
  split at h
  · simp at h
  · obtain rfl := Option.some.inj h
    rfl

theorem indentedCode_block {lines : List Line} {claim : Claim}
    (h : indentedCode lines = some claim) : claim.block = some (.code false none, []) := by
  unfold indentedCode at h
  split at h
  · simp at h
  · obtain rfl := Option.some.inj h
    rfl

theorem fencedCode_block {lines : List Line} {claim : Claim} (h : fencedCode lines = some claim) :
    ∃ info, claim.block = some (.code true info, []) := by
  cases lines with
  | nil => simp [fencedCode] at h
  | cons line lines =>
    obtain ⟨fence, -, rfl⟩ := Option.map_eq_some_iff.1 h
    exact ⟨_, rfl⟩

theorem atxHeading_block {lines : List Line} {claim : Claim} (h : atxHeading lines = some claim) :
    ∃ depth, claim.block = some (.heading depth, []) := by
  cases lines with
  | nil => simp [atxHeading] at h
  | cons line lines =>
    obtain ⟨depth, -, rfl⟩ := Option.map_eq_some_iff.1 h
    exact ⟨depth, rfl⟩

theorem thematicBreak_block {lines : List Line} {claim : Claim}
    (h : thematicBreak lines = some claim) : claim.block = some (.thematicBreak, []) := by
  cases lines with
  | nil => simp [thematicBreak] at h
  | cons line lines =>
    rw [thematicBreak] at h
    split at h
    · obtain rfl := Option.some.inj h
      rfl
    · simp at h

theorem setextHeading_block {lines : List Line} {claim : Claim}
    (h : setextHeading lines = some claim) : ∃ depth, claim.block = some (.heading depth, []) := by
  unfold setextHeading at h
  split at h
  · split at h
    · simp at h
    · obtain ⟨depth, -, rfl⟩ := Option.map_eq_some_iff.1 h
      exact ⟨depth, rfl⟩
  · simp at h

theorem html_block {lines : List Line} {claim : Claim} (h : html lines = some claim) :
    claim.block = some (.html, []) := by
  cases lines with
  | nil => simp [html] at h
  | cons line lines =>
    rw [html] at h
    split at h
    · obtain rfl := Option.some.inj h
      rfl
    · simp at h

end Block

/-- The kinds of blocks that go on up to a line that does not go on with prose. -/
def NodeKind.isProse : NodeKind → Bool
  | paragraph => true
  | table => true
  | blockQuote => true
  | list _ => true
  | html => true
  | _ => false

/-- The kinds of blocks that a line which interrupts a paragraph may open. -/
def NodeKind.interrupts : NodeKind → Bool
  | code fenced _ => fenced
  | blockQuote => true
  | heading _ => true
  | thematicBreak => true
  | list _ => true
  | html => true
  | _ => false

namespace Outline

/-- What is read as prose is followed by a line that does not go on with prose. -/
theorem endsProse_of_read? {text : Text} {outline : Outline} (h : read? text = some outline)
    {kind : NodeKind} (hkind : outline.kind? = some kind) (hprose : kind.isProse = true)
    (hcomment : kind = .html → ∀ line ∈ (Line.ofText text).head?, Block.opensComment line = false) :
    Block.EndsProse outline.length (Line.ofText text) := by
  obtain ⟨reader, hmem, hread⟩ := List.exists_of_findSome?_eq_some h
  -- A reader whose blocks are of another kind has not found this one.
  have other {claim? : List Line → Option Claim} (hfound : ofLines? claim? text = some outline)
      (hblock : ∀ claim, claim? (Line.ofText text) = some claim →
        claim.block = none ∨ ∃ found : NodeKind, found.isProse = false ∧
          claim.block = some (found, [])) :
      Block.EndsProse outline.length (Line.ofText text) := by
    obtain ⟨claim, rfl, hclaim⟩ := ofLines?_eq_some hfound
    rcases hblock claim hclaim with hnone | ⟨found, hother, hsome⟩
    · simp [kind?, hnone] at hkind
    · obtain rfl : found = kind := by simpa [kind?, hsome] using hkind
      rw [hother] at hprose
      simp at hprose
  simp only [readers, List.mem_cons, List.not_mem_nil, or_false] at hmem
  rcases hmem with rfl | rfl | rfl | rfl | rfl | rfl | rfl | rfl | rfl | rfl | rfl | rfl
  · exact other hread fun _ hclaim => .inl (Block.blankLines_block hclaim)
  · exact other hread fun _ hclaim => .inr ⟨_, rfl, Block.indentedCode_block hclaim⟩
  · exact other hread fun _ hclaim => .inr <|
      (Block.fencedCode_block hclaim).elim fun _ hblock => ⟨_, rfl, hblock⟩
  · obtain ⟨hne, rfl⟩ := quote?_eq_some hread
    obtain ⟨rest, hrest, hends⟩ := Block.quoteLines_next hne
    exact ⟨_, rest, hrest, rfl, hends⟩
  · exact other hread fun _ hclaim => .inr <|
      (Block.atxHeading_block hclaim).elim fun _ hblock => ⟨_, rfl, hblock⟩
  · exact other hread fun _ hclaim => .inr ⟨_, rfl, Block.thematicBreak_block hclaim⟩
  · obtain ⟨marker, items, hlist, rfl⟩ := list?_eq_some hread
    exact Block.listLines?_endsProse hlist
  · exact other hread fun _ hclaim => .inr <|
      (Block.setextHeading_block hclaim).elim fun _ hblock => ⟨_, rfl, hblock⟩
  · obtain ⟨claim, rfl, hclaim⟩ := ofLines?_eq_some hread
    have hhtml : NodeKind.html = kind := by simpa [kind?, Block.html_block hclaim] using hkind
    exact Block.html_endsProse hclaim (hcomment hhtml.symm)
  · obtain ⟨claim, rfl, hclaim⟩ := ofLines?_eq_some hread
    exact Block.table_endsProse hclaim
  · obtain ⟨claim, rfl, hclaim⟩ := statement?_eq_some hread
    obtain ⟨block, -, rfl, -⟩ := Block.statement_eq_some hclaim
    obtain rfl : NodeKind.statement block = kind := by simpa [kind?, Claim.leaf] using hkind
    simp [NodeKind.isProse] at hprose
  · obtain ⟨claim, rfl, hclaim⟩ := ofLines?_eq_some hread
    rcases Block.paragraph_endsProse hclaim with hnone | hends
    · simp [kind?, hnone] at hkind
    · exact hends

end Outline

/-! ## What interrupts a paragraph -/

namespace Marker

theorem not_isSpace_of_isDigit {c : Char} (h : c.isDigit = true) :
    Text.isSpace c = false ∧ c.isAlpha = false := by
  simp only [Char.isDigit, Bool.and_eq_true, decide_eq_true_eq, ge_iff_le] at h
  have hlow : 48 ≤ c.toNat := h.1
  have hhigh : c.toNat ≤ 57 := h.2
  constructor
  · simp only [Text.isSpace, Bool.or_eq_false_iff, Bool.and_eq_false_imp, decide_eq_true_eq,
      decide_eq_false_iff_not, beq_eq_false_iff_ne]
    omega
  · refine Bool.eq_false_iff.2 fun halpha => ?_
    rcases Bool.or_eq_true_iff.1 halpha with hupper | hlower
    · have hletter : 65 ≤ c.toNat := (of_decide_eq_true hupper).1
      omega
    · have hletter : 97 ≤ c.toNat := of_decide_eq_true (Bool.and_eq_true_iff.1 hlower).1
      omega

/-- What interrupts a paragraph opens with a character that is neither white space nor a letter. -/
theorem exists_of_interruptsParagraph {line : Text} (h : interruptsParagraph line = true) :
    ∃ c rest, Text.blockStart? line = some (c :: rest) ∧ Text.isSpace c = false ∧
      c.isAlpha = false := by
  cases hstart : Text.blockStart? line with
  | none =>
    simp [interruptsParagraph, fence?, headingDepth?, isThematicBreak, quoted?, isHtmlStart,
      listItem?, hstart] at h
  | some start =>
    cases start with
    | nil =>
      simp [interruptsParagraph, fence?, headingDepth?, isThematicBreak, quoted?, isHtmlStart,
        listItem?, hstart, bullet?, run, List.isPrefixOf?] at h
    | cons c rest =>
      refine ⟨c, rest, rfl, ?_⟩
      by_contra hother
      -- Each marker opens with a character of its own, which is another one.
      have hmark (d : Char) (hspace : Text.isSpace d = false) (halpha : d.isAlpha = false) :
          c ≠ d := fun hc => hother (hc ▸ ⟨hspace, halpha⟩)
      have hdigit : c.isDigit = false := Bool.eq_false_iff.2 fun hc =>
        hother (not_isSpace_of_isDigit hc)
      have hstar : c ≠ '*' := hmark '*' (by decide) (by decide)
      have hdash : c ≠ '-' := hmark '-' (by decide) (by decide)
      simp [interruptsParagraph,
        fence?_eq_none hstart (hmark '\x60' (by decide) (by decide))
          (hmark '~' (by decide) (by decide)),
        headingDepth?_eq_none hstart (hmark '#' (by decide) (by decide)),
        isThematicBreak_eq_false hstart hstar hdash (hmark '_' (by decide) (by decide)),
        quoted?_eq_none hstart (hmark '>' (by decide) (by decide)),
        isHtmlStart_eq_false hstart (hmark '<' (by decide) (by decide)),
        listItem?_eq_none hstart hdigit hstar hdash (hmark '+' (by decide) (by decide))] at h

end Marker

namespace Outline

/-- The readers of the blocks that need no blank line above them. -/
def interrupting : List (Text → Option Outline) := [
  ofLines? Block.fencedCode,
  quote?,
  ofLines? Block.atxHeading,
  ofLines? Block.thematicBreak,
  list?,
  ofLines? Block.setextHeading,
  ofLines? Block.html]

theorem readers_eq_interrupting :
    readers = [ofLines? Block.blankLines, ofLines? Block.indentedCode] ++ interrupting ++
      [ofLines? Block.table, statement?, ofLines? Block.paragraph] :=
  rfl

theorem interrupts_of_mem {reader : Text → Option Outline} (hmem : reader ∈ interrupting)
    {text : Text} {outline : Outline} (h : reader text = some outline) :
    ∃ kind, outline.kind? = some kind ∧ kind.interrupts = true := by
  have lines {claim? : List Line → Option Claim} (hfound : ofLines? claim? text = some outline)
      (hblock : ∀ claim, claim? (Line.ofText text) = some claim →
        ∃ kind : NodeKind, kind.interrupts = true ∧ claim.block = some (kind, [])) :
      ∃ kind, outline.kind? = some kind ∧ kind.interrupts = true := by
    obtain ⟨claim, rfl, hclaim⟩ := ofLines?_eq_some hfound
    obtain ⟨kind, hinterrupts, hsome⟩ := hblock claim hclaim
    exact ⟨kind, by rw [kind?, hsome]; rfl, hinterrupts⟩
  simp only [interrupting, List.mem_cons, List.not_mem_nil, or_false] at hmem
  rcases hmem with rfl | rfl | rfl | rfl | rfl | rfl | rfl
  · exact lines h fun _ hclaim => (Block.fencedCode_block hclaim).elim fun _ hblock =>
      ⟨_, rfl, hblock⟩
  · obtain ⟨-, rfl⟩ := quote?_eq_some h
    exact ⟨_, rfl, rfl⟩
  · exact lines h fun _ hclaim => (Block.atxHeading_block hclaim).elim fun _ hblock =>
      ⟨_, rfl, hblock⟩
  · exact lines h fun _ hclaim => ⟨_, rfl, Block.thematicBreak_block hclaim⟩
  · obtain ⟨marker, items, -, rfl⟩ := list?_eq_some h
    exact ⟨_, rfl, rfl⟩
  · exact lines h fun _ hclaim => (Block.setextHeading_block hclaim).elim fun _ hblock =>
      ⟨_, rfl, hblock⟩
  · exact lines h fun _ hclaim => ⟨_, rfl, Block.html_block hclaim⟩

/-- A line that interrupts a paragraph is the first line of a block. -/
theorem exists_interrupting {text : Text} {line : Line} {lines : List Line}
    (hlines : Line.ofText text = line :: lines) (h : interruptsParagraph line.text = true) :
    ∃ reader ∈ interrupting, (reader text).isSome = true := by
  simp only [interruptsParagraph, Bool.or_eq_true] at h
  obtain ((((hfence | hheading) | hbreak) | hquote) | hhtml) | hlist := h
  · exact ⟨ofLines? Block.fencedCode, by simp [interrupting],
      by simpa [ofLines?, hlines, Block.fencedCode] using hfence⟩
  · exact ⟨ofLines? Block.atxHeading, by simp [interrupting],
      by simpa [ofLines?, hlines, Block.atxHeading] using hheading⟩
  · exact ⟨ofLines? Block.thematicBreak, by simp [interrupting],
      by simp [ofLines?, hlines, Block.thematicBreak, hbreak]⟩
  · obtain ⟨rest, hrest⟩ := Option.isSome_iff_exists.1 hquote
    exact ⟨quote?, by simp [interrupting],
      by simp [quote?, hlines, Block.quoteLines, Block.quoteContent?, hrest]⟩
  · exact ⟨ofLines? Block.html, by simp [interrupting],
      by simp [ofLines?, hlines, Block.html, hhtml]⟩
  · obtain ⟨marker, hmarker, -⟩ := (Option.any_eq_true _ _).1 hlist
    exact ⟨list?, by simp [interrupting],
      by simp [list?, hlines, Block.listLines?, hmarker]⟩

/-- A text whose first line interrupts a paragraph opens with a block that needs no blank line
above it. -/
theorem interrupts_of_read? {text : Text} {line : Line} {lines : List Line}
    (hlines : Line.ofText text = line :: lines) (hline : interruptsParagraph line.text = true)
    {outline : Outline} (h : read? text = some outline) :
    ∃ kind, outline.kind? = some kind ∧ kind.interrupts = true := by
  obtain ⟨c, rest, hstart, hspace, -⟩ := exists_of_interruptsParagraph hline
  obtain ⟨found, hfound⟩ := Option.isSome_iff_exists.1
    (List.findSome?_isSome_iff.2 (exists_interrupting hlines hline))
  -- The line is neither blank nor indented far enough to be code, so one of these comes first.
  rw [read?, readers_eq_interrupting, List.findSome?_append, List.findSome?_append, hfound,
    List.findSome?_cons, blankLines_eq_none hlines hstart hspace, List.findSome?_cons,
    indentedCode_eq_none hlines hstart hspace] at h
  obtain rfl : found = outline := by simpa using h
  obtain ⟨reader, hmem, hread⟩ := List.exists_of_findSome?_eq_some hfound
  exact interrupts_of_mem hmem hread

end Outline

/-! ## Behind prose -/

/-- The line of a text that starts at byte `offset`. -/
def Text.lineAt (text : Text) (offset : Nat) : Text := (cutLine (Parser.after offset text)).1

/-- A block of a text that goes on with prose; raw HTML does when it does not open a comment. -/
structure Node.IsProse (text : Text) (node : Node) : Prop where
  kind : node.kind.isProse = true
  comment : node.kind = .html →
    List.isPrefixOf "<!--".toList (Text.trimStart (text.lineAt node.span.start)) = false

/-- The kinds of blocks that stand below prose only when a blank line parts them. -/
def NodeKind.needsBlank : NodeKind → Bool
  | paragraph => true
  | statement _ => true
  | table => true
  | code fenced _ => !fenced
  | _ => false

theorem NodeKind.needsBlank_of_interrupts {kind : NodeKind} (h : kind.interrupts = true) :
    kind.needsBlank = false := by
  cases kind <;> simp_all [interrupts, needsBlank]

theorem Parser.linesOf_eq_cons (text : Text) :
    ∃ rest lines, text ++ terminator = (Text.cutLine text).1 ++ '\n' :: rest ∧
      linesOf text = ⟨(Text.cutLine text).1, true⟩ :: lines := by
  rcases Text.line_cases text with hfeed | ⟨line, rest, hline, rfl⟩
  · rw [Text.cutLine_of_not_mem hfeed]
    exact ⟨_, _, rfl, Line.ofText_line hfeed ['\n']⟩
  · rw [Text.cutLine_append hline]
    exact ⟨rest ++ terminator, _, by simp, by
      rw [linesOf, List.append_assoc, List.cons_append, Line.ofText_line hline]⟩

/-- No statement keyword opens a line that does not go on with prose. -/
theorem Statement.opensLine_of_endProse {text : Text} (h : Line.EndProse (Parser.linesOf text)) :
    opensLine (text ++ Parser.terminator) = false := by
  obtain ⟨rest, lines, htext, hlines⟩ := Parser.linesOf_eq_cons text
  rw [hlines, Line.endProse_cons] at h
  generalize (Text.cutLine text).1 = line at htext h
  refine Bool.eq_false_iff.2 fun hopens => ?_
  obtain ⟨kind, c, more, htrim, -⟩ := opensLine_iff.1 hopens
  obtain ⟨d, letters, hkeyword, halpha, hspace⟩ : ∃ d letters, kind.keyword = d :: letters ∧
      d.isAlpha = true ∧ Text.isSpace d = false := by
    cases kind
    · exact ⟨'i', "mport".toList, rfl, by decide, by decide⟩
    · exact ⟨'e', "xport".toList, rfl, by decide, by decide⟩
  -- So the first letter of the keyword opens the line, behind its indentation.
  rw [htext, Text.trimIndent, Text.dropWhile_append_cons (by decide), hkeyword] at htrim
  obtain ⟨tail, hstart⟩ : ∃ tail, line.dropWhile Text.isIndent = d :: tail := by
    cases hline : line.dropWhile Text.isIndent with
    | nil =>
      rw [hline] at htrim
      obtain ⟨rfl, -⟩ := List.cons.inj htrim
      simp at halpha
    | cons first tail =>
      rw [hline] at htrim
      obtain ⟨rfl, -⟩ := List.cons.inj htrim
      exact ⟨tail, rfl⟩
  rcases h with hblank | hinterrupts
  · have hmem : d ∈ line := (List.dropWhile_suffix _).subset (by rw [hstart]; simp)
    rw [List.all_eq_true.1 hblank d hmem] at hspace
    simp at hspace
  · obtain ⟨e, tail', hblock, -, hletter⟩ := exists_of_interruptsParagraph hinterrupts
    have hfirst := (Text.blockStart?_eq_some hblock).2
    rw [Text.trimIndent, hstart] at hfirst
    obtain ⟨rfl, -⟩ := List.cons.inj hfirst
    rw [halpha] at hletter
    simp at hletter

namespace Placed

variable {text front rest covered back : Text} {node : Node} {outline : Outline}

theorem rest_ne_nil (h : Placed text node front rest outline) : rest ≠ [] := by
  rintro rfl
  have hread := h.read
  rw [show [] ++ Parser.terminator = ['\n', '\n'] from rfl,
    Outline.read?_of_isBlank (Line.ofText_feed ['\n']) (Line.isBlank_empty true)] at hread
  obtain rfl := Option.some.inj hread
  exact absurd h.kind?_eq nofun

theorem after_eq (h : Placed text node front rest outline)
    (hcovers : outline.Covers rest covered back) :
    Parser.after node.span.stop text = back := by
  rw [h.span, h.split, hcovers.size, hcovers.split, ← List.append_assoc]
  dsimp only
  rw [← Text.byteLength_append, Parser.after_append]

theorem lineAt_eq (h : Placed text node front rest outline) :
    text.lineAt node.span.start = (Text.cutLine rest).1 := by
  rw [Text.lineAt, h.span, h.split, Parser.after_append]

theorem endProse (h : Placed text node front rest outline) (hprose : node.IsProse text)
    (hcovers : outline.Covers rest covered back) : Line.EndProse (Parser.linesOf back) := by
  obtain ⟨taken, more, hlines, hlength, hends⟩ :=
    Outline.endsProse_of_read? h.read h.kind?_eq hprose.kind fun hhtml line hline => by
      obtain ⟨_, lines, -, hfirst⟩ := Parser.linesOf_eq_cons rest
      rw [show Line.ofText (rest ++ Parser.terminator) = _ from hfirst] at hline
      obtain rfl := Option.some.inj hline
      rw [Block.opensComment, ← h.lineAt_eq]
      exact hprose.comment hhtml
  by_cases hback : back = []
  · rw [hback]
    exact Line.endProse_cons.2 (.inl (Line.isBlank_empty true))
  · -- What is claimed are the lines of the text in front of `back`.
    have hplain : ∀ block, outline.kind? ≠ some (.statement block) := by
      intro block hblock
      rw [h.kind?_eq] at hblock
      have hkind := hprose.kind
      rw [Option.some.inj hblock] at hkind
      simp [NodeKind.isProse] at hkind
    have hstart : Parser.lineStart (covered ++ back) taken.length = Text.byteLength covered := by
      rw [Parser.lineStart, ← hcovers.split, Parser.linesOf, hlines, List.take_left, ← hlength,
        hcovers.length_eq hback]
    have hlast := (hcovers.lines hplain).resolve_left hback
    obtain ⟨-, hdrop⟩ := Parser.eq_of_lineStart (.inr hlast) hstart
    rw [← hcovers.split, Parser.linesOf, hlines, List.drop_left] at hdrop
    rwa [← hdrop]

end Placed

theorem Outline.isBlank_of_kind?_eq_none {text : Text} {outline : Outline} {line : Line}
    {lines : List Line} (hlines : Line.ofText text = line :: lines) (h : read? text = some outline)
    (hkind : outline.kind? = none) : line.isBlank = true := by
  rcases read?_cases h with
    ⟨claim, rfl, hclaim⟩ | ⟨claim, rfl, hstatement⟩ | ⟨-, rfl⟩ | ⟨marker, items, -, rfl⟩
  · obtain ⟨taken, hstarts, hne, -, ⟨-, hblank⟩ | ⟨kind, -, hsome⟩⟩ := hclaim
    · obtain ⟨first, more, rfl⟩ := List.exists_cons_of_ne_nil hne
      rw [hlines, List.cons_prefix_cons] at hstarts
      exact hstarts.1 ▸ hblank first (List.mem_cons_self ..)
    · simp [kind?, hsome] at hkind
  · obtain ⟨block, -, rfl, -⟩ := Block.statement_eq_some hstatement
    simp [kind?, Claim.leaf] at hkind
  · simp [kind?] at hkind
  · simp [kind?] at hkind

/-- Behind a block that goes on with prose stands a line that is blank or interrupts a paragraph,
and that no statement keyword opens. -/
theorem endProse_of_mem {text : Text} {node : Node} (h : node ∈ Parser.documentNodes text)
    (hprose : node.IsProse text) :
    (Text.isBlank (text.lineAt node.span.stop) = true ∨
      interruptsParagraph (text.lineAt node.span.stop) = true) ∧
    Statement.opensLine (Parser.after node.span.stop text ++ Parser.terminator) = false := by
  obtain ⟨front, rest, outline, hplaced⟩ := exists_placed_of_mem h
  obtain ⟨covered, back, hcovers⟩ := Outline.exists_covers hplaced.rest_ne_nil hplaced.read
  have hends := hplaced.endProse hprose hcovers
  rw [Text.lineAt, hplaced.after_eq hcovers]
  refine ⟨?_, Statement.opensLine_of_endProse hends⟩
  obtain ⟨_, lines, -, hlines⟩ := Parser.linesOf_eq_cons back
  rw [hlines, Line.endProse_cons] at hends
  exact hends

/-- The next block either interrupts what goes on with prose, or stands below a blank line. -/
theorem interrupts_or_blank {text : Text} {before after : List Node} {a b : Node}
    (h : Parser.documentNodes text = before ++ a :: b :: after) (hprose : a.IsProse text) :
    b.kind.interrupts = true ∨
      a.span.stop < b.span.start ∧ Text.isBlank (text.lineAt a.span.stop) = true := by
  have hlaid := laid_documentNodes text
  rw [h] at hlaid
  obtain ⟨front, rest, outline, covered, back, hplaced, hcovers, hnext⟩ := hlaid.exists_next
  simp only [List.nil_append] at hplaced hnext
  have hends := hplaced.endProse hprose hcovers
  obtain ⟨_, lines, -, hlines⟩ := Parser.linesOf_eq_cons back
  rw [Text.lineAt, hplaced.after_eq hcovers]
  rcases hnext with ⟨next, hnext⟩ | ⟨hlt, skipped, hskipped, hkind⟩
  · rw [hlines, Line.endProse_cons] at hends
    rcases hends with hblank | hinterrupts
    · -- A blank line makes no block.
      have hread := hnext.read
      rw [Outline.read?_of_isBlank hlines hblank] at hread
      obtain rfl := Option.some.inj hread
      exact absurd hnext.kind?_eq nofun
    · obtain ⟨kind, hkind, hinterrupts⟩ :=
        Outline.interrupts_of_read? hlines hinterrupts hnext.read
      rw [hnext.kind?_eq] at hkind
      exact .inl (Option.some.inj hkind ▸ hinterrupts)
  · exact .inr ⟨hlt, Outline.isBlank_of_kind?_eq_none hlines hskipped hkind⟩

/-- Prose goes on as far as it can. Behind a paragraph, a table, a list, a quote or raw HTML that
opens no comment stands a line, on whatever level of a document, that is blank or interrupts a
paragraph, and that no statement keyword opens. A paragraph, a statement, a table or indented code
never starts where such a block stops: a blank line parts them. The levels are all there is: the
blocks in a block are those of a level or the items of a list. -/
theorem parseDocument_behind_prose {text : Text} {tree : Node}
    (h : parseDocument [] text = .ok tree) :
    (∀ parent ∈ tree.descendants,
      parent.children = [] ∨ (∀ child ∈ parent.children, child.kind = .listItem) ∨
        ∃ source, Level (Text.unifyBreaks text) tree.children source parent.children) ∧
    ∀ source siblings, Level (Text.unifyBreaks text) tree.children source siblings →
      (∀ a ∈ siblings, a.IsProse source →
        (Text.isBlank (source.lineAt a.span.stop) = true ∨
          interruptsParagraph (source.lineAt a.span.stop) = true) ∧
        Statement.opensLine (Parser.after a.span.stop source ++ Parser.terminator) = false) ∧
      ∀ before a b after, siblings = before ++ a :: b :: after → a.IsProse source →
        (b.span.start = a.span.stop → b.kind.needsBlank = false) ∧
        (b.kind.needsBlank = true →
          a.span.stop < b.span.start ∧ Text.isBlank (source.lineAt a.span.stop) = true) := by
  obtain ⟨rfl, -⟩ := parseDocument_eq_ok_iff.1 h
  refine ⟨fun parent hparent => ?_, fun source siblings hlevel => ?_⟩
  · obtain ⟨top, htop, hparent⟩ := Node.mem_walk hparent
    obtain rfl := List.mem_singleton.1 htop
    rcases hparent with rfl | hparent
    · exact .inr (.inr ⟨_, .top⟩)
    · exact exists_level hparent
  · obtain rfl := hlevel.eq_documentNodes
    refine ⟨fun a ha hprose => endProse_of_mem ha hprose, fun before a b after hnodes hprose => ?_⟩
    have hnext := interrupts_or_blank hnodes hprose
    constructor
    · intro hdirect
      refine NodeKind.needsBlank_of_interrupts (hnext.resolve_right fun ⟨hlt, _⟩ => ?_)
      omega
    · intro hneeds
      refine hnext.resolve_left fun hinterrupts => ?_
      rw [NodeKind.needsBlank_of_interrupts hinterrupts] at hneeds
      simp at hneeds

/-- A line without `>` goes on with a quote, below which a statement needs a blank line. -/
theorem parseDocument_behind_prose_quote :
    ∃ tree a b, parseDocument [] "> a\nb\n\nexport default c\n\n".toList = .ok tree ∧
      tree.children = [a, b] ∧ a.kind = .blockQuote ∧ b.kind.needsBlank = true ∧
      a.span.stop < b.span.start ∧
      Text.isBlank
        ((Text.unifyBreaks "> a\nb\n\nexport default c\n\n".toList).lineAt a.span.stop) = true := by
  have h : (parseDocument [] "> a\nb\n\nexport default c\n\n".toList).toOption.any
      (fun tree => tree.children.map (fun node => (decide (node.kind = .blockQuote),
        node.kind.needsBlank)) = [(true, false), (false, true)]) = true := by
    decide +kernel
  obtain ⟨tree, htree, hshape⟩ := exists_ok_of_any h
  obtain ⟨a, nodes, hchildren, ha, hnodes⟩ := List.map_eq_cons_iff.1 (of_decide_eq_true hshape)
  obtain ⟨b, rfl, hb⟩ := List.map_eq_singleton_iff.1 hnodes
  have hquote : a.kind = .blockQuote := of_decide_eq_true (Prod.mk.inj ha).1
  have hneeds : b.kind.needsBlank = true := (Prod.mk.inj hb).2
  have hprose : a.IsProse (Text.unifyBreaks "> a\nb\n\nexport default c\n\n".toList) :=
    ⟨by rw [hquote]; rfl, fun hhtml => by simp [hquote] at hhtml⟩
  exact ⟨tree, a, b, htree, hchildren, hquote, hneeds,
    (((parseDocument_behind_prose htree).2 _ _ .top).2 [] a b [] hchildren hprose).2 hneeds⟩

end DocumentLayout
