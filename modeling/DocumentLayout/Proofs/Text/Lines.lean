import DocumentLayout.Proofs.Text.Cuts
import DocumentLayout.Text.Line
import Mathlib.Data.List.Infix

/-!
# Lines of a text

Reading lines is compatible with joining texts as long as the first text ends with a line feed.
A text that ends with one has whole lines only: each ends with its own line feed.
-/

namespace DocumentLayout

namespace Line

/-! ## Texts of lines -/

theorem toText_append (a b : List Line) : toText (a ++ b) = toText a ++ toText b := by
  induction a with
  | nil => rfl
  | cons line a ih => simp [toText, ih]

theorem totalSize_append (a b : List Line) : totalSize (a ++ b) = totalSize a + totalSize b := by
  induction a with
  | nil => simp [totalSize]
  | cons line a ih => simp [totalSize, ih, Nat.add_assoc]

theorem byteLength_toText (lines : List Line) :
    Text.byteLength (toText lines) = totalSize lines := by
  induction lines with
  | nil => rfl
  | cons line lines ih =>
    have feed : Char.utf8Size '\n' = 1 := rfl
    cases h : line.broken <;> simp [toText, totalSize, size, h, ih, feed, Nat.add_assoc]

theorem ofText_ne_nil {text : Text} (h : text ≠ []) : ofText text ≠ [] := by
  intro hnil
  have hback := toText_ofText text
  rw [hnil] at hback
  exact h hback.symm

/-! ## Whole lines -/

/-- A line that ends with a line feed and holds none before it. -/
def IsWhole (line : Line) : Prop := line.broken = true ∧ '\n' ∉ line.text

theorem toText_cons_of_whole {line : Line} (h : line.IsWhole) (lines : List Line) :
    toText (line :: lines) = line.text ++ '\n' :: toText lines := by
  simp [toText, h.1]

theorem ofText_line {line : Text} (h : '\n' ∉ line) (rest : Text) :
    ofText (line ++ '\n' :: rest) = ⟨line, true⟩ :: ofText rest := by
  induction line with
  | nil => simp [ofText]
  | cons c line ih =>
    rw [List.mem_cons, not_or] at h
    rw [List.cons_append, ofText, if_neg (Ne.symm h.1), ih h.2]

theorem ofText_feed (rest : Text) : ofText ('\n' :: rest) = ⟨[], true⟩ :: ofText rest :=
  ofText_line List.not_mem_nil rest

/-- Whole lines are read back as they are, whatever follows them. -/
theorem ofText_toText_append {lines : List Line} (h : ∀ line ∈ lines, line.IsWhole) (rest : Text) :
    ofText (toText lines ++ rest) = lines ++ ofText rest := by
  induction lines with
  | nil => rfl
  | cons line lines ih =>
    have hline := h line (List.mem_cons_self ..)
    rw [toText_cons_of_whole hline, List.append_assoc, List.cons_append, ofText_line hline.2,
      ih fun other hother => h other (List.mem_cons_of_mem _ hother), List.cons_append]
    rw [← hline.1]

/-- A text that ends with a line feed has whole lines only. -/
theorem whole_of_mem_ofText {text : Text} {line : Line} (h : line ∈ ofText (text ++ ['\n'])) :
    line.IsWhole := by
  -- By induction on the length, one line at a time: the rest of the text still ends with the feed.
  induction hn : text.length using Nat.strong_induction_on generalizing text with
  | h n ih =>
    rcases Text.line_cases text with hfeed | ⟨first, rest, hfirst, rfl⟩
    · rw [ofText_line hfeed, ofText, List.mem_singleton] at h
      exact h ▸ ⟨rfl, hfeed⟩
    · rw [List.append_assoc, List.cons_append, ofText_line hfirst, List.mem_cons] at h
      rcases h with rfl | h
      · exact ⟨rfl, hfirst⟩
      · refine ih rest.length ?_ h rfl
        simp only [List.length_append, List.length_cons] at hn
        omega

theorem ofText_append_feed (text rest : Text) :
    ofText (text ++ '\n' :: rest) = ofText (text ++ ['\n']) ++ ofText rest := by
  conv_lhs => rw [← List.singleton_append, ← List.append_assoc, ← toText_ofText (text ++ ['\n'])]
  exact ofText_toText_append (fun _ => whole_of_mem_ofText) rest

theorem ofText_append {front : Text} (h : front.getLast? = some '\n') (back : Text) :
    ofText (front ++ back) = ofText front ++ ofText back := by
  obtain ⟨before, rfl⟩ := List.getLast?_eq_some_iff.1 h
  rw [List.append_assoc, List.singleton_append, ofText_append_feed]

theorem ofText_of_not_mem {text : Text} (hne : text ≠ []) (h : '\n' ∉ text) :
    ofText text = [⟨text, false⟩] := by
  induction text with
  | nil => exact absurd rfl hne
  | cons c rest ih =>
    rw [List.mem_cons, not_or] at h
    cases rest with
    | nil => simp [ofText, Ne.symm h.1]
    | cons d rest => rw [ofText, if_neg (Ne.symm h.1), ih (by simp) h.2]

-- The lines in front of another line of a text are whole, and no line holds a line feed.
theorem whole_of_ofText_eq {text : Text} {before after : List Line} {line : Line}
    (h : ofText text = before ++ line :: after) :
    (∀ other ∈ before, other.IsWhole) ∧ '\n' ∉ line.text := by
  induction before generalizing text with
  | nil =>
    -- The line is the first one of the text.
    refine ⟨by simp, ?_⟩
    rcases Text.line_cases text with hfeed | ⟨first, rest, hfirst, rfl⟩
    · have hne : text ≠ [] := by
        rintro rfl
        simp [ofText] at h
      rw [ofText_of_not_mem hne hfeed] at h
      obtain ⟨rfl, -⟩ := List.cons.inj h
      exact hfeed
    · rw [ofText_line hfirst] at h
      obtain ⟨rfl, -⟩ := List.cons.inj h
      exact hfirst
  | cons other before ih =>
    rcases Text.line_cases text with hfeed | ⟨first, rest, hfirst, rfl⟩
    · -- A text without a line feed has one line at most.
      have hone : (ofText text).length ≤ 1 := by
        by_cases hne : text = []
        · simp [hne, ofText]
        · simp [ofText_of_not_mem hne hfeed]
      rw [h] at hone
      simp at hone
    · rw [ofText_line hfirst] at h
      obtain ⟨rfl, hrest⟩ := List.cons.inj h
      obtain ⟨hbefore, hline⟩ := ih hrest
      exact ⟨List.forall_mem_cons.2 ⟨⟨rfl, hfirst⟩, hbefore⟩, hline⟩

-- A line without a break is the last one of a text.
theorem after_eq_nil {text : Text} {before after : List Line} {line : Line}
    (h : ofText text = before ++ line :: after) (hbroken : line.broken = false) : after = [] := by
  induction before generalizing text with
  | nil =>
    rcases Text.line_cases text with hfeed | ⟨first, rest, hfirst, rfl⟩
    · have hne : text ≠ [] := by
        rintro rfl
        simp [ofText] at h
      rw [ofText_of_not_mem hne hfeed] at h
      exact (List.cons.inj h).2.symm
    · rw [ofText_line hfirst] at h
      obtain ⟨rfl, -⟩ := List.cons.inj h
      simp at hbroken
  | cons other before ih =>
    rcases Text.line_cases text with hfeed | ⟨first, rest, hfirst, rfl⟩
    · -- A text without a line feed has one line at most.
      by_cases hne : text = []
      · simp [hne, ofText] at h
      · simp [ofText_of_not_mem hne hfeed] at h
    · rw [ofText_line hfirst] at h
      exact ih (List.cons.inj h).2

theorem getLast?_toText {lines : List Line} (hne : lines ≠ [])
    (h : ∀ line ∈ lines, line.IsWhole) : (toText lines).getLast? = some '\n' := by
  obtain ⟨front, last, rfl⟩ := List.eq_nil_or_concat lines |>.resolve_left hne
  have hlast := h last (by simp)
  rw [List.concat_eq_append, toText_append, toText_cons_of_whole hlast]
  simp [toText]

theorem toText_ne_nil {lines : List Line} (hne : lines ≠ []) (h : ∀ line ∈ lines, line.IsWhole) :
    toText lines ≠ [] := by
  intro hnil
  simpa [hnil] using getLast?_toText hne h

theorem length_toText {lines : List Line} (h : ∀ line ∈ lines, line.IsWhole) :
    (toText lines).length = (lines.map fun line => line.text.length + 1).sum := by
  induction lines with
  | nil => rfl
  | cons line lines ih =>
    rw [toText_cons_of_whole (h line (List.mem_cons_self ..)), List.map_cons, List.sum_cons,
      ← ih fun other hother => h other (List.mem_cons_of_mem _ hother)]
    simp only [List.length_append, List.length_cons]
    omega

theorem length_toText_le {lines all : List Line} (h : lines <:+: all) :
    (toText lines).length ≤ (toText all).length := by
  obtain ⟨front, back, rfl⟩ := h
  simp only [toText_append, List.length_append]
  omega

theorem text_infix_of_mem {text : Text} {line : Line} (h : line ∈ ofText text) :
    line.text <:+: text := by
  obtain ⟨before, after, hlines⟩ := List.append_of_mem h
  refine ⟨toText before, (if line.broken then ['\n'] else []) ++ toText after, ?_⟩
  have htext := toText_ofText text
  rw [hlines, toText_append, toText] at htext
  simpa using htext

/-- The lines of a text are what its line feeds leave between them. -/
theorem map_text_ofText (text : Text) :
    (ofText (text ++ ['\n'])).map Line.text = List.splitOn '\n' text := by
  -- By induction on the length, one line at a time.
  induction hn : text.length using Nat.strong_induction_on generalizing text with
  | h n ih =>
    rcases Text.line_cases text with hfeed | ⟨first, rest, hfirst, rfl⟩
    · rw [ofText_line hfeed, List.splitOn_eq_singleton hfeed]
      rfl
    · rw [List.append_assoc, List.cons_append, ofText_line hfirst, List.map_cons,
        List.splitOn_append_cons_self_of_not_mem hfirst, ih rest.length ?_ rest rfl]
      simp only [List.length_append, List.length_cons] at hn
      omega

/-! ## Blank lines -/

theorem isSpace_of_mem_toText {lines : List Line} (h : ∀ line ∈ lines, line.isBlank = true)
    {c : Char} (hc : c ∈ toText lines) : Text.isSpace c = true := by
  induction lines with
  | nil => simp [toText] at hc
  | cons line lines ih =>
    simp only [toText, List.mem_append] at hc
    rcases hc with (hc | hc) | hc
    · exact List.all_eq_true.1 (h line (List.mem_cons_self ..)) c hc
    · -- The line feed itself is white space.
      cases hb : line.broken <;> simp [hb] at hc
      subst hc
      decide
    · exact ih (fun other hother => h other (List.mem_cons_of_mem _ hother)) hc

theorem mem_toText {lines : List Line} {line : Line} (hline : line ∈ lines) {c : Char}
    (hc : c ∈ line.text) : c ∈ toText lines := by
  obtain ⟨before, after, rfl⟩ := List.append_of_mem hline
  simp [toText_append, toText, hc]

theorem isBlank_of_mem_ofText {text : Text} (h : ∀ c ∈ text, Text.isSpace c = true) {line : Line}
    (hline : line ∈ ofText text) : line.isBlank = true := by
  refine List.all_eq_true.2 fun c hc => h c ?_
  rw [← toText_ofText text]
  exact mem_toText hline hc

theorem exists_blank_append (lines : List Line) :
    ∃ blank rest, lines = blank ++ rest ∧ (∀ line ∈ blank, line.isBlank = true) ∧
      ∀ line more, rest = line :: more → line.isBlank = false := by
  refine ⟨_, _, (@List.takeWhile_append_dropWhile _ isBlank lines).symm,
    List.all_eq_true.1 List.all_takeWhile, fun line more hrest => ?_⟩
  have hfirst := List.head?_dropWhile_not isBlank lines
  simpa [hrest] using hfirst

theorem isBlank_empty (broken : Bool) : (⟨[], broken⟩ : Line).isBlank = true := rfl

end Line

namespace Text

/-! ## Joined lines -/

-- Lines joined by line feeds and followed by one more are whole lines.
theorem intercalate_append_feed {pieces : List Text} (hne : pieces ≠ []) (rest : Text) :
    ['\n'].intercalate pieces ++ '\n' :: rest = Line.toText (pieces.map (⟨·, true⟩)) ++ rest := by
  induction pieces with
  | nil => exact absurd rfl hne
  | cons piece pieces ih =>
    cases pieces with
    | nil => simp [Line.toText]
    | cons next more =>
      rw [List.intercalate_cons_cons, List.append_assoc, ih (by simp)]
      simp [Line.toText]

theorem ofText_intercalate {pieces : List Text} (hne : pieces ≠ [])
    (h : ∀ piece ∈ pieces, '\n' ∉ piece) (rest : Text) :
    Line.ofText (['\n'].intercalate pieces ++ '\n' :: rest) =
      pieces.map (⟨·, true⟩) ++ Line.ofText rest := by
  rw [intercalate_append_feed hne, Line.ofText_toText_append]
  intro line hline
  obtain ⟨piece, hpiece, rfl⟩ := List.mem_map.1 hline
  exact ⟨rfl, h piece hpiece⟩

theorem totalSize_intercalate {lines : List Text} (hne : lines ≠ []) :
    Line.totalSize (lines.map (⟨·, true⟩)) = byteLength (['\n'].intercalate lines) + 1 := by
  have hfeed := intercalate_append_feed hne []
  rw [List.append_nil] at hfeed
  rw [← Line.byteLength_toText, ← hfeed, byteLength_append]
  rfl

theorem return_not_mem_intercalate {lines : List Text} (h : ∀ line ∈ lines, '\r' ∉ line) :
    '\r' ∉ ['\n'].intercalate lines := by
  intro hmem
  rcases mem_of_mem_intercalate hmem with hfeed | ⟨line, hline, hreturn⟩
  · simp at hfeed
  · exact h line hline hreturn

/-! ## Columns -/

theorem stripFrom_suffix (column limit : Nat) (text : Text) :
    stripFrom column limit text <:+ text := by
  fun_induction stripFrom column limit text with
  | case1 _ rest _ ih => exact ih.trans (List.suffix_cons _ _)
  | case3 _ rest _ ih => exact ih.trans (List.suffix_cons _ _)
  | _ => exact List.suffix_rfl

theorem stripColumns_suffix (line : Text) (columns : Nat) : stripColumns line columns <:+ line :=
  stripFrom_suffix 0 columns line

theorem stripColumns_length_le (line : Text) (columns : Nat) :
    (stripColumns line columns).length ≤ line.length :=
  (stripColumns_suffix line columns).length_le

theorem stripFrom_of_le {column limit : Nat} (h : limit ≤ column) (text : Text) :
    stripFrom column limit text = text := by
  have hlt : ¬ column < limit := Nat.not_lt.2 h
  unfold stripFrom
  split <;> simp [hlt]

theorem stripFrom_self (column : Nat) (text : Text) : stripFrom column column text = text :=
  stripFrom_of_le (Nat.le_refl column) text

theorem trimIndent_suffix (text : Text) : trimIndent text <:+ text := List.dropWhile_suffix _

theorem blockStart?_eq_some {line rest : Text} (h : blockStart? line = some rest) :
    indentation line < tabWidth ∧ rest = trimIndent line := by
  unfold blockStart? at h
  split at h
  · simp at h
  · simp only [Option.some.injEq] at h
    exact ⟨by omega, h.symm⟩

theorem blockStart?_suffix {line rest : Text} (h : blockStart? line = some rest) :
    rest <:+ line := by
  rw [(blockStart?_eq_some h).2]
  exact trimIndent_suffix line

theorem blockStart?_length_le {line rest : Text} (h : blockStart? line = some rest) :
    rest.length ≤ line.length :=
  (blockStart?_suffix h).length_le

theorem indentFrom_cons {c : Char} (h : isIndent c = false) (column : Nat) (rest : Text) :
    indentFrom column (c :: rest) = column := by
  have hspace : c ≠ ' ' := fun hc => by simp [isIndent, hc] at h
  have htab : c ≠ '\t' := fun hc => by simp [isIndent, hc] at h
  unfold indentFrom
  split <;> simp_all

theorem le_indentFrom (column : Nat) (text : Text) : column ≤ indentFrom column text := by
  fun_induction indentFrom column text with
  | case1 column rest ih => omega
  | case2 column rest ih =>
    have : column ≤ nextStop column := Nat.le_add_right ..
    omega
  | case3 => exact Nat.le_refl _

theorem blockStart?_cons {c : Char} (h : isIndent c = false) (rest : Text) :
    blockStart? (c :: rest) = some (c :: rest) := by
  unfold blockStart? indentation trimIndent
  rw [indentFrom_cons h, if_neg (by decide), List.dropWhile_cons, h]
  rfl

end Text

end DocumentLayout
