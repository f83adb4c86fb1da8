import DocumentLayout.Proofs.Text.Lines

/-!
# Line breaks of two characters

A text whose line feeds all get a carriage return in front of them has the same lines, each but the
last one with a carriage return at its end, and reads the same once its line breaks are unified.
-/

namespace DocumentLayout

namespace Text

/-! ## Texts -/

/-- The text with a carriage return in front of every line feed. -/
def withReturns : Text → Text
  | [] => []
  | c :: rest => if c = '\n' then '\r' :: '\n' :: withReturns rest else c :: withReturns rest

@[simp] theorem withReturns_nil : withReturns [] = [] := rfl

@[simp] theorem withReturns_feed (rest : Text) :
    withReturns ('\n' :: rest) = '\r' :: '\n' :: withReturns rest := rfl

theorem withReturns_cons {c : Char} (h : c ≠ '\n') (rest : Text) :
    withReturns (c :: rest) = c :: withReturns rest := if_neg h

@[simp] theorem withReturns_append (front back : Text) :
    withReturns (front ++ back) = withReturns front ++ withReturns back := by
  induction front with
  | nil => rfl
  | cons c front ih =>
    by_cases hc : c = '\n'
    · subst hc
      rw [List.cons_append, withReturns_feed, withReturns_feed, ih]
      rfl
    · rw [List.cons_append, withReturns_cons hc, withReturns_cons hc, ih, List.cons_append]

theorem withReturns_of_not_mem {text : Text} (h : '\n' ∉ text) : withReturns text = text := by
  induction text with
  | nil => rfl
  | cons c rest ih =>
    rw [List.mem_cons, not_or] at h
    rw [withReturns_cons (Ne.symm h.1), ih h.2]

/-- Unifying the line breaks takes the carriage returns away again. -/
theorem unifyBreaks_withReturns {text : Text} (h : '\r' ∉ text) :
    unifyBreaks (withReturns text) = text := by
  induction text with
  | nil => rfl
  | cons c rest ih =>
    rw [List.mem_cons, not_or] at h
    by_cases hc : c = '\n'
    · subst hc
      rw [withReturns_feed, unifyBreaks, ih h.2]
    · have hfront : '\r' ∉ [c] := by simpa using h.1
      rw [withReturns_cons hc, ← List.singleton_append, unifyBreaks_append hfront, ih h.2]
      rfl

/-- What stands in front of the first line feed is found in the same way. -/
theorem dropPrefix?_withReturns {front : Text} (hreturn : '\r' ∉ front) (hfeed : '\n' ∉ front)
    (text : Text) :
    dropPrefix? front (withReturns text) = (dropPrefix? front text).map withReturns := by
  induction front generalizing text with
  | nil => rfl
  | cons p front ih =>
    rw [List.mem_cons, not_or] at hreturn hfeed
    cases text with
    | nil => rfl
    | cons c rest =>
      by_cases hc : c = '\n'
      · subst hc
        have hfront : (p == '\r') = false ∧ (p == '\n') = false :=
          ⟨beq_eq_false_iff_ne.2 (Ne.symm hreturn.1), beq_eq_false_iff_ne.2 (Ne.symm hfeed.1)⟩
        simp [withReturns_feed, List.isPrefixOf?, hfront]
      · rw [withReturns_cons hc, dropPrefix?, dropPrefix?, List.isPrefixOf?, List.isPrefixOf?]
        split
        · exact ih hreturn.2 hfeed.2 rest
        · rfl

/-- A line break is dropped as a whole. -/
theorem dropBreak_withReturns {text : Text} (h : '\r' ∉ text) :
    dropBreak (withReturns text) = withReturns (dropBreak text) := by
  cases text with
  | nil => rfl
  | cons c rest =>
    rw [List.mem_cons, not_or] at h
    by_cases hc : c = '\n'
    · subst hc
      rfl
    · have hkeep : ∀ more : Text, dropBreak (c :: more) = c :: more := by
        intro more
        unfold dropBreak
        split
        · exact absurd (List.cons.inj ‹_›).1.symm h.1
        · exact absurd (List.cons.inj ‹_›).1 hc
        · rfl
      rw [withReturns_cons hc, hkeep, hkeep, withReturns_cons hc]

/-- A carriage return at its end is no part of a trimmed text. -/
theorem trim_append_return (text : Text) : trim (text ++ ['\r']) = trim text := by
  have hreturn : trimStart ['\r'] = [] := by decide
  rw [trim, trimStart, List.dropWhile_append, ← trimStart, ← trimStart, hreturn, trim]
  split
  · rename_i hempty
    rw [List.isEmpty_iff.1 hempty]
  · have hspace : isSpace '\r' = true := by decide
    rw [trimEnd, List.reverse_append, List.reverse_singleton, List.singleton_append,
      List.dropWhile_cons_of_pos hspace, trimEnd]

end Text

namespace Line

/-! ## Lines -/

/-- The line with a carriage return in front of its line feed, if it has one. -/
def withReturn (line : Line) : Line :=
  ⟨line.text ++ (if line.broken then ['\r'] else []), line.broken⟩

theorem ofText_withReturns (text : Text) :
    ofText (Text.withReturns text) = (ofText text).map withReturn := by
  induction text with
  | nil => rfl
  | cons c rest ih =>
    by_cases hc : c = '\n'
    · subst hc
      have hline := @ofText_line ['\r'] (by decide) (Text.withReturns rest)
      rw [Text.withReturns_feed, ofText_feed, List.map_cons, ← ih, ← List.singleton_append, hline]
      rfl
    · rw [Text.withReturns_cons hc, ofText, ofText, if_neg hc, if_neg hc, ih]
      cases ofText rest <;> rfl

theorem toText_map_withReturn {lines : List Line} (h : ∀ line ∈ lines, '\n' ∉ line.text) :
    toText (lines.map withReturn) = Text.withReturns (toText lines) := by
  induction lines with
  | nil => rfl
  | cons line lines ih =>
    have hline := Text.withReturns_of_not_mem (h line (List.mem_cons_self ..))
    have hlines := ih fun other hother => h other (List.mem_cons_of_mem _ hother)
    rw [List.map_cons, toText, toText, hlines, Text.withReturns_append, Text.withReturns_append,
      hline]
    cases hbroken : line.broken <;> simp [withReturn, hbroken]

end Line

end DocumentLayout
