import DocumentLayout.Block.Marker
import DocumentLayout.Proofs.Text.Lines

/-!
# Marks

What containers take off the fronts of lines: indentation, quote marks, bullets and numbers, and all
of a line that is blank.
-/

namespace DocumentLayout

namespace Marker

/-! ## Marks at the front of a line -/

/-- A space or a tab, a quote mark, a bullet, or a number of at most nine digits with the character
behind it. -/
inductive IsMark : Text → Prop
  | indent {c : Char} (h : Text.isIndent c = true) : IsMark [c]
  | quote : IsMark ['>']
  | bullet {c : Char} (h : c = '-' ∨ c = '+' ∨ c = '*') : IsMark [c]
  | number {digits : Text} {c : Char} (hdigits : ∀ d ∈ digits, d.isDigit = true)
      (hne : digits ≠ []) (hlength : digits.length ≤ 9) (h : c = '.' ∨ c = ')') :
      IsMark (digits ++ [c])

/-- A line with some marks at its front, and what stands behind them. -/
def Marked (line rest : Text) : Prop :=
  ∃ marks : List Text, (∀ mark ∈ marks, IsMark mark) ∧ line = marks.flatten ++ rest

/-- A line without some marks at its front, or without anything when it is blank behind them. -/
inductive Leaves : Text → Text → Prop
  | all (line : Text) : Leaves line line
  | mark {mark line rest : Text} (hmark : IsMark mark) (h : Leaves line rest) :
      Leaves (mark ++ line) rest
  | blank {line : Text} (h : Text.isBlank line = true) : Leaves line []

namespace Leaves

theorem indent {c : Char} (hc : Text.isIndent c = true) {line rest : Text} (h : Leaves line rest) :
    Leaves (c :: line) rest :=
  .mark (.indent hc) h

/-- What is left stands at the end of the line. -/
theorem suffix {line rest : Text} (h : Leaves line rest) : rest <:+ line := by
  induction h with
  | all => exact List.suffix_rfl
  | mark _ _ ih => exact ih.trans (List.suffix_append _ _)
  | blank => exact List.nil_suffix

theorem trans {line rest last : Text} (h : Leaves line rest) (hrest : Leaves rest last) :
    Leaves line last := by
  induction h with
  | all => exact hrest
  | mark hmark _ ih => exact .mark hmark (ih hrest)
  | blank hblank =>
    -- Nothing is left of a blank line, and of nothing there is nothing left.
    rw [List.suffix_nil.1 hrest.suffix]
    exact .blank hblank

/-- Where something is left, marks are all that is taken off. -/
theorem marked {line rest : Text} (h : Leaves line rest) (hne : rest ≠ []) :
    Marked line rest := by
  induction h with
  | all line => exact ⟨[], by simp, rfl⟩
  | @mark mark line rest hmark _ ih =>
    obtain ⟨marks, hmarks, rfl⟩ := ih hne
    exact ⟨mark :: marks, List.forall_mem_cons.2 ⟨hmark, hmarks⟩, by simp⟩
  | blank => exact absurd rfl hne

end Leaves

/-! ## What markers leave -/

theorem leaves_trimIndent (line : Text) : Leaves line (Text.trimIndent line) := by
  unfold Text.trimIndent
  induction line with
  | nil => exact .all []
  | cons c line ih =>
    by_cases hc : Text.isIndent c = true
    · rw [List.dropWhile_cons_of_pos hc]
      exact ih.indent hc
    · rw [List.dropWhile_cons_of_neg hc]
      exact .all _

theorem leaves_stripColumns (line : Text) (columns : Nat) :
    Leaves line (Text.stripColumns line columns) := by
  unfold Text.stripColumns
  fun_induction Text.stripFrom 0 columns line with
  | case1 _ rest _ ih => exact ih.indent (by decide)
  | case3 _ rest _ ih => exact ih.indent (by decide)
  | _ => exact .all _

theorem leaves_of_blockStart? {line rest : Text} (h : Text.blockStart? line = some rest) :
    Leaves line rest := by
  rw [(Text.blockStart?_eq_some h).2]
  exact leaves_trimIndent line

theorem quoted?_eq_some {line rest : Text} (h : quoted? line = some rest) :
    Text.blockStart? line = some ('>' :: rest) := by
  obtain ⟨start, hstart, hrest⟩ := Option.bind_eq_some_iff.1 h
  rw [hstart, ← List.append_eq_of_isPrefixOf?_eq_some hrest]
  rfl

theorem leaves_of_quoted? {line rest : Text} (h : quoted? line = some rest) : Leaves line rest :=
  (leaves_of_blockStart? (quoted?_eq_some h)).trans (.mark .quote (.all rest))

/-- The mark of a list item with its last character: a bullet, or a number of at most nine digits
with the character behind it. -/
inductive IsBullet : Bool → Char → Text → Prop
  | bullet {c : Char} (h : c = '-' ∨ c = '+' ∨ c = '*') : IsBullet false c [c]
  | number {digits : Text} {c : Char} (hdigits : ∀ d ∈ digits, d.isDigit = true)
      (hne : digits ≠ []) (hlength : digits.length ≤ 9) (h : c = '.' ∨ c = ')') :
      IsBullet true c (digits ++ [c])

theorem IsBullet.isMark {ordered : Bool} {symbol : Char} {mark : Text}
    (h : IsBullet ordered symbol mark) : IsMark mark := by
  cases h with
  | bullet h => exact .bullet h
  | number hdigits hne hlength h => exact .number hdigits hne hlength h

theorem IsBullet.symbol {ordered : Bool} {symbol : Char} {mark : Text}
    (h : IsBullet ordered symbol mark) : symbol ∈ mark ∧ Text.isSpace symbol = false := by
  cases h with
  | bullet h => exact ⟨List.mem_singleton_self _, by rcases h with rfl | rfl | rfl <;> decide⟩
  | number _ _ _ h => exact ⟨by simp, by rcases h with rfl | rfl <;> decide⟩

/-- What is read as a bullet or a number stands at the front. -/
theorem bullet?_eq_append {rest : Text} {ordered startsAtOne : Bool} {symbol : Char} {width : Nat}
    (h : bullet? rest = some (ordered, symbol, width, startsAtOne)) :
    ∃ mark, IsBullet ordered symbol mark ∧ mark.length = width ∧
      rest = mark ++ rest.drop width := by
  have hdigits : ∀ d ∈ rest.takeWhile Char.isDigit, d.isDigit = true :=
    List.all_eq_true.1 List.all_takeWhile
  have hrest := List.prefix_iff_eq_append.1 (List.takeWhile_prefix Char.isDigit : _ <+: rest)
  unfold bullet? at h
  dsimp only at h
  generalize rest.takeWhile Char.isDigit = digits at h hdigits hrest
  split at h
  · rename_i c after hdrop
    rw [hdrop] at hrest
    subst hrest
    split at h
    · split at h
      · rename_i hnil hbullet
        simp only [Option.some.injEq, Prod.mk.injEq] at h
        obtain ⟨rfl, rfl, rfl, -⟩ := h
        simp only [Bool.or_eq_true, beq_iff_eq, or_assoc] at hbullet
        exact ⟨[c], .bullet hbullet, rfl, by simp [hnil]⟩
      · simp at h
    · split at h
      · rename_i hne hdelimiter
        simp only [Option.some.injEq, Prod.mk.injEq] at h
        obtain ⟨rfl, rfl, rfl, -⟩ := h
        simp only [Bool.and_eq_true, decide_eq_true_eq, Bool.or_eq_true, beq_iff_eq] at hdelimiter
        exact ⟨digits ++ [c], .number hdigits hne hdelimiter.1 hdelimiter.2, by simp, by simp⟩
      · simp at h
  · simp at h

theorem leaves_of_bullet? {rest : Text} {ordered startsAtOne : Bool} {symbol : Char} {width : Nat}
    (h : bullet? rest = some (ordered, symbol, width, startsAtOne)) :
    Leaves rest (rest.drop width) := by
  obtain ⟨mark, hbullet, -, hrest⟩ := bullet?_eq_append h
  have hleaves := Leaves.mark hbullet.isMark (.all (rest.drop width))
  rwa [← hrest] at hleaves

theorem leaves_of_listItem? {line : Text} {marker : ListMarker} (h : listItem? line = some marker) :
    Leaves line marker.content := by
  obtain ⟨rest, hstart, h⟩ := Option.bind_eq_some_iff.1 h
  obtain ⟨⟨ordered, symbol, width, startsAtOne⟩, hbullet, h⟩ := Option.bind_eq_some_iff.1 h
  dsimp only at h
  split at h
  · obtain rfl := Option.some.inj h
    exact (leaves_of_blockStart? hstart).trans
      ((leaves_of_bullet? hbullet).trans (leaves_stripColumns _ _))
  · simp at h

end Marker

end DocumentLayout
