import DocumentLayout.Injection
import DocumentLayout.Statement.Grammar
import Mathlib.Data.List.TakeWhile

/-!
# Lexemes

What the reader of lexemes finds on a text that is written as lexemes: a word with a space after it,
and a string whose inside has every quote and every backslash escaped.
-/

namespace DocumentLayout

namespace Statement

/-! ## Reading loses nothing -/

theorem Token.stringBody_prefix (quote : Char) (text : Text) :
    (stringBody quote text).1 <+: text := by
  fun_induction stringBody quote text with
  | case1 => exact List.nil_prefix
  | case2 rest => exact List.cons_prefix_cons.2 ⟨rfl, List.nil_prefix⟩
  | case3 c rest _ body closed hbody ih =>
    rw [hbody] at ih
    exact List.cons_prefix_cons.2 ⟨rfl, List.cons_prefix_cons.2 ⟨rfl, ih⟩⟩
  | case4 rest => exact List.cons_prefix_cons.2 ⟨rfl, List.nil_prefix⟩
  | case5 rest => exact List.nil_prefix
  | case6 c rest _ _ _ _ body closed hbody ih =>
    rw [hbody] at ih
    exact List.cons_prefix_cons.2 ⟨rfl, ih⟩

theorem Token.longest_prefix (c : Char) (rest : Text) : (longest c rest).2 <+: c :: rest := by
  unfold longest
  split
  · exact List.cons_prefix_cons.2 ⟨rfl, List.takeWhile_prefix _⟩
  · split
    · exact List.cons_prefix_cons.2 ⟨rfl, stringBody_prefix c rest⟩
    · exact List.cons_prefix_cons.2 ⟨rfl, List.nil_prefix⟩

-- A lexeme starts with the character that it is read at.
theorem Token.longest_eq_cons (c : Char) (rest : Text) :
    ∃ more, (longest c rest).2 = c :: more := by
  obtain ⟨d, more, hmore⟩ := List.exists_cons_of_ne_nil (longest_ne_nil c rest)
  have hprefix := longest_prefix c rest
  rw [hmore, List.cons_prefix_cons] at hprefix
  exact ⟨more, hprefix.1 ▸ hmore⟩

theorem Lexeme.span_cut (c : Char) (rest : Text) :
    (cut c rest).1.span ++ (cut c rest).2 = c :: rest := by
  obtain ⟨after, hafter⟩ := Token.longest_prefix c rest
  simp only [cut, span, ← hafter, List.drop_left, List.append_assoc,
    List.takeWhile_append_dropWhile]

/-- The lexemes of a text with their gaps make it up again. -/
theorem Lexeme.spans_ofTrimmed (text : Text) : spans (ofTrimmed text) = text := by
  fun_induction ofTrimmed text with
  | case1 => rfl
  | case2 c rest ih =>
    rw [spans, List.flatMap_cons]
    show (cut c rest).1.span ++ spans (ofTrimmed (cut c rest).2) = c :: rest
    rw [ih, span_cut]

/-! ## Words and strings -/

/-- A word with one space after it is one lexeme, and the space is its gap. -/
theorem Lexeme.ofTrimmed_word {c d : Char} {word rest : Text}
    (hc : Token.isWordStart c = true) (hword : word.all Token.isWordRest = true)
    (hd : Token.isGap d = false) :
    ofTrimmed (c :: word ++ ' ' :: d :: rest) =
      ⟨some (Token.ofWord (c :: word)), c :: word, [' ']⟩ :: ofTrimmed (d :: rest) := by
  have hend : (word ++ ' ' :: d :: rest).takeWhile Token.isWordRest = word := by
    rw [List.takeWhile_append_of_pos (List.all_eq_true.1 hword),
      List.takeWhile_cons_of_neg (by decide), List.append_nil]
  have hlongest : Token.longest c (word ++ ' ' :: d :: rest) =
      (some (Token.ofWord (c :: word)), c :: word) := by
    rw [Token.longest, if_pos hc, hend]
  have hdrop : (c :: (word ++ ' ' :: d :: rest)).drop (c :: word).length = ' ' :: d :: rest := by
    simp
  have hgap : (' ' :: d :: rest).takeWhile Token.isGap = [' '] := by
    rw [List.takeWhile_cons_of_pos (by decide), List.takeWhile_cons_of_neg (by simp [hd])]
  have hrest : (' ' :: d :: rest).dropWhile Token.isGap = d :: rest := by
    rw [List.dropWhile_cons_of_pos (by decide), List.dropWhile_cons_of_neg (by simp [hd])]
  rw [List.cons_append, ofTrimmed, cut, hlongest]
  dsimp only
  rw [hdrop, hgap, hrest]

-- A string that is closed at the end of the text is the last lexeme.
theorem Lexeme.ofTrimmed_string {body : Text} (h : Token.stringBody '"' body = (body, true)) :
    ofTrimmed ('"' :: body) = [⟨some .string, '"' :: body, []⟩] := by
  have hlongest : Token.longest '"' body = (some .string, '"' :: body) := by
    rw [Token.longest, if_neg (by decide), if_pos (by decide), h]
    rfl
  rw [ofTrimmed, cut, hlongest]
  simp [ofTrimmed]

end Statement

/-! ## Escaped text -/

theorem escapeQuotes_cons (c : Char) (text : Text) :
    escapeQuotes (c :: text) =
      (if c = '\\' ∨ c = '"' then ['\\', c] else [c]) ++ escapeQuotes text := rfl

theorem not_mem_escapeQuotes {text : Text} {c : Char} (h : c ∉ text) (hc : c ≠ '\\') :
    c ∉ escapeQuotes text := by
  simp only [escapeQuotes, List.mem_flatMap, not_exists, not_and]
  intro d hd hmem
  split at hmem
  · rcases List.mem_cons.1 hmem with rfl | hmem
    · exact hc rfl
    · exact h (List.mem_singleton.1 hmem ▸ hd)
  · exact h (List.mem_singleton.1 hmem ▸ hd)

/-- A string reaches over escaped text to the quote behind it. -/
theorem stringBody_escapeQuotes {text : Text} (h : '\n' ∉ text) :
    Statement.Token.stringBody '"' (escapeQuotes text ++ ['"']) =
      (escapeQuotes text ++ ['"'], true) := by
  induction text with
  | nil => rfl
  | cons c text ih =>
    rw [List.mem_cons, not_or] at h
    rw [escapeQuotes_cons]
    by_cases hc : c = '\\' ∨ c = '"'
    · -- The character stands behind a backslash, so it is taken whatever it is.
      have hfeed : c ≠ '\n' := Ne.symm h.1
      rw [if_pos hc, List.append_assoc, List.cons_append, List.cons_append, List.nil_append,
        Statement.Token.stringBody, ih h.2]
      · exact hfeed
    · obtain ⟨hback, hquote⟩ := not_or.1 hc
      rw [if_neg hc, List.append_assoc, List.singleton_append, Statement.Token.stringBody,
        if_neg hquote, if_neg (Ne.symm h.1), ih h.2]
      · exact fun _ hslash => absurd hslash hback
      · exact fun _ _ hslash => absurd hslash hback

end DocumentLayout
