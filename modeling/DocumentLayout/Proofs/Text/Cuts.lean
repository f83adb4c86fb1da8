import DocumentLayout.Text.Basic
import Mathlib.Algebra.GroupWithZero.Nat
import Mathlib.Data.List.Basic

/-!
# Cutting texts

What the cuts of a text give back on a text that is already written as the parts they look for:
a prefix of so many bytes, a given front, the first line, the pieces between separators.
-/

namespace DocumentLayout.Text

/-! ## Bytes -/

theorem byteLength_pos {text : Text} (h : text ≠ []) : 0 < byteLength text := by
  cases text with
  | nil => exact absurd rfl h
  | cons c rest =>
    have := Char.utf8Size_pos c
    simp only [byteLength_cons]
    omega

theorem dropBytes?_add_append (taken : Text) (n : Nat) (rest : Text) :
    dropBytes? (byteLength taken + n) (taken ++ rest) = dropBytes? n rest := by
  induction taken with
  | nil => simp
  | cons c taken ih =>
    -- The cut is by a positive number of bytes, so it takes the first character.
    have hpos := Char.utf8Size_pos c
    obtain ⟨m, hm⟩ : ∃ m, c.utf8Size + byteLength taken + n = m + 1 :=
      ⟨c.utf8Size + byteLength taken + n - 1, by omega⟩
    rw [byteLength_cons, List.cons_append, hm, dropBytes?, if_pos (by omega),
      show m + 1 - c.utf8Size = byteLength taken + n by omega, ih]

-- A cut at the end of a prefix leaves what follows the prefix.
theorem dropBytes?_append (taken rest : Text) :
    dropBytes? (byteLength taken) (taken ++ rest) = some rest := by
  simpa [dropBytes?] using dropBytes?_add_append taken 0 rest

theorem dropBytes?_eq_none {n : Nat} {text : Text} (h : byteLength text < n) :
    dropBytes? n text = none := by
  cases hd : dropBytes? n text with
  | none => rfl
  | some rest =>
    obtain ⟨taken, rfl, ht⟩ := exists_of_dropBytes? hd
    rw [byteLength_append] at h
    omega

/-! ## Fronts -/

theorem dropPrefix?_append (front rest : Text) : dropPrefix? front (front ++ rest) = some rest :=
  List.isPrefixOf?_eq_some_iff_append_eq.2 rfl

theorem dropPrefix?_eq_none {front text : Text} :
    dropPrefix? front text = none ↔ ∀ rest, text ≠ front ++ rest := by
  rw [Option.eq_none_iff_forall_ne_some]
  exact forall_congr' fun rest =>
    not_congr (List.isPrefixOf?_eq_some_iff_append_eq.trans eq_comm)

theorem takeWhile_append_cons {p : Char → Bool} {c : Char} (h : p c = false) (text rest : Text) :
    (text ++ c :: rest).takeWhile p = text.takeWhile p := by
  induction text with
  | nil => exact List.takeWhile_cons_of_neg (by simp [h])
  | cons d text ih =>
    rw [List.cons_append, List.takeWhile_cons, List.takeWhile_cons, ih]

theorem dropWhile_append_cons {p : Char → Bool} {c : Char} (h : p c = false) (text rest : Text) :
    (text ++ c :: rest).dropWhile p = text.dropWhile p ++ c :: rest := by
  rw [List.dropWhile_append]
  split
  · rename_i hempty
    rw [List.isEmpty_iff.1 hempty, List.dropWhile_cons_of_neg (by simp [h]), List.nil_append]
  · rfl

/-! ## Lines -/

theorem cutLine_append {line : Text} (h : '\n' ∉ line) (rest : Text) :
    cutLine (line ++ '\n' :: rest) = (line, some rest) := by
  induction line with
  | nil => rfl
  | cons c line ih =>
    rw [List.mem_cons, not_or] at h
    simp [cutLine, ih h.2, Ne.symm h.1]

theorem cutLine_of_not_mem {line : Text} (h : '\n' ∉ line) : cutLine line = (line, none) := by
  induction line with
  | nil => rfl
  | cons c line ih =>
    rw [List.mem_cons, not_or] at h
    simp [cutLine, ih h.2, Ne.symm h.1]

theorem line_cases (text : Text) :
    '\n' ∉ text ∨ ∃ line rest, '\n' ∉ line ∧ text = line ++ '\n' :: rest := by
  by_cases h : '\n' ∈ text
  · right
    obtain ⟨line, rest, htext, hline⟩ := List.eq_append_cons_of_mem h
    exact ⟨line, rest, hline, htext⟩
  · exact .inl h

-- The first occurrence of a mark is the one directly behind a text without its first character.
theorem cutAt?_of_not_mem {c : Char} {text : Text} (h : c ∉ text) (mark rest : Text) :
    cutAt? (c :: mark) (text ++ c :: (mark ++ rest)) = some (text, rest) := by
  induction text with
  | nil => simp [cutAt?, List.isPrefixOf?, dropPrefix?_append]
  | cons d text ih =>
    rw [List.mem_cons, not_or] at h
    simp [cutAt?, List.isPrefixOf?, h.1, ih h.2]

theorem cutAt?_emptyLine {line : Text} (h : '\n' ∉ line) (rest : Text) :
    cutAt? ['\n', '\n'] (line ++ '\n' :: '\n' :: rest) = some (line, rest) :=
  cutAt?_of_not_mem h ['\n'] rest

theorem eq_of_cutAt? {mark text before after : Text}
    (h : cutAt? mark text = some (before, after)) : text = before ++ mark ++ after := by
  induction text generalizing before with
  | nil =>
    simp only [cutAt?, Option.map_eq_some_iff, Prod.mk.injEq] at h
    obtain ⟨rest, hrest, rfl, rfl⟩ := h
    simpa using (List.append_eq_of_isPrefixOf?_eq_some hrest).symm
  | cons c text ih =>
    rw [cutAt?] at h
    split at h
    case h_1 rest hrest =>
      -- The mark stands right here, with nothing before it.
      simp only [Option.some.injEq, Prod.mk.injEq] at h
      obtain ⟨rfl, rfl⟩ := h
      simpa using (List.append_eq_of_isPrefixOf?_eq_some hrest).symm
    case h_2 =>
      simp only [Option.map_eq_some_iff, Prod.mk.injEq] at h
      obtain ⟨⟨front, rest⟩, hcut, rfl, rfl⟩ := h
      simp [ih hcut]

-- A mark does not start in front of its first occurrence.
theorem not_infix_of_cutAt? {mark text before after : Text} (hne : mark ≠ [])
    (h : cutAt? mark text = some (before, after)) : ¬ mark <:+: before ++ mark.dropLast := by
  induction text generalizing before with
  | nil =>
    have htext := eq_of_cutAt? h
    simp [hne] at htext
  | cons c text ih =>
    rw [cutAt?] at h
    split at h
    case h_1 rest _ =>
      obtain ⟨rfl, -⟩ := Prod.mk.inj (Option.some.inj h)
      intro hpart
      have hle := hpart.length_le
      have hpos := List.length_pos_iff.2 hne
      rw [List.nil_append, List.length_dropLast] at hle
      omega
    case h_2 hnone =>
      obtain ⟨⟨front, rest⟩, hcut, hpair⟩ := Option.map_eq_some_iff.1 h
      obtain ⟨rfl, rfl⟩ := Prod.mk.inj hpair
      intro hpart
      rcases List.infix_cons_iff.1 hpart with ⟨more, hmore⟩ | hrest
      · -- It would start right here, where there is none.
        have htext : c :: text = c :: (front ++ mark.dropLast) ++ (mark.getLast hne :: rest) := by
          have hmark := List.dropLast_append_getLast hne
          rw [eq_of_cutAt? hcut]
          conv_lhs => rw [← hmark]
          simp
        have hstart : mark ++ more = c :: (front ++ mark.dropLast) := hmore
        rw [← hstart, List.append_assoc] at htext
        exact dropPrefix?_eq_none.1 hnone _ htext
      · exact ih hcut hrest

-- What is cut off a text is cut off it with more text behind it.
theorem cutAt?_append {mark text before after : Text} (h : cutAt? mark text = some (before, after))
    (rest : Text) : cutAt? mark (text ++ rest) = some (before, after ++ rest) := by
  induction text generalizing before with
  | nil =>
    have heq := eq_of_cutAt? h
    simp only [List.nil_eq, List.append_eq_nil_iff] at heq
    obtain ⟨⟨rfl, rfl⟩, rfl⟩ := heq
    cases rest <;> simp [cutAt?, List.isPrefixOf?]
  | cons c text ih =>
    rw [cutAt?] at h
    rw [List.cons_append, cutAt?]
    cases hmark : dropPrefix? mark (c :: text) with
    | some found =>
      rw [hmark] at h
      obtain ⟨rfl, rfl⟩ := Prod.mk.inj (Option.some.inj h)
      rw [← List.cons_append, ← List.append_eq_of_isPrefixOf?_eq_some hmark, List.append_assoc,
        dropPrefix?_append]
    | none =>
      rw [hmark] at h
      obtain ⟨⟨front, found⟩, hcut, hpair⟩ := Option.map_eq_some_iff.1 h
      obtain ⟨rfl, rfl⟩ := Prod.mk.inj hpair
      -- The text is longer than the mark, so more text behind it does not complete a mark here.
      have hlonger : dropPrefix? mark (c :: (text ++ rest)) = none := by
        rw [dropPrefix?_eq_none] at hmark ⊢
        intro more hmore
        rw [← List.cons_append] at hmore
        rcases List.append_eq_append_iff.1 hmore with ⟨extra, hextra, -⟩ | ⟨extra, hextra, -⟩
        · have hlength := congrArg List.length hextra
          have hcutLength := congrArg List.length (eq_of_cutAt? hcut)
          simp only [List.length_append, List.length_cons] at hlength hcutLength
          omega
        · exact hmark extra hextra
      rw [hlonger, ih hcut]
      rfl

theorem cutAt?_cons_of_none {mark : Text} {c : Char} {text : Text}
    (h : dropPrefix? mark (c :: text) = none) :
    cutAt? mark (c :: text) =
      (cutAt? mark text).map fun (before, after) => (c :: before, after) := by
  rw [cutAt?, h]

-- An empty line that starts in front of a line feed can be seen up to that line feed.
theorem dropPrefix?_emptyLine_eq_none_iff (c : Char) (text rest : Text) :
    dropPrefix? ['\n', '\n'] (c :: (text ++ '\n' :: rest)) = none ↔
      dropPrefix? ['\n', '\n'] (c :: (text ++ ['\n'])) = none := by
  cases text <;> simp [List.isPrefixOf?]

theorem cutAt?_eq_none_of_cons {mark : Text} {c : Char} {text : Text}
    (h : cutAt? mark (c :: text) = none) :
    dropPrefix? mark (c :: text) = none ∧ cutAt? mark text = none := by
  rw [cutAt?] at h
  split at h
  · simp at h
  · exact ⟨‹_›, Option.map_eq_none_iff.1 h⟩

-- Without an empty line in a text the first one is the one that stands behind it.
theorem cutAt?_feed_feed {text : Text} (h : cutAt? ['\n', '\n'] (text ++ ['\n']) = none)
    (rest : Text) : cutAt? ['\n', '\n'] (text ++ '\n' :: '\n' :: rest) = some (text, rest) := by
  induction text with
  | nil => simp [cutAt?, List.isPrefixOf?]
  | cons c text ih =>
    obtain ⟨hhere, hlater⟩ := cutAt?_eq_none_of_cons h
    rw [List.cons_append,
      cutAt?_cons_of_none ((dropPrefix?_emptyLine_eq_none_iff c text _).2 hhere), ih hlater]
    rfl

-- And where no empty line stands behind it either, the first one is the first one further on.
theorem cutAt?_feed {text rest : Text} (h : cutAt? ['\n', '\n'] (text ++ ['\n']) = none)
    (hrest : rest.head? ≠ some '\n') :
    cutAt? ['\n', '\n'] (text ++ '\n' :: rest) =
      (cutAt? ['\n', '\n'] rest).map fun (before, after) => (text ++ '\n' :: before, after) := by
  induction text with
  | nil =>
    have hhere : dropPrefix? ['\n', '\n'] ('\n' :: rest) = none := by
      cases rest with
      | nil => rfl
      | cons c rest =>
        have hc : ('\n' == c) = false :=
          beq_eq_false_iff_ne.2 fun hfeed => hrest (by rw [hfeed]; rfl)
        simp [List.isPrefixOf?, hc]
    exact cutAt?_cons_of_none hhere
  | cons c text ih =>
    obtain ⟨hhere, hlater⟩ := cutAt?_eq_none_of_cons h
    rw [List.cons_append,
      cutAt?_cons_of_none ((dropPrefix?_emptyLine_eq_none_iff c text _).2 hhere), ih hlater,
      Option.map_map]
    rfl

/-! ## Line breaks -/

-- A text without carriage returns keeps its line breaks.
theorem unifyBreaks_append {front : Text} (h : '\r' ∉ front) (rest : Text) :
    unifyBreaks (front ++ rest) = front ++ unifyBreaks rest := by
  induction front with
  | nil => rfl
  | cons c front ih =>
    rw [List.mem_cons, not_or] at h
    -- The two rules for a carriage return are out; only the one for any other character is left.
    rw [List.cons_append, unifyBreaks, ih h.2, List.cons_append]
    · intro _ hc
      exact absurd hc.symm h.1
    · intro hc
      exact absurd hc.symm h.1

theorem unifyBreaks_feed (rest : Text) : unifyBreaks ('\n' :: rest) = '\n' :: unifyBreaks rest := by
  rw [← List.singleton_append, unifyBreaks_append (by decide), List.singleton_append]

theorem unifyBreaks_of_not_mem {text : Text} (h : '\r' ∉ text) : unifyBreaks text = text := by
  simpa [unifyBreaks] using unifyBreaks_append h []

-- Line breaks are unified part by part where no CRLF is cut in two.
theorem unifyBreaks_append_of_ne {front rest : Text}
    (h : front.getLast? ≠ some '\r' ∨ rest.head? ≠ some '\n') :
    unifyBreaks (front ++ rest) = unifyBreaks front ++ unifyBreaks rest := by
  have hnext : ∀ {c : Char} {front : Text},
      ((c :: front).getLast? ≠ some '\r' ∨ rest.head? ≠ some '\n') →
        front.getLast? ≠ some '\r' ∨ rest.head? ≠ some '\n' := by
    rintro c (_ | ⟨d, front⟩) h
    · exact .inl (by simp)
    · simpa using h
  fun_induction unifyBreaks front with
  | case1 => rfl
  | case2 front ih =>
    rw [List.cons_append, List.cons_append, unifyBreaks, ih (hnext (hnext h)), List.cons_append]
  | case3 front hfeed ih =>
    rw [List.cons_append, unifyBreaks, ih (hnext h), List.cons_append]
    intro more hmore
    cases front with
    | nil =>
      rw [List.nil_append] at hmore
      simp [hmore] at h
    | cons c front => exact hfeed front (by rw [(List.cons.inj hmore).1])
  | case4 c front hfeed hreturn ih =>
    rw [List.cons_append, unifyBreaks, ih (hnext h), List.cons_append]
    · intro more hc
      exact absurd hc hreturn
    · exact hreturn

/-! ## Pieces -/

section

variable {sep : Char} {text piece : Text}

theorem splitOn_cons_self (rest : Text) : (sep :: rest).splitOn sep = [] :: rest.splitOn sep := by
  rw [List.splitOn_cons_eq_if_modifyHead, if_pos (beq_self_eq_true sep)]

theorem splitOn_cons_ne {c : Char} (h : c ≠ sep) (rest : Text) :
    (c :: rest).splitOn sep = (rest.splitOn sep).modifyHead (c :: ·) := by
  rw [List.splitOn_cons_eq_if_modifyHead, if_neg (by simpa using h)]

theorem not_mem_of_mem_splitOn (h : piece ∈ text.splitOn sep) : sep ∉ piece := by
  induction text generalizing piece with
  | nil => simp_all
  | cons c rest ih =>
    by_cases hc : c = sep
    · rw [hc, splitOn_cons_self, List.mem_cons] at h
      rcases h with rfl | h
      · simp
      · exact ih h
    · obtain ⟨first, pieces, hsplit⟩ := List.exists_cons_of_ne_nil (List.splitOn_ne_nil sep rest)
      rw [hsplit] at ih
      rw [splitOn_cons_ne hc, hsplit, List.modifyHead_cons, List.mem_cons] at h
      rcases h with rfl | h
      · simp [Ne.symm hc, ih (List.mem_cons_self ..)]
      · exact ih (List.mem_cons_of_mem _ h)

theorem eq_nil_or_head?_of_splitOn_eq {pieces : List Text} (h : text.splitOn sep = [] :: pieces) :
    text = [] ∨ text.head? = some sep := by
  cases text with
  | nil => exact .inl rfl
  | cons c rest =>
    by_cases hc : c = sep
    · exact .inr (by rw [hc]; rfl)
    · obtain ⟨first, more, hsplit⟩ := List.exists_cons_of_ne_nil (List.splitOn_ne_nil sep rest)
      rw [splitOn_cons_ne hc, hsplit, List.modifyHead_cons] at h
      simp at h

-- An empty piece behind the first one stands between two separators, or behind the last one.
theorem infix_of_nil_mem_tail_splitOn (h : [] ∈ (text.splitOn sep).tail) :
    [sep, sep] <:+: text ++ [sep] := by
  induction text with
  | nil => simp at h
  | cons c rest ih =>
    have hrest : [] ∈ (rest.splitOn sep).tail → [sep, sep] <:+: c :: rest ++ [sep] := fun hmem =>
      (ih hmem).trans (List.suffix_cons c _).isInfix
    obtain ⟨piece, pieces, hsplit⟩ := List.exists_cons_of_ne_nil (List.splitOn_ne_nil sep rest)
    by_cases hc : c = sep
    · subst hc
      rw [splitOn_cons_self, List.tail_cons, hsplit, List.mem_cons] at h
      rcases h with rfl | hmem
      · -- Here the text goes on with a second separator, or ends.
        rcases eq_nil_or_head?_of_splitOn_eq hsplit with rfl | hhead
        · exact List.infix_rfl
        · obtain ⟨more, rfl⟩ := List.head?_eq_some_iff.1 hhead
          exact (List.prefix_append [c, c] (more ++ [c])).isInfix
      · exact hrest (by rwa [hsplit])
    · rw [splitOn_cons_ne hc, List.tail_modifyHead] at h
      exact hrest h

end

theorem intercalate_concat (sep : Text) {pieces : List Text} (hne : pieces ≠ []) (last : Text) :
    sep.intercalate (pieces ++ [last]) = sep.intercalate pieces ++ (sep ++ last) := by
  induction pieces with
  | nil => exact absurd rfl hne
  | cons first more ih =>
    cases more with
    | nil =>
      rw [List.singleton_append, List.intercalate_cons_cons, List.intercalate_singleton,
        List.intercalate_singleton, List.append_assoc]
    | cons second more =>
      rw [List.cons_append, List.cons_append, List.intercalate_cons_cons,
        List.intercalate_cons_cons, ← List.cons_append, ih (by simp), List.append_assoc,
        List.append_assoc, List.append_assoc]

theorem mem_of_mem_intercalate {sep : Text} {pieces : List Text} {c : Char}
    (h : c ∈ sep.intercalate pieces) : c ∈ sep ∨ ∃ piece ∈ pieces, c ∈ piece := by
  induction pieces with
  | nil => simp at h
  | cons first more ih =>
    cases more with
    | nil => exact .inr ⟨first, by simp, by simpa using h⟩
    | cons second more =>
      rw [List.intercalate_cons_cons, List.mem_append, List.mem_append] at h
      rcases h with (h | h) | h
      · exact .inr ⟨first, by simp, h⟩
      · exact .inl h
      · exact (ih h).imp_right fun ⟨piece, hpiece, hc⟩ =>
          ⟨piece, List.mem_cons_of_mem _ hpiece, hc⟩

theorem mem_intercalate {sep : Text} {pieces : List Text} {piece : Text} (hpiece : piece ∈ pieces)
    {c : Char} (hc : c ∈ piece) : c ∈ sep.intercalate pieces := by
  induction pieces with
  | nil => simp at hpiece
  | cons first more ih =>
    cases more with
    | nil =>
      obtain rfl := List.mem_singleton.1 hpiece
      rwa [List.intercalate_singleton]
    | cons second more =>
      rw [List.intercalate_cons_cons]
      rcases List.mem_cons.1 hpiece with rfl | hpiece
      · exact List.mem_append_left _ (List.mem_append_left _ hc)
      · exact List.mem_append_right _ (ih hpiece)

theorem mem_of_mem_splitOn {sep c : Char} {text piece : Text} (h : piece ∈ text.splitOn sep)
    (hc : c ∈ piece) : c ∈ text := by
  rw [← @List.intercalate_splitOn _ text _ _ sep]
  exact mem_intercalate h hc

-- Lines with a separator between them are as long as the lines with a line break after each,
-- but for the last break.
theorem length_intercalate {sep : Char} {lines : List Text} (h : lines ≠ []) :
    ([sep].intercalate lines).length + 1 = (lines.map fun line => line.length + 1).sum := by
  induction lines with
  | nil => exact absurd rfl h
  | cons first more ih =>
    cases more with
    | nil => simp
    | cons second more =>
      rw [List.intercalate_cons_cons, List.map_cons, List.sum_cons, ← ih (by simp)]
      simp only [List.length_append, List.length_singleton]
      omega

/-! ## Parts -/

-- A part without the character `c` lies in front of it or behind it.
theorem infix_or_infix_of_append_cons {mark before after : Text} {c : Char} (hc : c ∉ mark)
    (h : mark <:+: before ++ c :: after) : mark <:+: before ∨ mark <:+: after := by
  obtain ⟨front, back, hparts⟩ := h
  rcases List.append_eq_append_iff.1 hparts with ⟨inner, rfl, -⟩ | ⟨inner, hfront, hback⟩
  · exact .inl ⟨front, inner, rfl⟩
  · cases inner with
    | nil => exact .inl ⟨front, [], by simpa using hfront⟩
    | cons d inner =>
      obtain ⟨rfl, rfl⟩ := List.cons.inj hback
      -- The character stands in front of the part, since the part does not hold it.
      rcases List.append_eq_append_iff.1 hfront with ⟨letters, -, rfl⟩ | ⟨letters, rfl, hrest⟩
      · simp at hc
      · cases letters with
        | nil =>
          rw [List.nil_append] at hrest
          simp [← hrest] at hc
        | cons d letters =>
          obtain ⟨rfl, rfl⟩ := List.cons.inj hrest
          exact .inr ⟨letters, back, rfl⟩

theorem exists_infix_of_infix_intercalate {mark : Text} {sep : Char} (hsep : sep ∉ mark)
    (hne : mark ≠ []) {pieces : List Text} (h : mark <:+: [sep].intercalate pieces) :
    ∃ piece ∈ pieces, mark <:+: piece := by
  induction pieces with
  | nil => exact absurd (List.infix_nil.1 h) hne
  | cons first more ih =>
    cases more with
    | nil => exact ⟨first, List.mem_singleton_self first, by rwa [List.intercalate_singleton] at h⟩
    | cons second more =>
      rw [List.intercalate_cons_cons, List.append_assoc, List.singleton_append] at h
      rcases infix_or_infix_of_append_cons hsep h with hfirst | hmore
      · exact ⟨first, List.mem_cons_self .., hfirst⟩
      · obtain ⟨piece, hpiece, hmark⟩ := ih hmore
        exact ⟨piece, List.mem_cons_of_mem _ hpiece, hmark⟩

theorem eq_nil_of_prefix_cons {mark text : Text} {c : Char} (hc : c ∉ mark)
    (h : mark <+: c :: text) : mark = [] := by
  rcases List.prefix_cons_iff.1 h with hnil | ⟨more, rfl, -⟩
  · exact hnil
  · simp at hc

theorem prefix_of_prefix_unifyBreaks {mark text : Text} (hfeed : '\n' ∉ mark)
    (h : mark <+: unifyBreaks text) : mark <+: text := by
  fun_induction unifyBreaks text generalizing mark with
  | case1 => exact h
  | case2 rest ih =>
    rw [eq_nil_of_prefix_cons hfeed h]
    exact List.nil_prefix
  | case3 rest _ ih =>
    rw [eq_nil_of_prefix_cons hfeed h]
    exact List.nil_prefix
  | case4 c rest _ _ ih =>
    rcases List.prefix_cons_iff.1 h with rfl | ⟨more, rfl, hmore⟩
    · exact List.nil_prefix
    · rw [List.mem_cons, not_or] at hfeed
      exact List.cons_prefix_cons.2 ⟨rfl, ih hfeed.2 hmore⟩

/-- Unifying line breaks joins nothing, so a part without a line feed has been there before. -/
theorem infix_of_infix_unifyBreaks {mark text : Text} (hfeed : '\n' ∉ mark)
    (h : mark <:+: unifyBreaks text) : mark <:+: text := by
  fun_induction unifyBreaks text with
  | case1 => exact h
  | case2 rest ih =>
    rcases List.infix_cons_iff.1 h with hstart | hrest
    · rw [eq_nil_of_prefix_cons hfeed hstart]
      exact List.nil_infix
    · exact List.infix_cons (List.infix_cons (ih hrest))
  | case3 rest _ ih =>
    rcases List.infix_cons_iff.1 h with hstart | hrest
    · rw [eq_nil_of_prefix_cons hfeed hstart]
      exact List.nil_infix
    · exact List.infix_cons (ih hrest)
  | case4 c rest _ _ ih =>
    rcases List.infix_cons_iff.1 h with hstart | hrest
    · rcases List.prefix_cons_iff.1 hstart with rfl | ⟨more, rfl, hmore⟩
      · exact List.nil_infix
      · rw [List.mem_cons, not_or] at hfeed
        have hsame := prefix_of_prefix_unifyBreaks hfeed.2 hmore
        exact (List.cons_prefix_cons.2 ⟨rfl, hsame⟩).isInfix
    · exact List.infix_cons (ih hrest)

end DocumentLayout.Text
