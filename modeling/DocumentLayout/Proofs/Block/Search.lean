import DocumentLayout.Block.Leaf
import DocumentLayout.Proofs.Text.Cuts

/-!
# Searching by hops

A locator that is no help at the start of a text says where to look next. Whoever follows it from
hop to hop comes to the first block or to the end of the text. For statement blocks the locator only
looks at one line at a time, and the hops go from line to line; they end where a search of the whole
text for a keyword at the start of a line ends.
-/

namespace DocumentLayout

/-- The search of a text from a position on by the answers of a locator: the positions it hops to,
and the position where it finds something, if anywhere. -/
inductive Locate.Search (locate : Text → Locate) (text : Text) :
    Nat → List Nat → Option Nat → Prop
  | found {position : Nat} {rest : Text} (hrest : Text.dropBytes? position text = some rest)
      (hanswer : locate rest = .at 0) : Search locate text position [] (some position)
  | missing {position : Nat} {rest : Text} (hrest : Text.dropBytes? position text = some rest)
      (hanswer : locate rest = .never) : Search locate text position [] none
  | hop {position n : Nat} {rest : Text} {hops : List Nat} {outcome : Option Nat}
      (hrest : Text.dropBytes? position text = some rest) (hanswer : locate rest = .at n)
      (hn : 0 < n) (hsearch : Search locate text (position + n) hops outcome) :
      Search locate text position ((position + n) :: hops) outcome

/-- An answer leaves no choice of where to go on, so a search that ends can end in one way only. -/
theorem Locate.Search.unique {locate : Text → Locate} {text : Text} {position : Nat}
    {hops hops' : List Nat} {outcome outcome' : Option Nat}
    (h : Search locate text position hops outcome)
    (h' : Search locate text position hops' outcome') : hops' = hops ∧ outcome' = outcome := by
  induction h generalizing hops' outcome' with
  | found hrest hanswer =>
    cases h' with
    | found => exact ⟨rfl, rfl⟩
    | missing hrest' hanswer' => simp_all
    | hop hrest' hanswer' hn' =>
      obtain rfl := Option.some.inj (hrest.symm.trans hrest')
      obtain rfl := Locate.at.inj (hanswer.symm.trans hanswer')
      exact absurd hn' (Nat.lt_irrefl 0)
  | missing hrest hanswer =>
    cases h' with
    | found hrest' hanswer' => simp_all
    | missing => exact ⟨rfl, rfl⟩
    | hop hrest' hanswer' => simp_all
  | hop hrest hanswer hn _ ih =>
    cases h' with
    | found hrest' hanswer' =>
      obtain rfl := Option.some.inj (hrest.symm.trans hrest')
      obtain rfl := Locate.at.inj (hanswer.symm.trans hanswer')
      exact absurd hn (Nat.lt_irrefl 0)
    | missing hrest' hanswer' => simp_all
    | hop hrest' hanswer' _ hsearch' =>
      obtain rfl := Option.some.inj (hrest.symm.trans hrest')
      obtain rfl := Locate.at.inj (hanswer.symm.trans hanswer')
      obtain ⟨rfl, rfl⟩ := ih hsearch'
      exact ⟨rfl, rfl⟩

/-- A position of a text where a line starts that is not its first. -/
def StartsLaterLine (text : Text) (position : Nat) : Prop :=
  ∃ before after, text = before ++ '\n' :: after ∧ after ≠ [] ∧
    position = Text.byteLength before + 1

/-! ## The search of the whole text -/

namespace Statement

theorem opensLine_nil : opensLine [] = false := by decide

theorem locateFrom_true (offset : Nat) (text : Text) :
    locateFrom offset true text =
      if opensLine text then some offset else locateFrom offset false text := by
  cases text with
  | nil => rw [opensLine_nil]; rfl
  | cons c rest =>
    simp only [locateFrom, Bool.true_and, Bool.false_and, Bool.false_eq_true, if_false]

-- Behind its start a line is passed over.
theorem locateFrom_false_line {line : Text} (h : '\n' ∉ line) (offset : Nat) (rest : Text) :
    locateFrom offset false (line ++ '\n' :: rest) =
      locateFrom (offset + Text.byteLength line + 1) true rest := by
  induction line generalizing offset with
  | nil => rfl
  | cons c line ih =>
    rw [List.mem_cons, not_or] at h
    have hc : (c == '\n') = false := beq_eq_false_iff_ne.2 (Ne.symm h.1)
    show locateFrom (offset + c.utf8Size) (c == '\n') (line ++ '\n' :: rest) = _
    rw [hc, ih h.2, Text.byteLength_cons, Nat.add_assoc offset]

theorem locateFrom_false_of_not_mem {text : Text} (h : '\n' ∉ text) (offset : Nat) :
    locateFrom offset false text = none := by
  induction text generalizing offset with
  | nil => rfl
  | cons c rest ih =>
    rw [List.mem_cons, not_or] at h
    have hc : (c == '\n') = false := beq_eq_false_iff_ne.2 (Ne.symm h.1)
    show locateFrom (offset + c.utf8Size) (c == '\n') rest = none
    rw [hc, ih h.2]

end Statement

/-! ## The hops -/

namespace Block

theorem locateStatement_of_not_mem {text : Text} (hopens : Statement.opensLine text = false)
    (h : '\n' ∉ text) : locateStatement text = .never := by
  unfold locateStatement
  rw [hopens, Text.cutLine_of_not_mem h]
  rfl

theorem locateStatement_line {line : Text} (h : '\n' ∉ line) {rest : Text}
    (hopens : Statement.opensLine (line ++ '\n' :: rest) = false) :
    locateStatement (line ++ '\n' :: rest) =
      if rest = [] then .never else .at (Text.byteLength line + 1) := by
  unfold locateStatement
  rw [hopens, Text.cutLine_append h]
  cases rest <;> rfl

end Block

/-- From the start of any line on, the search by hops ends where the search of the rest of the text
ends, and hops from line to line. -/
theorem exists_search (before rest : Text) :
    ∃ hops, Locate.Search Block.locateStatement (before ++ rest) (Text.byteLength before) hops
        (Statement.locateFrom (Text.byteLength before) true rest) ∧
      ∀ position ∈ hops, StartsLaterLine (before ++ rest) position := by
  -- The induction is on what is left of the text, which each hop makes shorter by a line.
  induction hn : rest.length using Nat.strongRecOn generalizing before rest with
  | ind n ih =>
    have hrest := Text.dropBytes?_append before rest
    rw [Statement.locateFrom_true]
    cases hopens : Statement.opensLine rest with
    | true =>
      have hanswer : Block.locateStatement rest = .at 0 := by
        unfold Block.locateStatement
        rw [hopens]
        rfl
      exact ⟨[], .found hrest hanswer, by simp⟩
    | false =>
      rw [if_neg Bool.false_ne_true]
      rcases Text.line_cases rest with hfeed | ⟨line, more, hline, rfl⟩
      · rw [Statement.locateFrom_false_of_not_mem hfeed]
        exact ⟨[], .missing hrest (Block.locateStatement_of_not_mem hopens hfeed), by simp⟩
      · have hanswer := Block.locateStatement_line hline hopens
        rw [Statement.locateFrom_false_line hline]
        by_cases hmore : more = []
        · -- The line feed at the very end of a text starts no line.
          rw [if_pos hmore] at hanswer
          subst hmore
          exact ⟨[], .missing hrest hanswer, by simp⟩
        · rw [if_neg hmore] at hanswer
          have htext : before ++ (line ++ '\n' :: more) = before ++ line ++ ['\n'] ++ more := by
            simp
          have hlength : Text.byteLength (before ++ line ++ ['\n']) =
              Text.byteLength before + Text.byteLength line + 1 := by
            rw [Text.byteLength_append, Text.byteLength_append]
            rfl
          have hshorter : more.length < n := by
            rw [← hn, List.length_append, List.length_cons]
            omega
          obtain ⟨hops, hsearch, hhops⟩ := ih _ hshorter (before ++ line ++ ['\n']) more rfl
          rw [← htext, hlength] at hsearch
          rw [← htext] at hhops
          refine ⟨_, .hop hrest hanswer (Nat.succ_pos _) hsearch, ?_⟩
          apply List.forall_mem_cons.2 ⟨?_, hhops⟩
          refine ⟨before ++ line, more, by simp, hmore, ?_⟩
          rw [Text.byteLength_append, Nat.add_assoc]

/-- The search for a statement block by hops from the start of a text comes to an end, and in one
way only. Each hop goes to the start of a later line, and the outcome is that of the search of the
whole text. -/
theorem search_locateStatement (text : Text) :
    ∃ hops, Locate.Search Block.locateStatement text 0 hops (Statement.locate? text) ∧
      (∀ position ∈ hops, StartsLaterLine text position) ∧
      ∀ hops' outcome, Locate.Search Block.locateStatement text 0 hops' outcome →
        hops' = hops ∧ outcome = Statement.locate? text := by
  obtain ⟨hops, hsearch, hhops⟩ := exists_search [] text
  exact ⟨hops, hsearch, hhops, fun hops' outcome h => hsearch.unique h⟩

end DocumentLayout
