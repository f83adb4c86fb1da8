import DocumentLayout.Proofs.Block.Loop
import DocumentLayout.Proofs.Block.Registry

/-!
# Idle tokenizers

A tokenizer that its locator keeps from being asked, or that declines whenever it is asked, takes no
part in a parse. Wherever such a tokenizer stands in the list, documents have the same trees and the
same errors as without it. Containers parse their contents with the whole list again, so this is
carried from one level of nesting to the next.
-/

namespace DocumentLayout

/-- A tokenizer that never applies: at the start of any text its locator looks elsewhere, or it
declines, whatever its cursor is. -/
def Tokenizer.IsIdle (tokenizer : Tokenizer) : Prop :=
  ∀ text, tokenizer.locate text = .never ∨ (∃ n, 0 < n ∧ tokenizer.locate text = .at n) ∨
    ∀ cursor, tokenizer.tryConsume cursor text = .ok none

theorem Tokenizer.IsIdle.declines {idle : Tokenizer} (hidle : idle.IsIdle) {text : Text}
    (hlocated : (idle.locate text).allowsAttempt = true) (cursor : Cursor) :
    idle.tryConsume cursor text = .ok none := by
  rcases hidle text with hnever | ⟨n, hn, hat⟩ | hdeclines
  · rw [hnever] at hlocated
    exact absurd hlocated Bool.false_ne_true
  · rw [hat] at hlocated
    exact absurd (beq_iff_eq.1 hlocated) (Nat.ne_of_gt hn)
  · exact hdeclines cursor

namespace Parser

/-- Parsers that come to the same results: the same tree or the same error for every document, and
the same nodes or the same error for every content at every depth of nesting. -/
structure Agrees (parser other : Parser) : Prop where
  parse : ∀ text, parser.parse text = other.parse text
  contents : ∀ room depth text,
    blocksWithin parser.tokenizers room depth text = blocksWithin other.tokenizers room depth text

/-! ## Lists that make the same claims -/

section

variable {tokenizers others : List Tokenizer}
  (hclaims : ∀ cursor text, claimAt? cursor text tokenizers = claimAt? cursor text others)

include hclaims

theorem blocksFrom_congr_claims (depth : Nat) (nested : Text → Except Error (List Node))
    (offset : Nat) (text : Text) :
    blocksFrom tokenizers depth nested offset text =
      blocksFrom others depth nested offset text := by
  -- By induction on what is left of the text: each valid claim leaves less of it.
  induction hlength : text.length using Nat.strong_induction_on generalizing offset text with
  | h length ih =>
    by_cases hne : text = []
    · rw [blocksFrom, blocksFrom, dif_pos hne, dif_pos hne]
    · rw [blocksFrom_step hne, blocksFrom_step hne, hclaims]
      cases claimAt? (cursorAt depth nested offset) (text ++ terminator) others with
      | error error => rfl
      | ok claimed =>
        rcases claimed with _ | ⟨name, claim⟩
        · rfl
        · by_cases hvalid : isValidLength claim.length (text ++ terminator) = true
          · have hpositive : claim.length ≠ 0 := by
              simp only [isValidLength, Bool.and_eq_true, bne_iff_ne, ne_eq] at hvalid
              exact hvalid.1
            have hshorter : (after claim.length text).length < length := by
              rw [← hlength]
              exact length_after_lt hpositive hne
            simp only [hvalid, ite_true]
            rw [ih _ hshorter _ _ rfl]
          · simp only [hvalid, Bool.false_eq_true, ite_false]

/-- The same claims everywhere make the same nodes at every depth. -/
theorem blocksWithin_congr_claims (room depth : Nat) (text : Text) :
    blocksWithin tokenizers room depth text = blocksWithin others room depth text := by
  induction room generalizing depth text with
  | zero => rfl
  | succ room ih =>
    -- One level deeper both lists parse every content alike.
    have hnested : blocksWithin tokenizers room (depth + 1) =
        blocksWithin others room (depth + 1) := by
      funext content
      exact ih (depth + 1) content
    rw [blocksWithin, blocksWithin, hnested]
    exact blocksFrom_congr_claims hclaims depth _ 0 text

theorem agrees_of_claims : Agrees ⟨tokenizers⟩ ⟨others⟩ where
  parse text := by
    unfold parse blocks
    dsimp only
    rw [blocksWithin_congr_claims hclaims]
  contents := blocksWithin_congr_claims hclaims

end

/-! ## An idle tokenizer in the list -/

-- Both ways of not applying hand the text on to the tokenizers behind.
theorem claimAt?_idle_cons {idle : Tokenizer} (hidle : idle.IsIdle) (cursor : Cursor) (text : Text)
    (back : List Tokenizer) : claimAt? cursor text (idle :: back) = claimAt? cursor text back := by
  rw [claimAt?]
  by_cases hlocated : (idle.locate text).allowsAttempt = true
  · rw [if_pos hlocated, hidle.declines hlocated cursor]
  · rw [if_neg hlocated]

theorem claimAt?_idle {idle : Tokenizer} (hidle : idle.IsIdle) (cursor : Cursor) (text : Text)
    (front back : List Tokenizer) :
    claimAt? cursor text (front ++ idle :: back) = claimAt? cursor text (front ++ back) := by
  induction front with
  | nil => exact claimAt?_idle_cons hidle cursor text back
  | cons tokenizer front ih =>
    rw [List.cons_append, List.cons_append, claimAt?, claimAt?, ih]

theorem agrees_idle {idle : Tokenizer} (hidle : idle.IsIdle) (front back : List Tokenizer) :
    Agrees ⟨front ++ idle :: back⟩ ⟨front ++ back⟩ :=
  agrees_of_claims fun cursor text => claimAt?_idle hidle cursor text front back

-- Both edits that add a tokenizer put it somewhere in the list and change nothing else.
theorem exists_of_adds {parser after : Parser} {edit : Edit} {tokenizer : Tokenizer}
    (hedit : edit = .push tokenizer ∨ ∃ anchor, edit = .insertBefore anchor tokenizer)
    (hrun : edit.run? parser = some after) :
    ∃ front back, parser.tokenizers = front ++ back ∧
      after.tokenizers = front ++ tokenizer :: back := by
  have hmakes := makes_of_run? hrun
  generalize parser.tokenizers = before at hmakes ⊢
  generalize after.tokenizers = changed at hmakes ⊢
  rcases hedit with rfl | ⟨anchor, rfl⟩
  · cases hmakes with
    | push => exact ⟨before, [], (List.append_nil _).symm, rfl⟩
  · cases hmakes with
    | insertBefore _ peer front back => exact ⟨front, peer :: back, rfl, rfl⟩
    | insertLast => exact ⟨before, [], (List.append_nil _).symm, rfl⟩

/-- A tokenizer that never applies makes no difference: wherever it stands in the list of a parser,
every document has the same tree or the same error, and so has every content at every depth. Under a
name of its own it may be added last or in front of any anchor. -/
theorem agrees_of_isIdle {parser : Parser} {idle : Tokenizer} (hname : idle.name ∉ parser.names)
    (hidle : idle.IsIdle) :
    (∀ front back, parser.tokenizers = front ++ back →
      Agrees ⟨front ++ idle :: back⟩ parser) ∧
    ∀ edit : Edit, (edit = .push idle ∨ ∃ anchor, edit = .insertBefore anchor idle) →
      ∃ after, edit.run? parser = some after ∧ after.Agrees parser := by
  have hanywhere : ∀ front back, parser.tokenizers = front ++ back →
      Agrees ⟨front ++ idle :: back⟩ parser := by
    intro front back hsplit
    have hparser : parser = ⟨front ++ back⟩ := congrArg Parser.mk hsplit
    rw [hparser]
    exact agrees_idle hidle front back
  refine ⟨hanywhere, fun edit hedit => ?_⟩
  have hcarried : edit.run? parser ≠ none := by
    rw [ne_eq, run?_eq_none_iff]
    rcases hedit with rfl | ⟨anchor, rfl⟩ <;> exact hname
  obtain ⟨after, hrun⟩ := Option.ne_none_iff_exists'.1 hcarried
  obtain ⟨front, back, hsplit, hafter⟩ := exists_of_adds hedit hrun
  refine ⟨after, hrun, ?_⟩
  rw [show after = ⟨front ++ idle :: back⟩ from congrArg Parser.mk hafter]
  exact hanywhere front back hsplit

/-- A tokenizer in front of that of quotes whose locator looks behind every quote mark, where it
would fail if it were asked, and which declines everything else. -/
theorem agrees_of_isIdle_quote :
    let idle : Tokenizer := {
      name := "math".toList
      locate := fun text => if text.head? = some '>' then .at 1 else .always
      tryConsume := fun _ text =>
        if text.head? = some '>' then .error (.compile "asked".toList) else .ok none }
    idle.name ∉ (document []).names ∧ idle.IsIdle ∧
    ∃ after, (document []).insertBefore? "block_quote".toList idle = some after ∧
      after.parse "> - a\n>   > b\n".toList = (document []).parse "> - a\n>   > b\n".toList := by
  intro idle
  have hname : idle.name ∉ (document []).names := by decide +kernel
  have hidle : idle.IsIdle := by
    intro text
    by_cases hhead : text.head? = some '>'
    · exact .inr (.inl ⟨1, Nat.one_pos, if_pos hhead⟩)
    · exact .inr (.inr fun cursor => if_neg hhead)
  obtain ⟨after, hrun, hagrees⟩ := (agrees_of_isIdle hname hidle).2
    (.insertBefore "block_quote".toList idle) (.inr ⟨_, rfl⟩)
  exact ⟨hname, hidle, after, hrun, hagrees.parse _⟩

end Parser

end DocumentLayout
