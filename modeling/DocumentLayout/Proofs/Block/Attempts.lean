import DocumentLayout.Proofs.Block.Outline
import Mathlib.Data.Set.List

/-!
# Attempts of tokenizers

A caller's tokenizer can be anything that ends: asked at a position, it may hand contents back to
the parser, one after another and each chosen by the nodes of those before it, and comes to a claim,
to none or to an error. An error in a content ends the attempt. This is what the loop over a text
relies on, and all that it can rely on.
-/

namespace DocumentLayout

/-! ## Attempts -/

/-- What a tokenizer does when it is asked: it comes to an outcome of its own, or hands a content
back to the parser and goes on with the nodes of it. -/
inductive Attempt where
  | finish (outcome : Except Error (Option Claim))
  | nest (content : Text) (next : List Node → Attempt)

namespace Attempt

variable {tokenize : Text → Except Error (List Node)} {attempt last : Attempt}

/-- The outcome of an attempt whose contents are parsed by `tokenize`. The error of a content is
that of the attempt. -/
def run (tokenize : Text → Except Error (List Node)) : Attempt → Except Error (Option Claim)
  | finish outcome => outcome
  | nest content next =>
    match tokenize content with
    | .error error => .error error
    | .ok nodes => (next nodes).run tokenize

/-- An attempt comes to `last` when the contents on the way are parsed by `tokenize`. -/
inductive ComesTo (tokenize : Text → Except Error (List Node)) : Attempt → Attempt → Prop
  | here (attempt : Attempt) : ComesTo tokenize attempt attempt
  | next {content : Text} {next : List Node → Attempt} {nodes : List Node} {last : Attempt}
      (hcontent : tokenize content = .ok nodes) (h : ComesTo tokenize (next nodes) last) :
      ComesTo tokenize (nest content next) last

theorem ComesTo.run_eq (h : ComesTo tokenize attempt last) :
    attempt.run tokenize = last.run tokenize := by
  induction h with
  | here => rfl
  | next hcontent _ ih =>
    rw [run, hcontent]
    exact ih

/-- An attempt comes to its outcome, or to a content that fails. -/
theorem comesTo_finish_or_nest (tokenize : Text → Except Error (List Node)) (attempt : Attempt) :
    ComesTo tokenize attempt (finish (attempt.run tokenize)) ∨
      ∃ content next error, ComesTo tokenize attempt (nest content next) ∧
        tokenize content = .error error ∧ attempt.run tokenize = .error error := by
  induction attempt with
  | finish outcome => exact .inl (.here _)
  | nest content next ih =>
    cases hcontent : tokenize content with
    | error error => exact .inr ⟨content, next, error, .here _, hcontent, by rw [run, hcontent]⟩
    | ok nodes =>
      have hrun : (nest content next).run tokenize = (next nodes).run tokenize := by
        rw [run, hcontent]
      rw [hrun]
      rcases ih nodes with hown | ⟨inner, more, error, hcomes, herror, hfails⟩
      · exact .inl (.next hcontent hown)
      · exact .inr ⟨inner, more, error, .next hcontent hcomes, herror, hfails⟩

/-- Contents that are handed back one after another, whatever their nodes are. -/
def nestAll : List Text → (List (List Node) → Attempt) → Attempt
  | [], next => next []
  | content :: contents, next =>
    nest content fun nodes => nestAll contents fun parts => next (nodes :: parts)

theorem run_nestAll (contents : List Text) (next : List (List Node) → Attempt) :
    (nestAll contents next).run tokenize =
      match contents.mapM tokenize with
      | .error error => .error error
      | .ok parts => (next parts).run tokenize := by
  induction contents generalizing next with
  | nil => rfl
  | cons content contents ih =>
    rw [nestAll, run, List.mapM_cons]
    cases tokenize content with
    | error error => rfl
    | ok nodes =>
      simp only [ih, bind, Except.bind]
      cases contents.mapM tokenize <;> rfl

end Attempt

/-! ## Tokenizers that make attempts -/

/-- A tokenizer that is given by the attempts it makes. It knows the offset of the text that is left
and the depth, and hands contents back to the parser. -/
structure Procedure where
  name : Text
  locate : Text → Locate
  attempt : (offset depth : Nat) → Text → Attempt

namespace Procedure

/-- The tokenizer that makes the attempts. -/
def tokenizer (procedure : Procedure) : Tokenizer where
  name := procedure.name
  locate := procedure.locate
  tryConsume cursor text :=
    (procedure.attempt cursor.offset cursor.depth text).run cursor.tokenize

/-- Asked everywhere, it hands back the contents of what a reader of outlines finds. -/
def ofReader (name : String) (read? : Text → Option Outline) : Procedure where
  name := name.toList
  locate _ := .always
  attempt offset _ text :=
    match read? text with
    | none => .finish (.ok none)
    | some outline =>
      .nestAll outline.contents fun parts => .finish (.ok (some (outline.claim offset parts)))

theorem tokenizer_ofReader {name : String} {read? : Text → Option Outline}
    {tryConsume : Cursor → Text → Except Error (Option Claim)}
    (h : (Tokenizer.always name tryConsume).Reads read?) :
    (ofReader name read?).tokenizer = .always name tryConsume := by
  have hconsume : (ofReader name read?).tokenizer.tryConsume = tryConsume := by
    funext cursor text
    have hreads := h cursor text
    simp only [Tokenizer.always, Locate.allowsAttempt, ↓reduceIte] at hreads
    rw [hreads, tokenizer, ofReader]
    dsimp only
    cases read? text with
    | none => rfl
    | some outline =>
      dsimp only
      rw [Attempt.run_nestAll, Option.elim_some, Outline.consume]
      cases outline.contents.mapM cursor.tokenize <;> rfl
  rw [Tokenizer.always, ← hconsume]
  rfl

end Procedure

namespace Parser

/-- The parser whose tokenizers make these attempts. -/
def ofProcedures (procedures : List Procedure) : Parser := ⟨procedures.map Procedure.tokenizer⟩

/-- The parser of documents is one of these. -/
theorem exists_document_eq_ofProcedures : ∃ procedures, document [] = ofProcedures procedures := by
  have hlines (name : String) (claim? : List Line → Option Claim) :
      ∃ procedure : Procedure, procedure.tokenizer = .ofLines name claim? :=
    ⟨.ofReader name (Outline.ofLines? claim?),
      Procedure.tokenizer_ofReader (Tokenizer.reads_ofLines name claim?)⟩
  have hstatement : ∃ procedure : Procedure, procedure.tokenizer = statementTokenizer :=
    ⟨⟨statementTokenizer.name, statementTokenizer.locate,
      fun _ _ text => .finish (.ok (Block.statement text))⟩, rfl⟩
  have hall : ∀ tokenizer ∈ (document []).tokenizers,
      ∃ procedure : Procedure, procedure.tokenizer = tokenizer := by
    rw [document_nil_tokenizers]
    simp only [standardTokenizers, List.dropLast_cons_cons, List.dropLast_singleton,
      List.cons_append, List.nil_append, List.forall_mem_cons, hlines, hstatement, true_and]
    exact ⟨⟨_, Procedure.tokenizer_ofReader (Tokenizer.reads_blockQuote _)⟩,
      ⟨_, Procedure.tokenizer_ofReader (Tokenizer.reads_list _)⟩, by simp⟩
  obtain ⟨procedures, hprocedures⟩ :
      (document []).tokenizers ∈ Set.range (List.map Procedure.tokenizer) := by
    rw [Set.range_list_map]
    exact hall
  exact ⟨procedures, by rw [ofProcedures, hprocedures]⟩

end Parser

end DocumentLayout
