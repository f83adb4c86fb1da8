import DocumentLayout.Proofs.Block.Attempts
import DocumentLayout.Proofs.Block.Nesting

/-!
# The loop over a text

Whatever the tokenizers do, the loop over a text is safe. The nodes it makes lie one after another
on boundaries of characters within the text, even where a claim runs into the terminator. The first
attempt that fails ends the parse, and so does the first claim of a length that is not valid: at
each level the loop fails with that error, and the containers around it pass it on. Besides these a
parse fails only at a position that no tokenizer takes, and where containers nest too deep.
-/

namespace DocumentLayout

/-! ## Boundaries of characters -/

namespace Text

/-- Byte `offset` is a boundary of characters of the text, or its end. -/
def IsBoundary (text : Text) (offset : Nat) : Prop :=
  ∃ before after, text = before ++ after ∧ byteLength before = offset

theorem IsBoundary.le {text : Text} {offset : Nat} (h : text.IsBoundary offset) :
    offset ≤ byteLength text := by
  obtain ⟨before, after, rfl, rfl⟩ := h
  rw [byteLength_append]
  exact Nat.le_add_right ..

theorem isSome_dropBytes?_iff {length : Nat} {text : Text} :
    (dropBytes? length text).isSome = true ↔ text.IsBoundary length := by
  constructor
  · intro h
    obtain ⟨rest, hrest⟩ := Option.isSome_iff_exists.1 h
    obtain ⟨taken, htext, hlength⟩ := exists_of_dropBytes? hrest
    exact ⟨taken, rest, htext, hlength⟩
  · rintro ⟨before, after, rfl, rfl⟩
    rw [dropBytes?_append]
    rfl

end Text

namespace Parser

theorem isValidLength_iff {length : Nat} {text : Text} :
    isValidLength length text = true ↔ length ≠ 0 ∧ text.IsBoundary length := by
  rw [isValidLength, Bool.and_eq_true, bne_iff_ne, Text.isSome_dropBytes?_iff]

theorem isValidLength_eq_false {length : Nat} {text : Text}
    (h : length = 0 ∨ Text.byteLength text < length ∨ ¬ text.IsBoundary length) :
    isValidLength length text = false := by
  rw [← Bool.not_eq_true, isValidLength_iff]
  rintro ⟨hpos, hboundary⟩
  rcases h with hzero | hlong | hinside
  · exact hpos hzero
  · exact absurd hboundary.le (by omega)
  · exact hinside hboundary

/-- A valid claim takes the front of a text, or all of it and some of the terminator. -/
theorem exists_front {length : Nat} {text : Text} (hne : text ≠ [])
    (h : isValidLength length (text ++ terminator) = true) :
    ∃ front back, text = front ++ back ∧ front ≠ [] ∧ after length text = back ∧
      min length (Text.byteLength text) = Text.byteLength front ∧
      (back ≠ [] → Text.byteLength front = length) := by
  obtain ⟨hpos, taken, rest, htext, hlength⟩ := isValidLength_iff.1 h
  rcases List.append_eq_append_iff.1 htext with ⟨extra, rfl, -⟩ | ⟨back, rfl, -⟩
  · have hle : Text.byteLength text ≤ length := by
      rw [← hlength, Text.byteLength_append]
      omega
    exact ⟨text, [], by simp, hne, after_eq_nil hle, by omega, by simp⟩
  · refine ⟨taken, back, rfl, ?_, by rw [← hlength, after_append], ?_, fun _ => hlength⟩
    · rintro rfl
      exact hpos hlength.symm
    · rw [← hlength, Text.byteLength_append]
      omega

end Parser

/-! ## Spans -/

/-- Nodes that lie one after another in the text `text` behind `done`, on boundaries of
characters. -/
structure SpansFrom (done text : Text) (nodes : List Node) : Prop where
  start_le : ∀ node ∈ nodes, Text.byteLength done ≤ node.span.start
  nonempty : ∀ node ∈ nodes, node.span.start < node.span.stop
  increasing : nodes.Pairwise fun first second => first.span.stop ≤ second.span.start
  starts : ∀ node ∈ nodes, (done ++ text).IsBoundary node.span.start
  stops : ∀ node ∈ nodes, (done ++ text).IsBoundary node.span.stop

namespace SpansFrom

variable {done front back : Text} {nodes : List Node}

theorem nil (done text : Text) : SpansFrom done text [] where
  start_le := by simp
  nonempty := by simp
  increasing := List.Pairwise.nil
  starts := by simp
  stops := by simp

theorem skip (h : SpansFrom (done ++ front) back nodes) : SpansFrom done (front ++ back) nodes where
  start_le node hnode := by
    have := h.start_le node hnode
    rw [Text.byteLength_append] at this
    omega
  nonempty := h.nonempty
  increasing := h.increasing
  starts := by simpa using h.starts
  stops := by simpa using h.stops

theorem block {node : Node}
    (hspan : node.span = ⟨Text.byteLength done, Text.byteLength (done ++ front)⟩)
    (hne : front ≠ []) (h : SpansFrom (done ++ front) back nodes) :
    SpansFrom done (front ++ back) (node :: nodes) where
  start_le := List.forall_mem_cons.2 ⟨by rw [hspan], h.skip.start_le⟩
  nonempty := by
    refine List.forall_mem_cons.2 ⟨?_, h.nonempty⟩
    have := Text.byteLength_pos hne
    rw [hspan, Text.byteLength_append]
    dsimp only
    omega
  increasing := by
    refine List.pairwise_cons.2 ⟨fun other hother => ?_, h.increasing⟩
    rw [hspan]
    exact h.start_le other hother
  starts :=
    List.forall_mem_cons.2 ⟨⟨done, front ++ back, rfl, by rw [hspan]⟩, h.skip.starts⟩
  stops :=
    List.forall_mem_cons.2 ⟨⟨done ++ front, back, by simp, by rw [hspan]⟩, h.skip.stops⟩

end SpansFrom

namespace Parser

section

variable {tokenizers : List Tokenizer} {depth : Nat} {nested : Text → Except Error (List Node)}

/-- The cursor of the loop at an offset. -/
def cursorAt (depth : Nat) (nested : Text → Except Error (List Node)) (offset : Nat) : Cursor :=
  ⟨offset, depth, fun content => (nested content).mapError (.within offset)⟩

/-! ## One step of the loop -/

/-- What the loop makes of the first claim on what is left of a text. -/
theorem blocksFrom_step {offset : Nat} {text : Text} (hne : text ≠ []) :
    blocksFrom tokenizers depth nested offset text =
      match claimAt? (cursorAt depth nested offset) (text ++ terminator) tokenizers with
      | .error error => .error error
      | .ok none => .error (.parse offset .unclaimed)
      | .ok (some (name, claim)) =>
        if isValidLength claim.length (text ++ terminator) then
          (blocksFrom tokenizers depth nested (offset + claim.length)
            (after claim.length text)).map (place offset (Text.byteLength text) claim ++ ·)
        else .error (.parse offset (.badLength name claim.length)) := by
  rw [blocksFrom, dif_neg hne]
  dsimp only
  rw [← cursorAt]
  cases claimAt? (cursorAt depth nested offset) (text ++ terminator) tokenizers with
  | error error => rfl
  | ok claimed =>
    rcases claimed with _ | ⟨name, claim⟩
    · rfl
    · dsimp only
      split
      · cases blocksFrom tokenizers depth nested (offset + claim.length)
          (after claim.length text) <;> rfl
      · rfl

theorem exists_of_blocksFrom_eq_ok {offset : Nat} {text : Text} {nodes : List Node}
    (hne : text ≠ [])
    (h : blocksFrom tokenizers depth nested offset text = .ok nodes) :
    ∃ claim others, isValidLength claim.length (text ++ terminator) = true ∧
      blocksFrom tokenizers depth nested (offset + claim.length) (after claim.length text) =
        .ok others ∧
      nodes = place offset (Text.byteLength text) claim ++ others := by
  rw [blocksFrom_step hne] at h
  split at h
  · simp at h
  · simp at h
  · rename_i name claim _
    split at h
    · obtain ⟨others, hothers, rfl⟩ := exists_of_map_eq_ok h
      exact ⟨claim, others, ‹_›, hothers, rfl⟩
    · simp at h

theorem spansFrom_of_blocksFrom_eq_ok {offset : Nat} {done text : Text} {nodes : List Node}
    (h : blocksFrom tokenizers depth nested offset text = .ok nodes)
    (hdone : text ≠ [] → Text.byteLength done = offset) : SpansFrom done text nodes := by
  -- By induction on the length, one claim at a time.
  induction hn : text.length using Nat.strong_induction_on generalizing offset done text nodes with
  | h n ih =>
    by_cases hne : text = []
    · subst hne
      rw [blocksFrom, dif_pos rfl] at h
      obtain rfl := Except.ok.inj h
      exact .nil done []
    · obtain ⟨claim, others, hvalid, hothers, rfl⟩ := exists_of_blocksFrom_eq_ok hne h
      obtain ⟨front, back, rfl, hfront, hback, hsize, hlength⟩ := exists_front hne hvalid
      -- The offset counts what was claimed, which runs over the end of the text at the last step.
      have hnext : back ≠ [] → Text.byteLength (done ++ front) = offset + claim.length := by
        intro hback
        rw [Text.byteLength_append, hdone hne, hlength hback]
      rw [hback] at hothers
      have hlt : back.length < n := by
        have := List.length_pos_iff.2 hfront
        rw [← hn, List.length_append]
        omega
      have hrest := ih back.length hlt hothers hnext rfl
      unfold place
      split
      · exact hrest.skip
      · refine .block ?_ hfront hrest
        rw [Node.span, hsize, Text.byteLength_append, hdone hne]

/-- The loop over `text` comes to `offset` with `rest` left of the text. -/
inductive Reaches (tokenizers : List Tokenizer) (depth : Nat)
    (nested : Text → Except Error (List Node)) (text : Text) : Nat → Text → Prop
  | start : Reaches tokenizers depth nested text 0 text
  | step {offset : Nat} {rest name : Text} {claim : Claim}
      (h : Reaches tokenizers depth nested text offset rest) (hne : rest ≠ [])
      (hclaim : claimAt? (cursorAt depth nested offset) (rest ++ terminator) tokenizers =
        .ok (some (name, claim)))
      (hvalid : isValidLength claim.length (rest ++ terminator) = true) :
      Reaches tokenizers depth nested text (offset + claim.length) (after claim.length rest)

namespace Reaches

variable {text rest : Text} {offset : Nat}

/-- Until the text is used up the offset is that of the text that is left. -/
theorem exists_done (h : Reaches tokenizers depth nested text offset rest) (hne : rest ≠ []) :
    ∃ done, text = done ++ rest ∧ Text.byteLength done = offset := by
  induction h with
  | start => exact ⟨[], rfl, rfl⟩
  | @step offset rest name claim _ hrest _ hvalid ih =>
    obtain ⟨done, rfl, rfl⟩ := ih hrest
    obtain ⟨front, back, rfl, -, hback, -, hlength⟩ := exists_front hrest hvalid
    rw [hback] at hne ⊢
    exact ⟨done ++ front, by simp, by rw [Text.byteLength_append, hlength hne]⟩

theorem isBoundary (h : Reaches tokenizers depth nested text offset rest) (hne : rest ≠ []) :
    offset < Text.byteLength text ∧ text.IsBoundary offset := by
  obtain ⟨done, rfl, rfl⟩ := h.exists_done hne
  have := Text.byteLength_pos hne
  refine ⟨?_, done, rest, rfl, rfl⟩
  rw [Text.byteLength_append]
  omega

/-- The loop fails where it fails later on. -/
theorem blocksFrom_eq_error (h : Reaches tokenizers depth nested text offset rest) {error : Error}
    (herror : blocksFrom tokenizers depth nested offset rest = .error error) :
    blocksFrom tokenizers depth nested 0 text = .error error := by
  induction h with
  | start => exact herror
  | @step offset rest name claim _ hne hclaim hvalid ih =>
    refine ih ?_
    rw [blocksFrom_step hne, hclaim]
    dsimp only
    rw [if_pos hvalid, herror]
    rfl

end Reaches

end

end Parser

/-! ## Errors of contents -/

namespace Error

theorem eq_of_within_eq_parse {error : Error} {offset place : Nat} {fault : ParseFault}
    (h : error.within offset = .parse place fault) : offset = place := by
  cases error <;> simp_all [within]

/-- An error as the containers at these offsets pass it on, the innermost container first. -/
def passedBy (error : Error) (offsets : List Nat) : Error :=
  offsets.foldl (fun error offset => error.within offset) error

theorem passedBy_concat (error : Error) (offsets : List Nat) (offset : Nat) :
    error.passedBy (offsets ++ [offset]) = (error.passedBy offsets).within offset := by
  rw [passedBy, List.foldl_append]
  rfl

/-- Only faults of the parse are placed at the containers. -/
theorem passedBy_eq_self {error : Error} (h : ∀ place fault, error ≠ .parse place fault)
    (offsets : List Nat) : error.passedBy offsets = error := by
  have hwithin (offset : Nat) : error.within offset = error := by
    cases error with
    | parse place fault => exact absurd rfl (h place fault)
    | _ => rfl
  induction offsets with
  | nil => rfl
  | cons offset offsets ih =>
    rw [passedBy, List.foldl_cons, hwithin]
    exact ih

/-- A fault of the parse stays one, with the same cause. -/
theorem exists_passedBy_parse (place : Nat) (fault : ParseFault) (offsets : List Nat) :
    ∃ outer whole, (Error.parse place fault).passedBy offsets = .parse outer whole ∧
      whole.cause = fault.cause := by
  induction offsets generalizing place fault with
  | nil => exact ⟨place, fault, rfl, rfl⟩
  | cons offset offsets ih => exact ih offset (.nested place fault)

end Error

/-! ## Attempts of the loop -/

namespace Parser

theorem claimAt?_append {cursor : Cursor} {text : Text} {front : List Tokenizer}
    (h : claimAt? cursor text front = .ok none) (back : List Tokenizer) :
    claimAt? cursor text (front ++ back) = claimAt? cursor text back := by
  induction front with
  | nil => rfl
  | cons tokenizer front ih =>
    rw [claimAt?] at h
    rw [List.cons_append, claimAt?]
    split at h
    · rw [if_pos ‹_›]
      split at h
      · simp at h
      · simp at h
      · exact ih h
    · rw [if_neg ‹_›]
      exact ih h

theorem claimAt?_cons {cursor : Cursor} {text : Text} {tokenizer : Tokenizer}
    (hlocated : (tokenizer.locate text).allowsAttempt = true)
    (hclaims : tokenizer.tryConsume cursor text ≠ .ok none) (tokenizers : List Tokenizer) :
    claimAt? cursor text (tokenizer :: tokenizers) =
      (tokenizer.tryConsume cursor text).map
        (Option.map fun claim => (tokenizer.name, claim)) := by
  rw [claimAt?, if_pos hlocated]
  cases htry : tokenizer.tryConsume cursor text with
  | error error => rfl
  | ok claim? =>
    cases claim? with
    | none => exact absurd htry hclaims
    | some claim => rfl

/-- The loop over `text` asks a tokenizer at `offset`, with `rest` left of the text, and its attempt
comes to `last`: the locator allows it, and the tokenizers in front of it have declined. -/
structure Asks (procedures : List Procedure) (depth : Nat)
    (nested : Text → Except Error (List Node)) (text : Text) (procedure : Procedure) (offset : Nat)
    (rest : Text) (last : Attempt) : Prop where
  reaches : Reaches (ofProcedures procedures).tokenizers depth nested text offset rest
  nonempty : rest ≠ []
  declined : ∃ front back, procedures = front ++ procedure :: back ∧
    claimAt? (cursorAt depth nested offset) (rest ++ terminator)
      (ofProcedures front).tokenizers = .ok none
  located : (procedure.locate (rest ++ terminator)).allowsAttempt = true
  comes : Attempt.ComesTo (cursorAt depth nested offset).tokenize
    (procedure.attempt offset depth (rest ++ terminator)) last

namespace Asks

variable {procedures : List Procedure} {depth : Nat} {nested : Text → Except Error (List Node)}
  {text : Text} {procedure : Procedure} {offset : Nat} {rest : Text} {last : Attempt}

theorem claimAt?_eq (h : Asks procedures depth nested text procedure offset rest last)
    (hlast : last.run (cursorAt depth nested offset).tokenize ≠ .ok none) :
    claimAt? (cursorAt depth nested offset) (rest ++ terminator)
        (ofProcedures procedures).tokenizers =
      (last.run (cursorAt depth nested offset).tokenize).map
        (Option.map fun claim => (procedure.name, claim)) := by
  obtain ⟨front, back, rfl, hfront⟩ := h.declined
  have htry : procedure.tokenizer.tryConsume (cursorAt depth nested offset) (rest ++ terminator) =
      last.run (cursorAt depth nested offset).tokenize :=
    h.comes.run_eq
  have happend : (ofProcedures (front ++ procedure :: back)).tokenizers =
      (ofProcedures front).tokenizers ++ procedure.tokenizer :: (ofProcedures back).tokenizers := by
    simp [ofProcedures]
  rw [happend, claimAt?_append hfront, claimAt?_cons h.located (by rwa [htry]), htry]
  rfl

/-- An attempt that fails is the end of the loop. -/
theorem blocksFrom_eq_error (h : Asks procedures depth nested text procedure offset rest last)
    {error : Error} (herror : last.run (cursorAt depth nested offset).tokenize = .error error) :
    blocksFrom (ofProcedures procedures).tokenizers depth nested 0 text = .error error := by
  have hclaim := h.claimAt?_eq (by rw [herror]; simp)
  refine h.reaches.blocksFrom_eq_error ?_
  rw [blocksFrom_step h.nonempty, hclaim, herror]
  rfl

/-- A claim of a length that is not valid is the end of the loop. -/
theorem blocksFrom_eq_badLength {claim : Claim}
    (h : Asks procedures depth nested text procedure offset rest (.finish (.ok (some claim))))
    (hlength : isValidLength claim.length (rest ++ terminator) = false) :
    blocksFrom (ofProcedures procedures).tokenizers depth nested 0 text =
      .error (.parse offset (.badLength procedure.name claim.length)) := by
  have hclaim := h.claimAt?_eq (by simp [Attempt.run])
  refine h.reaches.blocksFrom_eq_error ?_
  rw [blocksFrom_step h.nonempty, hclaim]
  simp [Attempt.run, Except.map, hlength]

end Asks

-- Unless all tokenizers decline, the first claim is what one of them makes of the text.
theorem exists_of_claimAt?_ne_none {procedures : List Procedure} {cursor : Cursor} {text : Text}
    (h : claimAt? cursor text (ofProcedures procedures).tokenizers ≠ .ok none) :
    ∃ front procedure back, procedures = front ++ procedure :: back ∧
      claimAt? cursor text (ofProcedures front).tokenizers = .ok none ∧
      (procedure.locate text).allowsAttempt = true ∧
      claimAt? cursor text (ofProcedures procedures).tokenizers =
        ((procedure.attempt cursor.offset cursor.depth text).run cursor.tokenize).map
          (Option.map fun claim => (procedure.name, claim)) := by
  induction procedures with
  | nil => exact absurd rfl h
  | cons first procedures ih =>
    by_cases hfirst : (first.tokenizer.locate text).allowsAttempt = true ∧
        first.tokenizer.tryConsume cursor text ≠ .ok none
    · exact ⟨[], first, procedures, rfl, rfl, hfirst.1, claimAt?_cons hfirst.1 hfirst.2 _⟩
    · have hdeclines : claimAt? cursor text [first.tokenizer] = .ok none := by
        rw [not_and_not_right] at hfirst
        rw [claimAt?]
        split
        · rw [hfirst ‹_›]
          rfl
        · rfl
      have hrest (more : List Procedure) :
          claimAt? cursor text (ofProcedures (first :: more)).tokenizers =
            claimAt? cursor text (ofProcedures more).tokenizers :=
        claimAt?_append hdeclines _
      rw [hrest] at h ⊢
      obtain ⟨front, procedure, back, rfl, hfront, hlocated, hclaim⟩ := ih h
      exact ⟨first :: front, procedure, back, rfl, by rw [hrest, hfront], hlocated, hclaim⟩

/-- The error in which an outcome ends the loop, if it does. -/
def failure? (procedure : Procedure) (offset : Nat) (rest : Text) :
    Except Error (Option Claim) → Option Error
  | .error error => some error
  | .ok none => none
  | .ok (some claim) =>
    if isValidLength claim.length (rest ++ terminator) then none
    else some (.parse offset (.badLength procedure.name claim.length))

/-- How the loop over `text` can fail at `offset`, where `rest` is left: no tokenizer takes
anything, an outcome ends the loop, or a content fails. -/
inductive Fails (procedures : List Procedure) (depth : Nat)
    (nested : Text → Except Error (List Node)) (text : Text) (offset : Nat) (rest : Text) :
    Error → Prop
  | unclaimed
      (h : claimAt? (cursorAt depth nested offset) (rest ++ terminator)
        (ofProcedures procedures).tokenizers = .ok none) :
      Fails procedures depth nested text offset rest (.parse offset .unclaimed)
  | outcome {procedure : Procedure} {outcome : Except Error (Option Claim)} {error : Error}
      (h : Asks procedures depth nested text procedure offset rest (.finish outcome))
      (herror : failure? procedure offset rest outcome = some error) :
      Fails procedures depth nested text offset rest error
  | content {procedure : Procedure} {content : Text} {next : List Node → Attempt} {inner : Error}
      (h : Asks procedures depth nested text procedure offset rest (.nest content next))
      (hcontent : nested content = .error inner) :
      Fails procedures depth nested text offset rest (inner.within offset)

section

variable {procedures : List Procedure} {depth : Nat} {nested : Text → Except Error (List Node)}
  {text : Text} {offset : Nat} {rest : Text} {error : Error}

-- What fails, fails at this position or behind a claim of a valid length.
theorem Reaches.fails_or_step
    (hreaches : Reaches (ofProcedures procedures).tokenizers depth nested text offset rest)
    (hne : rest ≠ [])
    (h : blocksFrom (ofProcedures procedures).tokenizers depth nested offset rest =
      .error error) :
    Fails procedures depth nested text offset rest error ∨
      ∃ claim : Claim, claim.length ≠ 0 ∧
        Reaches (ofProcedures procedures).tokenizers depth nested text (offset + claim.length)
          (after claim.length rest) ∧
        blocksFrom (ofProcedures procedures).tokenizers depth nested (offset + claim.length)
          (after claim.length rest) = .error error := by
  rw [blocksFrom_step hne] at h
  by_cases hnone : claimAt? (cursorAt depth nested offset) (rest ++ terminator)
      (ofProcedures procedures).tokenizers = .ok none
  · rw [hnone] at h
    obtain rfl := Except.error.inj h
    exact .inl (.unclaimed hnone)
  · obtain ⟨front, procedure, back, hsplit, hfront, hlocated, hclaim⟩ :=
      exists_of_claimAt?_ne_none hnone
    have hasks {last : Attempt} (hcomes : Attempt.ComesTo (cursorAt depth nested offset).tokenize
        (procedure.attempt offset depth (rest ++ terminator)) last) :
        Asks procedures depth nested text procedure offset rest last :=
      ⟨hreaches, hne, ⟨front, back, hsplit, hfront⟩, hlocated, hcomes⟩
    change _ = ((procedure.attempt offset depth (rest ++ terminator)).run _).map _ at hclaim
    rcases Attempt.comesTo_finish_or_nest (cursorAt depth nested offset).tokenize
        (procedure.attempt offset depth (rest ++ terminator)) with
      hcomes | ⟨content, next, found, hcomes, hcontent, hrun⟩
    · generalize (procedure.attempt offset depth (rest ++ terminator)).run
        (cursorAt depth nested offset).tokenize = outcome at hclaim hcomes
      rw [hclaim] at h
      cases outcome with
      | error found => exact .inl (.outcome (hasks hcomes) (by rw [failure?, Except.error.inj h]))
      | ok claim? =>
        cases claim? with
        | none => exact absurd hclaim hnone
        | some claim =>
          dsimp only [Except.map, Option.map_some] at h
          split at h
          · rename_i hvalid
            exact .inr ⟨claim, (isValidLength_iff.1 hvalid).1, .step hreaches hne hclaim hvalid,
              map_eq_error_iff.1 h⟩
          · rename_i hlength
            refine .inl (.outcome (hasks hcomes) ?_)
            rw [failure?, if_neg hlength, Except.error.inj h]
    · -- The content fails, and the attempt with it.
      rw [hclaim, hrun] at h
      obtain rfl := Except.error.inj h
      obtain ⟨inner, hinner, rfl⟩ := exists_of_mapError_eq_error hcontent
      exact .inl (.content (hasks hcomes) hinner)

/-- Unless a tokenizer raises it, a fault of the parse is placed where the loop fails. -/
theorem Fails.eq_place {place : Nat} {fault : ParseFault}
    (h : Fails procedures depth nested text offset rest (.parse place fault))
    (hraises : ∀ procedure, ¬ Asks procedures depth nested text procedure offset rest
      (.finish (.error (.parse place fault)))) : offset = place := by
  generalize hfault : Error.parse place fault = error at h
  cases h with
  | unclaimed _ => exact (Error.parse.inj hfault).1.symm
  | @outcome procedure outcome error h herror =>
    subst hfault
    cases outcome with
    | error found =>
      obtain rfl := Option.some.inj herror
      exact absurd h (hraises procedure)
    | ok claim? =>
      cases claim? with
      | none => simp [failure?] at herror
      | some claim =>
        rw [failure?] at herror
        split at herror
        · simp at herror
        · exact (Error.parse.inj (Option.some.inj herror)).1
  | content _ _ => exact Error.eq_of_within_eq_parse hfault.symm

/-- Where the loop fails, it fails at a position that it comes to. -/
theorem Reaches.exists_fails
    (hreaches : Reaches (ofProcedures procedures).tokenizers depth nested text offset rest)
    (h : blocksFrom (ofProcedures procedures).tokenizers depth nested offset rest =
      .error error) :
    ∃ place other, other ≠ [] ∧
      Reaches (ofProcedures procedures).tokenizers depth nested text place other ∧
      Fails procedures depth nested text place other error := by
  -- By induction on what is left of the text.
  induction hn : rest.length using Nat.strong_induction_on generalizing offset rest with
  | h n ih =>
    by_cases hne : rest = []
    · rw [hne, blocksFrom, dif_pos rfl] at h
      simp at h
    · rcases hreaches.fails_or_step hne h with hfails | ⟨claim, hpos, hlater, herror⟩
      · exact ⟨offset, rest, hne, hreaches, hfails⟩
      · have hlt : (after claim.length rest).length < n := by
          rw [← hn]
          exact length_after_lt hpos hne
        exact ih _ hlt hlater herror rfl

end

/-! ## Attempts of a parse -/

/-- The parse of a text comes to an attempt with this outcome, at `offset` of the text or of a
content inside of it where `rest` is left. Below `depth` there is room for `room` levels. -/
inductive Meets (procedures : List Procedure) (procedure : Procedure) (offset : Nat) (rest : Text)
    (outcome : Except Error (Option Claim)) : (room depth : Nat) → (text : Text) → Prop
  | here {room depth : Nat} {text : Text}
      (h : Asks procedures depth
        (blocksWithin (ofProcedures procedures).tokenizers room (depth + 1)) text procedure offset
        rest (.finish outcome)) :
      Meets procedures procedure offset rest outcome (room + 1) depth text
  | inside {room depth : Nat} {text : Text} {other : Procedure} {start : Nat} {left content : Text}
      {next : List Node → Attempt}
      (h : Asks procedures depth
        (blocksWithin (ofProcedures procedures).tokenizers room (depth + 1)) text other start left
        (.nest content next))
      (hinner : Meets procedures procedure offset rest outcome room (depth + 1) content) :
      Meets procedures procedure offset rest outcome (room + 1) depth text

/-- An attempt that fails is the end of the parse, and the containers around it pass its error on.
-/
theorem Meets.exists_passedBy {procedures : List Procedure} {procedure : Procedure} {offset : Nat}
    {rest : Text} {outcome : Except Error (Option Claim)} {room depth : Nat} {text : Text}
    (h : Meets procedures procedure offset rest outcome room depth text) {error : Error}
    (herror : failure? procedure offset rest outcome = some error) :
    ∃ offsets, blocksWithin (ofProcedures procedures).tokenizers room depth text =
      .error (error.passedBy offsets) := by
  induction h with
  | here h =>
    refine ⟨[], ?_⟩
    rw [blocksWithin]
    cases outcome with
    | error found =>
      obtain rfl := Option.some.inj herror
      exact h.blocksFrom_eq_error rfl
    | ok claim? =>
      cases claim? with
      | none => simp [failure?] at herror
      | some claim =>
        rw [failure?] at herror
        split at herror
        · simp at herror
        · rename_i hlength
          obtain rfl := Option.some.inj herror
          exact h.blocksFrom_eq_badLength (by simpa using hlength)
  | @inside room depth text other start left content next h _ ih =>
    obtain ⟨offsets, hcontent⟩ := ih
    refine ⟨offsets ++ [start], ?_⟩
    rw [blocksWithin]
    refine h.blocksFrom_eq_error ?_
    rw [Attempt.run, cursorAt]
    simp only [hcontent, Except.mapError, Error.passedBy_concat]

/-- Every error of a parse has a cause that the containers around it pass on: there is no room for
another level, no tokenizer takes anything at some position, or an attempt fails. -/
theorem exists_cause {procedures : List Procedure} {room depth : Nat} {text : Text} {error : Error}
    (h : blocksWithin (ofProcedures procedures).tokenizers room depth text = .error error) :
    ∃ cause offsets, error = cause.passedBy offsets ∧
      (cause = .parse 0 .tooDeep ∨ (∃ offset, cause = .parse offset .unclaimed) ∨
        ∃ procedure offset rest outcome,
          Meets procedures procedure offset rest outcome room depth text ∧
          failure? procedure offset rest outcome = some cause) := by
  induction room generalizing depth text error with
  | zero => exact ⟨.parse 0 .tooDeep, [], (Except.error.inj h).symm, .inl rfl⟩
  | succ room ih =>
    rw [blocksWithin] at h
    obtain ⟨place, other, -, -, hfails⟩ := Reaches.start.exists_fails h
    cases hfails with
    | unclaimed _ => exact ⟨_, [], rfl, .inr (.inl ⟨place, rfl⟩)⟩
    | outcome hasks herror => exact ⟨error, [], rfl, .inr (.inr ⟨_, _, _, _, .here hasks, herror⟩)⟩
    | content hasks hcontent =>
      obtain ⟨cause, offsets, rfl, hcause⟩ := ih hcontent
      refine ⟨cause, offsets ++ [place], (Error.passedBy_concat ..).symm, ?_⟩
      rcases hcause with
        hdeep | hunclaimed | ⟨procedure, offset, rest, outcome, hmeets, hfailure⟩
      · exact .inl hdeep
      · exact .inr (.inl hunclaimed)
      · exact .inr (.inr ⟨procedure, offset, rest, outcome, .inside hasks hmeets, hfailure⟩)

-- The attempt is one that the loop over some text comes to.
theorem Meets.exists_asks {procedures : List Procedure} {procedure : Procedure} {offset : Nat}
    {rest : Text} {outcome : Except Error (Option Claim)} {room depth : Nat} {text : Text}
    (h : Meets procedures procedure offset rest outcome room depth text) :
    ∃ depth nested text, Asks procedures depth nested text procedure offset rest
      (.finish outcome) := by
  induction h with
  | here h => exact ⟨_, _, _, h⟩
  | inside _ _ ih => exact ih

/-! ## Any tokenizers -/

/-- A parse is safe whatever its tokenizers do. The blocks of a tree lie one after another on
boundaries of characters. A claim of no bytes, of more than there are or of a part of a character
makes the parse fail, at whatever depth it is made. Unless a tokenizer raises a fault of the parse,
every such fault is placed in front of a character of the document. Any other error that a tokenizer
raises, at whatever depth, is that of the parse. -/
theorem parse_ofProcedures (procedures : List Procedure) (text : Text) :
    (∀ tree, (ofProcedures procedures).parse text = .ok tree →
      (∀ node ∈ tree.children, node.span.start < node.span.stop ∧
        node.span.stop ≤ Text.byteLength (Text.unifyBreaks text) ∧
        (Text.unifyBreaks text).IsBoundary node.span.start ∧
        (Text.unifyBreaks text).IsBoundary node.span.stop) ∧
      tree.children.Pairwise fun first second => first.span.stop ≤ second.span.start) ∧
    (∀ procedure offset rest claim,
      Meets procedures procedure offset rest (.ok (some claim)) (nestingLimit + 1) 0
        (Text.unifyBreaks text) →
      (claim.length = 0 ∨ Text.byteLength (rest ++ terminator) < claim.length ∨
        ¬ (rest ++ terminator).IsBoundary claim.length) →
      ∃ place fault, (ofProcedures procedures).parse text = .error (.parse place fault) ∧
        fault.cause = .badLength procedure.name claim.length) ∧
    ((∀ procedure offset rest place fault,
      ¬ Meets procedures procedure offset rest (.error (.parse place fault)) (nestingLimit + 1) 0
        (Text.unifyBreaks text)) →
      ∀ place fault, (ofProcedures procedures).parse text = .error (.parse place fault) →
        place < Text.byteLength (Text.unifyBreaks text) ∧
        (Text.unifyBreaks text).IsBoundary place) ∧
    (∀ procedure offset rest error,
      Meets procedures procedure offset rest (.error error) (nestingLimit + 1) 0
        (Text.unifyBreaks text) →
      (∀ place fault, error ≠ .parse place fault) →
      (ofProcedures procedures).parse text = .error error) := by
  refine ⟨fun tree htree => ?_, fun procedure offset rest claim hmeets hlength => ?_,
    fun hraises place fault hparse => ?_, fun procedure offset rest error hmeets hother => ?_⟩
  · have hspans : SpansFrom [] (Text.unifyBreaks text) tree.children :=
      spansFrom_of_blocksFrom_eq_ok (parse_eq_ok htree).2 fun _ => rfl
    exact ⟨fun node hnode => ⟨hspans.nonempty node hnode, (hspans.stops node hnode).le,
      hspans.starts node hnode, hspans.stops node hnode⟩, hspans.increasing⟩
  · have hfailure : failure? procedure offset rest (.ok (some claim)) =
        some (.parse offset (.badLength procedure.name claim.length)) := by
      rw [failure?, isValidLength_eq_false hlength]
      rfl
    obtain ⟨offsets, hblocks⟩ := hmeets.exists_passedBy hfailure
    obtain ⟨place, fault, hpassed, hcause⟩ :=
      Error.exists_passedBy_parse offset (.badLength procedure.name claim.length) offsets
    rw [hpassed] at hblocks
    exact ⟨place, fault, parse_eq_error_iff.2 hblocks, hcause⟩
  · have hblocks : blocksFrom (ofProcedures procedures).tokenizers 0
        (blocksWithin (ofProcedures procedures).tokenizers nestingLimit 1) 0
          (Text.unifyBreaks text) = .error (.parse place fault) :=
      parse_eq_error_iff.1 hparse
    obtain ⟨offset, rest, hne, hreaches, hfails⟩ := Reaches.start.exists_fails hblocks
    obtain rfl := hfails.eq_place fun procedure hasks =>
      hraises procedure offset rest place fault (.here hasks)
    exact hreaches.isBoundary hne
  · obtain ⟨offsets, hblocks⟩ := hmeets.exists_passedBy rfl
    rw [Error.passedBy_eq_self hother] at hblocks
    exact parse_eq_error_iff.2 hblocks

/-- A tokenizer that hands back what stands behind `>` on a line, takes an `x`, claims the first
half of an `é` and fails at `!`. -/
def markedLines : Procedure where
  name := "marked_lines".toList
  locate _ := .always
  attempt _ _ text :=
    match text with
    | '>' :: rest => .nest (Text.cutLine rest).1 fun nodes => .finish (.ok (some
        (.container (Text.byteLength (Text.cutLine rest).1 + 2) .blockQuote nodes)))
    | 'x' :: _ => .finish (.ok (some (.leaf 1 .paragraph)))
    | 'é' :: _ => .finish (.ok (some (.skip 1)))
    | '!' :: _ => .finish (.error (.compile "unexpected".toList))
    | _ => .finish (.ok none)

-- No attempt of it ends with a fault of the parse.
theorem markedLines_raises {procedure : Procedure} {offset : Nat} {rest text : Text}
    {room depth place : Nat} {fault : ParseFault} :
    ¬ Meets [markedLines] procedure offset rest (.error (.parse place fault)) room depth text := by
  intro hmeets
  obtain ⟨depth, nested, text, hasks⟩ := hmeets.exists_asks
  obtain ⟨front, back, hsplit, -⟩ := hasks.declined
  obtain rfl : markedLines = procedure := by
    cases front <;> simp_all
  have hcomes := hasks.comes
  dsimp only [markedLines] at hcomes
  split at hcomes
  · cases hcomes with
    | next _ h => cases h
  all_goals cases hcomes

/-- A claim that runs into the terminator, a claim of half a character two levels down, a character
that nothing takes, and an error from inside of a container. -/
theorem parse_ofProcedures_markedLines :
    (∃ tree, (ofProcedures [markedLines]).parse ['>', 'x'] = .ok tree ∧
      tree.children.map Node.span = [⟨0, 2⟩] ∧
      tree.children.Pairwise fun first second => first.span.stop ≤ second.span.start) ∧
    (∃ place fault,
      (ofProcedures [markedLines]).parse ['>', '>', 'é'] = .error (.parse place fault) ∧
      fault.cause = .badLength markedLines.name 1) ∧
    (∃ fault, (ofProcedures [markedLines]).parse ['x', '?'] = .error (.parse 1 fault) ∧
      1 < Text.byteLength (Text.unifyBreaks ['x', '?'])) ∧
    (ofProcedures [markedLines]).parse ['x', '>', '!'] = .error (.compile "unexpected".toList) := by
  have hsafe := parse_ofProcedures [markedLines]
  -- The one tokenizer is asked wherever something of the text is left.
  have hasks {depth : Nat} {nested : Text → Except Error (List Node)} {text : Text} {offset : Nat}
      {rest : Text} {last : Attempt}
      (hreaches : Reaches (ofProcedures [markedLines]).tokenizers depth nested text offset rest)
      (hne : rest ≠ []) (hlast : markedLines.attempt offset depth (rest ++ terminator) = last) :
      Asks [markedLines] depth nested text markedLines offset rest last :=
    ⟨hreaches, hne, ⟨[], [], rfl, rfl⟩, rfl, hlast ▸ .here _⟩
  refine ⟨?_, ?_, ?_, ?_⟩
  · have h : ((ofProcedures [markedLines]).parse ['>', 'x']).toOption.any
        (fun tree => tree.children.map Node.span = [⟨0, 2⟩]) = true := by
      decide +kernel
    obtain ⟨tree, htree, hspans⟩ := exists_ok_of_any h
    exact ⟨tree, htree, by simpa using hspans, ((hsafe _).1 tree htree).2⟩
  · refine (hsafe ['>', '>', 'é']).2.1 markedLines 0 ['é'] (.skip 1) ?_ (.inr (.inr ?_))
    · exact .inside (hasks .start (by decide) rfl)
        (.inside (hasks .start (by decide) rfl) (.here (hasks .start (by decide) rfl)))
    · rw [← Text.isSome_dropBytes?_iff]
      decide
  · have h : ((ofProcedures [markedLines]).parse ['x', '?']).map (fun _ => ()) =
        .error (.parse 1 .unclaimed) := by
      decide +kernel
    have hparse := map_eq_error_iff.1 h
    exact ⟨.unclaimed, hparse,
      ((hsafe ['x', '?']).2.2.1 (fun _ _ _ _ _ => markedLines_raises) 1 _ hparse).1⟩
  · refine (hsafe ['x', '>', '!']).2.2.2 markedLines 0 ['!'] (.compile "unexpected".toList) ?_
      (by simp)
    have hreaches {depth : Nat} {nested : Text → Except Error (List Node)} :
        Reaches (ofProcedures [markedLines]).tokenizers depth nested ['x', '>', '!'] 1
          ['>', '!'] := by
      have hclaim : claimAt? (cursorAt depth nested 0) (['x', '>', '!'] ++ terminator)
          (ofProcedures [markedLines]).tokenizers =
            .ok (some (markedLines.name, .leaf 1 .paragraph)) := rfl
      exact .step .start (by decide) hclaim (by decide)
    exact .inside (hasks hreaches (by decide) rfl) (.here (hasks .start (by decide) rfl))

end Parser

end DocumentLayout
