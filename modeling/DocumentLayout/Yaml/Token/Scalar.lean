import DocumentLayout.Yaml.Input

/-!
# Scalars

The three ways to write a scalar: plain, between quotes, and as a block of lines. Line breaks
inside a plain or quoted scalar are folded: one becomes a space, and of several the first is left
out.
-/

namespace DocumentLayout.Yaml

/-! ## Folding -/

/-- The white space between two words of a scalar: blanks within a line, and once there is a line
break, the first break and the breaks after it. -/
structure Gap where
  blanks : Text
  breaks : Option (Text × Text)
  deriving Repr, Inhabited

namespace Gap

/-- No white space. -/
def none : Gap := ⟨[], .none⟩

/-- What the white space contributes to the scalar. -/
def text (gap : Gap) : Text :=
  match gap.breaks with
  | .none => gap.blanks
  | some (first, more) =>
    if first.head? = some '\n' then (if more = [] then [' '] else more) else first ++ more

/-- White space in the input, added to a gap. At the start of a line a tab before column `indent`
is refused. -/
def read? (indent : Nat) : Nat → Gap → Input → Option (Gap × Input)
  | 0, gap, input => some (gap, input)
  | fuel + 1, gap, input =>
    match input.peek? with
    | .none => some (gap, input)
    | some c =>
      if isBlank c then
        match gap.breaks with
        | .none => read? indent fuel { gap with blanks := gap.blanks ++ [c] } (input.advance 1)
        | some _ =>
          if c == '\t' && input.column < indent then .none
          else read? indent fuel gap (input.advance 1)
      else if isBreak c then
        let (text, after) := input.takeBreak
        let breaks := match gap.breaks with
          | .none => (text, [])
          | some (first, more) => (first, more ++ text)
        read? indent fuel ⟨[], some breaks⟩ after
      else some (gap, input)

end Gap

/-! ## Plain scalars -/

/-- The characters that have a meaning of their own inside brackets and braces. -/
def isFlowIndicator (c : Char) : Bool :=
  c == ',' || c == '[' || c == ']' || c == '\x7b' || c == '\x7d'

/-- The next word of a plain scalar: up to white space, a colon before white space, or inside
brackets an indicator. A colon directly before an indicator is refused there. -/
def plainWord? (inFlow : Bool) : Text → Option Text
  | [] => some []
  | c :: rest =>
    if isBlankOrBreak c then some []
    else if inFlow && c == ':' && rest.head?.any (fun d => isFlowIndicator d || d == '?') then none
    else if c == ':' && endsOrBlank rest then some []
    else if inFlow && isFlowIndicator c then some []
    else (plainWord? inFlow rest).map (c :: ·)

/-- A scalar, the input after it, and whether a line break stands behind it. -/
structure PlainScalar where
  text : Text
  input : Input
  endsLine : Bool

/-- The rest of a plain scalar of which `text` and then `gap` have been read. It goes on as long as
its lines are indented to column `indent`, which does not matter inside brackets. -/
def plainFrom? (inFlow : Bool) (indent : Nat) : Nat → Text → Gap → Input → Option PlainScalar
  | 0, text, gap, input => some ⟨text, input, gap.breaks.isSome⟩
  | fuel + 1, text, gap, input =>
    if input.startsDocumentMarker || input.peek? = some '#' then
      some ⟨text, input, gap.breaks.isSome⟩
    else
      match plainWord? inFlow input.rest with
      | none => none
      | some [] => some ⟨text, input, gap.breaks.isSome⟩
      | some word =>
        let text := text ++ gap.text ++ word
        let input := input.advance word.length
        if input.peek?.any isBlankOrBreak then
          match Gap.read? indent (input.rest.length + 1) .none input with
          | none => none
          | some (gap, input) =>
            if !inFlow && input.column < indent then some ⟨text, input, gap.breaks.isSome⟩
            else plainFrom? inFlow indent fuel text gap input
        else some ⟨text, input, false⟩

/-- The plain scalar that starts here. -/
def plainScalar? (inFlow : Bool) (indent : Nat) (input : Input) : Option PlainScalar :=
  plainFrom? inFlow indent (input.rest.length + 1) [] .none input

/-! ## Quoted scalars -/

/-- What the letter of an escape stands for, when it stands for one character. -/
def escaped? (c : Char) : Option Char :=
  match c with
  | '0' => some '\x00'
  | 'a' => some '\x07'
  | 'b' => some '\x08'
  | 't' => some '\t'
  | '\t' => some '\t'
  | 'n' => some '\n'
  | 'v' => some '\x0b'
  | 'f' => some '\x0c'
  | 'r' => some '\r'
  | 'e' => some '\x1b'
  | ' ' => some ' '
  | '"' => some '"'
  | '/' => some '/'
  | '\\' => some '\\'
  | 'N' => some '\u0085'
  | '_' => some '\u00a0'
  | 'L' => some '\u2028'
  | 'P' => some '\u2029'
  | _ => none

/-- The number of digits that follow the letter of an escape by code point. -/
def escapeDigits? (c : Char) : Option Nat :=
  match c with
  | 'x' => some 2
  | 'u' => some 4
  | 'U' => some 8
  | _ => none

/-- The character of an escape whose backslash has been read, and the characters it takes. -/
def escape? : Text → Option (Char × Nat)
  | [] => none
  | c :: rest =>
    match escapeDigits? c with
    | some count =>
      (Text.hexNumber? count rest).bind fun n => (Text.ofCodePoint? n).map fun d => (d, count + 1)
    | none => (escaped? c).map fun d => (d, 1)

/-- The word of a quoted scalar up to white space, the closing quote or the end of the text, and
the input after it; the flag tells that it ended in an escaped line break. -/
def quotedWord? (double : Bool) : Nat → Text → Input → Option (Text × Input × Bool)
  | 0, word, input => some (word, input, false)
  | fuel + 1, word, input =>
    match input.rest with
    | [] => some (word, input, false)
    | c :: rest =>
      if isBlankOrBreak c then some (word, input, false)
      else if !double && c == '\'' then
        match rest with
        | '\'' :: _ => quotedWord? double fuel (word ++ ['\'']) (input.advance 2)
        | _ => some (word, input, false)
      else if double && c == '"' then some (word, input, false)
      else if double && c == '\\' then
        if rest.head?.any isBreak then some (word, (input.advance 1).takeBreak.2, true)
        else
          match escape? rest with
          | none => none
          | some (d, count) => quotedWord? double fuel (word ++ [d]) (input.advance (count + 1))
      else quotedWord? double fuel (word ++ [c]) (input.advance 1)

/-- The rest of a quoted scalar of which `text` has been read, and the input after its quote. A
line that looks like the start or the end of a document is refused. -/
def quotedFrom? (double : Bool) : Nat → Text → Input → Option (Text × Input)
  | 0, _, _ => none
  | fuel + 1, text, input =>
    if input.startsDocumentMarker then none
    else
      match quotedWord? double (input.rest.length + 1) [] input with
      | none => none
      | some (word, input, joined) =>
        let text := text ++ word
        match input.peek? with
        | none => none
        | some c =>
          if c == (if double then '"' else '\'') then some (text, input.advance 1)
          else
            let gap : Gap := ⟨[], if joined then some ([], []) else none⟩
            match gap.read? 0 (input.rest.length + 1) input with
            | none => none
            | some (gap, input) => quotedFrom? double fuel (text ++ gap.text) input

/-- The quoted scalar whose opening quote comes next. -/
def quotedScalar? (double : Bool) (input : Input) : Option (Text × Input) :=
  quotedFrom? double (input.rest.length + 1) [] (input.advance 1)

/-! ## Block scalars -/

/-- What happens to the line breaks at the end of a block scalar. -/
inductive Chomping where
  /-- All are left out. -/
  | strip
  /-- One is kept. -/
  | clip
  /-- All are kept. -/
  | keep
  deriving DecidableEq, Repr, Inhabited

/-- The header of a block scalar after its indicator: chomping and the indentation of its lines
relative to the block around it, in either order and both optional. -/
def blockHeader? (input : Input) : Option (Chomping × Option Nat × Input) :=
  let chomping? (c : Char) : Option Chomping :=
    if c = '+' then some .keep else if c = '-' then some .strip else none
  let digit? (c : Char) : Option Nat :=
    if c.isDigit then some (c.toNat - '0'.toNat) else none
  let header : Chomping × Option Nat × Nat :=
    match input.rest with
    | c :: rest =>
      match chomping? c, digit? c with
      | some chomping, _ =>
        match rest.head?.bind digit? with
        | some n => (chomping, some n, 2)
        | none => (chomping, none, 1)
      | none, some n =>
        match rest.head?.bind chomping? with
        | some chomping => (chomping, some n, 2)
        | none => (.clip, some n, 1)
      | none, none => (.clip, none, 0)
    | [] => (.clip, none, 0)
  let (chomping, increment, width) := header
  if increment = some 0 then none
  else
    let input := ((input.advance width).skipWhile isBlank).skipComment
    if input.peek?.all isBreak then some (chomping, increment, input.takeBreak.2) else none

/-- The empty lines in front of the next line of a block scalar, the greatest column reached in
them, and the input at that line. With the indentation `indent` known, blanks are skipped up to
it; before it a tab is refused. -/
def blockBreaks? (indent : Option Nat) :
    Nat → Text → Nat → Input → Option (Text × Nat × Input)
  | 0, breaks, widest, input => some (breaks, widest, input)
  | fuel + 1, breaks, widest, input =>
    let spaces := (input.rest.takeWhile (· == ' ')).length
    let count := match indent with
      | some n => min spaces (n - input.column)
      | none => spaces
    let input := input.advance count
    let widest := max widest input.column
    let before := match indent with
      | some n => input.column < n
      | none => true
    match input.peek? with
    | none => some (breaks, widest, input)
    | some c =>
      if before && c == '\t' then none
      else if isBreak c then
        let (text, input) := input.takeBreak
        blockBreaks? indent fuel (breaks ++ text) widest input
      else some (breaks, widest, input)

/-- The lines of a block scalar at column `indent`, given the text so far, the break that ends its
last line, whether that line starts with a blank, and the empty lines after it. -/
def blockLines? (literal : Bool) (indent : Nat) :
    Nat → Text → Text → Bool → Text → Input → Option (Text × Text × Text × Input)
  | 0, text, ending, _, empty, input => some (text, ending, empty, input)
  | fuel + 1, text, ending, indented, empty, input =>
    if input.column == indent && !input.rest.isEmpty then
      let blank := input.peek?.any isBlank
      let folded := !literal && ending.head? = some '\n' && !indented && !blank
      let text := text ++ (if folded then (if empty = [] then [' '] else []) else ending) ++ empty
      let (line, input) := input.takeWhile (!isBreak ·)
      let (ending, input) := input.takeBreak
      match blockBreaks? (some indent) (input.rest.length + 1) [] 0 input with
      | none => none
      | some (empty, _, input) =>
        blockLines? literal indent fuel (text ++ line) ending blank empty input
    else some (text, ending, empty, input)

/-- The block scalar whose indicator comes next, inside a block of indentation `parent`, which is
negative outside any block. -/
def blockScalar? (literal : Bool) (parent : Int) (input : Input) : Option (Text × Input) :=
  match blockHeader? (input.advance 1) with
  | none => none
  | some (chomping, increment, input) =>
    let known := increment.map fun n => ((max parent 0) + n).toNat
    match blockBreaks? known (input.rest.length + 1) [] 0 input with
    | none => none
    | some (empty, widest, input) =>
      let indent := known.getD (max widest (max (parent + 1) 1).toNat)
      match blockLines? literal indent (input.rest.length + 1) [] [] false empty input with
      | none => none
      | some (text, ending, empty, input) =>
        some (text ++ (if chomping = .strip then [] else ending) ++
          (if chomping = .keep then empty else []), input)

end DocumentLayout.Yaml
