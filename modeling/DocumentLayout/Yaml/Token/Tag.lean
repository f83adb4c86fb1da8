import DocumentLayout.Yaml.Input
import DocumentLayout.Yaml.Token

/-!
# Names, tags and directives

The tokens that start with an indicator and go on with a name: anchors and aliases, tags, and the
directives in front of a document.
-/

namespace DocumentLayout.Yaml

/-! ## Anchors -/

/-- The name of an anchor or of an alias whose indicator comes next. White space or one of a few
indicators has to follow it. -/
def anchorName? (input : Input) : Option (Text × Input) :=
  let (name, input) := (input.advance 1).takeWhile isNameChar
  let ends := input.peek?.all fun c =>
    isBlankOrBreak c || c == '?' || c == ':' || c == ',' || c == ']' || c == '\x7d' || c == '%' ||
      c == '@' || c == '\x60'
  if name = [] ∨ !ends then none else some (name, input)

/-! ## Tags -/

/-- The characters of a tag; commas and brackets only where they cannot end a flow entry. -/
def isTagChar (full : Bool) (c : Char) : Bool :=
  isNameChar c || ";/?:@&=+$.%!~*'()".toList.contains c || (full && ",[]".toList.contains c)

/-- The number of octets of the UTF-8 form of a character with this first octet. -/
def octetCount? (octet : Nat) : Option Nat :=
  if octet < 0x80 then some 1
  else if 0xC0 ≤ octet ∧ octet < 0xE0 then some 2
  else if 0xE0 ≤ octet ∧ octet < 0xF0 then some 3
  else if 0xF0 ≤ octet ∧ octet < 0xF8 then some 4
  else none

/-- The octets of `count` escapes, each a `%` and two digits in base sixteen. -/
def escapedOctets? : Nat → Text → Option (List Nat)
  | 0, _ => some []
  | count + 1, '%' :: rest =>
    (Text.hexNumber? 2 rest).bind fun octet =>
      (escapedOctets? count (rest.drop 2)).map (octet :: ·)
  | _ + 1, _ => none

/-- The character that octets of its UTF-8 form stand for. -/
def charOfOctets? (octets : List Nat) : Option Char :=
  let code? (first : Nat) (rest : List Nat) : Option Nat :=
    if rest.all fun octet => 0x80 ≤ octet && octet < 0xC0 then
      some (rest.foldl (fun n octet => 64 * n + (octet - 0x80)) first)
    else none
  let code := match octets with
    | [a] => some a
    | [a, b] => code? (a - 0xC0) [b]
    | [a, b, c] => code? (a - 0xE0) [b, c]
    | [a, b, c, d] => code? (a - 0xF0) [b, c, d]
    | _ => none
  (code.bind Text.ofCodePoint?).filter fun c => c.utf8Size = octets.length

/-- The characters of a tag, with escapes replaced by the characters they stand for. -/
def tagText? (full : Bool) : Nat → Input → Option (Text × Input)
  | 0, input => some ([], input)
  | fuel + 1, input =>
    match input.rest with
    | [] => some ([], input)
    | c :: rest =>
      if c = '%' then do
        let first ← Text.hexNumber? 2 rest
        let count ← octetCount? first
        let octets ← escapedOctets? count input.rest
        let d ← charOfOctets? octets
        let (text, input) ← tagText? full fuel (input.advance (3 * count))
        some (d :: text, input)
      else if isTagChar full c then
        (tagText? full fuel (input.advance 1)).map fun (text, input) => (c :: text, input)
      else some ([], input)

/-- The handle at the start of a tag: `!`, a name, and a second `!` if there is one. -/
def tagHandle? (input : Input) : Option (Text × Input) :=
  match input.rest with
  | '!' :: _ =>
    let (name, input) := (input.advance 1).takeWhile isNameChar
    if input.peek? = some '!' then some ('!' :: name ++ ['!'], input.advance 1)
    else some ('!' :: name, input)
  | _ => none

/-- Whether a handle is closed by a second `!`. -/
def isClosedHandle (handle : Text) : Bool := 2 ≤ handle.length && handle.getLast? == some '!'

/-- The tag that comes next. What looks like a handle but is not closed is part of the tag itself,
and a lone `!` is a tag of its own. -/
def tag? (inFlow : Bool) (input : Input) : Option (Token × Input) := do
  let (token, input) ←
    match input.rest with
    | '!' :: '<' :: _ => do
      let (text, input) ← tagText? true (input.rest.length + 1) (input.advance 2)
      if text = [] ∨ input.peek? ≠ some '>' then none
      else some (Token.tag [] text, input.advance 1)
    | _ => do
      let (handle, input) ← tagHandle? input
      let (text, input) ← tagText? false (input.rest.length + 1) input
      if isClosedHandle handle then
        if text = [] then none else some (Token.tag handle text, input)
      else
        let suffix := handle.drop 1 ++ text
        if suffix = [] then some (Token.tag [] ['!'], input)
        else some (Token.tag ['!'] suffix, input)
  if endsOrBlank input.rest ∨ (inFlow ∧ input.peek? = some ',') then some (token, input) else none

/-! ## Directives -/

/-- A number of a version, of one to nine digits. -/
def versionNumber? (input : Input) : Option (Nat × Input) :=
  let (digits, input) := input.takeWhile Char.isDigit
  if digits = [] ∨ 9 < digits.length then none else some (Text.decimalValue digits, input)

/-- The directive whose `%` comes next, and the input after its line. -/
def directive? (input : Input) : Option (Token × Input) := do
  let (name, input) := (input.advance 1).takeWhile isNameChar
  let (token, input) ←
    if !endsOrBlank input.rest then none
    else if name = "YAML".toList then do
      let (major, input) ← versionNumber? (input.skipWhile isBlank)
      if input.peek? ≠ some '.' then none
      else
        let (minor, input) ← versionNumber? (input.advance 1)
        some (Token.versionDirective major minor, input)
    else if name = "TAG".toList then do
      let (handle, input) ← tagHandle? (input.skipWhile isBlank)
      if !(isClosedHandle handle || handle = ['!']) ∨ !input.peek?.any isBlank then none
      else
        let input := input.skipWhile isBlank
        let (lead, input) ← tagText? true (input.rest.length + 1) input
        if lead = [] ∨ !endsOrBlank input.rest then none
        else some (Token.tagDirective handle lead, input)
    else none
  let input := (input.skipWhile isBlank).skipComment
  if input.peek?.all isBreak then some (token, input.takeBreak.2) else none

end DocumentLayout.Yaml
