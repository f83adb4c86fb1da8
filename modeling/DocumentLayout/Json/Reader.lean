import DocumentLayout.Json.Number
import DocumentLayout.Text.Hex

/-!
# Reading JSON

The value of a JSON text. Nothing is forgiven: no comments, no trailing commas, no line breaks in
strings, no lone surrogates. Containers are nested to a limited depth, and no name may come twice
in an object.
-/

namespace DocumentLayout.Json

/-- White space of JSON. -/
def isSpace (c : Char) : Bool := c == ' ' || c == '\n' || c == '\t' || c == '\r'

/-- The text after white space. -/
def skipSpace (text : Text) : Text := text.dropWhile isSpace

/-! ## Strings -/

/-- The character of an escape by code unit, after its `\u`, and the characters it takes. A leading
surrogate has to be followed by the escape of a trailing one. -/
def codePoint? (text : Text) : Option (Char × Nat) :=
  (Text.hexNumber? 4 text).bind fun n =>
    if 0xDC00 ≤ n ∧ n ≤ 0xDFFF then none
    else if 0xD800 ≤ n ∧ n ≤ 0xDBFF then
      match text.drop 4 with
      | '\\' :: 'u' :: rest =>
        (Text.hexNumber? 4 rest).bind fun m =>
          if 0xDC00 ≤ m ∧ m ≤ 0xDFFF then
            some (Char.ofNat (0x10000 + 0x400 * (n - 0xD800) + (m - 0xDC00)), 10)
          else none
      | _ => none
    else some (Char.ofNat n, 4)

/-- What the letter of a short escape stands for. -/
def escaped? (c : Char) : Option Char :=
  match c with
  | '"' => some '"'
  | '\\' => some '\\'
  | '/' => some '/'
  | 'b' => some '\x08'
  | 'f' => some '\x0c'
  | 'n' => some '\n'
  | 'r' => some '\r'
  | 't' => some '\t'
  | _ => none

/-- The characters of a string whose quote has been read, and the text after its end. -/
def string? : Nat → Text → Option (Text × Text)
  | 0, _ => none
  | fuel + 1, text =>
    match text with
    | [] => none
    | '"' :: rest => some ([], rest)
    | '\\' :: 'u' :: rest =>
      (codePoint? rest).bind fun (c, count) =>
        (string? fuel (rest.drop count)).map fun (text, rest) => (c :: text, rest)
    | '\\' :: c :: rest =>
      (escaped? c).bind fun c => (string? fuel rest).map fun (text, rest) => (c :: text, rest)
    | c :: rest =>
      if c.toNat < 0x20 ∨ c = '\\' then none
      else (string? fuel rest).map fun (text, rest) => (c :: text, rest)

/-! ## Values -/

/-- How many containers may be nested. -/
def depthLimit : Nat := 127

mutual

/-- The value at the start of a text, below which `depth` containers may be nested, and the text
after it. -/
def value? : Nat → Nat → Text → Option (Value × Text)
  | 0, _, _ => none
  | fuel + 1, depth, text =>
    match skipSpace text with
    | 'n' :: 'u' :: 'l' :: 'l' :: rest => some (.null, rest)
    | 't' :: 'r' :: 'u' :: 'e' :: rest => some (.bool true, rest)
    | 'f' :: 'a' :: 'l' :: 's' :: 'e' :: rest => some (.bool false, rest)
    | '"' :: rest => (string? (fuel + 1) rest).map fun (text, rest) => (.string text, rest)
    | '[' :: rest =>
      if depth = 0 then none
      else
        match skipSpace rest with
        | ']' :: rest => some (.sequence [], rest)
        | rest => (items? fuel (depth - 1) rest).map fun (items, rest) => (.sequence items, rest)
    | '\x7b' :: rest =>
      if depth = 0 then none
      else
        match skipSpace rest with
        | '\x7d' :: rest => some (.mapping [], rest)
        | rest =>
          (members? fuel (depth - 1) [] rest).map fun (members, rest) => (.mapping members, rest)
    | text => number? text

/-- The items of an array that has some, and the text after its end. -/
def items? : Nat → Nat → Text → Option (List Value × Text)
  | 0, _, _ => none
  | fuel + 1, depth, text =>
    (value? fuel depth text).bind fun (item, rest) =>
      match skipSpace rest with
      | ',' :: rest => (items? fuel depth rest).map fun (items, rest) => (item :: items, rest)
      | ']' :: rest => some ([item], rest)
      | _ => none

/-- The members of an object that has some, after those in `known`, and the text after its end. -/
def members? : Nat → Nat → List (Value × Value) → Text → Option (List (Value × Value) × Text)
  | 0, _, _, _ => none
  | fuel + 1, depth, known, text =>
    match skipSpace text with
    | '"' :: rest =>
      (string? (fuel + 1) rest).bind fun (name, rest) =>
        match skipSpace rest with
        | ':' :: rest =>
          (value? fuel depth rest).bind fun (value, rest) =>
            if (Value.find? (.string name) known).isSome then none
            else
              let known := known ++ [(.string name, value)]
              match skipSpace rest with
              | ',' :: rest => members? fuel depth known rest
              | '\x7d' :: rest => some (known, rest)
              | _ => none
        | _ => none
    | _ => none

end

/-- The value of a JSON text; nothing when it is not well formed. -/
def read? (text : Text) : Option Value :=
  match value? (2 * text.length + 2) depthLimit text with
  | some (value, rest) => if rest.all isSpace then some value else none
  | none => none

end DocumentLayout.Json
