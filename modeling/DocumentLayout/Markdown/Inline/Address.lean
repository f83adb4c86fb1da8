import DocumentLayout.Markdown.Inline

/-!
# Addresses as links

An address is a link without further ado: between angle brackets, or on its own when it starts with
a protocol or with `www.`, or when it is the address of a mailbox.
-/

namespace DocumentLayout.Markdown

/-- Whether a character is neither white space nor punctuation. -/
def isWordChar (c : Char) : Bool := !Text.isSpace c && !Text.isPunctuation c

/-! ## Between angle brackets -/

/-- The address after an opening angle bracket that starts with a scheme, and the text after it. -/
def enclosedAddress? (text : Text) : Option (Inline × Text) :=
  let scheme := text.takeWhile fun c => c.isAlphanum || "+.-".toList.contains c
  match text.drop scheme.length with
  | ':' :: rest =>
    let path := rest.takeWhile fun c => !(c.toNat ≤ 0x20 || c.toNat == 0x7F || c == '<' || c == '>')
    match rest.drop path.length with
    | '>' :: after =>
      if scheme.head?.any Char.isAlpha ∧ 2 ≤ scheme.length ∧ scheme.length ≤ 32 then
        let address := scheme ++ ':' :: path
        some (.link ⟨address, none⟩ [.escaped address], after)
      else none
    | _ => none
  | _ => none

/-- Whether a text is one of the names that dots join in the address of a host. -/
def isHostLabel (label : Text) : Bool :=
  label.all (fun c => c.isAlphanum || c == '-') && label.length ≤ 63 &&
    label.head?.any Char.isAlphanum && label.getLast?.any Char.isAlphanum

/-- The mailbox after an opening angle bracket, and the text after it. -/
def enclosedMailbox? (text : Text) : Option (Inline × Text) :=
  let name := text.takeWhile fun c =>
    c.isAlphanum || ".!#$%&'*+/=?^_\x60\x7b|\x7d~-".toList.contains c
  match text.drop name.length with
  | '@' :: rest =>
    let host := rest.takeWhile fun c => c.isAlphanum || c == '-' || c == '.'
    match rest.drop host.length with
    | '>' :: after =>
      if name ≠ [] ∧ (List.splitOn '.' host).all isHostLabel then
        let address := name ++ '@' :: host
        some (.link ⟨"mailto:".toList ++ address, none⟩ [.escaped address], after)
      else none
    | _ => none
  | _ => none

/-! ## Addresses of the web -/

mutual

/-- Whether nothing but closing punctuation stands before the end of an address. -/
def isTrail : Text → Bool
  | [] => true
  | '<' :: _ => true
  | '&' :: rest => isReferenceTrail false rest
  | ']' :: rest => rest.head?.all (" \t\n([".toList.contains ·) || isTrail rest
  | c :: rest => if "!\"'),*.:;?_~".toList.contains c then isTrail rest else Text.isSpace c

/-- The same inside a reference, after an ampersand and, perhaps, some letters. -/
def isReferenceTrail (named : Bool) : Text → Bool
  | [] => false
  | c :: rest =>
    if c.isAlpha then isReferenceTrail true rest else c == ';' && named && isTrail rest

end

/-- The host at the start of a text, and the text after it. The last two of the names joined by dots
have no underscore; `last` and `secondLast` say whether they do so far, and `found` whether there is
any name. -/
def host? (found last secondLast : Bool) (text : Text) : Option (Text × Text) :=
  let finish := if last || secondLast || !found then none else some ([], text)
  match text with
  | [] => finish
  | c :: rest =>
    let next :=
      if c = '.' ∨ c = '_' then
        if isTrail (c :: rest) then none
        else if c = '_' then some (host? found true secondLast rest)
        else some (host? found false last rest)
      else if c = '-' then some (host? found last secondLast rest)
      else if isWordChar c then some (host? true last secondLast rest)
      else none
    match next with
    | some found => found.map fun (host, rest) => (c :: host, rest)
    | none => finish

/-- The path of an address, and the text after it. Parentheses that are opened in the path may be
closed in it: `depth` counts those that are open. -/
def addressPath (depth : Nat) : Text → Text × Text
  | [] => ([], [])
  | c :: rest =>
    let further (depth : Nat) : Text × Text :=
      let (path, rest) := addressPath depth rest
      (c :: path, rest)
    if c = '(' then further (depth + 1)
    else if c = ')' ∧ 0 < depth then further (depth - 1)
    else if "!\"&'),*.:;<?]_~)".toList.contains c then
      if isTrail (c :: rest) then ([], c :: rest) else further depth
    else if Text.isSpace c then ([], c :: rest)
    else further depth

/-- The host and the path at the start of a text, and the text after them. -/
def hostAndPath? (text : Text) : Option (Text × Text) :=
  (host? false false false text).map fun (host, rest) =>
    let (path, rest) := addressPath 0 rest
    (host ++ path, rest)

/-- The protocol at the start of a text, and the text after it. -/
def webProtocol? (text : Text) : Option (Text × Text) :=
  ["http://", "https://"].findSome? fun protocol =>
    let (front, rest) := text.splitAt protocol.length
    if Text.lowerAscii front = protocol.toList then some (front, rest) else none

/-- The address of the web at the start of a text, and the text after it. `previous` is the
character before the text. -/
def webAddress? (previous : Option Char) (text : Text) : Option (Inline × Text) :=
  match webProtocol? text with
  | some (protocol, rest) =>
    if previous.any Char.isAlpha ∨ ¬ rest.head?.any (fun c => isWordChar c && 0x20 < c.toNat) then
      none
    else
      (hostAndPath? rest).map fun (address, rest) =>
        (.address (protocol ++ address) (protocol ++ address), rest)
  | none =>
    if List.isPrefixOf "www.".toList (Text.lowerAscii (text.take 4)) ∧ 4 < text.length ∧
        previous.all ("\t\n (*_[]~".toList.contains ·) then
      (hostAndPath? text).map fun (address, rest) =>
        (.address ("http://".toList ++ address) address, rest)
    else none

/-! ## Mailboxes -/

/-- Characters of the name of a mailbox. -/
def isMailboxChar (c : Char) : Bool := c.isAlphanum || "+-._".toList.contains c

/-- The host of a mailbox, and the text after it. A dot belongs to it when a name follows. -/
def mailHost (slashes : Bool) : Text → Text × Text
  | [] => ([], [])
  | c :: rest =>
    if c.isAlphanum ∨ c = '-' ∨ c = '_' ∨ (c = '/' ∧ slashes) ∨
        (c = '.' ∧ rest.head?.any Char.isAlphanum) then
      let (host, rest) := mailHost slashes rest
      (c :: host, rest)
    else ([], c :: rest)

/-- The protocol of a mailbox that stands before its name, given from its end. -/
def mailProtocol? (before : Text) : Option Text :=
  match before with
  | ':' :: rest =>
    let name := (rest.takeWhile Char.isAlphanum).reverse
    if ["mailto", "xmpp"].contains (String.ofList (Text.lowerAscii name)) then
      some (name ++ [':'])
    else none
  | _ => none

/-- The mailbox around an `@`, with the text before it, given from its end, and the text after it.
-/
def mailbox? (before after : Text) : Option (Text × Inline × Text) :=
  let name := (before.takeWhile isMailboxChar).reverse
  let before := before.drop name.length
  if name = [] ∨ before.head? = some '/' then none
  else
    let protocol := mailProtocol? before
    let isChat := protocol.any fun name => Text.lowerAscii name = "xmpp:".toList
    let (host, after) := mailHost isChat after
    if host.contains '.' && host.getLast?.any (fun c => c.isAlpha || c == '.') then
      let address := protocol.getD [] ++ name ++ '@' :: host
      let destination := (if protocol.isSome then [] else "mailto:".toList) ++ address
      some (before.drop (protocol.getD []).length, .address destination address, after)
    else none

/-- A text with its mailboxes made links, by a count of steps that is the length of the text at
least. `before` is the part that was looked at already, from its end. -/
def mailboxesWithin : Nat → Text → Text → List Inline
  | 0, before, text => [.text (before.reverse ++ text)]
  | _, before, [] => [.text before.reverse]
  | steps + 1, before, c :: rest =>
    match if c = '@' then mailbox? before rest else none with
    | some (before, mailbox, rest) =>
      .text before.reverse :: mailbox :: mailboxesWithin steps [] rest
    | none => mailboxesWithin steps (c :: before) rest

mutual

/-- A piece with the mailboxes in its texts made links. There are no links inside links. -/
def Inline.withMailboxes : Inline → List Inline
  | .text shown => Inline.merge (mailboxesWithin shown.length [] shown)
  | .styled style content => [.styled style (Inline.allWithMailboxes content)]
  | .image target content => [.image target (Inline.allWithMailboxes content)]
  | inline => [inline]

/-- Several pieces with the mailboxes in their texts made links. -/
def Inline.allWithMailboxes : List Inline → List Inline
  | [] => []
  | inline :: rest => inline.withMailboxes ++ Inline.allWithMailboxes rest

end

end DocumentLayout.Markdown
