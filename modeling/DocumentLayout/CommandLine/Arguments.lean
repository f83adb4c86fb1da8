import DocumentLayout.Text.Basic

/-!
# Arguments

What the arguments of the program ask for. Options may be short or long, short ones may be joined,
and a value may follow its option in the same argument or in the next one. After `--` there are no
more options.
-/

namespace DocumentLayout.CommandLine

/-! ## Options -/

/-- The options of all commands. -/
inductive OptionName where
  | path
  | verbose
  | noColor
  | group
  | layout
  | html
  | format
  | «module»
  | help
  | version
  deriving DecidableEq, Repr, Inhabited

/-- How an option is written, and whether it has a value. -/
structure OptionForm where
  name : OptionName
  long : Text
  short : Option Char
  hasValue : Bool
  deriving DecidableEq, Repr, Inhabited

/-- The options that every command has. -/
def commonOptions : List OptionForm := [
  ⟨.path, "path".toList, some 'p', true⟩,
  ⟨.verbose, "verbose".toList, some 'v', false⟩,
  ⟨.noColor, "no-color".toList, none, false⟩,
  ⟨.help, "help".toList, some 'h', false⟩]

/-- The options in front of a command. -/
def rootOptions : List OptionForm :=
  commonOptions ++ [⟨.version, "version".toList, some 'V', false⟩]

/-- The options of `process`. -/
def processOptions : List OptionForm := commonOptions ++ [
  ⟨.group, "group".toList, some 'g', true⟩,
  ⟨.layout, "layout".toList, some 'l', true⟩,
  ⟨.html, "html".toList, none, false⟩,
  ⟨.format, "format".toList, none, true⟩]

/-- The options of `metadata`. -/
def metadataOptions : List OptionForm := commonOptions ++ [⟨.«module», "module".toList, none, true⟩]

/-! ## Items -/

/-- One thing that arguments say: an option with its value, which is empty for one that has none, or
a word on its own. -/
inductive Item where
  | option (name : OptionName) (value : Text)
  | word (text : Text)
  deriving DecidableEq, Repr, Inhabited

/-- What can be read of the next argument. -/
inductive Step where
  /-- Items that the argument holds. -/
  | items (found : List Item)
  /-- Items, and an option whose value is the next argument. -/
  | needsValue (found : List Item) (name : OptionName)
  /-- No option that is known. -/
  | unknown
  deriving Repr, Inhabited

/-- A long option without its dashes. Only an option that has a value may be followed by `=`. -/
def longOption (forms : List OptionForm) (text : Text) : Step :=
  let (long, value) := match Text.cutAt? ['='] text with
    | some (long, value) => (long, some value)
    | none => (text, none)
  match forms.find? (·.long == long), value with
  | none, _ => .unknown
  | some form, some value => if form.hasValue then .items [.option form.name value] else .unknown
  | some form, none =>
    if form.hasValue then .needsValue [] form.name else .items [.option form.name []]

/-- Joined short options without their dash. The first that has a value takes all the rest, after a
`=` if there is one. -/
def shortOptions (forms : List OptionForm) : Text → Step
  | [] => .items []
  | c :: rest =>
    match forms.find? (·.short == some c) with
    | none => .unknown
    | some form =>
      if form.hasValue then
        match rest with
        | [] => .needsValue [] form.name
        | '=' :: value => .items [.option form.name value]
        | value => .items [.option form.name value]
      else
        match shortOptions forms rest with
        | .items found => .items (.option form.name [] :: found)
        | .needsValue found name => .needsValue (.option form.name [] :: found) name
        | .unknown => .unknown

/-- Whether an argument is written like an option. -/
def isOption (argument : Text) : Bool := argument.head? == some '-' && argument != ['-']

/-- An argument in front of `--`. -/
def step (forms : List OptionForm) (argument : Text) : Step :=
  match argument with
  | '-' :: '-' :: long => longOption forms long
  | '-' :: c :: rest => shortOptions forms (c :: rest)
  | word => .items [.word word]

/-- The items of arguments, up to the first that cannot be understood; the flag says whether there
is such a one. -/
def items (forms : List OptionForm) : List Text → List Item × Bool
  | [] => ([], true)
  | argument :: arguments =>
    if argument = ['-', '-'] then (arguments.map .word, true)
    else
      match step forms argument with
      | .unknown => ([], false)
      | .items found =>
        let (rest, understood) := items forms arguments
        (found ++ rest, understood)
      | .needsValue found name =>
        match arguments with
        | [] => (found, false)
        | value :: arguments =>
          if isOption value then (found, false)
          else
            let (rest, understood) := items forms arguments
            (found ++ .option name value :: rest, understood)

/-! ## Requests -/

/-- What holds for every command: the root of the project, whether to say more, and whether to do
without colors. -/
structure Common where
  root : Option Text
  verbose : Bool
  noColor : Bool
  deriving DecidableEq, Repr, Inhabited

/-- A command with its arguments. -/
inductive Command where
  /-- Preprocess a document and print it, as HTML and within JSON if asked for. -/
  | process (file : Text) (group layout : Option Text) (html json : Bool)
  /-- Print the metadata of a document, or the module that exports it. -/
  | metadata (file : Text) (request : Option Text)
  /-- Tell for each document whether it exports a default. -/
  | scan (files : List Text)
  deriving DecidableEq, Repr, Inhabited

/-- What the program is asked to do. -/
inductive Request where
  | run (common : Common) (command : Command)
  /-- Nothing: there is no command. -/
  | idle
  | help
  | version
  /-- Something that it does not understand. -/
  | misuse
  deriving DecidableEq, Repr, Inhabited

/-- Whether a value suits its option: a path is not empty, and a format is one of two. -/
def isValid (name : OptionName) (value : Text) : Bool :=
  match name with
  | .path => value != []
  | .format => value == "text".toList || value == "json".toList
  | _ => true

/-- The options and words of a command. -/
structure Found where
  options : List (OptionName × Text)
  words : List Text
  deriving Repr, Inhabited

namespace Found

/-- The value of an option. -/
def value? (found : Found) (name : OptionName) : Option Text := found.options.lookup name

/-- Whether an option is there. -/
def has (found : Found) (name : OptionName) : Bool := (found.value? name).isSome

/-- What holds for every command, where the options in front of the command count if they are not
repeated after it. -/
def common (root command : Found) : Common where
  root := (command.value? .path).or (root.value? .path)
  verbose := command.has .verbose || root.has .verbose
  noColor := command.has .noColor || root.has .noColor

end Found

/-- Items sorted into options and words, or a request that comes before all others. The first item
that is wrong or asks for help or the version decides; no option may be repeated, and there may be
at most `room` words, each of them not empty. -/
def sort (understood : Bool) : Option Nat → Found → List Item → Except Request Found
  | _, found, [] => if understood then .ok found else .error .misuse
  | room, found, .word text :: items =>
    if text = [] ∨ room.any (· ≤ found.words.length) then .error .misuse
    else sort understood room { found with words := found.words ++ [text] } items
  | room, found, .option name value :: items =>
    if name = .help then .error .help
    else if name = .version then .error .version
    else if found.has name ∨ !isValid name value then .error .misuse
    else sort understood room { found with options := found.options ++ [(name, value)] } items

/-- The options and words of a command, of which there are at least one and at most `room`. -/
def commandArguments (forms : List OptionForm) (room : Option Nat) (arguments : List Text) :
    Except Request Found := do
  let (items, understood) := items forms arguments
  let found ← sort understood room ⟨[], []⟩ items
  if found.words = [] then .error .misuse else return found

/-- The names of the commands. -/
def commandNames : List Text :=
  ["process".toList, "metadata".toList, "scan".toList, "help".toList]

/-- The command with a name and the arguments after it. -/
def command (root : Found) (name : Text) (arguments : List Text) : Except Request Request :=
  if name = "process".toList then do
    let found ← commandArguments processOptions (some 1) arguments
    return .run (root.common found) (.process (found.words.headD []) (found.value? .group)
      (found.value? .layout) (found.has .html) (found.value? .format == some "json".toList))
  else if name = "metadata".toList then do
    let found ← commandArguments metadataOptions (some 1) arguments
    return .run (root.common found) (.metadata (found.words.headD []) (found.value? .«module»))
  else if name = "scan".toList then do
    let found ← commandArguments commonOptions none arguments
    return .run (root.common found) (.scan found.words)
  else if name = "help".toList ∧ arguments.length ≤ 1 ∧
      arguments.all (commandNames.contains ·) then .error .help
  else .error .misuse

/-- The items in front of a command, its name and the arguments after it. -/
def cutCommand (forms : List OptionForm) : List Text → List Item × Bool × Option (Text × List Text)
  | [] => ([], true, none)
  | argument :: arguments =>
    if argument = ['-', '-'] then ([], arguments.isEmpty, none)
    else
      match step forms argument with
      | .unknown => ([], false, none)
      | .items [.word name] => ([], true, some (name, arguments))
      | .items found =>
        let (rest, understood, command) := cutCommand forms arguments
        (found ++ rest, understood, command)
      | .needsValue found name =>
        match arguments with
        | [] => (found, false, none)
        | value :: arguments =>
          if isOption value then (found, false, none)
          else
            let (rest, understood, command) := cutCommand forms arguments
            (found ++ .option name value :: rest, understood, command)

/-- What the arguments of the program ask for. -/
def Request.ofArguments (arguments : List Text) : Request :=
  let (items, understood, named) := cutCommand rootOptions arguments
  match sort understood none ⟨[], []⟩ items with
  | .error request => request
  | .ok root =>
    match named with
    | none => .idle
    | some (name, arguments) =>
      match command root name arguments with
      | .ok request => request
      | .error request => request

end DocumentLayout.CommandLine
