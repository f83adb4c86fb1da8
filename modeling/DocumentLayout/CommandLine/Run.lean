import DocumentLayout.CommandLine.Arguments
import DocumentLayout.CommandLine.Files
import DocumentLayout.Metadata.Export
import DocumentLayout.Prose

/-!
# Running commands

What the program answers to a request: what it prints, what it reports and the status it ends with.
-/

namespace DocumentLayout.CommandLine

/-- Something that went wrong. -/
inductive Failure where
  | fault (cause : Error)
  /-- A document is missing or not in UTF-8. -/
  | unreadable (file : Text)
  /-- There was no command. -/
  | noCommand
  /-- The arguments were not understood. -/
  | misuse
  deriving Repr, Inhabited

/-- The code under which a failure is reported, if it has one. -/
def Failure.code? : Failure → Option Text
  | .fault cause => some cause.code
  | _ => none

/-- A failure in words. -/
def Failure.message : Failure → Text
  | .fault cause => cause.message
  | .unreadable file => "failed to read ".toList ++ file
  | .noCommand => "No subcommand specified. Run `mdxp --help` for usage.".toList
  | .misuse => "the arguments were not understood".toList

/-- What the program printed, what it reported in order and its status at the end. -/
structure Outcome where
  status : Nat
  output : Text
  failures : List Failure
  deriving Inhabited

/-- The outcome when all went well. -/
def Outcome.success (output : Text) : Outcome := ⟨0, output, []⟩

/-- The outcome of a command that gives up. -/
def Outcome.failure (failure : Failure) : Outcome := ⟨2, [], [failure]⟩

/-! ## Reading -/

/-- The configuration of the project at a root, or the usual one. -/
def configAt (files : Files) (common : Common) : Except Failure Config :=
  ((Config.load files (common.root.getD [])).map (·.getD .standard)).mapError .fault

/-- The text of a document. -/
def document (files : Files) (file : Text) : Except Failure Text :=
  match (files file).bind Text.ofBytes? with
  | none => .error (.unreadable file)
  | some text => .ok text

/-! ## Commands -/

/-- The layouts to choose from: a layout that is asked for stands for all groups without another
one. -/
def withLayout (config : Config) (layout : Option Text) : Config :=
  match layout with
  | none => config
  | some layout => { config with layouts := .ofList [(Layouts.defaultGroup, layout)] }

/-- A compiled document and all that is known about it, as JSON over several lines. -/
def compiledJson (file : Text) (compiled : CompiledDocument) : Except Error Text := do
  let metadata ← compiled.metadata.toJson
  let members : List (Text × Json) := [
    ("file".toList, .string file),
    ("layoutInjected".toList, .bool compiled.layoutInjected),
    ("metadata".toList, metadata),
    ("compileInput".toList, .string compiled.input),
    ("compiled".toList, .string compiled.compiled)]
  return (Json.ofMembers members).pretty 0 ++ ['\n']

/-- What `process` prints. -/
def process (files : Files) (common : Common) (file : Text) (group layout : Option Text)
    (html json : Bool) : Except Failure Text := do
  let config ← configAt files common
  let text ← document files file
  let compile := if html then Compiler.html [] else Compiler.passthrough
  let preprocessor := Preprocessor.ofConfig (withLayout config layout) compile
  let compiled ← (preprocessor.process group text).mapError .fault
  if json then (compiledJson file compiled).mapError .fault else return compiled.compiled

/-- What `metadata` prints. -/
def metadata (files : Files) (common : Common) (file : Text) (request : Option Text) :
    Except Failure Text := do
  let config ← configAt files common
  let text ← document files file
  let metadata ← ((Preprocessor.ofConfig config .passthrough).metadata text).mapError .fault
  let output ← (match request with
    | some path => metadata.exportModule path
    | none => metadata.toJson.map (Json.pretty 0)).mapError .fault
  return output ++ ['\n']

/-- Whether a document exports a default, read with the delimiter of a configuration. -/
def exportsDefault (files : Files) (config : Config) (file : Text) : Except Failure Bool := do
  let text ← document files file
  let front ← (FrontMatter.extract config.delimiter text).mapError .fault
  (hasDefaultExport [] front.body).mapError .fault

/-- A text in a color, given by its number, or as it is. -/
def colored (inColor : Bool) (color : Nat) (text : Text) : Text :=
  if inColor then
    "\x1b[".toList ++ Text.ofNat color ++ 'm' :: text ++ "\x1b[39m".toList
  else text

/-- The line of a document that was scanned. -/
def scanLine (inColor : Bool) (file : Text) (found : Bool) : Text :=
  let label := if found then colored inColor 32 "default export".toList
    else colored inColor 33 "no default export".toList
  file ++ ": ".toList ++ label ++ ['\n']

/-- The outcome of `scan` for one document. -/
def scanFile (files : Files) (config : Config) (inColor : Bool) (file : Text) : Outcome :=
  match exportsDefault files config file with
  | .ok found => .success (scanLine inColor file found)
  | .error failure => ⟨1, [], [failure]⟩

/-- The outcomes of several documents one after another, as one. -/
def Outcome.all (outcomes : List Outcome) : Outcome where
  status := if outcomes.all (·.status == 0) then 0 else 1
  output := outcomes.flatMap (·.output)
  failures := outcomes.flatMap (·.failures)

/-- The outcome of `scan`. -/
def scan (files : Files) (common : Common) (inColor : Bool) (names : List Text) : Outcome :=
  match configAt files common with
  | .error failure => .failure failure
  | .ok config => .all (names.map (scanFile files config inColor))

/-! ## The program -/

/-- The name and version of the program. -/
def versionLine : Text := "mdxp_cli 0.1.0\n".toList

/-- A short description of how to use the program. -/
def usage : Text :=
  "Usage: mdxp [--path DIR] [--verbose] [--no-color] <process | metadata | scan> FILE...\n".toList

/-- The outcome of a step that prints something or gives up. -/
def Outcome.ofResult : Except Failure Text → Outcome
  | .ok output => .success output
  | .error failure => .failure failure

/-- The environment variable that turns colors off, whatever it holds. -/
def noColorVariable : Text := "NO_COLOR".toList

/-- The outcome of a request, given the files there are and the environment variables that are
set. -/
def Request.outcome (files : Files) (environment : List Text) : Request → Outcome
  | .help => .success usage
  | .version => .success versionLine
  | .idle => ⟨1, [], [.noCommand]⟩
  | .misuse => .failure .misuse
  | .run common command =>
    match command with
    | .process file group layout html json =>
      .ofResult (process files common file group layout html json)
    | .metadata file request => .ofResult (metadata files common file request)
    | .scan names =>
      scan files common (!common.noColor && !environment.contains noColorVariable) names

/-- The paths at which a request may look for files. -/
def Request.paths : Request → List Text
  | .run common command =>
    let named := match command with
      | .process file .. => [file]
      | .metadata file _ => [file]
      | .scan files => files
    Config.candidates.map (Config.pathBelow (common.root.getD [])) ++ named
  | _ => []

end DocumentLayout.CommandLine
