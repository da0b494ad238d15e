import Blueprint.Command.Arguments
import Blueprint.Files.Access
import Blueprint.Format.Registry
import Blueprint.Identity
import Blueprint.Log.Filter
import Blueprint.Project.Report
import Blueprint.Project.Writing
import Blueprint.Settings.Basic

/-!
# Running the command

Each verb reads its files, answers on standard output and ends with an exit code. The first thing
that goes wrong ends the run with code 1 and a line on the error stream. An export reads and checks
all its files before it writes any. Settings that cannot be taken in at all, by an index without a
place or a log filter whose parts split a character, make the run break off with a code of its own.

Of the log only the event of a written project is kept, since the folder in it is shown as it is and
may hold line breaks. Left out are the warning for each diagnostic of a file that is loaded and the
debug and trace events of parsing and planning: each of them is a single line behind a time and a
level. The filter is always that of the settings, as if the environment named none.
-/
namespace Blueprint.Command

/-- What a run leaves behind, apart from files. -/
structure Outcome where
  code : UInt8 := 0
  output : String := ""
  /-- What is said on the error stream: errors, warnings of a project, and of the log the event of a
  written project. -/
  notices : List String := []
  deriving DecidableEq

namespace Outcome

/-- A run that could not do what it was asked. -/
def failure (message : String) : Outcome :=
  { code := 1, notices := ["Error: " ++ message] }

def breakdown (notices : List String) : Outcome :=
  { code := 101, notices }

/-- The outcome of arguments that ask for nothing that is run. -/
def ofEnding : Ending → Outcome
  | .usage => { code := 2 }
  | .version => { output := "weave 0.1.0\n" }
  | .help => {}

end Outcome

variable {m : Type → Type} [Monad m] [FileAccess m]

def notText : String := "stream did not contain valid UTF-8"

def decode (content : ByteArray) : Except String String :=
  match String.fromUTF8? content with
  | some text => .ok text
  | none => .error notText

/-- The text of a file, or what keeps it from being read. -/
def readText (path : String) : m (Except String String) := do
  match ← FileAccess.read path with
  | .ok content => return decode content
  | .error e => return .error e.message

def readSource (path : String) : m (Except String String) := do
  match ← readText path with
  | .ok source => return .ok source
  | .error reason => return .error ("Error reading file " ++ path ++ ": " ++ reason)

/-- The file of settings that is picked up when no other is named. -/
def localSettings : String := "weave.toml"

/-- A file of settings that has been found. -/
structure SettingsFile where
  path : Path
  content : ByteArray

/-- The file of settings at a path, whose name may lack its ending. -/
def readSettingsFile (path : String) : m (Option SettingsFile) := do
  match ← FileAccess.read path with
  | .ok content => return some ⟨.ofText path, content⟩
  | .error _ =>
    match (Path.ofText path).withEnding? ".toml" with
    | none => return none
    | some ended => return (← FileAccess.read ended.text).toOption.map fun content => ⟨ended, content⟩

/-- The layer that a file of settings makes. A file that must be there must also be text. -/
def settingsLayer (config : Option String) (file : Option SettingsFile) : SettingsLayer :=
  { source := file.bind fun f => String.fromUTF8? f.content, required := config.isSome }

/-- Where settings come from, as a message says it. -/
def SettingsFile.origin (file : SettingsFile) : String :=
  " in " ++ Path.text (file.path.filter (· ≠ .here))

/-- How a run ends that has no settings, when they were looked for at a path and found in a file
perhaps. -/
def settingsEnding (path : String) (file : Option SettingsFile) : SettingsError → Outcome
  | .noPlace => .breakdown []
  | .missingFile =>
    fault (if file.isSome then notText else "configuration file \"" ++ path ++ "\" not found")
  | .badFile => fault ("malformed TOML" ++ origin)
  | .notText key => fault (key ++ " is not a text" ++ origin)
  | .notSection => fault "a section is incomplete"
  | .badKey => fault "malformed key"
where
  fault (reason : String) : Outcome := .failure ("Error loading configuration: " ++ reason)
  origin : String := (file.map SettingsFile.origin).getD ""

/-- The settings of a run: the file that is named, or the local one if it is there, and the level. -/
def loadSettings (config level : Option String) : m (Except Outcome Settings) := do
  let path := config.getD localSettings
  let file ← readSettingsFile path
  let overrides := (level.map fun level => (⟨"logging.level", level⟩ : Override)).toList
  return (Settings.load [settingsLayer config file] overrides).mapError (settingsEnding path file)

/-- The ending of a file name after its last dot, which is not the first character. -/
def extension? (path : String) : Option String :=
  match (Path.ofText path).getLast? with
  | some (.name n) =>
    let stem := (n.toList.reverse.dropWhile (· != '.')).reverse
    if stem.length ≤ 1 then none else some (String.ofList (n.toList.drop stem.length))
  | _ => none

/-- A description without the blanks at its end. -/
def trimmedSource (source : String) : String :=
  String.ofList (Text.trimEnd source.toList)

/-- The record in a text that was read from a path: JSON if the path says so, else a description. The
diagnostics, which only the log would tell of, are dropped. -/
def recordOf (path source : String) : StateM Parser (Except String ClassRecord) := do
  if extension? path = some "json" then
    match Exchange.readRecord source with
    | .ok r => return .ok r
    | .error _ => return .error ("Invalid record in " ++ path)
  else
    match ← Parser.parse (trimmedSource source) with
    | .ok parsed => return .ok parsed.record
    | .error fault => return .error ("Parse error in " ++ path ++ ": " ++ fault.message)

/-- The record in a file, and the parser that follows. -/
def loadRecord (parser : Parser) (path : String) : m (Except String (ClassRecord × Parser)) := do
  match ← readSource path with
  | .error message => return .error message
  | .ok source =>
    match recordOf path source parser with
    | (.ok r, parser) => return .ok (r, parser)
    | (.error message, _) => return .error message

/-- The records in files, in order. The first file that has none ends the reading. -/
def loadRecords (parser : Parser) : List String → m (Except String (List ClassRecord))
  | [] => return .ok []
  | path :: paths => do
    match ← loadRecord parser path with
    | .error message => return .error message
    | .ok (r, parser) =>
      match ← loadRecords parser paths with
      | .error message => return .error message
      | .ok records => return .ok (r :: records)

def freshParser : Parser :=
  { table := .engine, ids := .session }

def runParse (settings : Settings) (path format : String) : m Outcome := do
  match ← loadRecord freshParser path with
  | .error message => return .failure message
  | .ok (r, _) =>
    match (Registry.builtin settings.indent).write format r with
    | .ok text => return { output := text }
    | .error e => return .failure e.message

def runValidate (path : String) : m Outcome := do
  match ← readSource path with
  | .error message => return .failure message
  | .ok source =>
    let (result, _) := Parser.parse (trimmedSource source) freshParser
    let v := Validation.ofParse result
    let findings := v.errors.map ("error: " ++ ·) ++ v.warnings.map ("warning: " ++ ·)
    if v.isValid then return { output := Script.ofLines (findings ++ [path ++ ": valid"]) }
    else return { code := 1, output := Script.ofLines findings }

def runLayout (layout : List Char → List Char) (path : String) : m Outcome := do
  match ← readSource path with
  | .error message => return .failure message
  | .ok source => return { output := String.ofList (layout source.toList) ++ "\n" }

/-- The event that so many files of a project have been written to a folder. -/
def exportEvent (folder : String) (count : Nat) : Log.Event where
  level := .info
  target := "weave::dsl::project"
  message := "exported project"
  fields := [("dir", folder), ("files", toString count)]

/-- What the log says of an event: nothing, if the filter keeps it back. -/
def logged (filter : Log.Filter) (event : Log.Event) : List String :=
  if filter.logs event then [event.text] else []

/-- Writes the plan of a project that has been checked. -/
def writeProject (settings : Settings) (filter : Log.Filter) (folder project : String)
    (records : List ClassRecord) : m Outcome := do
  match ExportPlan.build settings.layout settings.indent project records with
  | .error fault => return .failure fault.message
  | .ok plan =>
    match ← plan.writeTo folder with
    | .error e => return .failure ("Error writing " ++ folder ++ ": " ++ e.message)
    | .ok () =>
      return {
        output := "Exported " ++ toString plan.size ++ " files to " ++ folder ++ "\n"
        notices := logged filter (exportEvent folder plan.size) }

/-- Exports the records in files: their project is checked, and written if it has no errors. The notices
are the warnings of the check and the outcome's own, without log lines from the reading of the files. -/
def runExport (settings : Settings) (filter : Log.Filter) (folder project : String)
    (paths : List String) : m Outcome := do
  match ← loadRecords freshParser paths with
  | .error message => return .failure message
  | .ok records =>
    let report := Project.check records
    let warnings := report.warnings.map fun w => "warning: " ++ w.message
    let outcome ←
      if report.isOk then writeProject settings filter folder project records
      else pure (.failure ("; ".intercalate (report.errors.map Project.Error.message)))
    return { outcome with notices := warnings ++ outcome.notices }

def formatList (registry : Registry) : List String :=
  ["Available output formats:", ""] ++ registry.names.flatMap fun name =>
    ["  " ++ name] ++ ((registry.get? name).map fun format => "    " ++ format.description).toList

def runRequest (settings : Settings) (filter : Log.Filter) : Request → m Outcome
  | .parse path format => runParse settings path format
  | .validate path => runValidate path
  | .compress path => runLayout Layout.compact path
  | .expand path => runLayout Layout.spread path
  | .export folder paths project => runExport settings filter folder project paths
  | .listFormats =>
    return { output := Script.ofLines (formatList (Registry.builtin settings.indent)) }

def run (arguments : List String) : m Outcome := do
  match Invocation.ofArguments arguments with
  | .error ending => return .ofEnding ending
  | .ok invocation =>
    match ← loadSettings invocation.config invocation.level with
    | .error outcome => return outcome
    | .ok settings =>
      match Log.Filter.ofText settings.level with
      | .error directive => return .breakdown [Log.Filter.splitNotice directive]
      | .ok filter => runRequest settings filter invocation.request

end Blueprint.Command
