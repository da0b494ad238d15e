/-!
# Command-line arguments

Arguments are read one by one. Options of the whole command may stand before or after the verb, and
the value behind the verb counts when both are given; an option may be given once on either side.
After `--` every argument is an operand, and so is every argument that follows `help`.
-/
namespace Blueprint.Command

inductive Verb where
  | parse | validate | compress | expand | export | listFormats | help
  deriving DecidableEq

def Verb.all : List Verb :=
  [.parse, .validate, .compress, .expand, .export, .listFormats, .help]

def Verb.name : Verb → String
  | parse => "parse"
  | validate => "validate"
  | compress => "compress"
  | expand => "expand"
  | .export => "export"
  | listFormats => "list-formats"
  | help => "help"

def Verb.ofName? (name : String) : Option Verb :=
  all.find? (·.name == name)

inductive Opt where
  | config | level | format | project
  deriving DecidableEq

namespace Opt

def all : List Opt :=
  [config, level, format, project]

def long : Opt → String
  | config => "config"
  | level => "log-level"
  | format => "format"
  | project => "name"

def short? : Opt → Option Char
  | config => some 'c'
  | level => none
  | format => some 'f'
  | project => some 'n'

/-- Whether the option can stand behind a verb, or before any verb. -/
def belongsTo : Opt → Option Verb → Bool
  | config, _ | level, _ => true
  | format, verb => verb = some .parse
  | project, verb => verb = some .export

end Opt

/-- What the command is asked to do. -/
inductive Request where
  | parse (path format : String)
  | validate (path : String)
  | compress (path : String)
  | expand (path : String)
  | export (folder : String) (paths : List String) (project : String)
  | listFormats
  deriving DecidableEq

/-- A request together with the options of the whole command. -/
structure Invocation where
  request : Request
  config : Option String
  level : Option String
  deriving DecidableEq

/-- Why the arguments are no invocation. -/
inductive Ending where
  | usage
  | version
  | help
  deriving DecidableEq

/-- The forms that an argument can have. -/
inductive Lexeme where
  | escape
  | long (name : String) (value : Option String)
  | short (letter : Char) (rest : List Char)
  | operand (text : String)

/-- An option with its value attached has an equals sign after its name. -/
def splitValue (s : List Char) : String × Option String :=
  match s.dropWhile (· != '=') with
  | [] => (String.ofList s, none)
  | _ :: value => (String.ofList (s.takeWhile (· != '=')), some (String.ofList value))

def Lexeme.ofText (text : String) : Lexeme :=
  match text.toList with
  | ['-', '-'] => escape
  | '-' :: '-' :: rest =>
    let (name, value) := splitValue rest
    long name value
  | '-' :: letter :: rest => short letter rest
  | _ => operand text

/-- What has been read so far. -/
structure Scan where
  verb : Option Verb := none
  /-- The options before the verb. -/
  outer : List (Opt × String) := []
  /-- The options behind the verb. -/
  inner : List (Opt × String) := []
  operands : List String := []
  /-- The option whose value comes next. -/
  pending : Option Opt := none
  /-- No more options can come. -/
  escaped : Bool := false

namespace Scan

/-- Gives an option its value. It must not have one on this side of the verb, and the path of a
configuration cannot be empty. -/
def set (scan : Scan) (opt : Opt) (value : String) : Except Ending Scan :=
  let side := if scan.verb.isSome then scan.inner else scan.outer
  if (side.lookup opt).isSome || (opt = .config && value = "") then .error .usage
  else if scan.verb.isSome then
    .ok { scan with inner := (opt, value) :: scan.inner, pending := none }
  else .ok { scan with outer := (opt, value) :: scan.outer, pending := none }

/-- How many operands a verb takes at most. -/
def capacity : Verb → Option Nat
  | .parse | .validate | .compress | .expand => some 1
  | .listFormats => some 0
  | .export | .help => none

/-- Takes in the verb or an operand of it. The folder to export to cannot be empty. -/
def addOperand (scan : Scan) (text : String) : Except Ending Scan :=
  match scan.verb with
  | none =>
    if scan.escaped then .error .usage
    else match Verb.ofName? text with
      | some verb => .ok { scan with verb := some verb }
      | none => .error .usage
  | some verb =>
    let full := (capacity verb).any (· ≤ scan.operands.length)
    if full || (verb = .export && scan.operands.isEmpty && text = "") then .error .usage
    else .ok { scan with operands := scan.operands ++ [text] }

/-- Takes in an option that is known here, with the value attached to it or the one to come. -/
def addOption (scan : Scan) (opt : Option Opt) (attached : Option String) : Except Ending Scan :=
  match opt.filter (·.belongsTo scan.verb) with
  | none => .error .usage
  | some opt =>
    match attached with
    | some value => scan.set opt value
    | none => .ok { scan with pending := some opt }

/-- The value attached to a one-letter option; an equals sign in front of it does not count. -/
def attachedTo : List Char → Option String
  | [] => none
  | '=' :: value => some (String.ofList value)
  | value => some (String.ofList value)

def step (scan : Scan) (text : String) : Except Ending Scan :=
  if scan.escaped || scan.verb = some .help then scan.addOperand text
  else match scan.pending, Lexeme.ofText text with
    | some opt, .operand value => scan.set opt value
    | some _, _ => .error .usage
    | none, .escape => .ok { scan with escaped := true }
    | none, .operand text => scan.addOperand text
    | none, .long name value =>
      if name = "help" && value.isNone then .error .help
      else if name = "version" && value.isNone && scan.verb.isNone then .error .version
      else scan.addOption (Opt.all.find? (·.long == name)) value
    | none, .short letter rest =>
      if letter = 'h' then .error .help
      else if letter = 'V' && scan.verb.isNone then .error .version
      else scan.addOption (Opt.all.find? (·.short? == some letter)) (attachedTo rest)

/-- The value of an option, from behind the verb if it is there. -/
def value? (scan : Scan) (opt : Opt) : Option String :=
  (scan.inner.lookup opt).or (scan.outer.lookup opt)

def request? (scan : Scan) : Except Ending Request :=
  if scan.pending.isSome then .error .usage
  else match scan.verb, scan.operands with
    | some .parse, [path] => .ok (.parse path ((scan.value? .format).getD "gdscript"))
    | some .validate, [path] => .ok (.validate path)
    | some .compress, [path] => .ok (.compress path)
    | some .expand, [path] => .ok (.expand path)
    | some .export, folder :: path :: paths =>
      .ok (.export folder (path :: paths) ((scan.value? .project).getD "weave_project"))
    | some .listFormats, _ => .ok .listFormats
    | some .help, [] => .error .help
    | some .help, [verb] => .error (if (Verb.ofName? verb).isSome then .help else .usage)
    | _, _ => .error .usage

end Scan

def Invocation.ofArguments (arguments : List String) : Except Ending Invocation := do
  let scan ← arguments.foldlM Scan.step {}
  return ⟨← scan.request?, scan.value? .config, scan.value? .level⟩

end Blueprint.Command
