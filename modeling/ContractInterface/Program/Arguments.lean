import ContractInterface.Path
import ContractInterface.Program.CheckDocuments
import ContractInterface.Text.Digit
import ContractInterface.Text.Quoted

/-!
# Arguments of the command line

An argument that starts with a hyphen is an option.  A long option may be shortened as long as it
stays unambiguous, its value may follow an equals sign or be the next argument, and short options
may be written together.  The first argument that is no option names the command, and all
arguments after it belong to the command.
-/

namespace ContractInterface.CommandLine

/-! ### Options -/

/-- An option with its spellings. -/
structure Flag where
  names : List String
  takesValue : Bool
  required : Bool
  deriving DecidableEq, Repr

/-- The name of an option in messages. -/
def Flag.label (f : Flag) : String :=
  "/".intercalate f.names

/-- The options of a program or a command. -/
structure Grammar where
  program : String
  flags : List Flag
  /-- Options of which exactly one must be given. -/
  exclusive : List Flag
  deriving DecidableEq, Repr

/-- Why the arguments are not followed: the help is asked for, or they are wrong. -/
inductive Stop where
  | help
  | usage (program message : String)
  deriving DecidableEq, Repr

/-- The wording of a stop. -/
def Stop.message : Stop → String
  | .help => "usage: qbi-header-compiler [-h] [-v] \x7bcompile,compile-registry,validate\x7d ..."
  | .usage program message => program ++ ": error: " ++ message

namespace Grammar

/-- A complaint about the arguments of a grammar. -/
def complain {α : Type} (g : Grammar) (message : String) : Except Stop α :=
  .error (.usage g.program message)

/-- A complaint about an option. -/
def complainAbout {α : Type} (g : Grammar) (f : Flag) (message : String) : Except Stop α :=
  g.complain ("argument " ++ f.label ++ ": " ++ message)

/-- The spellings of all options. -/
def spellings (g : Grammar) : List (String × Flag) :=
  g.flags.flatMap fun f => f.names.map fun name => (name, f)

/-- The option with a spelling. -/
def flag? (g : Grammar) (name : String) : Option Flag :=
  g.spellings.lookup name

end Grammar

/-! ### Kinds of arguments -/

/-- What an argument is. -/
inductive Kind where
  | plain
  /-- Two hyphens, after which all arguments are plain. -/
  | dashes
  /-- An option under one of its spellings, with a value after an equals sign or with the text
  that follows the letter of a short option directly. -/
  | option (flag : Flag) (spelling : String) (value : Option String)
  | unknown
  deriving DecidableEq, Repr

/-- The name in an argument, and the value after its equals sign. -/
def splitValue (arg : String) : String × Option String :=
  match Text.cutAt? (· == '=') arg.toList with
  | some (name, _, value) => (String.ofList name, some (String.ofList value))
  | none => (arg, none)

/-- The options that an argument may be a short form of, with their spellings. -/
def candidates (g : Grammar) (arg : String) : List (String × Flag × Option String) :=
  match arg.toList with
  | '-' :: '-' :: _ =>
    let (front, value) := splitValue arg
    g.spellings.filterMap fun (name, f) =>
      if Text.hasPrefix front.toList name.toList then some (name, f, value) else none
  | '-' :: c :: rest =>
    g.spellings.filterMap fun (name, f) =>
      if name.toList = ['-', c] then some (name, f, some (String.ofList rest))
      else if Text.hasPrefix arg.toList name.toList then some (name, f, none)
      else none
  | _ => []

/-- Whether an argument is a negative number, possibly with a line end after it. -/
def isNegativeNumber (t : Text) : Bool :=
  match (Text.dropSuffix? ['\n'] t).getD t with
  | '-' :: digits =>
    let fraction := digits.dropWhile isDecimal
    (fraction.isEmpty && !digits.isEmpty) ||
      (match fraction with
      | '.' :: rest => !rest.isEmpty && rest.all isDecimal
      | _ => false)
  | _ => false

/-- The option that an argument names in full. -/
def fullOption? (g : Grammar) (arg : String) : Option (String × Flag × Option String) :=
  match g.flag? arg with
  | some f => some (arg, f, none)
  | none =>
    let (name, value) := splitValue arg
    (g.flag? name).map fun f => (name, f, value)

/-- The kind of an argument. -/
def classify (g : Grammar) (arg : String) : Except Stop Kind :=
  match arg.toList with
  | '-' :: _ :: _ =>
    match fullOption? g arg, candidates g arg with
    | some (name, f, value), _ => .ok (.option f name value)
    | none, [(name, f, value)] => .ok (.option f name value)
    | none, [] =>
      if isNegativeNumber arg.toList || arg.toList.contains ' ' then .ok .plain
      else .ok .unknown
    | none, several =>
      g.complain ("ambiguous option: " ++ arg ++ " could match " ++
        ", ".intercalate (several.map Prod.fst))
  | _ => .ok .plain

/-- The kinds of all arguments. -/
def classifyAll (g : Grammar) : List String → Except Stop (List (String × Kind))
  | [] => .ok []
  | "--" :: args => .ok (("--", .dashes) :: args.map fun arg => (arg, .plain))
  | arg :: args => do
    let kind ← classify g arg
    return (arg, kind) :: (← classifyAll g args)

/-! ### Taking options -/

/-- The options that were given, with their values, and the arguments that were left over. -/
structure Taken where
  given : List (Flag × String)
  extras : List String
  deriving DecidableEq, Repr

namespace Taken

/-- Nothing taken yet. -/
def empty : Taken := ⟨[], []⟩

/-- Whether an option was given. -/
def has (t : Taken) (f : Flag) : Bool :=
  t.given.any fun (g, _) => g == f

/-- The value of an option; the last one counts. -/
def value? (t : Taken) (f : Flag) : Option String :=
  (t.given.reverse.find? fun (g, _) => g == f).map Prod.snd

/-- Adds an option; two exclusive options are refused. -/
def add (g : Grammar) (t : Taken) (f : Flag) (value : String) : Except Stop Taken :=
  if g.exclusive.contains f then
    match g.exclusive.find? fun other => other != f && t.has other with
    | some other => g.complainAbout f ("not allowed with argument " ++ other.label)
    | none => .ok { t with given := t.given ++ [(f, value)] }
  else .ok { t with given := t.given ++ [(f, value)] }

end Taken

/-- The help option. -/
def helpFlag : Flag := ⟨["-h", "--help"], false, false⟩

/-- The option for more output. -/
def verboseFlag : Flag := ⟨["-v", "--verbose"], false, false⟩

/-- The complaint about a value of an option that takes none. -/
def refuseValue {α : Type} (g : Grammar) (f : Flag) (value : Text) : Except Stop α :=
  g.complainAbout f ("ignored explicit argument " ++ quoteString (String.ofList value))

/-- The options without value that are written together, from one of them and the letters after
its own; every letter must be that of an option. -/
def together (g : Grammar) (f : Flag) : Text → Except Stop (List Flag)
  | [] => .ok [f]
  | c :: rest =>
    match g.flag? (String.ofList ['-', c]) with
    | some next => do return f :: (← together g next rest)
    | none => refuseValue g f (c :: rest)

/-- The options that an argument gives when it is an option without value.  A long option stands
alone; after a short one there may be the letters of others, with or without an equals sign. -/
def switches (g : Grammar) (f : Flag) (spelling : String) : Option String → Except Stop (List Flag)
  | none => .ok [f]
  | some value =>
    if Text.hasPrefix ['-', '-'] spelling.toList || value.isEmpty then refuseValue g f value.toList
    else together g f value.toList

/-- Adds options without value; asking for help stops. -/
def addSwitches (g : Grammar) (t : Taken) : List Flag → Except Stop Taken
  | [] => .ok t
  | f :: fs => do
    if f == helpFlag then throw .help
    addSwitches g (← t.add g f "") fs

/-- Takes the options of a command. -/
def takeOptions (g : Grammar) (t : Taken) : List (String × Kind) → Except Stop Taken
  | [] => .ok t
  | (arg, .plain) :: rest | (arg, .dashes) :: rest | (arg, .unknown) :: rest =>
    takeOptions g { t with extras := t.extras ++ [arg] } rest
  | (_, .option f spelling value) :: rest =>
    if f.takesValue then
      match value, rest with
      | some value, rest => do takeOptions g (← t.add g f value) rest
      | none, (arg, .plain) :: rest => do takeOptions g (← t.add g f arg) rest
      | none, _ => g.complainAbout f "expected one argument"
    else do
      takeOptions g (← addSwitches g t (← switches g f spelling value)) rest

/-- Checks that nothing is missing. -/
def checkComplete (g : Grammar) (t : Taken) : Except Stop Unit := do
  let missing := g.flags.filter fun f => f.required && !t.has f
  unless missing.isEmpty do
    g.complain ("the following arguments are required: " ++
      ", ".intercalate (missing.map Flag.label))
  unless g.exclusive.isEmpty || g.exclusive.any t.has do
    g.complain ("one of the arguments " ++ " ".intercalate (g.exclusive.map Flag.label) ++
      " is required")

/-- Follows the arguments of a command. -/
def follow (g : Grammar) (args : List String) : Except Stop Taken := do
  let t ← takeOptions g Taken.empty (← classifyAll g args)
  checkComplete g t
  return t

/-! ### The program -/

/-- The name of the program. -/
def programName : String := "qbi-header-compiler"

/-- An option with a value. -/
def valueFlag (name : String) (required : Bool) : Flag := ⟨[name], true, required⟩

/-- The options of the program itself. -/
def mainGrammar : Grammar := ⟨programName, [helpFlag, verboseFlag], []⟩

/-- The header to compile. -/
def contractFlag : Flag := valueFlag "--contract" true

/-- Where the output goes. -/
def outFlag : Flag := valueFlag "--out" false

/-- The shared prelude. -/
def preludeFlag : Flag := valueFlag "--qpi" false

/-- The list of contracts. -/
def contractDefFlag : Flag := valueFlag "--contract-def" false

/-- The directory of the headers. -/
def contractsDirFlag : Flag := valueFlag "--contracts-dir" false

/-- The repository of the headers. -/
def sourceRepoFlag : Flag := valueFlag "--source-repo" false

/-- The revision of the headers. -/
def sourceRevisionFlag : Flag := valueFlag "--source-revision" false

/-- A document to check. -/
def fileFlag : Flag := valueFlag "--file" false

/-- A directory of documents to check. -/
def dirFlag : Flag := valueFlag "--dir" false

/-- A command with its arguments. -/
inductive Command where
  | compile (contract : Path) (out prelude contractDef : Option Path)
  | compileRegistry (contractDef contractsDir out : Option Path)
      (sourceRepo sourceRevision : Option String)
  | validate (target : Check.Target)
  deriving DecidableEq, Repr

/-- The names of the commands. -/
def commandNames : List String := ["compile", "compile-registry", "validate"]

/-- The name of a command. -/
def Command.name : Command → String
  | .compile .. => "compile"
  | .compileRegistry .. => "compile-registry"
  | .validate _ => "validate"

/-- What the program is asked to do. -/
structure Invocation where
  verbose : Bool
  command : Command
  deriving DecidableEq, Repr

/-- The path that an option gives. -/
def Taken.path? (t : Taken) (f : Flag) : Option Path :=
  (t.value? f).map Path.ofString

/-- Follows the arguments of the command that compiles a header. -/
def compileCommand (args : List String) : Except Stop (Command × List String) := do
  let t ← follow ⟨programName ++ " compile",
    [helpFlag, contractFlag, outFlag, preludeFlag, contractDefFlag], []⟩ args
  return (.compile ((t.path? contractFlag).getD (Path.ofString "")) (t.path? outFlag)
    (t.path? preludeFlag) (t.path? contractDefFlag), t.extras)

/-- Follows the arguments of the command that makes a registry. -/
def registryCommand (args : List String) : Except Stop (Command × List String) := do
  let t ← follow ⟨programName ++ " compile-registry",
    [helpFlag, contractDefFlag, contractsDirFlag, outFlag, sourceRepoFlag, sourceRevisionFlag],
    []⟩ args
  return (.compileRegistry (t.path? contractDefFlag) (t.path? contractsDirFlag) (t.path? outFlag)
    (t.value? sourceRepoFlag) (t.value? sourceRevisionFlag), t.extras)

/-- Follows the arguments of the command that checks documents. -/
def validateCommand (args : List String) : Except Stop (Command × List String) := do
  let t ← follow ⟨programName ++ " validate", [helpFlag, fileFlag, dirFlag],
    [fileFlag, dirFlag]⟩ args
  let target :=
    match t.path? fileFlag with
    | some path => Check.Target.file path
    | none => .directory ((t.path? dirFlag).getD (Path.ofString ""))
  return (.validate target, t.extras)

/-- Follows the command with a given name. -/
def command (name : String) (args : List String) : Except Stop (Command × List String) :=
  match name with
  | "compile" => compileCommand args
  | "compile-registry" => registryCommand args
  | "validate" => validateCommand args
  | _ => mainGrammar.complain ("argument command: invalid choice: " ++ quoteString name ++
      " (choose from " ++ ", ".intercalate (commandNames.map quoteString) ++ ")")

/-- Follows the command, after which nothing may be left over. -/
def invoke (t : Taken) (name : String) (args : List String) : Except Stop Invocation := do
  let (command, extras) ← command name args
  let extras := t.extras ++ extras
  unless extras.isEmpty do
    mainGrammar.complain ("unrecognized arguments: " ++ " ".intercalate extras)
  return ⟨t.has verboseFlag, command⟩

/-- Follows the arguments up to the command and then those of the command. -/
def followMain (t : Taken) : List (String × Kind) → Except Stop Invocation
  | [] => mainGrammar.complain "the following arguments are required: command"
  | (arg, .plain) :: rest => invoke t arg (rest.map Prod.fst)
  | (arg, .dashes) :: rest =>
    if rest.isEmpty then followMain t [] else invoke t arg (rest.map Prod.fst)
  | (arg, .unknown) :: rest => followMain { t with extras := t.extras ++ [arg] } rest
  | (_, .option f spelling value) :: rest => do
    followMain (← addSwitches mainGrammar t (← switches mainGrammar f spelling value)) rest

/-- What the arguments ask the program to do. -/
def parse (args : List String) : Except Stop Invocation := do
  followMain Taken.empty (← classifyAll mainGrammar args)

end ContractInterface.CommandLine
