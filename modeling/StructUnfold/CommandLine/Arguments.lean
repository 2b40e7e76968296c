import StructUnfold.Path

/-!
# Arguments of the command line

A command is given by its name, options and operands in any order, and two dashes before which only
options may start with a dash. Asking for help or for the version counts as soon as it is met,
unless something before it cannot be understood.
-/

namespace StructUnfold.CommandLine

/-- What the command line asks for. -/
inductive Command where
  /-- Serve an editor; log lines go into the file. -/
  | serve (logFile : Option Path)
  /-- Print the expansion of a symbol, or write it to a file. -/
  | expand (symbol : String) (roots : List Path) (config output : Option Path)
  /-- List the names that match a query. -/
  | symbols (query : String) (roots : List Path)
deriving DecidableEq, Repr

/-- What help may be asked for. -/
inductive Topic where
  /-- The whole program. -/
  | program
  /-- The command to serve an editor. -/
  | serve
  /-- The command to expand a symbol. -/
  | expand
  /-- The command to list names. -/
  | symbols
  /-- The command for help itself. -/
  | help
deriving DecidableEq, Repr

/-- The topic of a command's name. -/
def Topic.ofName? : String → Option Topic
  | "serve" => some serve
  | "expand" => some expand
  | "symbols" => some symbols
  | "help" => some help
  | _ => none

/-- Why the arguments give no command. -/
inductive Stop where
  /-- Help is asked for. -/
  | help (topic : Topic)
  /-- The version is asked for. -/
  | version
  /-- The arguments cannot be understood. -/
  | misuse
deriving DecidableEq, Repr

/-- An option that takes a path. -/
inductive PathOption where
  /-- A directory to scan; it may be given several times. -/
  | root
  /-- The settings file. -/
  | config
  /-- The file to write to. -/
  | output
  /-- The file for log lines. -/
  | logFile
deriving DecidableEq, Repr

/-- The name of an option, without the dashes. -/
def PathOption.name : PathOption → String
  | root => "root"
  | config => "config"
  | output => "output"
  | logFile => "log-file"

/-- The form of the arguments behind the name of a command. -/
structure Form where
  /-- The topic of help on the command. -/
  topic : Topic
  /-- The options it takes. -/
  options : List PathOption
  /-- Number of operands it takes at most. -/
  operands : Nat
deriving DecidableEq, Repr

/-- What has been given so far. -/
structure Given where
  /-- Whether more is to be logged. -/
  verbose : Bool
  /-- The operands. -/
  operands : List String
  /-- The options with their paths. -/
  paths : List (PathOption × Path)
deriving DecidableEq, Repr

/-- Nothing has been given. -/
def Given.empty : Given :=
  ⟨false, [], []⟩

/-- The path given for an option. -/
def Given.path? (g : Given) (option : PathOption) : Option Path :=
  (g.paths.find? fun p => p.1 == option).map Prod.snd

/-- The paths given for an option. -/
def Given.pathsOf (g : Given) (option : PathOption) : List Path :=
  (g.paths.filter fun p => p.1 == option).map Prod.snd

/-- Whether an argument is an option by its look: a dash and more. -/
def looksLikeOption (arg : String) : Bool :=
  match arg.toList with
  | '-' :: _ :: _ => true
  | _ => false

/-- Take in that more is to be logged, which may be said once. -/
def Given.setVerbose (g : Given) : Except Stop Given :=
  if g.verbose then .error .misuse else .ok { g with verbose := true }

/-- Take in an option with its path, which may not be empty. -/
def Given.addPath (g : Given) (option : PathOption) (path : String) : Except Stop Given :=
  if path.isEmpty || (option != .root && (g.path? option).isSome) then .error .misuse
  else .ok { g with paths := g.paths ++ [(option, .ofString path)] }

/-- Take in the letters behind a single dash. -/
def Given.addLetters (topic : Topic) (g : Given) : List Char → Except Stop Given
  | [] => .ok g
  | c :: cs =>
    if c = 'v' then
      match g.setVerbose with
      | .ok g => g.addLetters topic cs
      | .error stop => .error stop
    else if c = 'h' then .error (.help topic)
    else if c = 'V' ∧ topic = .program then .error .version
    else .error .misuse

/-- The name behind two dashes and the value behind an equals sign. -/
def splitLong (arg : List Char) : String × Option String :=
  match arg.dropWhile (· != '=') with
  | _ :: value => (String.ofList (arg.takeWhile (· != '=')), some (String.ofList value))
  | [] => (String.ofList arg, none)

/-- The path of an option: the value attached to it, or else the next argument. The result holds the
arguments behind. -/
def optionValue (attached : Option String) (rest : List String) :
    Except Stop (String × List String) :=
  match attached, rest with
  | some value, rest => .ok (value, rest)
  | none, next :: rest => if looksLikeOption next then .error .misuse else .ok (next, rest)
  | none, [] => .error .misuse

/-- Take in the arguments behind the name of a command; `fuel` bounds their number. -/
def Form.parse (form : Form) (escaped : Bool) (g : Given) :
    Nat → List String → Except Stop Given
  | _, [] => .ok g
  | 0, _ :: _ => .error .misuse
  | fuel + 1, arg :: rest =>
    if escaped || !looksLikeOption arg then
      if g.operands.length < form.operands then
        form.parse escaped { g with operands := g.operands ++ [arg] } fuel rest
      else .error .misuse
    else if arg == "--" then form.parse true g fuel rest
    else
      match arg.toList with
      | '-' :: '-' :: long =>
        let (name, attached) := splitLong long
        match form.options.find? fun o => o.name == name with
        | some option =>
          match optionValue attached rest with
          | .error stop => .error stop
          | .ok (value, rest) =>
            match g.addPath option value with
            | .error stop => .error stop
            | .ok g => form.parse false g fuel rest
        | none =>
          if attached.isSome then .error .misuse
          else if name == "help" then .error (.help form.topic)
          else if name == "verbose" then
            match g.setVerbose with
            | .error stop => .error stop
            | .ok g => form.parse false g fuel rest
          else .error .misuse
      | _ =>
        match g.addLetters form.topic (arg.toList.drop 1) with
        | .error stop => .error stop
        | .ok g => form.parse false g fuel rest

/-- The command of a name with the arguments behind it. -/
def parseCommand (name : String) (rest : List String) : Except Stop Command :=
  let fuel := rest.length
  match name with
  | "serve" => do
    let g ← Form.parse ⟨.serve, [.logFile], 0⟩ false .empty fuel rest
    return .serve (g.path? .logFile)
  | "expand" => do
    let g ← Form.parse ⟨.expand, [.root, .config, .output], 1⟩ false .empty fuel rest
    match g.operands with
    | symbol :: _ => return .expand symbol (g.pathsOf .root) (g.path? .config) (g.path? .output)
    | [] => .error .misuse
  | "symbols" => do
    let g ← Form.parse ⟨.symbols, [.root], 1⟩ false .empty fuel rest
    return .symbols (g.operands.headD "") (g.pathsOf .root)
  | "help" =>
    match rest with
    | [] => .error (.help .program)
    | [name] => .error ((Topic.ofName? name).elim .misuse fun topic => .help topic)
    | _ => .error .misuse
  | _ => .error .misuse

/-- The command that arguments give; without a name it is to serve. -/
def parseFrom (g : Given) : List String → Except Stop Command
  | [] => .ok (.serve none)
  | arg :: rest =>
    if !looksLikeOption arg then parseCommand arg rest
    else
      match arg with
      | "--help" => .error (.help .program)
      | "--version" => .error .version
      | "--verbose" =>
        match g.setVerbose with
        | .error stop => .error stop
        | .ok g => parseFrom g rest
      | "--" => if rest.isEmpty then .ok (.serve none) else .error .misuse
      | _ =>
        match arg.toList with
        | '-' :: '-' :: _ => .error .misuse
        | letters =>
          match g.addLetters .program (letters.drop 1) with
          | .error stop => .error stop
          | .ok g => parseFrom g rest

/-- The command that arguments give. -/
def parse (args : List String) : Except Stop Command :=
  parseFrom .empty args

end StructUnfold.CommandLine
