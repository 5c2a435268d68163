/-! The command line. Two subcommands take options, and two flags on logging may stand before or
after the subcommand. -/

namespace SoliditySource.Command

/-- An option that takes a value. -/
inductive Setting where
  | config
  | output
deriving DecidableEq, Repr

inductive Flag where
  | verbose
  | quiet
  | raw
deriving DecidableEq, Repr

inductive Subcommand where
  | render
  | check
deriving DecidableEq, Repr

inductive UsageError where
  | noSubcommand
  | unknownSubcommand (word : String)
  | unknownOption (word : String)
  | unexpectedArgument (word : String)
  | unexpectedValue (word : String)
  | missingValue (setting : Setting)
  | repeatedSetting (setting : Setting)
  | repeatedFlag (flag : Flag)
  | verboseAndQuiet
deriving DecidableEq, Repr

def Setting.name : Setting → String
  | config => "--config"
  | output => "--output"

def Flag.name : Flag → String
  | verbose => "--verbose"
  | quiet => "--quiet"
  | raw => "--raw"

def UsageError.message : UsageError → String
  | noSubcommand => "a subcommand is required: render or check"
  | unknownSubcommand word => "unrecognized subcommand '" ++ word ++ "'"
  | unknownOption word => "unexpected option '" ++ word ++ "'"
  | unexpectedArgument word => "unexpected argument '" ++ word ++ "'"
  | unexpectedValue word => "no value is taken by '" ++ word ++ "'"
  | missingValue setting => "a value is required for '" ++ setting.name ++ "'"
  | repeatedSetting setting => "'" ++ setting.name ++ "' cannot be used multiple times"
  | repeatedFlag flag => "'" ++ flag.name ++ "' cannot be used multiple times"
  | verboseAndQuiet => "'--verbose' cannot be used with '--quiet'"

/-- Why reading stops before there is anything to run. -/
inductive Stop where
  | version
  | help
  | usage (error : UsageError)
deriving DecidableEq, Repr

/-- The options and flags read so far. -/
structure Options where
  config : Option String := none
  output : Option String := none
  flags : List Flag := []
deriving DecidableEq, Repr

namespace Options

def get (options : Options) : Setting → Option String
  | .config => options.config
  | .output => options.output

/-- A setting is given at most once, and never empty. -/
def set (options : Options) (setting : Setting) (value : List Char) : Except Stop Options :=
  if value.isEmpty then .error (.usage (.missingValue setting))
  else if (options.get setting).isSome then .error (.usage (.repeatedSetting setting))
  else
    match setting with
    | .config => .ok { options with config := some (String.ofList value) }
    | .output => .ok { options with output := some (String.ofList value) }

def raise (options : Options) (flag : Flag) : Except Stop Options :=
  if flag ∈ options.flags then .error (.usage (.repeatedFlag flag))
  else .ok { options with flags := flag :: options.flags }

/-- The two flags on logging exclude each other. -/
def checkLogging (options : Options) : Except Stop Options :=
  if .verbose ∈ options.flags ∧ .quiet ∈ options.flags then .error (.usage .verboseAndQuiet)
  else .ok options

end Options

/-- What an option name stands for. -/
inductive Meaning where
  | flag (flag : Flag)
  | setting (setting : Setting)
  | stop (stop : Stop)
deriving DecidableEq, Repr

/-- The options known before the subcommand, or after the given one. -/
def longMeaning (subcommand : Option Subcommand) (name : String) : Option Meaning :=
  if name = "verbose" then some (.flag .verbose)
  else if name = "quiet" then some (.flag .quiet)
  else if name = "help" then some (.stop .help)
  else if name = "version" ∧ subcommand = none then some (.stop .version)
  else if name = "config" ∧ subcommand ≠ none then some (.setting .config)
  else if name = "output" ∧ subcommand = some .render then some (.setting .output)
  else if name = "raw" ∧ subcommand = some .render then some (.flag .raw)
  else none

def shortMeaning (subcommand : Option Subcommand) (letter : Char) : Option Meaning :=
  match letter with
  | 'v' => longMeaning subcommand "verbose"
  | 'q' => longMeaning subcommand "quiet"
  | 'h' => longMeaning subcommand "help"
  | 'V' => longMeaning subcommand "version"
  | 'c' => longMeaning subcommand "config"
  | 'o' => longMeaning subcommand "output"
  | _ => none

/-- Reads short options that stand in one word. The value of a setting may follow it in the word,
with or without an equals sign; otherwise the setting waits for the next word. -/
def readShort (subcommand : Option Subcommand) (options : Options) :
    List Char → Except Stop (Options × Option Setting)
  | [] => .ok (options, none)
  | letter :: rest =>
    match shortMeaning subcommand letter with
    | none => .error (.usage (.unknownOption (String.ofList ['-', letter])))
    | some (.stop stop) => .error stop
    | some (.flag flag) =>
      match options.raise flag with
      | .error stop => .error stop
      | .ok options => readShort subcommand options rest
    | some (.setting setting) =>
      match rest with
      | [] => .ok (options, some setting)
      | '=' :: value => (options.set setting value).map (·, none)
      | value => (options.set setting value).map (·, none)

/-- Reads a long option, with the value that may follow an equals sign. -/
def readLong (subcommand : Option Subcommand) (options : Options) (word : List Char) :
    Except Stop (Options × Option Setting) :=
  let name := word.takeWhile (· ≠ '=')
  let value := word.drop name.length
  let shown := String.ofList ('-' :: '-' :: name)
  match longMeaning subcommand (String.ofList name), value with
  | none, _ => .error (.usage (.unknownOption shown))
  | some (.stop stop), [] => .error stop
  | some (.flag flag), [] => (options.raise flag).map (·, none)
  | some (.setting setting), [] => .ok (options, some setting)
  | some (.setting setting), _ :: value => (options.set setting value).map (·, none)
  | some _, _ :: _ => .error (.usage (.unexpectedValue shown))

/-- A word that starts with a dash is not a value, unless it is the dash alone. -/
def isOption : List Char → Bool
  | '-' :: _ :: _ => true
  | _ => false

/-- Reads the words after the subcommand. A setting that waits takes the next word. -/
def readOptions (subcommand : Subcommand) (options : Options) (waiting : Option Setting) :
    List String → Except Stop Options
  | [] =>
    match waiting with
    | some setting => .error (.usage (.missingValue setting))
    | none => options.checkLogging
  | word :: words =>
    match waiting with
    | some setting =>
      if isOption word.toList then .error (.usage (.missingValue setting))
      else
        match options.set setting word.toList with
        | .error stop => .error stop
        | .ok options => readOptions subcommand options none words
    | none =>
      match word.toList with
      | ['-', '-'] =>
        match words with
        | [] => options.checkLogging
        | extra :: _ => .error (.usage (.unexpectedArgument extra))
      | '-' :: '-' :: name =>
        match readLong (some subcommand) options name with
        | .error stop => .error stop
        | .ok (options, waiting) => readOptions subcommand options waiting words
      | '-' :: c :: letters =>
        match readShort (some subcommand) options (c :: letters) with
        | .error stop => .error stop
        | .ok (options, waiting) => readOptions subcommand options waiting words
      | _ => .error (.usage (.unexpectedArgument word))

/-- What to run. -/
inductive Invocation where
  | render (config : String) (output : Option String) (raw : Bool)
  | check (config : String)
deriving DecidableEq, Repr

def defaultConfig : String := "sol.toml"

def Invocation.ofOptions (subcommand : Subcommand) (options : Options) : Invocation :=
  let config := options.config.getD defaultConfig
  match subcommand with
  | .render => .render config options.output (.raw ∈ options.flags)
  | .check => .check config

def subcommandNames : List String := ["render", "check", "help"]

/-- Reads the words that say what help is asked for: the name of a subcommand, or none. No
subcommand has subcommands of its own. -/
def readHelp : List String → Stop
  | [] => .help
  | word :: words =>
    if word ∈ subcommandNames then
      match words with
      | [] => .help
      | extra :: _ => .usage (.unknownSubcommand extra)
    else .usage (.unknownSubcommand word)

/-- Reads the words from the start; `options` has the flags given before the subcommand. -/
def readWords (options : Options) : List String → Except Stop Invocation
  | [] => .error (.usage .noSubcommand)
  | word :: words =>
    let run (subcommand : Subcommand) : Except Stop Invocation :=
      match readOptions subcommand {} none words with
      | .error stop => .error stop
      | .ok read => options.checkLogging.map fun _ => .ofOptions subcommand read
    match word.toList with
    | ['-', '-'] =>
      match words with
      | [] => .error (.usage .noSubcommand)
      | extra :: _ => .error (.usage (.unexpectedArgument extra))
    | '-' :: '-' :: name =>
      match readLong none options name with
      | .error stop => .error stop
      | .ok (options, _) => readWords options words
    | '-' :: c :: letters =>
      match readShort none options (c :: letters) with
      | .error stop => .error stop
      | .ok (options, _) => readWords options words
    | _ =>
      if word = "render" then run .render
      else if word = "check" then run .check
      else if word = "help" then .error (readHelp words)
      else .error (.usage (.unknownSubcommand word))

def Invocation.parse (words : List String) : Except Stop Invocation :=
  readWords {} words

end SoliditySource.Command
