/-!
# The command line

Every option has a value, which follows it as the next word or behind a sign of
equality, and an environment variable that counts if the option is not given.
`read` takes the words one by one.  The value of an option is looked at when
the next option begins or the words end, so a word that means nothing is
reported before a bad value in the word in front of it.
-/

namespace StationRelay

namespace Product

def name : String := "weather-gateway"

def version : String := "0.1.0"

def versionLine : String := name ++ " " ++ version ++ "\n"

/-- What the reply to an upgrade says of the server. -/
def serverHeader : String := name ++ "/" ++ version

/-- Where the configuration is looked for if no other path is given. -/
def configPath : String := name ++ ".toml"

end Product

namespace CommandLine

/-- The options that take a value, in the order in which their variables are looked at. -/
inductive Parameter where
  | config
  | bind
  | devicePort
  | browserPort
  | threads
  deriving DecidableEq

/-- Why the program goes no further than its command line. -/
inductive Stop where
  | unknownArgument
  /-- A value is missing, or is empty where it must not be. -/
  | invalidValue
  /-- A value is no number in range. -/
  | valueValidation
  /-- An option is given twice. -/
  | argumentConflict
  /-- A value is given where none is taken. -/
  | tooManyValues
  | help
  | version
  deriving DecidableEq

structure Overrides where
  path : Option String := none
  bindAddress : Option String := none
  devicePort : Option Nat := none
  browserPort : Option Nat := none
  workerThreads : Option Nat := none
  deriving DecidableEq

namespace Parameter

def all : List Parameter :=
  [.config, .bind, .devicePort, .browserPort, .threads]

def name : Parameter → String
  | .config => "config"
  | .bind => "bind"
  | .devicePort => "device-port"
  | .browserPort => "browser-port"
  | .threads => "threads"

/-- The environment variable that counts if the option is not given. -/
def variableName : Parameter → String
  | .config => "WEATHER_CONFIG"
  | .bind => "WEATHER_BIND"
  | .devicePort => "WEATHER_DEVICE_PORT"
  | .browserPort => "WEATHER_BROWSER_PORT"
  | .threads => "WEATHER_THREADS"

def ofName? (name : String) : Option Parameter :=
  all.find? fun parameter => parameter.name = name

end Parameter

namespace Stop

/-- Help and version are asked for; all else is an error. -/
def exitCode : Stop → Nat
  | .help | .version => 0
  | _ => 2

end Stop

/-! ## Numbers -/

def decimal? (digits : List Char) : Option Nat :=
  if digits ≠ [] ∧ digits.all Char.isDigit then
    some (digits.foldl (fun n c => 10 * n + (c.toNat - '0'.toNat)) 0)
  else none

/-- A port, which may have a sign in front. -/
def port? (text : String) : Option Nat :=
  match text.toList with
  | '-' :: digits => (decimal? digits).filter (· = 0)
  | '+' :: digits => (decimal? digits).filter (· < 0x10000)
  | digits => (decimal? digits).filter (· < 0x10000)

/-- A number of 64 bits, which may have a plus in front. -/
def count? (text : String) : Option Nat :=
  match text.toList with
  | '+' :: digits => (decimal? digits).filter (· < 0x10000000000000000)
  | digits => (decimal? digits).filter (· < 0x10000000000000000)

/-! ## Values -/

namespace Overrides

def has (overrides : Overrides) : Parameter → Bool
  | .config => overrides.path.isSome
  | .bind => overrides.bindAddress.isSome
  | .devicePort => overrides.devicePort.isSome
  | .browserPort => overrides.browserPort.isSome
  | .threads => overrides.workerThreads.isSome

def put (overrides : Overrides) (parameter : Parameter) (text : String) : Except Stop Overrides :=
  match parameter with
  | .config =>
    if text = "" then .error .invalidValue else .ok { overrides with path := some text }
  | .bind => .ok { overrides with bindAddress := some text }
  | .devicePort =>
    match port? text with
    | some port => .ok { overrides with devicePort := some port }
    | none => .error .valueValidation
  | .browserPort =>
    match port? text with
    | some port => .ok { overrides with browserPort := some port }
    | none => .error .valueValidation
  | .threads =>
    match count? text with
    | some count => .ok { overrides with workerThreads := some count }
    | none => .error .valueValidation

/-- Gives an option that has no value yet the value that a text says. -/
def putOnce (overrides : Overrides) (parameter : Parameter) (text : String) :
    Except Stop Overrides :=
  if overrides.has parameter then .error .argumentConflict else overrides.put parameter text

end Overrides

/-! ## Words -/

inductive Word where
  /-- Two hyphens alone. -/
  | escape
  /-- A name behind two hyphens, and what stands behind a sign of equality. -/
  | long (name : String) (attached : Option String)
  /-- Letters behind one hyphen, the first of them apart. -/
  | short (letter : Char)
  | plain

def cutAtEquals (text : List Char) : String × Option String :=
  let name := String.ofList (text.takeWhile (· ≠ '='))
  match text.dropWhile (· ≠ '=') with
  | _ :: value => (name, some (String.ofList value))
  | [] => (name, none)

namespace Word

def ofText (text : String) : Word :=
  match text.toList with
  | ['-', '-'] => .escape
  | '-' :: '-' :: rest =>
    let (name, attached) := cutAtEquals rest
    .long name attached
  | '-' :: letter :: _ => .short letter
  | _ => .plain

end Word

structure State where
  overrides : Overrides := {}
  /-- The last option, and the word behind it once that has come. -/
  pending : Option (Parameter × Option String) := none

namespace State

def settle (state : State) : Except Stop State :=
  match state.pending with
  | none => .ok state
  | some (_, none) => .error .invalidValue
  | some (parameter, some text) => do
    let overrides ← state.overrides.putOnce parameter text
    return ⟨overrides, none⟩

def stop (state : State) (reason : Stop) : Except Stop State := do
  let _ ← state.settle
  throw reason

def onLong (state : State) (name : String) (attached : Option String) : Except Stop State :=
  match Parameter.ofName? name, attached with
  | some parameter, some text => do
    let settled ← state.settle
    let overrides ← settled.overrides.putOnce parameter text
    return ⟨overrides, none⟩
  | some parameter, none => do
    let settled ← state.settle
    return { settled with pending := some (parameter, none) }
  | none, attached =>
    if name = "help" ∨ name = "version" then
      if attached.isSome then .error .tooManyValues
      else state.stop (if name = "help" then .help else .version)
    else .error .unknownArgument

def onShort (state : State) (letter : Char) : Except Stop State :=
  if letter = 'h' then state.stop .help
  else if letter = 'V' then state.stop .version
  else .error .unknownArgument

/-- Takes in a word that is no option: the value of the option in front of it. -/
def onPlain (state : State) (text : String) : Except Stop State :=
  match state.pending with
  | some (parameter, none) => .ok { state with pending := some (parameter, some text) }
  | _ => .error .unknownArgument

end State

/-- Takes in the words.  Nothing may stand behind two hyphens alone. -/
def read (state : State) : List String → Except Stop State
  | [] => state.settle
  | word :: rest =>
    match Word.ofText word with
    | .escape => if rest = [] then state.settle else .error .unknownArgument
    | .long name attached => (state.onLong name attached).bind fun next => read next rest
    | .short letter => (state.onShort letter).bind fun next => read next rest
    | .plain => (state.onPlain word).bind fun next => read next rest

/-- Gives the options that were not on the command line the values of their variables. -/
def readVariables (environment : String → Option String) (overrides : Overrides) :
    List Parameter → Except Stop Overrides
  | [] => .ok overrides
  | parameter :: rest =>
    match overrides.has parameter, environment parameter.variableName with
    | false, some text =>
      (overrides.put parameter text).bind fun next => readVariables environment next rest
    | _, _ => readVariables environment overrides rest

def overrides (environment : String → Option String) (words : List String) :
    Except Stop Overrides := do
  let state ← read {} words
  readVariables environment state.overrides Parameter.all

end CommandLine

end StationRelay
