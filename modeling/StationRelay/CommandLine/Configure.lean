import StationRelay.CommandLine
import StationRelay.Config.Load

/-!
# The configuration a command line asks for

The configuration of the file is taken as it is loaded, the options are laid
over it, and the result is checked once more.
-/

namespace StationRelay

inductive ConfigureError where
  /-- The file at the path gives none. -/
  | load (path : String) (cause : ConfigError)
  /-- The options make it invalid. -/
  | override (flaw : Flaw)
  deriving DecidableEq

namespace ConfigureError

def message : ConfigureError → String
  | .load path _ => "failed to load " ++ path
  | .override _ => "invalid command-line override"

def cause : ConfigureError → ConfigError
  | .load _ cause => cause
  | .override flaw => .invalid flaw

end ConfigureError

namespace CommandLine

namespace Overrides

/-- The configuration with the options laid over it. -/
def apply (overrides : Overrides) (config : Config) : Config :=
  { config with
    listening :=
      { bindAddress := overrides.bindAddress.getD config.listening.bindAddress
        devicePort := overrides.devicePort.getD config.listening.devicePort
        browserPort := overrides.browserPort.getD config.listening.browserPort
        workerThreads := overrides.workerThreads.getD config.listening.workerThreads } }

def configPath (overrides : Overrides) : String :=
  overrides.path.getD Product.configPath

/-- The configuration that the options ask for, given what is found at every path. -/
def configure (overrides : Overrides) (files : String → FileContent) :
    Except ConfigureError Config :=
  match Config.load (files overrides.configPath) with
  | .error cause => .error (.load overrides.configPath cause)
  | .ok loaded =>
    match (overrides.apply loaded).flaw? with
    | some flaw => .error (.override flaw)
    | none => .ok (overrides.apply loaded)

end Overrides

end CommandLine

end StationRelay
