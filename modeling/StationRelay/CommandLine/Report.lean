import StationRelay.CommandLine.Configure
import StationRelay.Listener

/-!
# What the program says

The texts that are printed when the program stops at its command line, has no
configuration, or starts.
-/

namespace StationRelay

namespace CommandLine

def helpText : String :=
  "Relays weather station readings to browser clients\n\n" ++
  "Usage: " ++ Product.name ++ " [OPTIONS]\n\n" ++
  "Options:\n" ++
  "      --config <CONFIG>              Path of the configuration file [default: " ++
    Product.configPath ++ "]\n" ++
  "      --bind <BIND>                  IP address both listeners bind to\n" ++
  "      --device-port <DEVICE_PORT>    TCP port for weather stations\n" ++
  "      --browser-port <BROWSER_PORT>  TCP port for browsers\n" ++
  "      --threads <THREADS>            Number of worker threads\n" ++
  "  -h, --help                         Print help\n" ++
  "  -V, --version                      Print version\n"

namespace Stop

def message : Stop → String
  | .unknownArgument => "error: unexpected argument\n"
  | .invalidValue => "error: a value is required\n"
  | .valueValidation => "error: invalid value\n"
  | .argumentConflict => "error: the argument cannot be used multiple times\n"
  | .tooManyValues => "error: unexpected value\n"
  | .help => helpText
  | .version => Product.versionLine

end Stop

namespace Overrides

def report (overrides : Overrides) (error : ConfigureError) : String :=
  "Error: " ++ error.message ++ "\n\nCaused by:\n    " ++
    error.cause.message overrides.configPath ++ "\n"

end Overrides

end CommandLine

namespace Config

/-- The line that is printed once both listeners are known. -/
def startLine (config : Config) (device browser : Endpoint) : String :=
  s!"listening for devices on {device.toText} and for browsers on {browser.toText}, " ++
    s!"allow-listed devices: {config.allowList.deviceCount}\n"

end Config

end StationRelay
