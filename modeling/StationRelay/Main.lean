import StationRelay.CommandLine.Report

/-!
# The program

Reads the command line, the environment and the configuration file, and says
where the relay listens, or why it does not start.
-/

namespace StationRelay

namespace Program

def fileContent (path : String) : IO FileContent := do
  try
    return .bytes (← IO.FS.readBinFile path).data.toList
  catch error =>
    match error with
    | .noFileOrDirectory .. => return .missing
    | _ => return .unreadable (.other (toString error))

def environment : IO (List (String × String)) := do
  let mut values := []
  for parameter in CommandLine.Parameter.all do
    if let some value ← IO.getEnv parameter.variableName then
      values := values ++ [(parameter.variableName, value)]
  return values

end Program

end StationRelay

open StationRelay in
/-- Prints where the relay listens, or why it does not start. -/
def main (words : List String) : IO UInt32 := do
  let values ← Program.environment
  match CommandLine.overrides (fun name => values.lookup name) words with
  | .error stop =>
    if stop.exitCode = 0 then IO.print stop.message else IO.eprint stop.message
    return UInt32.ofNat stop.exitCode
  | .ok overrides =>
    let content ← Program.fileContent overrides.configPath
    match overrides.configure fun _ => content with
    | .error error =>
      IO.eprint (overrides.report error)
      return 1
    | .ok config =>
      match config.listening.bind fun _ _ => true with
      | .error error =>
        IO.eprintln ("Error: " ++ error.message)
        return 1
      | .ok (device, browser) =>
        IO.print (config.startLine device browser)
        return 0
