import StationRelay.Config.Fields
import StationRelay.Toml.Document

/-!
# Loading a configuration

A configuration is read from a file.  A file that is not there counts as an
empty one; any other failure to read it is an error.
-/

namespace StationRelay

/-- Why a file that may be there cannot be read. -/
inductive FileFault where
  | isDirectory
  /-- Something on the way to the file is no directory. -/
  | notDirectory
  /-- A name on the way to the file is too long. -/
  | invalidName
  /-- The bytes are no text. -/
  | invalidText
  /-- Any other failure, by its name. -/
  | other (name : String)
  deriving DecidableEq

inductive FileContent where
  | missing
  | unreadable (fault : FileFault)
  | bytes (bytes : Bytes)
  deriving DecidableEq

inductive ConfigError where
  | file (fault : FileFault)
  /-- The text is no document, or a value in it has the wrong kind. -/
  | malformed
  | invalid (flaw : Flaw)
  deriving DecidableEq

namespace FileFault

def message : FileFault → String
  | .isDirectory => "is a directory"
  | .notDirectory => "not a directory"
  | .invalidName => "name too long"
  | .invalidText => "not valid UTF-8"
  | .other name => name

end FileFault

namespace ConfigError

def message (path : String) : ConfigError → String
  | .file fault => s!"I/O error accessing config at {path}: {fault.message}"
  | .malformed => "failed to parse config TOML"
  | .invalid flaw => flaw.message

end ConfigError

namespace Config

def ofText (text : String) : Except ConfigError Config :=
  match Toml.ofText? text >>= ofEntries? with
  | none => .error .malformed
  | some config =>
    match config.flaw? with
    | some flaw => .error (.invalid flaw)
    | none => .ok config

def load : FileContent → Except ConfigError Config
  | .missing => .ok {}
  | .unreadable fault => .error (.file fault)
  | .bytes bytes =>
    match String.fromUTF8? ⟨bytes.toArray⟩ with
    | none => .error (.file .invalidText)
    | some text => ofText text

end Config

end StationRelay
