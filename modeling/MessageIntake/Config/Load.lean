import MessageIntake.Config.Environment
import MessageIntake.Config.KeyPath
import MessageIntake.Json.Parser
import MessageIntake.Text.Utf8
import MessageIntake.Toml.Document

/-!
# Loading a configuration

A configuration is loaded from a file, whose format its extension tells,
and then from the variables of the environment, which take precedence.
What cannot be read or converted is a parse failure; a configuration
that may not be used is refused by `Config.validate`.
-/

namespace MessageIntake.Config

/-- The formats of configuration files. -/
inductive Format where
  | toml
  | json
  deriving DecidableEq, Repr

/-- The extension of a format's files. -/
def Format.extension : Format → String
  | toml => "toml"
  | json => "json"

/-- What is after the last point of a file's name; nothing if there is no
point, or only one at the front. -/
def extension? (name : String) : Option String :=
  let ending := (name.toList.reverse.takeWhile (· != '.')).reverse
  if ending.length + 1 < name.length then some (String.ofList ending) else none

/-- The format that the extension of a file's name tells. -/
def Format.ofName? (name : String) : Option Format :=
  match extension? name with
  | some "toml" => some toml
  | some "json" => some json
  | _ => none

/-! ## Files -/

/-- A path below a directory: the names on it, and whether it asks for a
directory at its end. -/
structure Path where
  names : List String
  asksDirectory : Bool
  deriving DecidableEq, Repr

/-- Reads a path. Empty names and single points lead nowhere; a path from
the root leads to no file below. -/
def Path.ofText? (s : String) : Option Path :=
  let isIdle := fun (name : List Char) => name.isEmpty || name = ['.']
  let parts := s.toList.splitOn '/'
  if s.toList.head? = some '/' then none
  else some ⟨(parts.filter (!isIdle ·)).map String.ofList, parts.getLast?.any isIdle⟩

/-- Files by path. -/
abbrev Files := List (String × ByteArray)

/-- The file that names lead to. -/
def Files.get? (files : Files) (names : List String) : Option ByteArray :=
  files.findSome? fun (path, bytes) =>
    if (Path.ofText? path).any (·.names = names) then some bytes else none

/-- The file that names lead to once the last has the extension of a
format. -/
def Files.withExtension? (files : Files) (above : List String) (last : String) :
    Option (Format × ByteArray) :=
  [Format.toml, .json].findSome? fun format =>
    (files.get? (above ++ [last ++ "." ++ format.extension])).map fun bytes => (format, bytes)

/-- Whether the name at the end of a path may get the extension of a
format: it must not lead up, and one that has an extension already must
not be asked for as a directory. -/
def Path.mayExtend (p : Path) (last : String) : Bool :=
  last != ".." && !(p.asksDirectory && (extension? last).isSome)

/-- The file at `path`; if there is none, the file at `path` with the
extension of a format. A file of no known format is none. -/
def Files.find? (files : Files) (path : String) : Option (Format × ByteArray) := do
  let path ← Path.ofText? path
  let last ← path.names.getLast?
  match if path.asksDirectory then none else files.get? path.names with
  | some bytes => (Format.ofName? last).map fun format => (format, bytes)
  | none => if path.mayExtend last then files.withExtension? path.names.dropLast last else none

/-! ## Contents -/

/-- The characters of a file, without a byte order mark; bytes that are
no characters are replaced. -/
def decodeFile (bytes : ByteArray) : String :=
  let s := Text.Utf8.decodeLossy bytes
  match s.toList with
  | '\ufeff' :: rest => String.ofList rest
  | _ => s

/-- What a file gives, by key. -/
def readFile? (format : Format) (bytes : ByteArray) : Option (List (String × Value)) :=
  match format with
  | .toml => (Toml.parse? (decodeFile bytes)).map fun members =>
    members.map fun (key, value) => (key, .ofToml value)
  | .json =>
    match Json.parse? (decodeFile bytes) with
    | some (.obj members) => some (members.map fun (key, value) => (key, .ofJson value))
    | _ => none

/-- The settings as a file gives them, and then the environment. -/
def effective (file : List (String × Value)) (environment : Environment) : Settings :=
  (Settings.setAll {} file).setAll environment.given

/-- The configuration that can be read, valid or not. -/
def read (files : Files) (environment : Environment) (path : String) : Result Config :=
  let failure := fun reason => Except.error (Error.configParseFailed "consumer" reason)
  match files.find? path with
  | none => failure "no configuration file"
  | some (format, bytes) =>
    match readFile? format bytes with
    | none => failure "the file is malformed"
    | some file =>
      match ofValues? (effective file environment).get? with
      | none => failure "a value cannot be converted"
      | some c => .ok c

/-- Loads the configuration at `path`. -/
def load (files : Files) (environment : Environment) (path : String) : Result Config :=
  match read files environment path with
  | .error e => .error e
  | .ok c =>
    match c.validate with
    | .ok _ => .ok c
    | .error e => .error e

end MessageIntake.Config
