import Deferral.Config.Decode
import Deferral.Config.Validate
import Deferral.Toml.Document

/-!
Loading a configuration: from bytes to text, to a tree, to a configuration, which is accepted if it
has no faults.
-/

namespace Deferral.Config

def osErrorDump (number : Nat) (kind text : String) : String :=
  "Os \x7b code: " ++ toString number ++ ", kind: " ++ kind ++ ", message: " ++ Text.quoted text ++ " \x7d"

/-- Why a file was not read. The system has more errors than those with names here. -/
inductive FileError where
  | notFound | isDirectory | notDirectory | invalidText
  | system (number : Nat) (kind text : String)
  deriving DecidableEq, Repr

namespace FileError

def number? : FileError → Option Nat
  | .notFound => some 2
  | .isDirectory => some 21
  | .notDirectory => some 20
  | .invalidText => none
  | .system number _ _ => some number

def kind : FileError → String
  | .notFound => "NotFound"
  | .isDirectory => "IsADirectory"
  | .notDirectory => "NotADirectory"
  | .invalidText => "InvalidData"
  | .system _ kind _ => kind

def text : FileError → String
  | .notFound => "No such file or directory"
  | .isDirectory => "Is a directory"
  | .notDirectory => "Not a directory"
  | .invalidText => "stream did not contain valid UTF-8"
  | .system _ _ text => text

def message (e : FileError) : String :=
  match e.number? with
  | some number => s!"{e.text} (os error {number})"
  | none => e.text

def dump (e : FileError) : String :=
  match e.number? with
  | some number => osErrorDump number e.kind e.text
  | none => "Error \x7b kind: " ++ e.kind ++ ", message: " ++ Text.quoted e.text ++ " \x7d"

end FileError

inductive ConfigError where
  | file (error : FileError)
  | notDocument
  | shape (error : DecodeError)
  | invalid (errors : List ValidationError)

namespace ConfigError

/-- The text of an error. Of a malformed document only the kind of the error is told. -/
def message : ConfigError → String
  | .file error => s!"IO error: {error.message}"
  | .notDocument | .shape _ => "Parse error"
  | .invalid errors =>
    "Validation failed: " ++ ", ".intercalate (errors.map ValidationError.message)

def dump : ConfigError → String
  | .file error => "Io(" ++ error.dump ++ ")"
  | .notDocument | .shape _ => "Parse"
  | .invalid errors => "Validation([" ++ ", ".intercalate (errors.map ValidationError.dump) ++ "])"

end ConfigError

def parse (document : String) : Except ConfigError ServiceConfig := do
  let some tree := Toml.parse? document
    | .error .notDocument
  let config ← (decodeService .file tree).mapError .shape
  match validate config with
  | [] => return config
  | errors => .error (.invalid errors)

def decodeBytes (bytes : ByteArray) : Except FileError String :=
  match String.fromUTF8? bytes with
  | some s => .ok s
  | none => .error .invalidText

def load (content : Except FileError ByteArray) : Except ConfigError ServiceConfig := do
  let bytes ← content.mapError .file
  let document ← (decodeBytes bytes).mapError .file
  parse document

end Deferral.Config
