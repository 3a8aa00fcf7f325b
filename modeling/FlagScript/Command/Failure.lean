import FlagScript.FlagFile

/-!
# Failures of commands

Why a command could not be carried out. A message gives all causes, from the outermost to the
innermost, and each of them with everything that it says.
-/

namespace FlagScript

namespace Error

/-- The messages of an error and of what caused it. -/
def chain (e : Error) : List String :=
  e.message ::
    match e with
    | condition _ cause => cause.chain
    | inFile _ cause => cause.chain
    | _ => []

end Error

namespace Command

/-- Why a file could not be read as text. -/
inductive ReadFailure where
  | missing
  | isDirectory
  /-- A part of the path that should be a directory is none. -/
  | notDirectory
  /-- The bytes are no text. -/
  | notText
  | other (message : String)
  deriving DecidableEq

def ReadFailure.message : ReadFailure → String
  | missing => "No such file or directory (os error 2)"
  | isDirectory => "Is a directory (os error 21)"
  | notDirectory => "Not a directory (os error 20)"
  | notText => "stream did not contain valid UTF-8"
  | other message => message

inductive Failure where
  | input (cause : ReadFailure)
  | source (path : String) (cause : ReadFailure)
  | flagFile (path : String) (cause : ReadFailure)
  | flags (path : String) (cause : FlagFile.Failure)
  /-- A setting without an equals sign. -/
  | setting (text : String)
  | script (cause : Error)
  | checking (isTemplate : Bool) (name : String) (cause : Error)
  deriving DecidableEq

namespace Failure

/-- A name between single quotes, as it is. -/
def quoteName (name : String) : String := "'" ++ name ++ "'"

/-- What went wrong, and why, outermost first. -/
def chain : Failure → List String
  | input cause => ["reading standard input", cause.message]
  | source path cause => ["reading " ++ quoteName path, cause.message]
  | flagFile path cause => ["reading flags from " ++ quoteName path, cause.message]
  | flags path cause => ["parsing flags from " ++ quoteName path, cause.message]
  | setting text => ["--set expects NAME=VALUE, got " ++ quoteName text]
  | script cause => cause.chain
  | checking isTemplate name cause =>
    let kind := if isTemplate then "template " else "script "
    ("checking " ++ kind ++ quoteName name) :: cause.chain

def message (f : Failure) : String := ": ".intercalate f.chain

end Failure

end Command

end FlagScript
