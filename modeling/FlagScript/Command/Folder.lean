import FlagScript.Command.Failure

/-!
# Folders

A folder held in memory, whose files are named by their paths below it. Paths are followed part by
part, and there is nothing outside.
-/

namespace FlagScript.Command

/-- Files by the parts of their paths. -/
structure Folder where
  files : List (List String × ByteArray)

namespace Folder

/-- The parts of a path between slashes. -/
def parts (path : String) : List String := (path.toList.splitOn '/').map String.ofList

/-- A folder with the files of the given paths. -/
def ofFiles (files : List (String × ByteArray)) : Folder :=
  ⟨files.map fun (path, content) => (parts path, content)⟩

/-- Whether some file lies below a directory. -/
def hasDirectory (folder : Folder) (directory : List String) : Bool :=
  folder.files.any fun (path, _) => directory.isPrefixOf path && directory != path

/-- Follows the parts of a path from a directory. -/
def follow (folder : Folder) (directory : List String) :
    List String → Except ReadFailure ByteArray
  | [] => .error .isDirectory
  | part :: rest =>
    if part.isEmpty || part = "." then follow folder directory rest
    else if part = ".." then
      if !directory.isEmpty then follow folder directory.dropLast rest
      else if rest.all (·.isEmpty) then .error .isDirectory
      else .error .missing
    else
      let next := directory ++ [part]
      match folder.files.lookup next with
      | some content => if rest.isEmpty then .ok content else .error .notDirectory
      | none => if folder.hasDirectory next then follow folder next rest else .error .missing

/-- The file at a path. -/
def read (folder : Folder) (path : String) : Except ReadFailure ByteArray :=
  if path.isEmpty then .error .missing
  else
    match parts path with
    | "" :: rest => if rest.all (·.isEmpty) then .error .isDirectory else .error .missing
    | parts => folder.follow [] parts

end Folder

end FlagScript.Command
