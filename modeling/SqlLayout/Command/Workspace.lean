/-!
# Workspaces

A workspace is a directory with everything in it. Every file and directory is known by the names on the
way to it; a directory that holds something is there even if it is not listed itself. Paths start at the
top of the workspace; nothing above it can be named but the directories it is in.
-/

namespace SqlLayout

inductive Entry where
  | file (content : ByteArray)
  | directory
deriving Inhabited

instance : DecidableEq Entry
  | .file content, .file other =>
    decidable_of_iff (content.data = other.data) (by rw [Entry.file.injEq, ByteArray.ext_iff])
  | .file _, .directory => isFalse nofun
  | .directory, .file _ => isFalse nofun
  | .directory, .directory => isTrue rfl

/-- Why a file cannot be read or written. -/
inductive AccessError where
  | notFound
  | isDirectory
  | notDirectory
  | notText
deriving DecidableEq, Inhabited

def AccessError.message : AccessError → String
  | notFound => "No such file or directory (os error 2)"
  | isDirectory => "Is a directory (os error 21)"
  | notDirectory => "Not a directory (os error 20)"
  | notText => "stream did not contain valid UTF-8"

structure Workspace where
  entries : List (List String × Entry) := []
deriving Inhabited

namespace Workspace

/-- What stands at a place. -/
def entry? (workspace : Workspace) (place : List String) : Option Entry :=
  match workspace.entries.lookup place with
  | some entry => some entry
  | none =>
    if place.isEmpty || workspace.entries.any fun (other, _) => place.isPrefixOf other then
      some .directory
    else none

/-- Whether a part of a path leads to a directory that has no name of its own. -/
def isStep (part : String) : Bool :=
  part == "" || part == "." || part == ".."

/-- Follows the parts of a path from a directory. The place it leads to need not be there, but
everything on the way has to be a directory. -/
def follow (workspace : Workspace) (place : List String) : List String → Except AccessError (List String)
  | [] => .ok place
  | part :: parts =>
    match workspace.entry? place with
    | none => .error .notFound
    | some (.file _) => .error .notDirectory
    | some .directory =>
      if !isStep part then workspace.follow (place ++ [part]) parts
      else if part ≠ ".." then workspace.follow place parts
      else if place.isEmpty && !parts.all isStep then .error .notFound
      else workspace.follow place.dropLast parts

/-- The place a path leads to. -/
def resolve (workspace : Workspace) (path : String) : Except AccessError (List String) :=
  if path.startsWith "/" then .error .notFound
  else workspace.follow [] (path.splitOn "/")

/-- The text of a file. -/
def read (workspace : Workspace) (path : String) : Except AccessError String := do
  match workspace.entry? (← workspace.resolve path) with
  | none => throw .notFound
  | some .directory => throw .isDirectory
  | some (.file content) =>
    match String.fromUTF8? content with
    | some text => return text
    | none => throw .notText

/-- Puts a file at a place, in the stead of what was there. -/
def put (workspace : Workspace) (place : List String) (entry : Entry) : Workspace :=
  { entries := (place, entry) :: workspace.entries.filter fun (other, _) => other ≠ place }

/-- Writes a file, which need not have been there before. -/
def write (workspace : Workspace) (path text : String) : Except AccessError Workspace := do
  if path.endsWith "/" then throw .isDirectory
  let place ← workspace.resolve path
  match workspace.entry? place with
  | some .directory => throw .isDirectory
  | _ => return workspace.put place (.file text.toUTF8)

/-- The files of a workspace that another one lacks or has with another content. -/
def changesSince (workspace earlier : Workspace) : List (List String × ByteArray) :=
  workspace.entries.filterMap fun
    | (place, .file content) =>
      if earlier.entries.lookup place = some (.file content) then none else some (place, content)
    | (_, .directory) => none

end Workspace

end SqlLayout
