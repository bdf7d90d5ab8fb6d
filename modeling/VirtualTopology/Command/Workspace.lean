import VirtualTopology.PosixPath

/-!
# Workspaces

A workspace is the directory in which a command runs: files with their texts, and directories. A path
is followed name by name (`Workspace.locate`), and ends at a file, at a directory, at a free place in
a directory that is there, or nowhere. What lies outside the workspace is not known; nothing is found
or written there.
-/

namespace VirtualTopology

/-- The files and directories below the directory in which a command runs. A place is the list of the
names that lead there. -/
structure Workspace where
  files : List (List String × String) := []
  /-- The directories, without those that hold a file. -/
  directories : List (List String) := []
  deriving Repr, DecidableEq

/-- Where a path leads. -/
inductive Located where
  | file (place : List String) (text : String)
  | directory (place : List String)
  /-- Nothing is there, in a directory that is. -/
  | free (place : List String)
  /-- A directory on the way is missing. -/
  | missing
  /-- The way goes through a file, or a name is too long. -/
  | blocked
  /-- The path leads out of the workspace. -/
  | outside
  deriving Repr, DecidableEq

namespace Workspace

/-- The longest name of a file, in octets. -/
def nameLimit : Nat := 255

/-- The text of the file at a place. -/
def text? (w : Workspace) (place : List String) : Option String :=
  (w.files.find? fun f => f.1 == place).map (·.2)

/-- Whether there is a directory at a place. -/
def hasDirectory (w : Workspace) (place : List String) : Bool :=
  place.isEmpty || w.directories.any (place.isPrefixOf ·) ||
    w.files.any fun f => place != f.1 && place.isPrefixOf f.1

/-- What is at a place whose directory is there. -/
def at_ (w : Workspace) (place : List String) : Located :=
  match w.text? place with
  | some text => .file place text
  | none => if w.hasDirectory place then .directory place else .free place

/-- One name further along a path. -/
def step (w : Workspace) (reached : Located) (name : String) : Located :=
  match reached with
  | .directory place =>
      if name == "" || name == "." then .directory place
      else if name == ".." then
        if place.isEmpty then .outside else .directory place.dropLast
      else if nameLimit < name.utf8ByteSize then .blocked
      else w.at_ (place ++ [name])
  | .file .. => .blocked
  | .free _ => .missing
  | other => other

/-- Where the names of a path lead. -/
def follow (w : Workspace) (names : List String) : Located :=
  names.foldl w.step (.directory [])

/-- Where a written path leads. An empty path leads nowhere. -/
def locate (w : Workspace) (path : String) : Located :=
  match path.toList with
  | [] => .missing
  | '/' :: _ => .outside
  | cs => w.follow ((PosixPath.segments cs).map String.ofList)

/-- Where a path in normal form leads. -/
def locatePath (w : Workspace) (p : PosixPath) : Located :=
  if p.isAbsolute then .outside else w.follow p.names

/-- Make the directory that some names lead to, and those on the way. Nothing if a file is in the
way. -/
def withDirectories (w : Workspace) : (names : List String) → Option Workspace
  | names => (List.range (names.length + 1)).foldlM (fun w n =>
      match w.follow (names.take n) with
      | .directory _ => some w
      | .free place => some { w with directories := w.directories ++ [place] }
      | _ => none) w

/-- Make the directory of a path, and those on the way. -/
def makeDirectory? (w : Workspace) (p : PosixPath) : Option Workspace :=
  if p.isAbsolute then none else w.withDirectories p.names

/-- Put a text at a place. -/
def put (w : Workspace) (place : List String) (text : String) : Workspace :=
  { w with files := (w.files.filter fun f => f.1 != place) ++ [(place, text)] }

/-- Write a file, where its directory is there and no directory is in its place. -/
def write? (w : Workspace) (p : PosixPath) (text : String) : Option Workspace :=
  match w.locatePath p with
  | .file place _ | .free place => some (w.put place text)
  | _ => none

/-- The text that is read from a path, nothing if no file is there. -/
def read? (w : Workspace) (p : PosixPath) : Option String :=
  match w.locatePath p with
  | .file _ text => some text
  | _ => none

end Workspace

end VirtualTopology
