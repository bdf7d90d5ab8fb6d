/-!
# Paths

A path is read as a root and a list of names. Repeated slashes and names that are a single point
disappear; two points stay, since only the file system knows what they lead to. Exactly two leading
slashes are a root of their own.
-/

namespace VirtualTopology

/-- Where a path starts. -/
inductive PathRoot where
  | relative
  | slash
  | doubleSlash
  deriving Repr, DecidableEq

/-- A path in normal form. -/
structure PosixPath where
  root : PathRoot
  names : List String
  deriving Repr, DecidableEq

namespace PosixPath

/-- Split at every slash. -/
def segments : List Char → List (List Char)
  | [] => [[]]
  | c :: cs =>
      match c, segments cs with
      | '/', ss => [] :: ss
      | c, [] => [[c]]
      | c, s :: ss => (c :: s) :: ss

/-- The names of a path: its segments without empty ones and single points. -/
def namesOf (cs : List Char) : List String :=
  ((segments cs).filter fun s => !s.isEmpty && s != ['.']).map String.ofList

/-- The root of a path. -/
def rootOf : List Char → PathRoot
  | '/' :: '/' :: '/' :: _ => .slash
  | '/' :: '/' :: _ => .doubleSlash
  | '/' :: _ => .slash
  | _ => .relative

/-- Read a path. -/
def ofText (s : String) : PosixPath := ⟨rootOf s.toList, namesOf s.toList⟩

/-- The written form; the empty relative path is a single point. -/
def text (p : PosixPath) : String :=
  let names := "/".intercalate p.names
  match p.root with
  | .relative => if p.names.isEmpty then "." else names
  | .slash => "/" ++ names
  | .doubleSlash => "//" ++ names

/-- Whether a path starts at a root. -/
def isAbsolute (p : PosixPath) : Bool := p.root != .relative

/-- One path behind another; an absolute one replaces it. -/
def join (p q : PosixPath) : PosixPath :=
  if q.isAbsolute then q else ⟨p.root, p.names ++ q.names⟩

/-- The last name of a path, empty if it has none. -/
def name (p : PosixPath) : String := p.names.getLastD ""

/-- The text before the last point, if that point is neither first nor last; otherwise the whole
text. -/
def stemOf (cs : List Char) : List Char :=
  match cs.reverse.dropWhile (· != '.') with
  | [] => cs
  | _ :: before =>
      if before.isEmpty || cs.getLast? == some '.' then cs else before.reverse

/-- The last name without its suffix. -/
def stem (p : PosixPath) : String := String.ofList (stemOf p.name.toList)

/-- The path without its last name. -/
def parent (p : PosixPath) : PosixPath := ⟨p.root, p.names.dropLast⟩

end PosixPath

end VirtualTopology
