import VirtualTopology.Command.Run
import VirtualTopology.Host.Memory

/-!
# The command line

The host is one in memory, empty at the start. The files that a command line can name are read before
the command is run, and what the command leaves behind is written afterwards. `Command.run` decides
everything in between.
-/

namespace VirtualTopology.Main

/-- The paths that a word of a command line can name. -/
def paths (word : String) : List String :=
  let behindEquals := ((word.toList.dropWhile (· != '=')).drop 1)
  [word, String.ofList behindEquals, String.ofList (word.toList.drop 2), "config.yaml"]

/-- The places on the way to the end of a path inside the workspace. -/
def places (path : String) : List (List String) :=
  let p := PosixPath.ofText path
  if p.isAbsolute || p.names.contains ".." then []
  else (List.range p.names.length).map fun n => p.names.take (n + 1)

/-- Read what is at a place. -/
def observe (w : Workspace) (place : List String) : IO Workspace := do
  let here ← IO.currentDir
  let path := here / "/".intercalate place
  if ← path.isDir then return { w with directories := w.directories ++ [place] }
  try
    return w.put place (← IO.FS.readFile path)
  catch _ => return w

/-- Write the files of a workspace that another one does not have. -/
def leave (before after : Workspace) : IO Unit := do
  let here ← IO.currentDir
  for place in after.directories do
    IO.FS.createDirAll (here / "/".intercalate place)
  for (place, text) in after.files do
    if before.text? place != some text then
      IO.FS.writeFile (here / "/".intercalate place) text

/-- Run a command line. -/
def run (words : List String) : IO UInt32 := do
  let names := Environment.sections.flatMap fun s => s.2.map (·.name)
  let values ← names.mapM fun name => do return (name, ← IO.getEnv name)
  let environment : Environment := fun name => (values.lookup name).join
  let workspace ← ((words.flatMap paths).flatMap places).eraseDups.foldlM observe ({} : Workspace)
  let ((status, t), _) := (Command.run { environment } workspace words).run Memory.answer {}
  leave workspace t.workspace
  for b in t.shown do
    for line in (b.lines?).getD [] do
      IO.println line
  if status == 2 then IO.eprintln "The command line is not understood."
  return status.toUInt32

end VirtualTopology.Main

/-- The command line of the program. -/
def main (words : List String) : IO UInt32 := VirtualTopology.Main.run words
