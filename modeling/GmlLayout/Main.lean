import GmlLayout.Command.Run

/-!
The program as it is started: it reads the working directory, carries out the command line on what it
found, writes back the files that changed, and prints.
-/

namespace GmlLayout.Main

/-- Whether opening the file for writing succeeds; nothing is written. -/
def canWrite (name : String) : IO Bool := do
  try
    let _ ← IO.FS.Handle.mk name .append
    return true
  catch _ =>
    return false

def bytes? (name : String) : IO (Option ByteArray) := do
  try
    return some (← IO.FS.readBinFile name)
  catch _ =>
    return none

def load : IO Workspace := do
  let home ← IO.currentDir
  let mut workspace : Workspace := { home := home.toString, files := [] }
  for found in ← home.walkDir do
    let location := (Path.ofText found.toString).parts.drop (Path.ofText home.toString).parts.length
    if ← found.isDir then
      workspace := { workspace with directories := location :: workspace.directories }
    else
      let content ← bytes? found.toString
      workspace := { workspace with files := (location, content.getD .empty) :: workspace.files }
      if content.isNone then
        workspace := { workspace with unreadable := location :: workspace.unreadable }
      if !(← canWrite found.toString) then
        workspace := { workspace with unwritable := location :: workspace.unwritable }
  return workspace

def store (before after : Workspace) : IO Unit := do
  for (location, content) in after.files do
    if (before.bytes? location).all (· != content) then
      IO.FS.writeBinFile ("/".intercalate location) content

end GmlLayout.Main

open GmlLayout

def main (arguments : List String) : IO UInt32 := do
  let workspace ← Main.load
  let (ending, session) := Command.runIn Toml.read workspace arguments
  Main.store workspace session.workspace
  (← IO.getStderr).putStr session.stderr
  (← IO.getStdout).putStr session.stdout
  match ending with
  | .ok code => return code.toUInt32
  | .error crash =>
    (← IO.getStderr).putStrLn crash.message
    return 1
