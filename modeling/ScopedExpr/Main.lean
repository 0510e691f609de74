import ScopedExpr.CommandLine

/-!
# The program

Reads the file that the arguments name and gives the answer of the command line.
-/

namespace ScopedExpr.CommandLine

def findFile (name : String) : IO FileContent := do
  try
    return .bytes (← IO.FS.readBinFile name).toList
  catch
    | .noFileOrDirectory _ _ _ => return .missing
    | .inappropriateType none _ _ => return .directory
    | .inappropriateType (some _) _ _ => return .notDirectory
    | other => return .cannotOpen (toString other)

/-- Answer the arguments; the log file is made before the file is read. -/
def respond (arguments : List String) : IO UInt32 := do
  let request := readArguments false arguments
  let content ← match request with
    | .run _ file log =>
      if log then IO.FS.writeFile "slug.log" ""
      findFile file
    | _ => pure .missing
  let reply := request.answer fun _ => content
  (← IO.getStdout).putStr reply.stdout
  (← IO.getStderr).putStr reply.stderr
  return reply.code.toUInt32

end ScopedExpr.CommandLine

def main (arguments : List String) : IO UInt32 := ScopedExpr.CommandLine.respond arguments
