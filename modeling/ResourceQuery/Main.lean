import ResourceQuery.CommandLine

/-! The program: hands the arguments and the standard input to the command line, and prints what
comes of them. The log goes where failures are reported. -/

namespace ResourceQuery.CommandLine

/-- What is printed if the arguments break the rules. -/
def usage : String :=
  "Usage: rql [OPTIONS] <COMMAND>\n\nFor more information, try '--help'.\n"

/-- Reads everything that is left of a stream, behind what has been read so far. -/
partial def readAll (stream : IO.FS.Stream) (sofar : ByteArray) : IO ByteArray := do
  let bytes ← stream.read 65536
  if bytes.isEmpty then return sofar
  readAll stream (sofar ++ bytes)

/-- Prints an outcome and gives its exit code. -/
def Outcome.print : Outcome → IO UInt32
  | misused => do
    (← IO.getStderr).putStr usage
    return 2
  | done exitCode stdout stderr => do
    (← IO.getStdout).putStr stdout
    (← IO.getStderr).putStr stderr
    return exitCode.toUInt32

/-- Runs the program on the standard input, which is read only if the command needs it. -/
def execute (arguments : List String) : IO UInt32 := do
  let stdin ← IO.getStdin
  let isTerminal ← stdin.isTty
  let needed := (Request.read? arguments).any (Request.readsInput isTerminal)
  let bytes ← if needed then readAll stdin ByteArray.empty else pure ByteArray.empty
  let input : Input := ⟨isTerminal, bytes⟩
  for event in log arguments input do
    (← IO.getStderr).putStrLn event.line
  (run arguments input).print

end ResourceQuery.CommandLine

def main (arguments : List String) : IO UInt32 :=
  ResourceQuery.CommandLine.execute arguments
