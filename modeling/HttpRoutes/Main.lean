import HttpRoutes.CommandLine.Run

/-!
# The program

Reads the table file and standard input as far as the arguments ask for them, prints the outcome
and ends with its exit code.
-/

namespace HttpRoutes

/-- Why the system does not give the bytes of a file. -/
def faultOf : IO.Error → FileFault
  | .noFileOrDirectory .. => .notFound
  | .inappropriateType .. => .isDirectory
  | error => .other (toString error)

def readContent (path : String) : IO FileContent := do
  try
    return .ok (← IO.FS.readBinFile path).toList
  catch error =>
    return .error (faultOf error)

/-- All bytes of a stream, behind those already `taken`. -/
partial def readAll (stream : IO.FS.Stream) (taken : ByteArray) : IO ByteArray := do
  let chunk ← stream.read 65536
  if chunk.isEmpty then return taken else readAll stream (taken ++ chunk)

def readInput : IO (List UInt8) := do
  return (← readAll (← IO.getStdin) ByteArray.empty).toList

end HttpRoutes

open HttpRoutes in
def main (args : List String) : IO UInt32 := do
  match Invocation.parse args with
  | none =>
    IO.eprintln "usage: [--routes FILE] (list [--json] | match (METHOD PATH | --stdin))"
    return 2
  | some invocation =>
    let file ← readContent invocation.table
    let input ← if invocation.command = .resolveLines then readInput else pure []
    if let .error error := RouteTable.load file then
      IO.eprintln error.message
    let outcome := invocation.command.runOn file input
    IO.print outcome.output
    return outcome.exitCode.toUInt32
