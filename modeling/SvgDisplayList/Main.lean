import SvgDisplayList.CommandLine

/-!
# The program

`svg-validate FILE` exits with zero when the file is well-formed XML with a root element, and
reports what is wrong with it otherwise.
-/

open SvgDisplayList

/-- The contents of the file that a request names, or the reason why it cannot be read. -/
def readContents : CommandLine.Request → IO (Except String (List UInt8))
  | .check file => do
    try
      let bytes ← IO.FS.readBinFile file
      return .ok bytes.toList
    catch e => return .error e.toString
  | _ => return .ok []

def main (arguments : List String) : IO UInt32 := do
  let request := CommandLine.Request.ofArguments arguments
  let reply := request.reply (← readContents request)
  (← IO.getStdout).putStr reply.output
  (← IO.getStderr).putStr reply.report
  return reply.code
