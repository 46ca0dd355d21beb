import SvgDisplayList.Text.Similarity
import SvgDisplayList.Validation

/-!
# The command line

The command line takes the name of one file, stays silent about an admitted file and reports any
other.  It has a single flag, the one that asks for help; an argument that only looks like a flag is
a misuse, and so is anything but one name.
-/

namespace SvgDisplayList

namespace CommandLine

/-- The program's call. -/
def usage : String := "Usage: svg-validate <FILE>"

/-- What the program says about itself. -/
def help : String :=
  "Check that an SVG file parses and has a root element\n\n" ++ usage ++
    "\n\nArguments:\n  <FILE>  SVG file to validate\n\nOptions:\n  -h, --help  Print help\n"

/-- How the arguments go against the program's call. -/
inductive Misuse where
  /-- There is no file name. -/
  | missingFile
  /-- The file name is empty. -/
  | emptyFile
  /-- There is a flag that is none. -/
  | unknownFlag (flag : String)
  /-- There is a flag that is none, though almost the one for help. -/
  | almostHelp (flag : String)
  /-- The flag for help has a value. -/
  | helpValue (value : String)
  /-- There is a second file name. -/
  | surplus (argument : String)
deriving DecidableEq, Repr

namespace Misuse

/-- What is wrong, with advice and the program's call where they help. -/
def message : Misuse → List String
  | missingFile => ["the following required arguments were not provided:\n  <FILE>", usage]
  | emptyFile => ["a value is required for '<FILE>' but none was supplied"]
  | unknownFlag flag =>
    ["unexpected argument '" ++ flag ++ "' found",
      "  tip: to pass '" ++ flag ++ "' as a value, use '-- " ++ flag ++ "'", usage]
  | almostHelp flag =>
    ["unexpected argument '" ++ flag ++ "' found", "  tip: a similar argument exists: '--help'",
      "Usage: svg-validate --help <FILE>"]
  | helpValue value =>
    ["unexpected value '" ++ value ++ "' for '--help' found; no more were expected", usage]
  | surplus argument => ["unexpected argument '" ++ argument ++ "' found", usage]

/-- The report of a misuse. -/
def report (m : Misuse) : String :=
  "error: " ++
    String.intercalate "\n\n" (m.message ++ ["For more information, try '--help'."]) ++ "\n"

end Misuse

/-- What the arguments ask for. -/
inductive Request where
  | check (file : String)
  | help
  | misuse (cause : Misuse)
deriving DecidableEq, Repr

namespace Request

/-- The request for a file. -/
def ofFile? : Option String → Request
  | none => misuse .missingFile
  | some file => if file.isEmpty then misuse .emptyFile else check file

/-- The arguments behind `--` are file names, whatever they look like. -/
def names : Option String → List String → Request
  | file?, [] => ofFile? file?
  | none, a :: rest => names (some a) rest
  | some _, a :: _ => misuse (.surplus a)

/-- The request of a flag, given as the characters behind its two dashes.  A value may follow behind
a sign. -/
def ofLongFlag (flag : List Char) : Request :=
  let name := flag.takeWhile (· != '=')
  let shown := String.ofList ('-' :: '-' :: name)
  if name = "help".toList then
    match flag.drop name.length with
    | [] => help
    | _ :: value => misuse (.helpValue (String.ofList value))
  else if Text.areAlike name "help".toList then misuse (.almostHelp shown)
  else misuse (.unknownFlag shown)

/-- Reads the arguments from left to right; the first one that cannot stand decides. -/
def readFrom : Option String → List String → Request
  | file?, [] => ofFile? file?
  | file?, a :: rest =>
    match a.toList with
    | ['-', '-'] => names file? rest
    | '-' :: '-' :: flag => ofLongFlag flag
    | '-' :: 'h' :: _ => help
    | '-' :: c :: _ => misuse (.unknownFlag (String.ofList ['-', c]))
    | _ =>
      match file? with
      | some _ => misuse (.surplus a)
      | none => if a.isEmpty then misuse .emptyFile else readFrom (some a) rest

/-- Reads the arguments. -/
def ofArguments (arguments : List String) : Request := readFrom none arguments

end Request

/-- What the program leaves behind: its exit code and the texts on the two output streams. -/
structure Reply where
  code : UInt32
  output : String
  report : String
deriving DecidableEq, Repr

/-- The reply to a request, `contents` being those of the file that it names, or why they cannot be
read. -/
def Request.reply (contents : Except String (List UInt8)) : Request → Reply
  | .help => ⟨0, CommandLine.help, ""⟩
  | .misuse cause => ⟨1, "", cause.report⟩
  | .check file =>
    let verdict := match contents with
      | .ok bytes => Validation.ofBytes bytes
      | .error reason => .error (.unreadable reason)
    match verdict with
    | .ok () => ⟨0, "", ""⟩
    | .error e => ⟨1, "", e.report file⟩

end CommandLine

end SvgDisplayList
