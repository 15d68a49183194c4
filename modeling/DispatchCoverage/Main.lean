import DispatchCoverage.Command.Program

/-!
# Command line

The outer layer of the program: it reads the files that the arguments name,
runs the program, and writes what the run asks for.
-/

namespace DispatchCoverage.CommandLine

open Command

/-- How the program is used. -/
def usageText : String :=
  "Usage: patchk [-v] check [SWITCHES] [DECLARATION_FILE...]\n\n" ++
  "    -v, --verbose                   log the progress of the analysis\n" ++
  "    --version                       print the version and quit\n" ++
  "    --completions SHELL             print a script for bash, fish or zsh and quit\n" ++
  "    -h, --help                      print this text and quit\n\n" ++
  "Switches of check:\n" ++
  "    -i, --interface SIGNATURE       an interface to check\n" ++
  "    -m, --implementation SIGNATURE  an implementation of that interface; may be repeated\n" ++
  "    -t, --to FORM                   text (default), ttl, xml, nt, json-ld or trig\n" ++
  "    -o, --output FILE               the file to write to\n" ++
  "    --max-rounds N                  give up after this many rounds\n" ++
  "    --lenient                       report internal inconsistencies as unimplemented\n"

/-- The content of a page. -/
def content : Page → String
  | .usage => usageText
  | .text text => text
  | .graph g format => g.serialize format

/-- The bytes of the file at a path of the file system. -/
def probe (path : String) : IO (Except FileError ByteArray) := do
  try
    return .ok (← IO.FS.readBinFile path)
  catch
    | .noFileOrDirectory .. => return .error (.missing path)
    | .inappropriateType .. => return .error (.directory path)
    | _ => return .error (.missing path)

/-- The storage that holds the files at some paths. -/
def storageOf (paths : List String) : IO Storage := do
  let entries ← paths.mapM fun path => do
    let path := tidyPath path
    return (path, ← probe path)
  let bytes (path : String) : Except FileError ByteArray :=
    ((entries.find? (fun e => e.1 == path)).map Prod.snd).getD (.error (.missing path))
  return ⟨bytes, fun _ => .ok ()⟩

/-- The files that a request reads. -/
def paths : Request → List String
  | .check _ request => request.paths
  | _ => []

/-- Write what a run asks for, and give its status. -/
def finish (run : Run) : IO UInt32 := do
  for line in run.errors do
    IO.eprintln line
  if let some (path, page) := run.written then
    IO.FS.writeFile path (content page)
  if let some page := run.output then
    IO.print (printed (content page))
  match run.ending with
  | .exit status => return status.toUInt32
  | .undecodable => IO.eprintln "The input is not encoded in UTF-8."; return 1
  | .inexpressible => IO.eprintln "The graph has an address that the form cannot express."; return 1
  | .unopened cause => IO.eprintln cause.message; return 1

end DispatchCoverage.CommandLine

open DispatchCoverage in
/-- Run the program on the arguments of the command line. -/
def main (argv : List String) : IO UInt32 := do
  let request := Command.readRequest argv
  if let .usage (some e) _ := request then
    IO.println s!"Error: {e.message}"
  CommandLine.finish (request.run (← CommandLine.storageOf (CommandLine.paths request)))
