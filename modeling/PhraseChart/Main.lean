import PhraseChart.CommandLine.Session

namespace PhraseChart.CommandLine

/-- The content of a file, or why there is none. -/
def fileContent (path : String) : IO (Except FileError ByteArray) := do
  try
    return .ok (← IO.FS.readBinFile path)
  catch
    | .noFileOrDirectory .. => return .error .notFound
    | .inappropriateType _ 21 _ => return .error .isDirectory
    | e => return .error (.other (toString e) (toString e))

/-- The bytes up to the next line feed and with it. -/
def nextBytes (input : IO.FS.Stream) : IO (List UInt8) := do
  let mut bytes := #[]
  repeat
    let chunk ← input.read 1
    bytes := bytes ++ chunk.data
    if chunk.isEmpty || chunk.data.contains 10 then return bytes.toList
  return bytes.toList

def write (outcome : Outcome) : IO UInt32 := do
  IO.print outcome.stdout
  IO.eprint outcome.stderr
  return outcome.exit.toUInt32

/-- The conversation of a job, answering each line as it comes. -/
def converseLive (t : CharTables) (p : Parser) (job : Job) : IO UInt32 := do
  let input ← IO.getStdin
  let output ← IO.getStdout
  let mut buffer := ""
  repeat
    IO.print prompt
    output.flush
    match appendBytes buffer (← nextBytes input) with
    | .error e => return ← write (failure "" (e.record t.shown))
    | .ok text =>
      if text.isEmpty then return 0
      IO.print (answer t.words p job (String.ofList (Text.trim text.toList)))
      buffer := ""
  return 0

/-- A whole run; only what it needs is read. -/
def runLive (args : List String) : IO UInt32 := do
  match readArguments args with
  | .ok (.run job) =>
    let file ← fileContent job.grammar
    match job.sentence, load file with
    | none, .ok p => converseLive .unicode p job
    | _, _ => write (runJob .unicode job file ByteArray.empty)
  | _ => write (run args (fun _ => .error .notFound) ByteArray.empty)

end PhraseChart.CommandLine

def main (args : List String) : IO UInt32 := PhraseChart.CommandLine.runLive args
