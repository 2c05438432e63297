import ContentQuery.Command.Help
import ContentQuery.Command.Run

namespace ContentQuery

/-- Environment variable with the filter for log lines. -/
def filterVariable : String := "RUST_LOG"

def Command.Refusal.message : Command.Refusal → String
  | .helpRequested _ => ""
  | .nothingGiven => "a command is required"
  | .unknownCommand => "unrecognized command"
  | .unknownArgument => "unexpected argument found"
  | .missingArgument => "a required argument was not provided"
  | .invalidValue => "an argument needs a value"
  | .invalidNumber => "invalid value for '--max-fragments <N>'"
  | .repeatedOption => "an option was given more than once"
  | .needlessValue => "unexpected value for an option"

/-- The error of a file by its number in the system, which some calls give negated. -/
def fileError (code : UInt32) (details : String) : FileError :=
  match if code < 0x80000000 then code else 0 - code with
  | 2 => .notFound
  | 20 => .notDirectory
  | 21 => .isDirectory
  | 28 => .noSpace
  | 36 => .nameTooLong
  | code => .other (details ++ " (os error " ++ toString code ++ ")")

def fileErrorOf : IO.Error → FileError
  | .noFileOrDirectory _ code details => fileError code details
  | .inappropriateType _ code details => fileError code details
  | .permissionDenied _ code details => fileError code details
  | .invalidArgument _ code details => fileError code details
  | .resourceExhausted _ code details => fileError code details
  | .noSuchThing _ code details => fileError code details
  | .alreadyExists _ code details => fileError code details
  | .otherError code details => fileError code details
  | error => .other (toString error)

partial def readAll (stream : IO.FS.Stream) (bytes : ByteArray) : IO ByteArray := do
  let chunk ← stream.read 65536
  if chunk.isEmpty then return bytes
  readAll stream (bytes ++ chunk)

def readSource (source : Source) : IO (Except FileError String) := do
  try
    let bytes ← match source with
      | .file path => IO.FS.readBinFile path
      | .standardInput => readAll (← IO.getStdin) .empty
    return decodeText bytes
  catch error => return .error (fileErrorOf error)

def writeFile (w : Command.Writing) : IO Command.Outcome := do
  try
    IO.FS.writeFile w.path w.content
    return w.finish none
  catch error => return w.finish (some (fileErrorOf error))

def carryOut (r : Command.Request) : IO UInt32 := do
  let environment ← IO.getEnv thresholdVariable
  let content ← readSource (.ofPath r.manifest)
  let outcome ← match Command.run r environment content with
    | .done outcome => pure outcome
    | .writing w => writeFile w
  let filter := match ← IO.getEnv filterVariable with
    | some text => Log.Filter.read text
    | none => Log.Filter.ofVerbosity r.verbosity
  IO.print outcome.output
  IO.eprint (Command.renderNotices filter outcome.notices)
  return UInt32.ofNat outcome.exitCode

end ContentQuery

open ContentQuery in
def main (arguments : List String) : IO UInt32 := do
  match Command.read arguments with
  | .ok r => carryOut r
  | .error (.helpRequested topic) =>
      IO.print topic.render
      return 0
  | .error refusal =>
      IO.eprint ("error: " ++ refusal.message ++ "\n\n" ++ Command.Topic.render .program)
      return UInt32.ofNat refusal.exitCode
