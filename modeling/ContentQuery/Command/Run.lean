import ContentQuery.Command.Line
import ContentQuery.Document
import ContentQuery.FileTree
import ContentQuery.Log
import ContentQuery.Log.Filter
import ContentQuery.Manifest.Parse
import ContentQuery.Report

namespace ContentQuery

inductive Source where
  | file (path : String)
  | standardInput
  deriving DecidableEq, Repr

namespace Source

/-- A dash alone stands for the standard input. -/
def ofPath (path : String) : Source := if path = "-" then .standardInput else .file path

def label : Source → String
  | .file path => path
  | .standardInput => "<stdin>"

end Source

inductive LoadError where
  | unreadable (source : Source) (error : FileError)
  | malformed (source : Source) (fault : Manifest.Fault)
  deriving DecidableEq, Repr

def LoadError.message : LoadError → String
  | .unreadable (.file path) error => "failed to read '" ++ path ++ "': " ++ error.message
  | .unreadable .standardInput error => "failed to read stdin: " ++ error.message
  | .malformed source fault => "failed to parse '" ++ source.label ++ "': " ++ fault.message

def ContentTypes.load (source : Source) (content : Except FileError String) :
    Traced (Except LoadError ContentTypes) :=
  match content with
  | .error error => ⟨.error (.unreadable source error), []⟩
  | .ok text =>
      match Manifest.parse text with
      | .error fault => ⟨.error (.malformed source fault), []⟩
      | .ok declarations =>
          let types := ContentTypes.ofList declarations
          ⟨.ok types, [.manifestLoaded source.label types.size]⟩

namespace Command

/-- What a run says on the error stream. -/
inductive Notice where
  | event (event : Event)
  | text (text : String)
  deriving DecidableEq, Repr

structure Outcome where
  succeeded : Bool
  output : String
  notices : List Notice
  deriving DecidableEq, Repr

def Outcome.exitCode (o : Outcome) : Nat := if o.succeeded then 0 else 1

/-- A document that has to be written, and what was said before. -/
structure Writing where
  path : String
  document : Document
  diagnostics : Diagnostics
  notices : List Notice
  deriving DecidableEq, Repr

def Writing.content (w : Writing) : String := w.document.render ++ "\n"

/-- A run up to its end, or up to the file that it writes. -/
inductive Run where
  | done (outcome : Outcome)
  | writing (writing : Writing)
  deriving DecidableEq, Repr

def failed (notices : List Notice) (message : String) : Outcome :=
  ⟨false, "", notices ++ [.text ("error: " ++ message ++ "\n")]⟩

def warnings (diagnostics : Diagnostics) : List Notice :=
  if diagnostics.hasWarnings then [.text diagnostics.render] else []

def perform (types : ContentTypes) (settings : Settings) (notices : List Notice) : Action → Run
  | .fragments type =>
      let compiled := compile types.registry settings type
      let notices := notices ++ compiled.events.map .event
      match compiled.value with
      | .error error => .done (failed notices error.message)
      | .ok compilation =>
          .done ⟨true, Fragment.lines compilation.fragments,
            notices ++ warnings compilation.diagnostics⟩
  | .query type output =>
      let assembled := assemble types.registry settings type
      let notices := notices ++ assembled.events.map .event
      match assembled.value with
      | .error error => .done (failed notices error.message)
      | .ok assembly =>
          match output with
          | some path => .writing ⟨path, assembly.document, assembly.diagnostics, notices⟩
          | none =>
              .done ⟨true, assembly.document.render ++ "\n",
                notices ++ warnings assembly.diagnostics⟩
  | .check strict =>
      let checked := check types settings
      .done ⟨checked.value.isValid strict, "",
        notices ++ checked.events.map .event ++ [.text checked.value.diagnostics.render]⟩

/-- Carries out a request, given the environment and what was read of the manifest. -/
def run (r : Request) (environment : Option String) (content : Except FileError String) : Run :=
  let settings := r.settings environment
  let loaded := ContentTypes.load (.ofPath r.manifest) content
  let notices := (settings.events ++ loaded.events).map Notice.event
  match loaded.value with
  | .error error => .done (failed notices error.message)
  | .ok types => perform types settings.value notices r.action

def Writing.finish (w : Writing) : Option FileError → Outcome
  | some error => failed w.notices ("failed to write '" ++ w.path ++ "': " ++ error.message)
  | none =>
      ⟨true, "", w.notices ++ [.event (.documentWritten w.path w.document.fragments.length)] ++
        warnings w.diagnostics⟩

def Writing.send (w : Writing) : Device → Outcome
  | .standardOutput => { w.finish none with output := w.content }
  | .standardError => { w with notices := w.notices ++ [.text w.content] : Writing }.finish none
  | _ => w.finish none

/-- The error stream under a filter. What is wrong with the filter comes first. -/
def renderNotices (filter : Log.Filter) (notices : List Notice) : String :=
  filter.report ++ String.join (notices.map fun notice =>
    match notice with
    | .event event => if filter.admits event then Log.render event ++ "\n" else ""
    | .text text => text)

/-- A run whose files are those of a tree: how it ends, and the tree after it. -/
def runIn (tree : FileTree) (input : ByteArray) (r : Request) (environment : Option String) :
    Outcome × FileTree :=
  let content :=
    match Source.ofPath r.manifest with
    | .file path => tree.readText input path
    | .standardInput => decodeText input
  match run r environment content with
  | .done outcome => (outcome, tree)
  | .writing w =>
      match tree.write w.path w.content.toUTF8 with
      | .error error => (w.finish (some error), tree)
      | .ok (.stored tree) => (w.finish none, tree)
      | .ok (.sent device) => (w.send device, tree)
      | .ok .outside => (w.finish none, tree)

end Command

end ContentQuery
