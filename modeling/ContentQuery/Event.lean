import ContentQuery.Text.Decimal

namespace ContentQuery

/-- How much an event matters; the order is from most to least. -/
inductive Level where
  | error
  | warn
  | info
  | debug
  | trace
  deriving DecidableEq, Repr

/-- The place of a level: a smaller rank is more severe. -/
def Level.rank : Level → Nat
  | .error => 1
  | .warn => 2
  | .info => 3
  | .debug => 4
  | .trace => 5

def Level.name : Level → String
  | .error => "ERROR"
  | .warn => "WARN"
  | .info => "INFO"
  | .debug => "DEBUG"
  | .trace => "TRACE"

/-- Environment variable that overrides the fragment threshold. -/
def thresholdVariable : String := "CMSGRAPH_FRAGMENT_THRESHOLD"

inductive Event where
  | invalidThreshold (value : String) (fault : Decimal.Fault)
  | fanOut (root property : String) (count threshold : Nat)
  | snapshotCaptured (types : Nat)
  | compileStarted (root : String)
  | disabledSkipped (contentType property : String)
  | compositionStarted (eligible : Nat) (includeForms : Bool)
  | fragmentEmitted (fragment : String) (dependencies : Nat)
  | compiled (root : String) (fragments warnings : Nat)
  | documentAssembled (root : String) (fragments : Nat)
  | manifestChecked (succeeded errors warnings : Nat)
  | manifestLoaded (manifest : String) (types : Nat)
  | documentWritten (path : String) (fragments : Nat)
  deriving DecidableEq, Repr

inductive FieldValue where
  /-- A text that a log line shows in quotes. -/
  | quoted (text : String)
  | plain (text : String)
  | number (value : Nat)
  | flag (value : Bool)
  deriving DecidableEq, Repr

def FieldValue.text : FieldValue → String
  | .quoted text => text
  | .plain text => text
  | .number value => toString value
  | .flag true => "true"
  | .flag false => "false"

namespace Event

def level : Event → Level
  | .invalidThreshold _ _ => .warn
  | .fanOut _ _ _ _ => .warn
  | .snapshotCaptured _ => .trace
  | .compileStarted _ => .debug
  | .disabledSkipped _ _ => .trace
  | .compositionStarted _ _ => .trace
  | .fragmentEmitted _ _ => .trace
  | .compiled _ _ _ => .debug
  | .documentAssembled _ _ => .debug
  | .manifestChecked _ _ _ => .debug
  | .manifestLoaded _ _ => .info
  | .documentWritten _ _ => .info

/-- The part of the program that an event is from. -/
def target : Event → String
  | .invalidThreshold _ _ => "cmsgraph_compiler::config"
  | .fanOut _ _ _ _ => "cmsgraph_compiler::analyze::constraints"
  | .snapshotCaptured _ => "cmsgraph_compiler::compile::snapshot"
  | .compileStarted _ => "cmsgraph_compiler::compile::compiler"
  | .disabledSkipped _ _ => "cmsgraph_compiler::compile::compiler"
  | .compositionStarted _ _ => "cmsgraph_compiler::compile::composition"
  | .fragmentEmitted _ _ => "cmsgraph_compiler::compile::compiler"
  | .compiled _ _ _ => "cmsgraph_compiler::compile::compiler"
  | .documentAssembled _ _ => "cmsgraph_compiler::query"
  | .manifestChecked _ _ _ => "cmsgraph::commands::check"
  | .manifestLoaded _ _ => "cmsgraph::commands::manifest_loader"
  | .documentWritten _ _ => "cmsgraph::commands::query"

def message : Event → String
  | .invalidThreshold _ _ => "ignoring invalid fragment threshold"
  | .fanOut root property count threshold =>
      "content type `" ++ root ++ "` generated " ++ toString count ++ " fragments (threshold " ++
        toString threshold ++ "); add allowedTypes or restrictedTypes to `" ++ property ++ "`"
  | .snapshotCaptured _ => "captured registry snapshot"
  | .compileStarted _ => "starting root compile"
  | .disabledSkipped _ _ => "skipping disabled property"
  | .compositionStarted _ _ => "building composition fragments"
  | .fragmentEmitted _ _ => "emitted fragment"
  | .compiled _ _ _ => "compiled content type"
  | .documentAssembled _ _ => "assembled query document"
  | .manifestChecked _ _ _ => "checked manifest"
  | .manifestLoaded _ _ => "loaded manifest"
  | .documentWritten _ _ => "wrote query document"

/-- The fields of an event, in the order of a log line. -/
def fields : Event → List (String × FieldValue)
  | .invalidThreshold value fault =>
      [("variable", .quoted thresholdVariable), ("value", .quoted value),
        ("err", .plain fault.message)]
  | .fanOut root property count threshold =>
      [("root", .quoted root), ("property", .quoted property), ("count", .number count),
        ("threshold", .number threshold)]
  | .snapshotCaptured types => [("types", .number types)]
  | .compileStarted root => [("root", .quoted root)]
  | .disabledSkipped contentType property =>
      [("content_type", .quoted contentType), ("property", .plain property)]
  | .compositionStarted eligible includeForms =>
      [("eligible", .number eligible), ("include_forms", .flag includeForms)]
  | .fragmentEmitted fragment dependencies =>
      [("fragment", .quoted fragment), ("deps", .number dependencies)]
  | .compiled root fragments warnings =>
      [("root", .quoted root), ("fragments", .number fragments), ("warnings", .number warnings)]
  | .documentAssembled root fragments =>
      [("root", .quoted root), ("fragments", .number fragments)]
  | .manifestChecked succeeded errors warnings =>
      [("compiled", .number succeeded), ("errors", .number errors), ("warnings", .number warnings)]
  | .manifestLoaded manifest types => [("manifest", .plain manifest), ("types", .number types)]
  | .documentWritten path fragments => [("path", .plain path), ("fragments", .number fragments)]

end Event

/-- A value, and the events on the way to it. -/
structure Traced (α : Type) where
  value : α
  events : List Event
  deriving DecidableEq, Repr

end ContentQuery
