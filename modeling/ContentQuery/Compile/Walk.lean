import ContentQuery.Diagnostic
import ContentQuery.Event
import ContentQuery.Fragment
import ContentQuery.Settings
import ContentQuery.Snapshot

/-!
The state of a compilation on its way through the graph of types. Names are marked as visited
before their fragments exist, so that a type that refers back to itself is not entered again.
-/

namespace ContentQuery

inductive CompileError where
  /-- A reference names neither a registered type nor a base type. -/
  | missingContentType (name : String)
  /-- The walk went deeper than there are types to enter. -/
  | unfinished
  deriving DecidableEq, Repr

def CompileError.message : CompileError → String
  | .missingContentType name => "missing content type: `" ++ name ++ "`"
  | .unfinished => "unfinished compilation"

def CompileError.diagnostic (root : String) : CompileError → Diagnostic
  | .missingContentType name =>
      ((Diagnostic.ofKind .missingContentType).withRoot root).withDetail ("`" ++ name ++ "`")
  | .unfinished => (Diagnostic.ofKind .missingContentType).withRoot root

namespace Compile

/-- What stays the same in one compilation. -/
structure Context where
  root : String
  snapshot : Snapshot
  settings : Settings

structure State where
  /-- The names of the fragments that are made or being made. -/
  visited : List String
  diagnostics : Diagnostics
  events : List Event
  deriving Repr

/-- A step of a compilation. Events stay recorded when it fails. -/
abbrev Walk (α : Type) := ExceptT CompileError (StateM State) α

/-- Makes the fragment of a type, its name extended by a suffix, with all fragments that it needs
and that were not visited. -/
abbrev Visit := (typeName suffix : String) → Walk (List Fragment)

def record (event : Event) : Walk Unit :=
  modify fun state => { state with events := state.events ++ [event] }

def report (diagnostic : Diagnostic) : Walk Unit :=
  modify fun state => { state with diagnostics := state.diagnostics.report diagnostic }

def isVisited (name : String) : Walk Bool := do
  return (← get).visited.contains name

def mark (name : String) : Walk Unit :=
  modify fun state => { state with visited := name :: state.visited }

def visitAll (visit : Visit) : List String → Walk (List Fragment)
  | [] => return []
  | key :: keys => do
      let fragments ← visit key ""
      let more ← visitAll visit keys
      return fragments ++ more

def visitMetadata : Walk (List Fragment) := do
  if ← isVisited mediaMetadataName then return []
  mark mediaMetadataName
  return [mediaMetadata]

end Compile

end ContentQuery
