import ContentQuery.Compile.Composition

namespace ContentQuery

namespace Compile

/-- The fixed fragment of a base type, which needs no declaration. -/
def visitBase (base : BaseType) (name : String) : Walk (List Fragment) := do
  if base.isMedia then
    let metadata ← visitMetadata
    return metadata ++ [⟨name, base.graphType, typedBody [mediaMetadataField]⟩]
  else return [⟨name, base.graphType, typedBody []⟩]

/-- The fragment of a declared type after the fragments that it needs. -/
def visitDeclared (ctx : Context) (visit : Visit) (t : ContentType) (name : String) :
    Walk (List Fragment) := do
  let metadata ← if t.baseType.isMedia then visitMetadata else pure []
  let (fields, fragments) ← expandProperties ctx visit t t.properties
  let composition ←
    if t.baseType = .experience then visitComposition ctx visit else pure []
  let needed := Keyed.firsts Fragment.name (metadata ++ fragments ++ composition)
  let body := typedBody (Keyed.firsts id (fields ++
    (if t.baseType.isMedia then [mediaMetadataField] else []) ++
    (if t.baseType = .experience then [spread experienceDataName] else [])))
  record (.fragmentEmitted name needed.length)
  return needed ++ [⟨name, t.key, body⟩]

/-- One visit; further visits go through `visit`. -/
def visitWith (ctx : Context) (visit : Visit) : Visit := fun typeName suffix => do
  let name := typeName ++ suffix
  if ← isVisited name then return []
  mark name
  match builtin? typeName with
  | some base => visitBase base name
  | none =>
      match ctx.snapshot.get? typeName with
      | some t => visitDeclared ctx visit t name
      | none => throw (.missingContentType typeName)

/-- Visits that are nested at most `depth` deep. -/
def visitWithin (ctx : Context) : (depth : Nat) → Visit
  | 0 => fun _ _ => throw .unfinished
  | depth + 1 => visitWith ctx (visitWithin ctx depth)

/-- A depth that no compilation exceeds: a declared type is entered at most twice, with the suffix
and without it. -/
def maxDepth (snapshot : Snapshot) : Nat := 2 * snapshot.types.length + 1

end Compile

/-- The result of a compilation: the fragments, the root's own last, and the warnings. -/
structure Compilation where
  fragments : List Fragment
  diagnostics : Diagnostics
  deriving DecidableEq, Repr

/-- Compiles a root type against a snapshot of the registry. -/
def compile (registry : Registry) (settings : Settings) (root : String) :
    Traced (Except CompileError Compilation) :=
  let snapshot := Snapshot.capture registry
  let start : Compile.State :=
    ⟨[], .empty, [.snapshotCaptured snapshot.types.length, .compileStarted root]⟩
  let visit := Compile.visitWithin ⟨root, snapshot, settings⟩ (Compile.maxDepth snapshot)
  match (visit root "").run start with
  | (.error error, state) => ⟨.error error, state.events⟩
  | (.ok fragments, state) =>
      ⟨.ok ⟨fragments, state.diagnostics⟩,
        state.events ++ [.compiled root fragments.length state.diagnostics.warningCount]⟩

/-- Compiles every registered type as a root of its own. The results stand in the order of
registration, one for each key. -/
def compileAll (registry : Registry) (settings : Settings) :
    Traced (List (String × Except CompileError Compilation)) :=
  let runs := registry.all.map fun t => (t.key, compile registry settings t.key)
  ⟨Keyed.lasts Prod.fst (runs.map fun run => (run.1, run.2.value)),
    runs.flatMap fun run => run.2.events⟩

end ContentQuery
