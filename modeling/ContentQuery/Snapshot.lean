import ContentQuery.Registry

namespace ContentQuery

/-- The types of a registry by key, and the keys that it lists as media. -/
structure Snapshot where
  types : List ContentType
  mediaKeys : List String

namespace Snapshot

def empty : Snapshot := ⟨[], []⟩

/-- Of several declarations with one key the last is kept, at the place of the first. -/
def capture (registry : Registry) : Snapshot :=
  ⟨Keyed.lasts ContentType.key registry.all, Keyed.firsts id registry.mediaKeys⟩

def get? (snapshot : Snapshot) (key : String) : Option ContentType :=
  Keyed.find? ContentType.key key snapshot.types

/-- The base type of a type that is listed as media. -/
def mediaBase? (snapshot : Snapshot) (key : String) : Option BaseType :=
  if key ∈ snapshot.mediaKeys then (snapshot.get? key).map ContentType.baseType else none

def registry (snapshot : Snapshot) : Registry where
  all := snapshot.types
  find? := snapshot.get?
  mediaKeys := snapshot.mediaKeys

end Snapshot

end ContentQuery
