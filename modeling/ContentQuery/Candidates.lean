import ContentQuery.Reference
import ContentQuery.Registry

/-!
The types that a property with allowed and restricted types may hold. A tag among the allowed
types stands for the registered types of its base type and, unless it is abstract, for itself; a tag
among the restricted types takes all of these away.
-/

namespace ContentQuery.Candidates

def keysOf (registry : Registry) (base : BaseType) : List String :=
  (registry.ofBase base).map ContentType.key

/-- The keys that the restricted types take away. -/
def skipped (registry : Registry) (restricted : List String) : List String :=
  restricted.flatMap fun key =>
    match builtin? key with
    | none => [key]
    | some base => key :: keysOf registry base

def emit (skip emitted : List String) (key : String) : List String :=
  if key ∈ skip ∨ key ∈ emitted then emitted else emitted ++ [key]

/-- Adds what an allowed key stands for. -/
def emitEntry (registry : Registry) (skip emitted : List String) (entry : String) : List String :=
  match builtin? entry with
  | none => emit skip emitted entry
  | some base =>
      let subtypes := (keysOf registry base).foldl (emit skip) emitted
      if base.isAbstract then subtypes else emit skip subtypes entry

/-- The candidates in order, each once. Without allowed types every registered type is allowed. -/
def resolve (registry : Registry) (allowed restricted : List String) : List String :=
  let baseline := if allowed.isEmpty then registry.all.map ContentType.key else allowed
  baseline.foldl (emitEntry registry (skipped registry restricted)) []

end ContentQuery.Candidates
