import ContentQuery.Compile

namespace ContentQuery

def queryName : String := "FetchContent"

/-- A query on content items that spreads the fragment named as its root. -/
structure Document where
  root : String
  fragments : List Fragment
  deriving DecidableEq, Repr

namespace Document

def names (d : Document) : List String := d.fragments.map Fragment.name

def contains (d : Document) (name : String) : Bool := d.names.contains name

def queryLines (root : String) : List String :=
  ["query " ++ queryName ++ "($where: _ContentWhereInput) \x7b",
    "  _Content(where: $where) \x7b",
    "    item \x7b",
    "      __typename",
    "      " ++ spread root,
    "    \x7d",
    "  \x7d",
    "\x7d"]

/-- The text of a document: one line for each fragment, then the query. -/
def render (d : Document) : String :=
  Fragment.lines d.fragments ++ String.intercalate "\n" (queryLines d.root)

end Document

structure Assembly where
  document : Document
  diagnostics : Diagnostics
  deriving DecidableEq, Repr

/-- Compiles a root type and makes a document of its fragments. -/
def assemble (registry : Registry) (settings : Settings) (root : String) :
    Traced (Except CompileError Assembly) :=
  match compile registry settings root with
  | ⟨.error error, events⟩ => ⟨.error error, events⟩
  | ⟨.ok compilation, events⟩ =>
      ⟨.ok ⟨⟨root, compilation.fragments⟩, compilation.diagnostics⟩,
        events ++ [.documentAssembled root compilation.fragments.length]⟩

end ContentQuery
