import ContentQuery.Text.Basic

/-!
A working directory and its files. Paths are followed one name after the other. Of what is outside
of the working directory only this is known: its parents are directories, and the root has the usual
directories, one of them with devices.
-/

namespace ContentQuery

inductive FileError where
  | notFound
  | notDirectory
  | isDirectory
  | nameTooLong
  | noSpace
  | outOfMemory
  | nulInPath
  | invalidText
  /-- Any other failure, in the words of the system. -/
  | other (message : String)
  deriving DecidableEq, Repr

def FileError.message : FileError → String
  | .notFound => "No such file or directory (os error 2)"
  | .notDirectory => "Not a directory (os error 20)"
  | .isDirectory => "Is a directory (os error 21)"
  | .nameTooLong => "File name too long (os error 36)"
  | .noSpace => "No space left on device (os error 28)"
  | .outOfMemory => "out of memory"
  | .nulInPath => "file name contained an unexpected NUL byte"
  | .invalidText => "stream did not contain valid UTF-8"
  | .other message => message

def decodeText (bytes : ByteArray) : Except FileError String :=
  match String.fromUTF8? bytes with
  | some text => .ok text
  | none => .error .invalidText

/-- The files of a working directory, each with the names on the way to it. -/
structure FileTree where
  files : List (List String × ByteArray)

/-- Files that hold nothing but stand for something else. -/
inductive Device where
  /-- It is empty, and takes everything. -/
  | null
  /-- It has no end, and takes everything. -/
  | zero
  /-- It has no end, and takes nothing. -/
  | full
  | standardInput
  | standardOutput
  | standardError
  deriving DecidableEq, Repr

namespace Device

def ofName? : String → Option Device
  | "null" => some .null
  | "zero" => some .zero
  | "full" => some .full
  | "stdin" => some .standardInput
  | "stdout" => some .standardOutput
  | "stderr" => some .standardError
  | _ => none

/-- What is read of a device, given the standard input. -/
def read (input : ByteArray) : Device → Except FileError ByteArray
  | .zero | .full => .error .outOfMemory
  | .standardInput => .ok input
  | _ => .ok .empty

end Device

/-- Where a path leads. -/
inductive Place where
  /-- A directory in the tree, by the names on the way to it. -/
  | directory (names : List String)
  | file (names : List String) (content : ByteArray)
  /-- A directory above the tree. -/
  | above
  /-- A directory by the names on the way from the root. -/
  | system (names : List String)
  | device (device : Device)

def systemDirectories : List String :=
  ["bin", "boot", "dev", "etc", "home", "lib", "media", "mnt", "opt", "proc", "root", "run", "sbin",
    "srv", "sys", "tmp", "usr", "var"]

def deviceDirectory : String := "dev"

/-- What has a name in a directory outside of the tree. -/
def Place.ofSystem? (names : List String) (name : String) : Option Place :=
  if names.isEmpty then
    if name ∈ systemDirectories then some (.system [name]) else none
  else if names = [deviceDirectory] then (Device.ofName? name).map .device
  else none

/-- The names of a path, between slashes. -/
def pathNames (path : String) : List String := (Text.parts '/' path.toList).map String.ofList

def maxNameSize : Nat := 255

def maxPathSize : Nat := 4095

namespace FileTree

/-- The tree of files with the given paths below the working directory. -/
def ofFiles (files : List (String × ByteArray)) : FileTree :=
  ⟨files.map fun file =>
    ((pathNames file.1).filter fun name => name ≠ "" ∧ name ≠ ".", file.2)⟩

def isDirectory (tree : FileTree) (names : List String) : Bool :=
  names.isEmpty || tree.files.any fun file => names.isPrefixOf file.1 && names ≠ file.1

/-- One name further. A name that stands for the directory itself is empty or a dot. -/
def step (tree : FileTree) (name : String) : Place → Except FileError Place
  | .file _ _ => .error .notDirectory
  | .device _ => .error .notDirectory
  | .above =>
      if name = "" ∨ name = "." ∨ name = ".." then .ok .above
      else if maxNameSize < name.utf8ByteSize then .error .nameTooLong
      else .error .notFound
  | .system names =>
      if name = "" ∨ name = "." then .ok (.system names)
      else if name = ".." then .ok (.system names.dropLast)
      else if maxNameSize < name.utf8ByteSize then .error .nameTooLong
      else
        match Place.ofSystem? names name with
        | some place => .ok place
        | none => .error .notFound
  | .directory names =>
      if name = "" ∨ name = "." then .ok (.directory names)
      else if name = ".." then
        if names.isEmpty then .ok .above else .ok (.directory names.dropLast)
      else if maxNameSize < name.utf8ByteSize then .error .nameTooLong
      else
        match tree.files.find? fun file => file.1 = names ++ [name] with
        | some file => .ok (.file file.1 file.2)
        | none =>
            if tree.isDirectory (names ++ [name]) then .ok (.directory (names ++ [name]))
            else .error .notFound

def follow (tree : FileTree) (names : List String) (place : Place) : Except FileError Place :=
  names.foldlM (fun place name => tree.step name place) place

/-- Where a path begins, and its names. A path that begins with a slash begins at the root. What is
wrong with the path as a whole is found before any name of it is followed. -/
def begin (path : String) : Except FileError (Place × List String) :=
  if path.isEmpty then .error .notFound
  else if path.toList.contains '\x00' then .error .nulInPath
  else if maxPathSize < path.utf8ByteSize then .error .nameTooLong
  else
    let names := pathNames path
    .ok (if names.head? = some "" then .system [] else .directory [], names)

def readBytes (tree : FileTree) (input : ByteArray) (path : String) :
    Except FileError ByteArray := do
  let (start, names) ← begin path
  match ← tree.follow names start with
  | .file _ content => return content
  | .device device => device.read input
  | _ => throw .isDirectory

def readText (tree : FileTree) (input : ByteArray) (path : String) : Except FileError String := do
  decodeText (← tree.readBytes input path)

/-- What becomes of a content that is written. -/
inductive Written where
  | stored (tree : FileTree)
  | sent (device : Device)
  | outside

/-- Writes a file: it replaces one of the tree, is added in a directory that is there, or goes to a
device. -/
def write (tree : FileTree) (path : String) (content : ByteArray) : Except FileError Written := do
  let (start, names) ← begin path
  let stem := (names.reverse.dropWhile String.isEmpty).reverse
  match stem.getLast? with
  | none => throw .isDirectory
  | some name =>
      match ← tree.follow stem.dropLast start with
      | .file _ _ => throw .notDirectory
      | .device _ => throw .notDirectory
      | parent =>
          if stem.length < names.length ∨ name = "." ∨ name = ".." then throw .isDirectory
          else
            match tree.step name parent, parent with
            | .ok (.file names _), _ =>
                return .stored ⟨tree.files.map fun file =>
                  if file.1 = names then (names, content) else file⟩
            | .ok (.device .full), _ => throw .noSpace
            | .ok (.device device), _ => return .sent device
            | .ok _, _ => throw .isDirectory
            | .error .notFound, .directory names =>
                return .stored ⟨tree.files ++ [(names ++ [name], content)]⟩
            | .error .notFound, _ => return .outside
            | .error error, _ => throw error

end FileTree

end ContentQuery
