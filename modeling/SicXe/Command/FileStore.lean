import SicXe.Path

/-!
# File stores

A file store is a directory with everything below it. Its files and directories are known by the
names on the way to them, and a path is walked name by name: every name but the last must lead to a
directory. What lies outside of the directory does not exist.
-/

namespace SicXe

/-- Why a file could not be opened. -/
inductive FileError where
  | notFound
  | isDirectory
  | notDirectory
  /-- Any other reason. -/
  | other (reason : Text)
  deriving DecidableEq, Repr

/-- The wording of a failure to open a path. -/
def FileError.message (path : Text) (error : FileError) : Text :=
  let reason : Text :=
    match error with
    | .notFound => "no such file or directory"
    | .isDirectory => "is a directory"
    | .notDirectory => "not a directory"
    | .other reason => reason
  Text.ofString "open " ++ path ++ Text.ofString ": " ++ reason

/-- The files and directories below a directory, by the names on the way to them. -/
structure FileStore where
  directories : List (List Text) := []
  files : List (List Text × Text) := []
  deriving DecidableEq, Repr

namespace FileStore

/-- What names lead to. -/
inductive Node where
  | directory
  | file (content : Text)
  deriving DecidableEq, Repr

/-- The content of a file. -/
def content? (store : FileStore) (names : List Text) : Option Text :=
  (store.files.find? (·.1 = names)).map (·.2)

/-- What names lead to, if there is something. -/
def node? (store : FileStore) (names : List Text) : Option Node :=
  if names = [] ∨ names ∈ store.directories then some .directory
  else (store.content? names).map .file

/-- The names after one more name of a path. Only a directory can be left for another place. -/
def step (store : FileStore) (names : List Text) (name : Text) : Except FileError (List Text) :=
  match store.node? names with
  | none => .error .notFound
  | some (.file _) => .error .notDirectory
  | some .directory =>
    if name = Path.here then .ok names
    else if name = Path.up then if names = [] then .error .notFound else .ok names.dropLast
    else .ok (names ++ [name])

/-- The names that a path leads to, whether there is something or not. -/
def locate (store : FileStore) (path : Text) : Except FileError (List Text) :=
  if path = [] ∨ Path.isAbsolute path then .error .notFound
  else ((path.split Path.slash).filter (· ≠ [])).foldlM store.step []

/-- Whether a path can only be that of a directory. -/
def endsWithSlash (path : Text) : Bool := path.getLast? = some Path.slash

/-- The content of the file at a path. -/
def read (store : FileStore) (path : Text) : Except FileError Text :=
  match store.locate path with
  | .error error => .error error
  | .ok names =>
    match store.node? names with
    | none => .error .notFound
    | some .directory => .error .isDirectory
    | some (.file content) => if endsWithSlash path then .error .notDirectory else .ok content

/-- The files with the content of one of them replaced, or with one file more. -/
def replace (names : List Text) (content : Text) :
    List (List Text × Text) → List (List Text × Text)
  | [] => [(names, content)]
  | file :: files =>
    if file.1 = names then (names, content) :: files else file :: replace names content files

/-- The store with the file at a path written. -/
def write (store : FileStore) (path content : Text) : Except FileError FileStore :=
  match store.locate path with
  | .error error => .error error
  | .ok names =>
    match store.node? names, endsWithSlash path with
    | some .directory, _ | none, true => .error .isDirectory
    | some (.file _), true => .error .notDirectory
    | _, false => .ok { store with files := replace names content store.files }

end FileStore

end SicXe
