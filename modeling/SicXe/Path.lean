import SicXe.Text.Basic

/-!
# Paths

A path is a text of names between slashes. Output paths are made from an input path by replacing
the extension of its last name: everything from the last dot of that name on.
-/

namespace SicXe.Path

/-- The slash, which separates the names of a path. -/
def slash : UInt8 := 0x2F

/-- The dot, which begins an extension. -/
def dot : UInt8 := 0x2E

/-- The name of the directory itself. -/
def here : Text := [dot]

/-- The name of the directory above. -/
def up : Text := [dot, dot]

/-- The path without the extension of its last name. -/
def stem (path : Text) : Text :=
  match path.reverse.dropWhile fun b => b != slash && b != dot with
  | b :: rest => if b = dot then rest.reverse else path
  | [] => path

/-- The path with the extension of its last name replaced. -/
def withExtension (path extension : Text) : Text := stem path ++ extension

/-- Whether a path begins at the root. -/
def isAbsolute (path : Text) : Bool := path.head? = some slash

/-- The last name of a path, slashes at its end aside. An empty path is the directory itself, and a
path of slashes alone is the root. -/
def base (path : Text) : Text :=
  if path = [] then here
  else match path.reverse.dropWhile (· == slash) with
    | [] => [slash]
    | trimmed => (trimmed.takeWhile (· != slash)).reverse

/-- The names on the way, the last one first, after one more name. The name of the directory above
takes back the name before it; above the root there is nothing. -/
def enter (rooted : Bool) (names : List Text) (name : Text) : List Text :=
  if name = [] ∨ name = here then names
  else if name = up then
    match names with
    | [] => if rooted then [] else [up]
    | last :: rest => if last = up then up :: names else rest
  else name :: names

/-- Names with slashes between them. -/
def join : List Text → Text
  | [] => []
  | [name] => name
  | name :: names => name ++ slash :: join names

/-- The shortest path that goes the same way. -/
def clean (path : Text) : Text :=
  let rooted := isAbsolute path
  let way := join ((path.split slash).foldl (enter rooted) []).reverse
  if rooted then slash :: way else if way = [] then here else way

/-- The shortest path from the root, for a path that begins in the given directory. -/
def absolute (directory path : Text) : Text :=
  if isAbsolute path then clean path else clean (directory ++ slash :: path)

end SicXe.Path
