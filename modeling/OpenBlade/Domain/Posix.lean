import Mathlib

/-!
# Pure POSIX paths

What the modelled code uses of `pathlib.PurePosixPath` and `os.path.normpath`. A path is a root ("", "/" or "//") and parts;
building one drops empty parts and ".", never "..".
-/

namespace OpenBlade

structure PurePosixPath where
  root : String
  parts : List String
  deriving Repr, DecidableEq

/-- Whether a location is one of these. -/
abbrev decidableLocation (loc : List String) (locs : List (List String)) : Decidable (loc ∈ locs) := inferInstance

/-- Exactly two leading slashes are a root of their own; any other number of them is one. -/
def leadingSlashes : List Char → Nat
  | '/' :: '/' :: '/' :: _ => 1
  | '/' :: '/' :: _ => 2
  | '/' :: _ => 1
  | _ => 0

def slashes (n : Nat) : String := String.ofList (List.replicate n '/')

/-- `text.split("/")`. -/
def splitSlash (text : String) : List String := (text.toList.splitOn '/').map String.ofList

namespace PurePosixPath

/-- `PurePosixPath(text)`. -/
def ofString (text : String) : PurePosixPath :=
  { root := slashes (leadingSlashes text.toList)
    parts := (splitSlash text).filter fun part => part ≠ "" ∧ part ≠ "." }

/-- `str(path)`. -/
def toString (path : PurePosixPath) : String :=
  if path.root = "" ∧ path.parts = [] then "." else path.root ++ "/".intercalate path.parts

/-- `path / other`: an absolute operand replaces what comes before it. -/
def join (path other : PurePosixPath) : PurePosixPath :=
  if other.root = "" then { path with parts := path.parts ++ other.parts } else other

/-- `path.name`. -/
def name (path : PurePosixPath) : String := path.parts.getLast?.getD ""

/-- `path.with_name(name)`; a path without a name has none to replace. -/
def withName (path : PurePosixPath) (name : String) : Option PurePosixPath :=
  if path.name = "" then none else some { path with parts := path.parts.dropLast ++ [name] }

/-- `path.relative_to(other)`. -/
def relativeTo (path other : PurePosixPath) : Option PurePosixPath :=
  if path.root = other.root ∧ other.parts.isPrefixOf path.parts then
    some { root := "", parts := path.parts.drop other.parts.length }
  else none

end PurePosixPath

/-- `str(PurePosixPath(text))`. -/
def posix (text : String) : String := (PurePosixPath.ofString text).toString

/-- `text.lstrip("/")`. -/
def lstripSlash (text : String) : String := String.ofList (text.toList.dropWhile (· = '/'))

/-- `posixpath.dirname(path)`: what stands before the last slash, without the slashes it ends in unless it is nothing else. -/
def dirname (path : String) : String :=
  let head := path.toList.rdropWhile (· ≠ '/')
  String.ofList (if head.all (· = '/') then head else head.rdropWhile (· = '/'))

/-- `posixpath.basename(path)`. -/
def basename (path : String) : String := String.ofList (path.toList.rtakeWhile (· ≠ '/'))

/-- One component of `os.path.normpath`; `absolute` tells whether the path starts with a slash. -/
def normpathStep (absolute : Bool) (comps : List String) (comp : String) : List String :=
  if comp = "" ∨ comp = "." then comps
  else if comp ≠ ".." ∨ (!absolute ∧ comps = []) ∨ comps.getLast? = some ".." then comps ++ [comp]
  else comps.dropLast

/-- `os.path.normpath(text)`. -/
def normpath (text : String) : String :=
  let initial := leadingSlashes text.toList
  let comps := (splitSlash text).foldl (normpathStep (initial ≠ 0)) []
  let path := slashes initial ++ "/".intercalate comps
  if path = "" then "." else path

/-- `f"{index:04d}"`. -/
def pad4 (index : Nat) : String :=
  let digits := ToString.toString index
  String.ofList (List.replicate (4 - digits.length) '0') ++ digits

example : posix "/a//b/./c/" = "/a/b/c" := by decide

example : dirname "/a//b" = "/a" ∧ basename "/a//b" = "b" := by decide

example : normpath "/data/../etc/./passwd" = "/etc/passwd" := by decide

end OpenBlade
