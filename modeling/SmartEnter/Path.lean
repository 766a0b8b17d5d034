/-
# Paths

A path is a root (none, or one or two slashes) and the parts below it.  Empty parts and single
points are dropped when a path is read, so every path has one written form (`Path.text`).

Two points are kept, for they lead back to the directory above, which may or may not be there.
Whether they do is a question to a file system and not to the path: `a/../b` leads to `b` only if
`a` is a directory.  `Path.place` is where a path leads if all directories on its way are.  It is
the key under which a file is kept, since two paths to one file have the same place.

The suffix of a file name is what tells its language.  A name that starts with its only point has
none, and neither has one that ends in a point (`suffixOf`).
-/
namespace SmartEnter

/-- A path in normal form.  The parts are neither empty nor single points if the path was read, and
nothing that is proved about paths depends on it. -/
structure Path where
  root : List Char
  parts : List (List Char)
  deriving Repr, DecidableEq

namespace Path

/-- The pieces of a text between the slashes; there is one more than there are slashes, and any of
them may be empty. -/
def pieces : List Char → List (List Char)
  | [] => [[]]
  | '/' :: rest => [] :: pieces rest
  | c :: rest =>
    match pieces rest with
    | [] => [[c]]
    | piece :: others => (c :: piece) :: others

/-- The root of a path text: two slashes are a root of their own, three or more are one. -/
def rootOf : List Char → List Char
  | '/' :: '/' :: '/' :: _ => ['/']
  | '/' :: '/' :: _ => ['/', '/']
  | '/' :: _ => ['/']
  | _ => []

/-- Reads a path.  Every text is the text of some path, so nothing is refused here. -/
def ofList (s : List Char) : Path :=
  ⟨rootOf s, (pieces s).filter fun piece => piece ≠ [] && piece ≠ ['.']⟩

def ofString (s : String) : Path := ofList s.toList

/-- The written form of a path; the current directory is a point.  There is no slash at its end,
unless it is a root. -/
def toList (p : Path) : List Char :=
  if p.root = [] ∧ p.parts = [] then ['.'] else p.root ++ ['/'].intercalate p.parts

def text (p : Path) : String := String.ofList p.toList

/-- The last part, empty for a root or the current directory.  It may be the part that leads up. -/
def name (p : Path) : List Char := p.parts.getLastD []

/-- The directory that holds the path; a root and the current directory hold themselves. -/
def parent (p : Path) : Path := { p with parts := p.parts.dropLast }

def child (p : Path) (file : String) : Path := { p with parts := p.parts ++ [file.toList] }

/-- What a name has from its last point on; nothing if that point is its first or last character.
Of several suffixes this is the last one only. -/
def suffixOf (name : List Char) : List Char :=
  let after := (name.reverse.takeWhile (· ≠ '.')).reverse
  let stem := name.length - after.length - 1
  if '.' ∈ name ∧ stem ≠ 0 ∧ after ≠ [] then '.' :: after else []

def suffix (p : Path) : List Char := suffixOf p.name

/-! ## 1. Where a path leads -/

/-- The part that leads to the directory above.  It is kept when a path is read, since what it leads
to depends on what is there. -/
def up : List Char := ['.', '.']

/-- The place that a path starts from: the current directory or the one root there is. -/
def origin (p : Path) : Path := ⟨if p.root = [] then [] else ['/'], []⟩

/-- The place that is reached from a place by one more part; there is no way up from the root.
Above the current directory there is always another one, as far as the path goes. -/
def enter (place : Path) (part : List Char) : Path :=
  if part ≠ up then { place with parts := place.parts ++ [part] }
  else if place.parts.getLastD up ≠ up then place.parent
  else if place.root = [] then { place with parts := place.parts ++ [up] }
  else place

/-- The place to which a path leads, if every directory on the way is there. -/
def place (p : Path) : Path := p.parts.foldl enter p.origin

/-- Is one place the other, or a directory on the way to it?  A file that is there makes directories
of all places that lead to it. -/
def leadsTo (p q : Path) : Bool := p.root = q.root && p.parts.isPrefixOf q.parts

end Path

end SmartEnter
