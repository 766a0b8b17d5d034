/-
# Files as a program sees them

A file system answers what stands at a path, and whether a file may be written there.  Whatever it
refuses is a failure with the number that the operating system gives to it (`AccessFailure`).  The
failures that the library has to tell apart have constructors of their own, and `other` stands for
the rest of them, so that nothing is proved about a world in which they do not happen.

A file can be asked for in two ways.  `FileSystem.read` wants its bytes, and whatever fails is a
failure.  `FileSystem.file?` asks whether there is a file at all, and some failures answer that:
there is none (`AccessFailure.meansNone`).  With any other one the question stays open, and a file
that is there but cannot be opened is a failure as well (`Entry.locked`).

A path with a null character in it, and one that is too long, are refused before anything is looked
up (`Path.fault?`).

`Tree` is a file system that is given by the files and directories below the current directory;
`Tree.look` follows a path part by part, so that a path through a file, or through a directory that
does not exist, leads nowhere.
-/
import SmartEnter.Path
import SmartEnter.Text.CodeUnits
import SmartEnter.Text.Quoted

namespace SmartEnter

/-- Why a path cannot be used.  Which of the failures mean that there is no file, and which leave it
open, is told by the number. -/
inductive AccessFailure where
  | missing
  | notDirectory
  | isDirectory
  | nameTooLong
  | permissionDenied
  /-- Any other error of the operating system, with its number and what is said of it. -/
  | other (number : Nat) (words : String)
  /-- A null character stands in the path, which is then no path at all. -/
  | nullCharacter
  deriving Repr, DecidableEq

namespace AccessFailure

/-- The number that the operating system gives to a failure; what is no path never gets there. -/
def number? : AccessFailure → Option Nat
  | missing => some 2
  | notDirectory => some 20
  | isDirectory => some 21
  | nameTooLong => some 36
  | permissionDenied => some 13
  | other number _ => some number
  | nullCharacter => none

def words : AccessFailure → String
  | missing => "No such file or directory"
  | notDirectory => "Not a directory"
  | isDirectory => "Is a directory"
  | nameTooLong => "File name too long"
  | permissionDenied => "Permission denied"
  | other _ words => words
  | nullCharacter => "embedded null byte"

def message (f : AccessFailure) (p : Path) : String :=
  match f.number? with
  | some n => "[Errno " ++ toString n ++ "] " ++ f.words ++ ": " ++ Text.quote p.text
  | none => f.words

/-- Does the failure mean that there is no file?  The numbers are those of paths that lead nowhere:
missing, through a file, through a descriptor that is closed, or through links that go round in a
circle. -/
def meansNone (f : AccessFailure) : Bool := f.number?.all (· ∈ [2, 20, 9, 40])

end AccessFailure

/-- What stands at a path.  Whether a file is readable is known of each file for itself, and a
directory is never opened. -/
inductive Entry where
  | file (bytes : List UInt8)
  /-- A file that cannot be opened. -/
  | locked (failure : AccessFailure)
  | directory
  deriving Repr, DecidableEq

/-! ## 1. Limits of a path -/

/-- The number of bytes that a part of a path may have.  It is looked at where the part is taken, so
a path may fail at an earlier part for another reason. -/
def Path.partLimit : Nat := 255

/-- The number of bytes that a path may have, which is counted in UTF-8 and over the whole written
form. -/
def Path.limit : Nat := 4095

/-- What is wrong with a path wherever it leads.  A null character comes first, since it keeps a
path from being looked at by the system at all. -/
def Path.fault? (p : Path) : Option AccessFailure :=
  if '\x00' ∈ p.toList then some .nullCharacter
  else if Path.limit < Text.unitCount Char.utf8Size p.toList then some .nameTooLong
  else none

/-! ## 2. Any file system

Nothing is known of a file system but its answers, so all that is proved holds of every one. -/

/-- A file system: what stands at a path, or why nothing does; and why a file may not be written at
a path at which it could be. -/
structure FileSystem where
  look : Path → Except AccessFailure Entry
  guard : Path → Option AccessFailure := fun _ => none

namespace FileSystem

/-- What stands at a path, if it can be one at all.  Every question about files goes through here,
so none is answered for a path that is at fault. -/
def entry (fs : FileSystem) (p : Path) : Except AccessFailure Entry :=
  match p.fault? with
  | some f => .error f
  | none => fs.look p

/-- The bytes of a file.  Whatever stands in the way is a failure, also a directory in its place. -/
def read (fs : FileSystem) (p : Path) : Except AccessFailure (List UInt8) :=
  match fs.entry p with
  | .ok (.file bytes) => .ok bytes
  | .ok (.locked f) => .error f
  | .ok .directory => .error .isDirectory
  | .error f => .error f

/-- The bytes of a file, if there is one.  A directory is no file, and neither is a path that leads
nowhere; but a file that cannot be opened is one, and a failure. -/
def file? (fs : FileSystem) (p : Path) : Except AccessFailure (Option (List UInt8)) :=
  match fs.entry p with
  | .ok (.file bytes) => .ok (some bytes)
  | .ok (.locked f) => .error f
  | .ok .directory => .ok none
  | .error f => if f.meansNone then .ok none else .error f

/-- Why a file cannot be written, if it cannot: there is a directory, or none to hold it, or nobody
may write there. -/
def writeFailure? (fs : FileSystem) (p : Path) : Option AccessFailure :=
  match fs.entry p with
  | .ok .directory => some .isDirectory
  | .ok _ => fs.guard p
  | .error .missing =>
    match fs.entry p.parent with
    | .ok .directory => fs.guard p
    | _ => some .missing
  | .error f => some f

end FileSystem

/-! ## 3. A tree of files -/

/--
The files and directories below the current directory, each with its place; the directories on the
way to them are there as well, and so are those above the current one.
-/
structure Tree where
  files : List (Path × List UInt8) := []
  directories : List Path := []

namespace Tree

/-- Is there a directory at a place?  It is above the current one, or named as one, or on the way to
a directory or a file that is there. -/
def hasDirectory (t : Tree) (place : Path) : Bool :=
  place.parts.all (· = Path.up) || t.directories.any place.leadsTo ||
    t.files.any fun (file, _) => place.leadsTo file && place ≠ file

/-- Follows parts of a path from a place.  Before a part is taken, the place has to be a directory;
so a path through a file fails there, even if its next part leads up again. -/
def walk (t : Tree) (place : Path) : List (List Char) → Except AccessFailure Entry
  | [] =>
    match t.files.lookup place with
    | some bytes => .ok (.file bytes)
    | none => if t.hasDirectory place then .ok .directory else .error .missing
  | part :: rest =>
    if (t.files.lookup place).isSome then .error .notDirectory
    else if !t.hasDirectory place then .error .missing
    else if Path.partLimit < Text.unitCount Char.utf8Size part then .error .nameTooLong
    else walk t (place.enter part) rest

def look (t : Tree) (p : Path) : Except AccessFailure Entry := t.walk p.origin p.parts

def fileSystem (t : Tree) : FileSystem := { look := t.look }

/-- The tree after a file was written.  It replaces the file at the same place, under whatever path
that was written. -/
def write (t : Tree) (p : Path) (bytes : List UInt8) : Tree :=
  { t with files := (p.place, bytes) :: t.files.filter (·.1 ≠ p.place) }

/-- The tree with one more directory, and with all that are on the way to it. -/
def makeDirectory (t : Tree) (p : Path) : Tree :=
  { t with directories := p.place :: t.directories }

end Tree

end SmartEnter
