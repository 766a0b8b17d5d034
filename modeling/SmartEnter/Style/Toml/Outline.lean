/-
# The outline of a style file

While a file is read its tables form a tree.  A table may be opened in several places as long as no
two of them define it: `fixedFrom` is the number of the section from which a table counts as defined
and may be neither opened by a header nor extended by a key with points.  A header defines its table
in its own section; a key with points defines the tables on its way from the next section on, so
that the same section may still add to them.

A list of tables grows at its end, and a path through it leads into its last table.  Values that are
written out, lists and inline tables among them, are closed.

Everything that changes the tree is a change to one table at the end of a path (`alongPath`).  What
happens on the way is the same for all of them and depends on why the way is taken (`Passage`): a
header passes through tables without a trace, and a key with points marks them.  The changes
themselves are three, and each of them looks at one name in one table only.

The numbers of the sections are those of a count, and no section is ever looked up by one.
-/
import SmartEnter.Style.Toml.Scalar

namespace SmartEnter.Style.Toml

/-- A part of the tree: a value, a table, or a list of tables.  Only the second can still grow by
name. -/
inductive Node where
  | value (v : Value)
  | table (fixedFrom : Option Nat) (children : List (String × Node))
  | tables (elements : List (List (String × Node)))

/-- The named parts of a table, in the order in which they appeared. -/
abbrev Children := List (String × Node)

/-! ## 1. The value of a tree -/

mutual

/-- The value that a part stands for, in which nothing is left of where it was defined. -/
def Node.toValue : Node → Value
  | .value v => v
  | .table _ children => .table (childValues children)
  | .tables elements => .list (elementValues elements)

def childValues : List (String × Node) → List (String × Value)
  | [] => []
  | (key, node) :: rest => (key, node.toValue) :: childValues rest

def elementValues : List (List (String × Node)) → List Value
  | [] => []
  | children :: rest => .table (childValues children) :: elementValues rest

end

/-! ## 2. Growing a tree -/

/-- Replaces the part of a name, or adds it at the end.  So the names keep the order in which they
appeared. -/
def putChild (key : String) (node : Node) : Children → Children
  | [] => [(key, node)]
  | (k, n) :: rest => if k = key then (k, node) :: rest else (k, n) :: putChild key node rest

/-- How the tables on a path are touched.  A key with points defines the tables that it comes
through, and a header leaves them open. -/
inductive Passage where
  /-- On the way to a table that is named in a header. -/
  | header
  /-- On the way along a key with points, in the section of the given number. -/
  | dotted (number : Nat)

/-- What becomes of a table on a path, given from where on it is defined.  A table that a key with
points comes through counts as defined from the next section on, if it did not before. -/
def Passage.mark : Passage → Option Nat → Except Failure (Option Nat)
  | header, fixedFrom => .ok fixedFrom
  | dotted s, none => .ok (some (s + 1))
  | dotted s, some fixedFrom => if fixedFrom ≤ s then .error .malformed else .ok (some fixedFrom)

/-- May a path lead into a list of tables?  That of a header may, and it goes on in the last table
of the list. -/
def Passage.entersLists : Passage → Bool
  | header => true
  | dotted _ => false

/-- Changes the table at the end of a path; tables that are missing on the way are added.  The
recursion is on the path, and the tree is rebuilt along it and nowhere else. -/
def alongPath (change : Children → Except Failure Children) :
    List (Passage × String) → Children → Except Failure Children
  | [], children => change children
  | (passage, key) :: path, children =>
    match children.lookup key with
    | none => do
      let node := Node.table (← passage.mark none) (← alongPath change path [])
      return putChild key node children
    | some (.table fixedFrom inner) => do
      let node := Node.table (← passage.mark fixedFrom) (← alongPath change path inner)
      return putChild key node children
    | some (.tables elements) => do
      if passage.entersLists then
        let last ← alongPath change path (elements.getLastD [])
        return putChild key (.tables (elements.dropLast ++ [last])) children
      else .error .malformed
    | some (.value _) => .error .malformed

/-- Defines a table in a section.  A table that a longer header has led through may still be
defined, once. -/
def defineTable (number : Nat) (key : String) (children : Children) : Except Failure Children :=
  match children.lookup key with
  | none => .ok (putChild key (.table (some number) []) children)
  | some (.table none inner) => .ok (putChild key (.table (some number) inner) children)
  | some _ => .error .malformed

/-- Adds a table to a list of tables, or starts the list.  A list that was written out is a value,
and cannot be added to. -/
def appendTable (key : String) (children : Children) : Except Failure Children :=
  match children.lookup key with
  | none => .ok (putChild key (.tables [[]]) children)
  | some (.tables elements) => .ok (putChild key (.tables (elements ++ [[]])) children)
  | some _ => .error .malformed

/-- Adds a value under a name that is not taken. -/
def addValue (key : String) (v : Value) (children : Children) : Except Failure Children :=
  match children.lookup key with
  | none => .ok (putChild key (.value v) children)
  | some _ => .error .malformed

/-- Adds a value under a key, below the table that a header names.  The header's part of the path is
passed as a header passes it, and the key's part as a key does. -/
def assign (header : List String) (number : Nat) (key : List String) (v : Value)
    (children : Children) : Except Failure Children :=
  alongPath (addValue (key.getLastD "") v)
    (header.map (.header, ·) ++ key.dropLast.map (.dotted number, ·)) children

/-- Changes the table around the last part of a header. -/
def atHeader (header : List String) (change : String → Children → Except Failure Children)
    (children : Children) : Except Failure Children :=
  alongPath (change (header.getLastD "")) (header.dropLast.map (.header, ·)) children

end SmartEnter.Style.Toml
