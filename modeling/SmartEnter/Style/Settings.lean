/-
# Style settings

Settings are read from a table with three parts, each of which counts only if it is a table itself:

* `indent` holds the indent options for all languages, and one table per language that overrides
  them field by field;
* `editor` holds the width of a tab on the screen;
* `formatters` lists the languages whose formatter takes care of Enter.

A key that is not known is passed over.  A known key with a wrong value is an error, and the first
one in the order above is reported.

In the table of indents the options and the languages share their keys.  A key that holds a table is
a language, whatever its name is, and a key that holds anything else can be an option only; so
`indent.tab_size` with a table in it is an option with a wrong value and a language as well, and the
option is read first.

Every value goes through one function (`setting`), which knows the path of the key and how its
values are read.  The fields of a layer, the width of a tab and the formatters differ in these two
only, and a statement about that function is one about all of them.

The message about a wrong value may have to show the value, and there are values that cannot be
shown.  Then there is no error to be reported (`Fault.isWritable`).
-/
import SmartEnter.Indent
import SmartEnter.Style.Value

namespace SmartEnter.Style

/-- Settings for all languages.  The defaults of the fields are those of a file that says
nothing. -/
structure Settings where
  defaults : Indent.Options := {}
  /-- The options of the languages that have a table of their own. -/
  overrides : List (String × Indent.Options) := []
  tabWidth : Int := 4
  formatters : List String := []
  deriving Repr, DecidableEq

/-- What is wrong with a value.  Two of the faults keep the value, because their message shows
it. -/
inductive Fault where
  | notBoolean
  | notPositive (got : Value)
  | notIdList
  | notId (got : Value)
  deriving Repr

/-- A key of a style file with a wrong value.  The key is the whole path to it, with points between
its parts. -/
structure SettingError where
  key : String
  fault : Fault
  deriving Repr

/-! ## 1. Messages -/

def Fault.message : Fault → String
  | notBoolean => "expected true or false"
  | notPositive got => "expected a positive integer, got " ++ got.render
  | notIdList => "expected a list of language ids"
  | notId got => "expected a language id string, got " ++ got.render

/-- The value that the message about a wrong value shows, if any.  A message can be written only if
this value can. -/
def Fault.shown? : Fault → Option Value
  | notPositive got | notId got => some got
  | notBoolean | notIdList => none

/-- Can the message about a wrong value be written?  If not, there is no error to be reported, and
the attempt to make one fails instead. -/
def Fault.isWritable [Stack] (f : Fault) : Bool := f.shown?.all (·.isWritable)

def fileName : String := "enterindent.toml"

/-- A message about a key of a style file, with the file and the key in front of what is wrong. -/
def errorLine (file key message : String) : String :=
  "error: " ++ file ++ ": " ++ key ++ ": " ++ message

def SettingError.render (e : SettingError) : String := errorLine fileName e.key e.fault.message

/-! ## 2. Reading -/

def readBoolean : Value → Except Fault Bool
  | .bool b => .ok b
  | _ => .error .notBoolean

/-- A whole number above zero.  A truth value is no number here. -/
def readPositive : Value → Except Fault Int
  | .int n => if 0 < n then .ok n else .error (.notPositive (.int n))
  | v => .error (.notPositive v)

def readId : Value → Except Fault String
  | .string s => .ok s
  | v => .error (.notId v)

/-- A list of language ids; no list at all counts as an empty one.  The first item that is no id is
at fault. -/
def readIds : Value → Except Fault (List String)
  | .null => .ok []
  | .list items => items.mapM readId
  | _ => .error .notIdList

/-- The value of a key of a table, or the given one if the key is missing.  A wrong value is not the
same as a missing one: nothing falls back on the base then. -/
def setting {α : Type} (table : Table) (path key : String) (base : α)
    (read : Value → Except Fault α) : Except SettingError α :=
  match table.lookup key with
  | none => .ok base
  | some v => (read v).mapError (⟨path ++ "." ++ key, ·⟩)

/-- The part of a table that is a table itself; empty if there is none, so a value of another kind
under the key goes unnoticed here. -/
def sectionOf (table : Table) (key : String) : Table :=
  match table.lookup key with
  | some (.table fields) => fields
  | _ => []

/-- Options in which the keys of a table take the place of the given ones.  The three are read in a
fixed order, so the error of the first one that is wrong is the one reported. -/
def layer (base : Indent.Options) (table : Table) (path : String) :
    Except SettingError Indent.Options := do
  let useTabs ← setting table path "use_tab_char" base.useTabs readBoolean
  let size ← setting table path "indent_size" base.size readPositive
  let tabSize ← setting table path "tab_size" base.tabSize readPositive
  return { useTabs, size, tabSize }

/-- The options of a language that has a table of its own.  They are laid over the defaults, which
have been read by then. -/
def override (defaults : Indent.Options) :
    String × Value → Except SettingError (Option (String × Indent.Options))
  | (language, .table fields) => do
    return some (language, ← layer defaults fields ("indent." ++ language))
  | _ => .ok none

namespace Settings

/-- **The settings of a style table**, or the first error in it.  The languages come in the order of
the table, and every one of them is read, even if nobody will ask for it. -/
def ofTable (table : Table) : Except SettingError Settings := do
  let defaults ← layer {} (sectionOf table "indent") "indent"
  let overrides ← (sectionOf table "indent").mapM (override defaults)
  let tabWidth ← setting (sectionOf table "editor") "editor" "tab_width" 4 readPositive
  let formatters ← setting (sectionOf table "formatters") "formatters" "languages" [] readIds
  return { defaults, overrides := overrides.filterMap id, tabWidth, formatters }

/-- The indent options of a language: its own ones, or the defaults if it has none. -/
def optionsFor (s : Settings) (language : String) : Indent.Options :=
  (s.overrides.lookup language).getD s.defaults

end Settings

end SmartEnter.Style
