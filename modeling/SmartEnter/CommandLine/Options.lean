/-
# The options of a run

The arguments of a run and its style file are put together: what the command line says goes before
what the file says.  The style file is the one that is named, or the one in the directory of the
input; a file that is not there counts as an empty one.

Only the tab width is in both.  The language is that of the command line or of the file name, and
never of the style file; the indent options and the formatters are never on the command line.

The parts are found one after the other, and the first that cannot be found ends it (`Options.of`):
the settings of the style file, the tab width, the language, the place.  The order is part of what a
run does, for it decides which of several faults is the one that is told.
-/
import SmartEnter.CommandLine.Values
import SmartEnter.Language.Registry

namespace SmartEnter.CommandLine

/-- All that a run depends on, the input apart.  There are no options with a fault in them: a value
of this type is what is left when everything has been found. -/
structure Options where
  input : Path
  output : Option Path
  place : Place
  language : Language
  settings : Style.Settings
  readOnly : Bool
  deriving Repr, DecidableEq

/-- The value of an argument, unless it is empty.  An empty one counts as none. -/
def given (arg : Argument String) : Option String := arg.value?.filter (· ≠ "")

/-- The table of a style file.  Bytes that are no text are told apart from a text that is no style
file. -/
def styleTable [Style.Stack] (bytes : List UInt8) : Except Problem Style.Table := do
  let s ← (Text.Utf8.decode bytes).mapError .styleEncoding
  (Style.Toml.read s).mapError fun
    | .malformed => .styleSyntax
    | .tooDeep => .styleDepth
    | .integer failure => .integer failure

/-- The path of the style file.  It stands beside the input, wherever the program was started. -/
def stylePath (config : Argument String) (input : Path) : Path :=
  match given config with
  | some name => Path.ofString name
  | none => input.parent.child Style.fileName

/-- The settings of the style file.  That there is none is fine; that nobody can tell whether there
is one is not. -/
def readSettings [Style.Stack] (fs : FileSystem) (p : Path) : Except Problem Style.Settings := do
  let table ← match ← (fs.file? p).mapError (.styleAccess · p) with
    | none => pure []
    | some bytes => styleTable bytes
  (Style.Settings.ofTable table).mapError .setting

/-- The settings with the tab width of the command line, which takes precedence over that of the
style file and has to be above zero like it. -/
def withTabWidth (settings : Style.Settings) : Argument Int → Except Problem Style.Settings
  | .absent => .ok settings
  | .bare => .error (.bare .tabWidth)
  | .value n =>
    if n ≤ 0 then .error (.argument (.tabWidth n)) else .ok { settings with tabWidth := n }

/-- The language that is named, or else the one of the file name.  A name that nobody knows is a
fault, and the file name is not asked then. -/
def chooseLanguage (id : Argument String) (input : Path) : Except Problem Language :=
  match given id with
  | some id =>
    match Registry.builtin.get? id with
    | some language => .ok language
    | none => .error (.argument (.unknownLanguage id Registry.builtin.ids))
  | none =>
    match Registry.builtin.forFilename (String.ofList input.name) with
    | some language => .ok language
    | none => .error (.argument (.noLanguage (String.ofList input.name)))

/-- The place that is named.  The command line has been found to have its option, so what may be
missing is the value. -/
def choosePlace : Option String → Except Problem Place
  | some s => Place.ofString s
  | none => .error (.bare .place)

/-- **The options of a run**, or the first thing that is wrong with them.  The style file is read
before the other arguments are looked at, so a fault in it hides one on the command line. -/
def Options.of [Style.Stack] (fs : FileSystem) (a : Arguments) : Except Problem Options := do
  let input := Path.ofString a.input
  let settings ← readSettings fs (stylePath a.config input)
  let settings ← withTabWidth settings a.tabWidth
  let language ← chooseLanguage a.language input
  let place ← choosePlace a.place
  return { input, output := (given a.output).map Path.ofString, place, language, settings,
           readOnly := a.readOnly }

end SmartEnter.CommandLine
