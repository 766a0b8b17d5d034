/-
# What can be wrong with a run

Arguments, the style file and the file to be edited may all be at fault.  Some of the faults are
reported with an exit code (`Problem.report?`), the others end the run as they are.

Two kinds of problems are looked out for: a value of an argument that cannot be used, and a key of
the style file with a wrong value.  They have messages that tell what to do.  The others were not
thought of where they arise, in a conversion of digits, in the reader of style files or in a
question to the file system, and nothing on the way out takes care of them.  They are problems all
the same, and a run that meets one ends without having changed anything.

Even a problem that is looked out for can fail to be reported, since its line may have to show a
value that cannot be shown.
-/
import SmartEnter.CommandLine.Arguments
import SmartEnter.FileSystem
import SmartEnter.Style.Settings
import SmartEnter.Style.Toml.File
import SmartEnter.Text.Utf8

namespace SmartEnter.CommandLine

/-- An argument whose value cannot be used, with what its message has to show. -/
inductive InvalidArgument where
  | unknownLevel (name : String)
  | noPosition (s : String)
  | zeroPosition (s : String)
  | tabWidth (n : Int)
  | unknownLanguage (id : String) (known : List String)
  | noLanguage (file : String)
  deriving Repr, DecidableEq

def InvalidArgument.message : InvalidArgument → String
  | unknownLevel name => "unknown log level: " ++ name
  | noPosition s => "invalid position (expected LINE:COL): " ++ s
  | zeroPosition s => "position is 1-based: " ++ s
  | tabWidth n => "tab width must be positive: " ++ toString n
  | unknownLanguage id known =>
    "unknown language " ++ Text.quote id ++ " (known: " ++ ", ".intercalate known ++ ")"
  | noLanguage file => "cannot guess the language of " ++ file ++ "; pass --language"

/-- What is wrong before a file is edited.  Only the first two kinds are ever reported. -/
inductive Problem where
  | argument (cause : InvalidArgument)
  | setting (e : Style.SettingError)
  /-- An option that needs a value is bare. -/
  | bare (flag : Flag)
  /-- Digits that make up no number. -/
  | integer (failure : Decimal.IntegerFailure)
  /-- Nobody can tell whether there is a style file at the path. -/
  | styleAccess (failure : AccessFailure) (p : Path)
  | styleSyntax
  /-- Values of the style file are nested too deep. -/
  | styleDepth
  | styleEncoding (failure : Text.Utf8.Failure)
  deriving Repr

def depthMessage : String := "maximum recursion depth exceeded"

/-- The line that reports a problem, if it is one that is reported and the line can be written. -/
def Problem.report? [Style.Stack] : Problem → Option String
  | argument cause => some ("error: " ++ cause.message)
  | setting e => if e.fault.isWritable then some e.render else none
  | _ => none

end SmartEnter.CommandLine
