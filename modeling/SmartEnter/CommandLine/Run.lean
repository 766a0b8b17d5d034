/-
# A run of the program

A run presses Enter once, at a place of a file.  Where the key is left to the next handler, a plain
line break is put in, unless the file is to be read only.  The text goes to standard output or to a
file, and what happened goes to standard error.  When anything is wrong with the arguments, the
files or the place, nothing is written; but the line about the caret comes last, and a number in it
that has too many digits ends a run that has already written its text.

A run is a function of the command line, of one variable of the environment and of a file system.
It changes nothing: how it ends (`Ending`) is a value that holds everything that was to be written,
on standard output, on standard error and in a file.  So that a run has written something before it
failed can be said as well (`Ending.escape`), and it is a statement about this value.

There are three ways to end.  Words that are no command line end in a message about their usage.  A
run that comes to its end has an exit code: 0 if the text was written, 1 if the place is not in the
text, 2 for everything else that is reported.  The rest are escapes, faults that nothing looks out
for.

The stages of a run are functions of their own, each with the result of the one before: the log
level, the options, the input, the press (`press`), the writing (`finish`), and the line about the
caret (`conclude`).
-/
import SmartEnter.CommandLine.Options
import SmartEnter.Enter.Decision

namespace SmartEnter.CommandLine

open Enter (Caret Decision Editor Insertion Result Session)

/-! ## 1. Log lines -/

/-- How much a log line matters.  These are the severities that lines are written with; the level
that a user asks for may be any number. -/
inductive Severity where
  | debug
  | info
  | warning
  deriving Repr, DecidableEq

namespace Severity

def level : Severity → Int
  | debug => 10
  | info => 20
  | warning => 30

def name : Severity → String
  | debug => "DEBUG"
  | info => "INFO"
  | warning => "WARNING"

end Severity

/-- A line of the log, before it is known whether it will be shown: what it is about, and which part
of the program says so. -/
structure LogLine where
  severity : Severity
  source : String
  message : String
  deriving Repr, DecidableEq

def LogLine.text (l : LogLine) : String := l.severity.name ++ " " ++ l.source ++ ": " ++ l.message

def engineSource : String := "enterindent.engine"

def runSource : String := "enterindent.cli"

/-! ## 2. The press

A press is carried out in a text that has been read, and nothing is written here. -/

/-- What is pressed where.  The name is that of the file, for a line of the log. -/
structure Request where
  name : String
  place : Place
  language : Language
  settings : Style.Settings
  readOnly : Bool

/-- What came of a press.  The document is the one after it, and the caret is a caret in that
document, or one that the decision chose. -/
structure Pressing where
  document : Document
  result : Result
  caret : Caret
  log : List LogLine

/-- Why nothing could be pressed: there is no such place, or no text for the level that would be put
in. -/
inductive PressFailure where
  | place (d : Diagnostic)
  | indent (f : Indent.Failure)

/-- Puts in a text at the caret and reports the caret behind it, unless another one was chosen. -/
def insertAtCaret (e : Editor) (r : Result) (i : Insertion) (log : List LogLine) : Pressing :=
  let document := e.document.insert i.offset i.text
  { document, result := r, log
    caret := r.caret.getD (Result.caretBehind document i e.session.tabWidth) }

/-- Leaves the document as it is and reports the caret where it stands.  This is what comes of a
document that may not be changed. -/
def leave (e : Editor) (log : List LogLine) : Pressing :=
  let d := e.document
  let line := d.lineNumber e.caret
  let before := Text.slice d.text (d.startOf line) e.caret
  { document := d, result := .deferred, log
    caret := ⟨line, Indent.displayWidth before e.session.tabWidth⟩ }

/-- **Carries out a decision.**  A decision that puts nothing in leaves the key to the next handler,
and the plain line break that such a handler would put in is put in here. -/
def carryOut (name : String) (e : Editor) (decision : Decision) : Pressing :=
  let explained : LogLine := ⟨.debug, engineSource, decision.explain e.caret⟩
  match decision.inserted with
  | some text => insertAtCaret e (decision.result e) ⟨e.caret, text⟩ [explained]
  | none =>
    if !e.document.writable then
      leave e [explained, ⟨.warning, runSource, name ++ " is read-only, nothing inserted"⟩]
    else
      let i : Insertion := ⟨e.caret, ['\n']⟩
      insertAtCaret e { outcome := .defer, insertion := some i } i
        [explained, ⟨.info, runSource, "handler deferred, inserting a plain line break"⟩]

variable [Text.Memory]

/-- **Presses Enter in a text.**  The place counts from one and the document from zero; a place
outside the text is shown in the text it is not in. -/
def press (r : Request) (source : List Char) : Except PressFailure Pressing := do
  let document : Document := { text := source, writable := !r.readOnly }
  let caret ← (document.offsetAt (r.place.line - 1) (r.place.column - 1)).mapError
    fun e => .place (e.diagnostic source)
  let session : Session := { languages := [r.language.id], tabWidth := r.settings.tabWidth }
  let e : Editor := { document, caret, session }
  let decision ← (Decision.of r.language r.settings.formatters
    (r.settings.optionsFor r.language.id) e).mapError .indent
  return carryOut r.name e decision

/-! ## 3. The run

Each stage ends the run or goes on to the next one.  What is written is written at the end, so all
that may be wrong before leaves nothing behind. -/

/-- What a run leaves behind.  Nothing else is changed by a run, so two runs with the same effects
cannot be told apart from outside. -/
structure Effects where
  stdout : List Char := []
  /-- The lines of standard error. -/
  stderr : List String := []
  /-- The file that was written. -/
  written : Option (Path × List UInt8) := none
  deriving Repr, DecidableEq

/-- A run that comes to its end, with its exit code: zero if the key was pressed, one if there is no
such place, and two for what is wrong with the options, the settings or the input. -/
structure Report extends Effects where
  exitCode : Nat
  deriving Repr, DecidableEq

/-- A fault that ends a run without a report.  Each has a message of its own, but the exit code is
not one that the program chose. -/
inductive Escape where
  | problem (p : Problem)
  | indent (f : Indent.Failure)
  | access (f : AccessFailure) (p : Path)
  /-- A number of a place has too many digits to be written. -/
  | unwritable

/-- How a run ends: with the parser of the command line, with a report, or with a fault that nothing
in the program takes care of.  What was done up to the fault is told with it. -/
inductive Ending where
  | usage (f : UsageFailure)
  | report (r : Report)
  | escape (e : Escape) (done : Effects)

namespace Ending

/-- A run that ends with one line about what is wrong, and with the exit code that says so. -/
def complaint (line : String) : Ending := .report { exitCode := 2, stderr := [line] }

/-- A run that ends before the input is read.  Nothing has been written by then. -/
def ofProblem [Style.Stack] (p : Problem) : Ending :=
  match p.report? with
  | some line => complaint line
  | none => .escape (.problem p) {}

/-- A run whose input cannot be read; what is no path at all is not reported. -/
def ofInputFailure (f : AccessFailure) (p : Path) : Ending :=
  if f = .nullCharacter then .escape (.access f p) {} else complaint ("error: " ++ f.message p)

end Ending

/-- The text of the input, or how the run ends if there is none.  A file that cannot be read and one
that is no text are both reported. -/
def readInput (fs : FileSystem) (p : Path) : Except Ending (List Char) := do
  let bytes ← (fs.read p).mapError (.ofInputFailure · p)
  (Text.Utf8.decode bytes).mapError fun f => .complaint ("error: " ++ f.message)

/-- The place of the caret, counting from one.  The column is a display column, so it need not be
that of a character. -/
def caretPlace (p : Pressing) : Place := ⟨p.caret.line + 1, p.caret.column + 1⟩

/-- The line that says where the caret is, behind the word for what became of the key. -/
def caretLine (p : Pressing) : String :=
  p.result.outcome.name ++ ": caret at " ++ (caretPlace p).text

/-- Ends a run, after all else was done, with the line about the caret.  If its numbers cannot be
written the run ends without the line, and what was done stays done. -/
def conclude (done : Effects) (p : Pressing) : Ending :=
  if (caretPlace p).IsWritable then
    .report { toEffects := { done with stderr := done.stderr ++ [caretLine p] }, exitCode := 0 }
  else .escape .unwritable done

/-- Writes what came of a press.  With an output the text goes into the file and nothing to standard
output; a file that cannot be written ends the run before anything but the log was. -/
def finish (fs : FileSystem) (output : Option Path) (level : Int) (p : Pressing) : Ending :=
  let stderr := (p.log.filter (level ≤ ·.severity.level)).map LogLine.text
  match output with
  | none => conclude { stdout := p.document.text, stderr } p
  | some path =>
    match fs.writeFailure? path with
    | some f => .escape (.access f path) { stderr }
    | none => conclude { stderr, written := some (path, Text.Utf8.encode p.document.text) } p

/-- A run with given options: the input is read, the key is pressed, and what came of it is
written. -/
def runWith (fs : FileSystem) (level : Int) (o : Options) : Ending :=
  match readInput fs o.input with
  | .error ending => ending
  | .ok source =>
    match press ⟨o.input.text, o.place, o.language, o.settings, o.readOnly⟩ source with
    | .error (.place d) =>
      if d.IsWritable then .report { exitCode := 1, stderr := [d.render o.input.text] }
      else .escape .unwritable {}
    | .error (.indent f) => .escape (.indent f) {}
    | .ok p => finish fs o.output level p

/-- **A run with a command line**, the log level of the environment, and a file system.  Each stage
is reached only if those before it were passed. -/
def run [Style.Stack] (words : List String) (environment : Option String) (fs : FileSystem) :
    Ending :=
  match Arguments.ofList words with
  | .error f => .usage f
  | .ok a =>
    match logLevel a.logLevel.value? environment with
    | .error p => .ofProblem p
    | .ok level =>
      match Options.of fs a with
      | .error p => .ofProblem p
      | .ok o => runWith fs level o

end SmartEnter.CommandLine
