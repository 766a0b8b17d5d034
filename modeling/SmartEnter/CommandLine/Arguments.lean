/-
# Command line arguments

The words of a command line are told apart first (`Word.ofString`): options, with or without a value
attached, operands, and words that look like an option and are none.  An option may be shortened as
long as only one option starts that way.  A word is an operand if it does not start with a dash, is
a lone dash, looks like a negative number, or has a space in it; behind a double dash everything is
an operand.  A double dash that is attached to an option stands for no value: it leaves the option
bare.

The words are then used up from left to right (`Found.collect`), and the first fault ends it.  Only
the next word can be the value of an option, so no word has to be looked at twice.

An option may be absent, bare, or have a value (`Argument`), and the difference between the first
two is kept.  Where a text is optional they come to the same; where a value is needed a bare option
is a fault, but one that is found out later, when the value is asked for.

Help and faults are the same to the reader: both end it, with a message and an exit code of their
own (`UsageFailure`).
-/
import SmartEnter.Decimal.Numeral

namespace SmartEnter.CommandLine

/-! ## 1. Options -/

inductive Flag where
  | help
  | place
  | output
  | config
  | language
  | tabWidth
  | readOnly
  | logLevel
  deriving Repr, DecidableEq

/-- The ways to write the options, in the order in which they are listed.  The order matters for
messages only. -/
def spellings : List (String × Flag) :=
  [("-h", .help), ("--help", .help), ("--at", .place), ("-o", .output), ("--output", .output),
    ("--config", .config), ("--language", .language), ("--tab-width", .tabWidth),
    ("--read-only", .readOnly), ("--log-level", .logLevel)]

def Flag.name (flag : Flag) : String :=
  "/".intercalate ((spellings.filter (·.2 = flag)).map (·.1))

def programName : String := "enterindent"

/-- Why the words are no command line.  Asking for help is one of the reasons, and the only one that
is no fault. -/
inductive UsageFailure where
  /-- Help was asked for. -/
  | help
  | ambiguous (word : String) (candidates : List String)
  | expectedOne (flag : Flag)
  | unexpectedValue (flag : Flag) (value : String)
  | notInteger (flag : Flag) (value : String)
  | missing (names : List String)
  | unrecognized (words : List String)
  deriving Repr, DecidableEq

namespace UsageFailure

def message : UsageFailure → String
  | help => ""
  | ambiguous word candidates =>
    "ambiguous option: " ++ word ++ " could match " ++ ", ".intercalate candidates
  | expectedOne flag => "argument " ++ flag.name ++ ": expected one argument"
  | unexpectedValue flag value =>
    "argument " ++ flag.name ++ ": ignored explicit argument " ++ Text.quote value
  | notInteger flag value =>
    "argument " ++ flag.name ++ ": invalid int value: " ++ Text.quote value
  | missing names => "the following arguments are required: " ++ ", ".intercalate names
  | unrecognized words => "unrecognized arguments: " ++ " ".intercalate words

def line (f : UsageFailure) : String :=
  match f with
  | help => ""
  | f => programName ++ ": error: " ++ f.message

def exitCode : UsageFailure → Nat
  | help => 0
  | _ => 2

end UsageFailure

/-! ## 2. Words -/

/-- A value that is part of the option's word, behind an equals sign or right behind a short option.
It may be empty, which is not the same as none. -/
structure Attached where
  value : List Char
  /-- Is the option written as a single letter? -/
  short : Bool
  deriving Repr, DecidableEq

/-- A word of the command line, told by itself; whether it is the value of the option before it
comes later. -/
inductive Word where
  | operand (s : String)
  | separator
  | option (flag : Flag) (attached : Option Attached)
  | unknown (s : String)
  deriving Repr, DecidableEq

/-- What stands before and behind the first equals sign; nothing behind it if there is none. -/
def splitEquals (s : List Char) : List Char × Option (List Char) :=
  match s.dropWhile (· ≠ '=') with
  | [] => (s, none)
  | _ :: value => (s.takeWhile (· ≠ '='), some value)

/-- Is the text made of decimal digits, and not empty?  Digits of any script will do, but not those
that have no decimal value. -/
def isDecimal (s : List Char) : Bool :=
  s ≠ [] && s.all fun c => (Unicode.decimalValue? c).isSome

/-- Is the text a point with decimal digits behind it, and nothing or such digits before it? -/
def isPointed (s : List Char) : Bool :=
  let whole := s.takeWhile (· ≠ '.')
  (whole = [] || isDecimal whole) && isDecimal (s.drop (whole.length + 1))

/-- Is the word a dash with a whole number or a decimal fraction behind it?  A line feed at its end
is overlooked. -/
def looksNegative (s : List Char) : Bool :=
  let s := if s.getLast? = some '\n' then s.dropLast else s
  match s with
  | '-' :: body => isDecimal body || isPointed body
  | _ => false

/-- The options that a word may be short for.  With two dashes they are those that start with what
stands before the equals sign; with one dash the word is a short option with its value, or the start
of a spelling. -/
def candidates (s : List Char) : List (String × Flag × Option Attached) :=
  if ['-', '-'].isPrefixOf s then
    let (stem, value) := splitEquals s
    (spellings.filter fun (spelling, _) => stem.isPrefixOf spelling.toList).map
      fun (spelling, flag) => (spelling, flag, value.map (⟨·, false⟩))
  else
    spellings.filterMap fun (spelling, flag) =>
      if spelling.toList = s.take 2 then some (spelling, flag, some ⟨s.drop 2, true⟩)
      else if s.isPrefixOf spelling.toList then some (spelling, flag, none)
      else none

/-- Tells what a word is, unless a double dash came before.  A spelling in full always counts, even
if it is the start of another one. -/
def Word.ofString (word : String) : Except UsageFailure Word :=
  let s := word.toList
  if s.head? ≠ some '-' then .ok (.operand word)
  else
    match spellings.lookup word with
    | some flag => .ok (.option flag none)
    | none =>
    if s.length = 1 then .ok (.operand word)
    else
    match splitEquals s with
    | (stem, some value) =>
      match spellings.lookup (String.ofList stem) with
      | some flag => .ok (.option flag (some ⟨value, stem.length = 2⟩))
      | none => guess word s
    | (_, none) => guess word s
where
  /-- Tells what a word is that is no option in full. -/
  guess (word : String) (s : List Char) : Except UsageFailure Word :=
    match candidates s with
    | [(_, flag, attached)] => .ok (.option flag attached)
    | [] => .ok (if looksNegative s || ' ' ∈ s then .operand word else .unknown word)
    | several => .error (.ambiguous word (several.map (·.1)))

def Word.ofList : List String → Except UsageFailure (List Word)
  | [] => .ok []
  | word :: rest =>
    if word = "--" then .ok (.separator :: rest.map .operand)
    else do
      let w ← Word.ofString word
      return w :: (← Word.ofList rest)

/-! ## 3. Using up the words

Words are taken one by one, and each is an option, the value of one, the input, or of no use.  What
is left at the end decides whether the command line is complete. -/

/-- What a command line says of an option with a value.  The value may have been converted, so its
type is a parameter. -/
inductive Argument (α : Type) where
  | absent
  /-- The option stands there without a value. -/
  | bare
  | value (a : α)
  deriving Repr, DecidableEq

def Argument.value? {α : Type} : Argument α → Option α
  | value a => some a
  | _ => none

/-- What has been found on a command line so far.  An option that is found again takes the place of
what was there. -/
structure Found where
  input : Option String := none
  place : Argument String := .absent
  output : Argument String := .absent
  config : Argument String := .absent
  language : Argument String := .absent
  tabWidth : Argument Int := .absent
  readOnly : Bool := false
  logLevel : Argument String := .absent
  extras : List String := []
  deriving Repr, DecidableEq

namespace Found

/-- Takes the value of an option; the last one of an option counts.  The tab width is the only value
that is converted here. -/
def store (f : Found) (flag : Flag) (value : String) : Except UsageFailure Found :=
  match flag with
  | .place => .ok { f with place := .value value }
  | .output => .ok { f with output := .value value }
  | .config => .ok { f with config := .value value }
  | .language => .ok { f with language := .value value }
  | .logLevel => .ok { f with logLevel := .value value }
  | .tabWidth =>
    match Decimal.integer value.toList with
    | .ok n => .ok { f with tabWidth := .value n }
    | .error _ => .error (.notInteger flag value)
  | .help | .readOnly => .ok f

/-- Leaves an option bare; a value that it had is gone.  Two dashes right behind the equals sign of
an option come to this. -/
def strip (f : Found) (flag : Flag) : Found :=
  match flag with
  | .place => { f with place := .bare }
  | .output => { f with output := .bare }
  | .config => { f with config := .bare }
  | .language => { f with language := .bare }
  | .logLevel => { f with logLevel := .bare }
  | .tabWidth => { f with tabWidth := .bare }
  | .help | .readOnly => f

/-- Takes the value that is attached to an option, behind an equals sign or right behind a short
spelling. -/
def storeAttached (f : Found) (flag : Flag) (a : Attached) : Except UsageFailure Found :=
  if a.value = ['-', '-'] then .ok (f.strip flag) else f.store flag (String.ofList a.value)

def extra (f : Found) (word : String) : Found := { f with extras := f.extras ++ [word] }

/-- What comes of letters right behind the short option for help, each of them a short option
itself; `operandFollows` tells whether a value could be taken from the next word.  Help is what it
comes to if the letters make sense up to the point where help is given. -/
def helpCluster (operandFollows : Bool) : List Char → UsageFailure
  | [] => .help
  | 'h' :: rest => helpCluster operandFollows rest
  | ['o'] => if operandFollows then .help else .expectedOne .output
  | 'o' :: _ => .help
  | s => .unexpectedValue .help (String.ofList s)

/-- Uses up the words from left to right.  The recursion is on the words, and the case of a word is
settled by the word and the one after it. -/
def collect : List Word → Found → Except UsageFailure Found
  | [], f => .ok f
  | .operand s :: .separator :: rest, f =>
    if f.input.isNone then collect rest { f with input := some s }
    else collect rest ((f.extra s).extra "--")
  | .operand s :: rest, f =>
    if f.input.isNone then collect rest { f with input := some s } else collect rest (f.extra s)
  | .separator :: .operand s :: rest, f =>
    if f.input.isNone then collect rest { f with input := some s }
    else collect rest ((f.extra "--").extra s)
  | .separator :: rest, f => collect rest (f.extra "--")
  | .unknown s :: rest, f => collect rest (f.extra s)
  | .option .readOnly none :: rest, f => collect rest { f with readOnly := true }
  | .option .readOnly (some a) :: _, _ =>
    .error (.unexpectedValue .readOnly (String.ofList a.value))
  | .option .help none :: _, _ => .error .help
  | .option .help (some a) :: rest, _ =>
    if a.short ∧ a.value ≠ [] then
      .error (helpCluster (match rest with | .operand _ :: _ => true | _ => false) a.value)
    else .error (.unexpectedValue .help (String.ofList a.value))
  | .option flag (some a) :: rest, f => do collect rest (← f.storeAttached flag a)
  | .option flag none :: .operand value :: rest, f => do collect rest (← f.store flag value)
  | .option flag none :: _, _ => .error (.expectedOne flag)

end Found

/-- The arguments of a run, as they were given.  Nothing has been made of them but the tab width. -/
structure Arguments where
  input : String
  /-- The place, unless its option is bare. -/
  place : Option String
  output : Argument String
  config : Argument String
  language : Argument String
  tabWidth : Argument Int
  readOnly : Bool
  logLevel : Argument String
  deriving Repr, DecidableEq

/-- **Reads a command line.**  What is missing is told only after all words have been used up, and
words of no use last of all. -/
def Arguments.ofList (words : List String) : Except UsageFailure Arguments := do
  let f ← Found.collect (← Word.ofList words) {}
  let some input := f.input |
    throw (.missing (["input"] ++ if f.place = .absent then ["--at"] else []))
  if f.place = .absent then throw (.missing ["--at"])
  if f.extras ≠ [] then throw (.unrecognized f.extras)
  return { input, place := f.place.value?, output := f.output, config := f.config,
           language := f.language, tabWidth := f.tabWidth, readOnly := f.readOnly,
           logLevel := f.logLevel }

end SmartEnter.CommandLine
