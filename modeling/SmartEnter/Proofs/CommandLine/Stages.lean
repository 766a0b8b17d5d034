/-
# The stages of a run

A run finds out the log level and the options (`Ready`), reads its input (`Loaded`), presses Enter
(`Pressed`), writes the text (`Delivered`), and says where the caret is.  It ends at the first stage
that fails.  There is one case of `Ends` for each way in which that can happen, and a run through
all stages is one more.

What is proved about all runs is proved for these cases.

How far a run gets is a chain of structures, each of which extends the one before.  A fact about an
early stage is then at hand in every later one, and a statement about a run that got somewhere asks
for one hypothesis only.  The case of a failure names the last stage that was passed and what failed
behind it; how the run ends is an index of the inductive, so a case analysis gives both at once.

The work is done in the equations of section 3.  Each of them says what a run comes to if its stages
up to some point succeed and the next one fails, and there is no other place in which the definition
of a run is taken apart.
-/
import SmartEnter.Proofs.CommandLine.Options
import SmartEnter.Proofs.CommandLine.Press

namespace SmartEnter.CommandLine

open Text (Utf8.encode Utf8.decode)

/-! ## 1. The parts of a run

Names for what is handed on from one stage to the next, and what a run comes to at the stages that
look at nothing but the file system. -/

/-- What is pressed where, with the options of a run. -/
def Options.request (o : Options) : Request :=
  ⟨o.input.text, o.place, o.language, o.settings, o.readOnly⟩

def Pressing.shownLog (p : Pressing) (level : Int) : List String :=
  (p.log.filter (level ≤ ·.severity.level)).map LogLine.text

/-- What is left behind when the text was written, on standard output or in a file.  The line about
the caret is not part of it, since it comes later and may not come at all. -/
def delivered (output : Option Path) (level : Int) (p : Pressing) : Effects :=
  match output with
  | none => { stdout := p.document.text, stderr := p.shownLog level }
  | some path =>
    { stderr := p.shownLog level, written := some (path, Utf8.encode p.document.text) }

variable {words : List String} {a : Arguments} {environment : Option String} {fs : FileSystem}
  {level : Int} {o : Options} {source text : List Char} {p : Pressing}

theorem conclude_of_unwritable {done : Effects} (h : ¬(caretPlace p).IsWritable) :
    conclude done p = .escape .unwritable done :=
  if_neg h

theorem conclude_of_writable {done : Effects} (h : (caretPlace p).IsWritable) :
    conclude done p = .report
      { toEffects := { done with stderr := done.stderr ++ [caretLine p] }, exitCode := 0 } :=
  if_pos h

theorem finish_of_failure {path : Path} {f : AccessFailure} (hpath : o.output = some path)
    (h : fs.writeFailure? path = some f) :
    finish fs o.output level p = .escape (.access f path) { stderr := p.shownLog level } := by
  unfold finish
  simp only [hpath, h]
  rfl

variable [Text.Memory]

theorem runWith_of_input {f : AccessFailure} (h : fs.read o.input = .error f) :
    runWith fs level o = .ofInputFailure f o.input := by
  unfold runWith readInput
  rw [h]
  rfl

theorem runWith_of_encoding {bytes : List UInt8} {f : Text.Utf8.Failure}
    (hread : fs.read o.input = .ok bytes) (h : Utf8.decode bytes = .error f) :
    runWith fs level o = .complaint ("error: " ++ f.message) := by
  unfold runWith readInput
  rw [hread]
  simp only [bind, Except.bind, Except.mapError, h]

/-! ## 2. How far a run gets

The structures are about a run with given arguments; that the words are these arguments is a
hypothesis of the equations only. -/

variable [Style.Stack]

/-- The log level and the options are found out.  No file but the style file has been looked at. -/
structure Ready (a : Arguments) (environment : Option String) (fs : FileSystem) (level : Int)
    (o : Options) : Prop where
  level : logLevel a.logLevel.value? environment = .ok level
  options : o.From fs a

/-- The input is read, and it is a text.  That it is one is said by the bytes, which are those of
the text. -/
structure Loaded (a : Arguments) (environment : Option String) (fs : FileSystem) (level : Int)
    (o : Options) (source : List Char) : Prop extends Ready a environment fs level o where
  read : fs.read o.input = .ok (Utf8.encode source)

/-- Enter is pressed: the place is in the text, and if a level had to be put in it could be
written. -/
structure Pressed (a : Arguments) (environment : Option String) (fs : FileSystem) (level : Int)
    (o : Options) (source : List Char) (p : Pressing) : Prop
    extends Loaded a environment fs level o source where
  press : press o.request source = .ok p

/-- The text is written, which on standard output never fails.  Only the line about the caret is
still to come. -/
structure Delivered (a : Arguments) (environment : Option String) (fs : FileSystem) (level : Int)
    (o : Options) (source : List Char) (p : Pressing) : Prop
    extends Pressed a environment fs level o source p where
  writable (path : Path) : o.output = some path → fs.writeFailure? path = none

/-- How a run can end: one case for each stage that may fail, and the last one for a run through all
of them.  The place of a case `place` can be written, so the report about it has its line, and no
case is needed for one that has not. -/
inductive Ends (a : Arguments) (environment : Option String) (fs : FileSystem) : Ending → Prop where
  | level {problem : Problem} (h : logLevel a.logLevel.value? environment = .error problem) :
      Ends a environment fs (.ofProblem problem)
  | options {level : Int} {problem : Problem}
      (hlevel : logLevel a.logLevel.value? environment = .ok level)
      (h : Options.of fs a = .error problem) : Ends a environment fs (.ofProblem problem)
  | input {level : Int} {o : Options} {f : AccessFailure} (ready : Ready a environment fs level o)
      (h : fs.read o.input = .error f) : Ends a environment fs (.ofInputFailure f o.input)
  | encoding {level : Int} {o : Options} {bytes : List UInt8} {f : Text.Utf8.Failure}
      (ready : Ready a environment fs level o) (hread : fs.read o.input = .ok bytes)
      (h : Utf8.decode bytes = .error f) :
      Ends a environment fs (.complaint ("error: " ++ f.message))
  | place {level : Int} {o : Options} {source : List Char} {e : PositionError}
      (loaded : Loaded a environment fs level o source) (h : o.place.offset? source = .error e) :
      Ends a environment fs
        (.report { exitCode := 1, stderr := [(e.diagnostic source).render o.input.text] })
  | indent {level : Int} {o : Options} {source : List Char} {c : Nat} {w : Text.RepeatFailure}
      (loaded : Loaded a environment fs level o source) (hc : o.place.offset? source = .ok c)
      (h : (o.request.editor source c).TooWide o.language o.settings.formatters o.request.options
        w) :
      Ends a environment fs (.escape (.indent (.width w)) {})
  | output {level : Int} {o : Options} {source : List Char} {p : Pressing} {path : Path}
      {f : AccessFailure} (pressed : Pressed a environment fs level o source p)
      (hpath : o.output = some path) (h : fs.writeFailure? path = some f) :
      Ends a environment fs (.escape (.access f path) { stderr := p.shownLog level })
  | caret {level : Int} {o : Options} {source : List Char} {p : Pressing}
      (done : Delivered a environment fs level o source p) (h : ¬(caretPlace p).IsWritable) :
      Ends a environment fs (.escape .unwritable (delivered o.output level p))
  | done {level : Int} {o : Options} {source : List Char} {p : Pressing}
      (done : Delivered a environment fs level o source p) (h : (caretPlace p).IsWritable) :
      Ends a environment fs (.report
        { delivered o.output level p with
          stderr := (delivered o.output level p).stderr ++ [caretLine p]
          exitCode := 0 })

/-! ## 3. Each stage, if the ones before it succeed

One equation for each stage, with the stages before it as a hypothesis. -/

theorem run_of_level {problem : Problem} (ha : Arguments.ofList words = .ok a)
    (h : logLevel a.logLevel.value? environment = .error problem) :
    run words environment fs = .ofProblem problem := by
  unfold run
  simp only [ha, h]

theorem run_of_options {problem : Problem} (ha : Arguments.ofList words = .ok a)
    (hlevel : logLevel a.logLevel.value? environment = .ok level)
    (h : Options.of fs a = .error problem) :
    run words environment fs = .ofProblem problem := by
  unfold run
  simp only [ha, hlevel, h]

theorem Ready.run_eq (h : Ready a environment fs level o) (ha : Arguments.ofList words = .ok a) :
    run words environment fs = runWith fs level o := by
  unfold run
  simp only [ha, h.level, Options.of_eq_ok_iff.2 h.options]

omit [Text.Memory] in
theorem Loaded.readInput_eq (h : Loaded a environment fs level o source) :
    readInput fs o.input = .ok source := by
  unfold readInput
  rw [h.read]
  simp only [bind, Except.bind, Except.mapError, Text.Utf8.decode_eq_ok_iff.2 rfl]

/-- A place that was found out can be written, so what is said about it is said.  This is where the
reading of the place, which is long past, is needed again. -/
theorem Loaded.runWith_of_outside {e : PositionError} (h : Loaded a environment fs level o source)
    (hplace : o.place.offset? source = .error e) :
    runWith fs level o =
      .report { exitCode := 1, stderr := [(e.diagnostic source).render o.input.text] } := by
  have hpress : press o.request source = .error (.place (e.diagnostic source)) :=
    press_of_outside hplace
  have hwritable : (e.diagnostic source).IsWritable := by
    obtain ⟨hline, hcolumn⟩ := Place.eq_of_outside hplace
    rw [Diagnostic.IsWritable, hline, hcolumn]
    exact h.options.isWritable
  unfold Options.request at hpress
  unfold runWith
  simp only [h.readInput_eq, hpress, if_pos hwritable]

theorem Loaded.runWith_of_indent {f : Indent.Failure} (h : Loaded a environment fs level o source)
    (hpress : press o.request source = .error (.indent f)) :
    runWith fs level o = .escape (.indent f) {} := by
  unfold Options.request at hpress
  unfold runWith
  simp only [h.readInput_eq, hpress]

theorem Pressed.runWith_eq (h : Pressed a environment fs level o source p) :
    runWith fs level o = finish fs o.output level p := by
  have hpress := h.press
  unfold Options.request at hpress
  unfold runWith
  simp only [h.readInput_eq, hpress]

theorem Delivered.finish_eq (h : Delivered a environment fs level o source p) :
    finish fs o.output level p = conclude (delivered o.output level p) p := by
  unfold finish delivered
  cases hout : o.output with
  | none => rfl
  | some path =>
    simp only [h.writable path hout]
    rfl

theorem Delivered.run_eq (h : Delivered a environment fs level o source p)
    (ha : Arguments.ofList words = .ok a) :
    run words environment fs = conclude (delivered o.output level p) p := by
  rw [h.toReady.run_eq ha, h.runWith_eq, h.finish_eq]

/-! ## 4. All stages

From the last stage back to the first: what a run comes to from some stage on is one of the endings,
if that is so from the next stage on. -/

theorem Delivered.ends (h : Delivered a environment fs level o source p) :
    Ends a environment fs (conclude (delivered o.output level p) p) := by
  by_cases hcaret : (caretPlace p).IsWritable
  · rw [conclude_of_writable hcaret]
    exact .done h hcaret
  · rw [conclude_of_unwritable hcaret]
    exact .caret h hcaret

theorem Pressed.ends (h : Pressed a environment fs level o source p) :
    Ends a environment fs (finish fs o.output level p) := by
  by_cases hwritable : ∀ path, o.output = some path → fs.writeFailure? path = none
  · have hdelivered : Delivered a environment fs level o source p := ⟨h, hwritable⟩
    rw [hdelivered.finish_eq]
    exact hdelivered.ends
  · simp only [not_forall] at hwritable
    obtain ⟨path, hpath, hfailure⟩ := hwritable
    obtain ⟨f, hf⟩ := Option.ne_none_iff_exists'.1 hfailure
    rw [finish_of_failure hpath hf]
    exact .output h hpath hf

theorem Loaded.ends (h : Loaded a environment fs level o source) :
    Ends a environment fs (runWith fs level o) := by
  cases hplace : o.place.offset? source with
  | error e =>
    rw [h.runWith_of_outside hplace]
    exact .place h hplace
  | ok c =>
    cases hro : o.readOnly with
    | true =>
      obtain ⟨p, hp, -⟩ := press_readOnly (r := o.request) hplace hro
      have hpressed : Pressed a environment fs level o source p := ⟨h, hp⟩
      rw [hpressed.runWith_eq]
      exact hpressed.ends
    | false =>
      -- a text that may be changed is spared only by a level that is too wide
      rcases press_writable (r := o.request) h.options.positive h.options.newline_not_mem hplace hro
        with ⟨p, s, hp, -⟩ | ⟨w, hp, hwide⟩
      · have hpressed : Pressed a environment fs level o source p := ⟨h, hp⟩
        rw [hpressed.runWith_eq]
        exact hpressed.ends
      · rw [h.runWith_of_indent hp]
        exact .indent h hplace hwide

theorem Ready.ends (h : Ready a environment fs level o) :
    Ends a environment fs (runWith fs level o) := by
  cases hread : fs.read o.input with
  | error f =>
    rw [runWith_of_input hread]
    exact .input h hread
  | ok bytes =>
    cases hdecode : Utf8.decode bytes with
    | error f =>
      rw [runWith_of_encoding hread hdecode]
      exact .encoding h hread hdecode
    | ok source =>
      obtain rfl := Text.Utf8.decode_eq_ok_iff.1 hdecode
      exact Loaded.ends ⟨h, hread⟩

/-- **A run ends in one of these ways**, whatever the command line, the environment and the
files. -/
theorem ends_run (ha : Arguments.ofList words = .ok a) :
    Ends a environment fs (run words environment fs) := by
  cases hlevel : logLevel a.logLevel.value? environment with
  | error problem =>
    rw [run_of_level ha hlevel]
    exact .level hlevel
  | ok level =>
    cases hoptions : Options.of fs a with
    | error problem =>
      rw [run_of_options ha hlevel hoptions]
      exact .options hlevel hoptions
    | ok o =>
      have hready : Ready a environment fs level o := ⟨hlevel, Options.of_eq_ok_iff.1 hoptions⟩
      rw [hready.run_eq ha]
      exact hready.ends

/-- Words that are a command line lead to a report, with the exit code 0, 1 or 2, or to none. -/
theorem Ends.report_or_escape {ending : Ending} (h : Ends a environment fs ending) :
    (∃ r, ending = .report r ∧ (r.exitCode = 0 ∨ r.exitCode = 1 ∨ r.exitCode = 2)) ∨
      ∃ e done, ending = .escape e done := by
  cases h with
  | level | options =>
    unfold Ending.ofProblem
    split
    · exact .inl ⟨_, rfl, .inr (.inr rfl)⟩
    · exact .inr ⟨_, _, rfl⟩
  | input =>
    unfold Ending.ofInputFailure
    split
    · exact .inr ⟨_, _, rfl⟩
    · exact .inl ⟨_, rfl, .inr (.inr rfl)⟩
  | encoding => exact .inl ⟨_, rfl, .inr (.inr rfl)⟩
  | place => exact .inl ⟨_, rfl, .inr (.inl rfl)⟩
  | done => exact .inl ⟨_, rfl, .inl rfl⟩
  | indent | output | caret => exact .inr ⟨_, _, rfl⟩

end SmartEnter.CommandLine
