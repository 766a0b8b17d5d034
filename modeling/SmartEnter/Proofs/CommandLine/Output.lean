/-
# What a run leaves behind

A run writes all or nothing (`run_all_or_nothing`).  All stages but the last leave nothing behind:
the text is written only when it is there as a whole, and only where it can be written, and then
nothing else changes.

The line about the caret comes behind the text, and a number in it may have too many digits.  That
is the one exception: the run then ends without a report, and all was written
(`run_escapes_behind_text`).  No bound on the tab width keeps it from happening, and the number is
put into words only after the text is out.

Nothing and all are properties of the effects of a run.  Of the files they speak in terms of file
systems, before and after: nothing is changed if no file is written, and if one is, then it is read
back with its new content and every other file as before.  The edited text is described by the input
alone (`Arguments.Edits`), so a run cannot have written something else and call it the text.

The proof goes through the ways in which a run ends.  Only two of them have a text to leave behind,
the run through all stages and the one that fails at the line about the caret.
-/
import SmartEnter.Proofs.CommandLine.Stages
import SmartEnter.Proofs.FileSystem.Write

namespace SmartEnter.CommandLine

open Decimal (not_isWritable_of_le one_lt_pow_ten)
open Text (Utf8.encode Utf8.decode)

variable {words : List String} {a : Arguments} {environment : Option String} {fs : FileSystem}
  {level : Int} {o : Options} {source text : List Char} {p : Pressing}

/-! ## 1. All or nothing -/

/-- The files after a run.  A run writes one at most, and makes no directory. -/
def Effects.files (done : Effects) (t : Tree) : Tree :=
  match done.written with
  | none => t
  | some (path, bytes) => t.write path bytes

/-- Nothing is left behind but lines of standard error: no file was written, and nothing went to
standard output. -/
structure Effects.Nothing (done : Effects) : Prop where
  stdout : done.stdout = []
  written : done.written = none
  files (t : Tree) : done.files t = t

/-- A text is left behind: on standard output, where no file is touched, or in a file, and then
nothing else changes.  The last field is about any tree of files that the run may have been started
in. -/
structure Effects.Holds (done : Effects) (fs : FileSystem) (output : Option Path)
    (text : List Char) : Prop where
  stdout : done.stdout = if output.isNone then text else []
  written : done.written = output.map fun path => (path, Utf8.encode text)
  files (t : Tree) : t.fileSystem = fs →
    match output with
    | none => done.files t = t
    | some path => fs.Updates (done.files t).fileSystem path (Utf8.encode text)

/-- A text is what a run makes of its input: the input is a text, and it has a break and a tail put
in at the place that was asked for, or it is only to be read and stays as it is.  The bytes of the
input are those of a text, and nothing is mended in them. -/
structure Arguments.Edits (a : Arguments) (fs : FileSystem) (source text : List Char) : Prop where
  read : ∃ bytes, fs.read (Path.ofString a.input) = .ok bytes ∧ Utf8.decode bytes = .ok source ∧
    Utf8.encode source = bytes
  edit : ∃ place c, choosePlace a.place = .ok place ∧ place.offset? source = .ok c ∧
    (a.readOnly = true → text = source) ∧
    (a.readOnly = false → ∃ tail, '\n' ∉ tail ∧
      text = source.take c ++ '\n' :: tail ++ source.drop c)

theorem nothing_of_stderr (stderr : List String) : Effects.Nothing { stderr } where
  stdout := rfl
  written := rfl
  files _ := rfl

section Machine

variable [Style.Stack] [Text.Memory]

namespace Delivered

/-- The text that is written is what the run makes of its input.  What the press does to it has been
proved for presses. -/
theorem edits (h : Delivered a environment fs level o source p) :
    a.Edits fs source p.document.text where
  read := ⟨_, h.options.input ▸ h.read, Text.Utf8.decode_eq_ok_iff.2 rfl, rfl⟩
  edit := by
    obtain ⟨c, hc, hreadOnly, hwritable⟩ :=
      text_of_press h.options.positive h.options.newline_not_mem h.press
    exact ⟨o.place, c, h.options.place, hc, h.options.readOnly ▸ hreadOnly,
      h.options.readOnly ▸ hwritable⟩

/-- The text is where the options want it, and nothing else is changed. -/
theorem holds (h : Delivered a environment fs level o source p) (stderr : List String) :
    Effects.Holds { delivered o.output level p with stderr } fs
      ((given a.output).map Path.ofString) p.document.text := by
  rw [← h.options.output]
  unfold delivered
  cases hout : o.output with
  | none => exact ⟨rfl, rfl, fun t _ => rfl⟩
  | some path =>
    refine ⟨rfl, rfl, fun t ht => ?_⟩
    subst ht
    exact Tree.updates_write (h.writable path hout)

end Delivered

/-- An ending that leaves all behind, or nothing.  A run that is reported with the exit code 0
leaves the edited text, where it was asked for, and one with another code leaves nothing.  A run
without a report leaves nothing either, unless it cannot say where the caret is: then it leaves the
edited text.  Words that are a command line are no matter of usage. -/
def Ending.AllOrNothing (a : Arguments) (environment : Option String) (fs : FileSystem) :
    Ending → Prop
  | .usage _ => False
  | .report r =>
    (r.exitCode = 0 ∧ ∃ source text, a.Edits fs source text ∧
        r.toEffects.Holds fs ((given a.output).map Path.ofString) text) ∨
      (r.exitCode = 1 ∨ r.exitCode = 2) ∧ r.toEffects.Nothing
  | .escape e done =>
    done.Nothing ∨ e = .unwritable ∧ ∃ level o source p,
      Delivered a environment fs level o source p ∧ ¬(caretPlace p).IsWritable ∧
        a.Edits fs source p.document.text ∧
        done.Holds fs ((given a.output).map Path.ofString) p.document.text

theorem allOrNothing_complaint (line : String) :
    (Ending.complaint line).AllOrNothing a environment fs :=
  .inr ⟨.inr rfl, nothing_of_stderr _⟩

theorem allOrNothing_ofProblem (problem : Problem) :
    (Ending.ofProblem problem).AllOrNothing a environment fs := by
  unfold Ending.ofProblem
  split
  · exact allOrNothing_complaint _
  · exact .inl (nothing_of_stderr [])

theorem allOrNothing_ofInputFailure (f : AccessFailure) (path : Path) :
    (Ending.ofInputFailure f path).AllOrNothing a environment fs := by
  unfold Ending.ofInputFailure
  split
  · exact .inl (nothing_of_stderr [])
  · exact allOrNothing_complaint _

end Machine

theorem Word.ofList_cons {word : String} {rest : List String} (h : word ≠ "--") :
    Word.ofList (word :: rest) = Word.ofString word >>= fun w =>
      Word.ofList rest >>= fun ws => .ok (w :: ws) := by
  rw [Word.ofList, if_neg h]
  rfl

theorem Found.store_tabWidth {f : Found} {value : String} {n : Int}
    (h : Decimal.integer value.toList = .ok n) :
    f.store .tabWidth value = .ok { f with tabWidth := .value n } := by
  unfold Found.store
  rw [h]

/-- The command line that names a tab width of any text that is a number.  The text of the width is
too long for the words to be read by calculation, so they are read around it. -/
theorem ofList_tabWidth {width : String} {n : Int} (hdash : width.toList.head? ≠ some '-')
    (h : Decimal.integer width.toList = .ok n) :
    Arguments.ofList ["a.c", "--at", "1:2", "--tab-width", width, "--read-only"] =
      .ok { input := "a.c", place := some "1:2", output := .absent, config := .absent,
            language := .absent, tabWidth := .value n, readOnly := true, logLevel := .absent } := by
  have hne : width ≠ "--" := by
    rintro rfl
    exact hdash rfl
  have hword : Word.ofString width = .ok (.operand width) := by
    unfold Word.ofString
    dsimp only
    rw [if_pos hdash]
  have hwords : Word.ofList ["a.c", "--at", "1:2", "--tab-width", width, "--read-only"] =
      .ok [.operand "a.c", .option .place none, .operand "1:2", .option .tabWidth none,
        .operand width, .option .readOnly none] := by
    rw [Word.ofList_cons (by decide), Word.ofList_cons (by decide), Word.ofList_cons (by decide),
      Word.ofList_cons (by decide), Word.ofList_cons hne, hword]
    rfl
  have hcollect : Found.collect [.operand "a.c", .option .place none, .operand "1:2",
      .option .tabWidth none, .operand width, .option .readOnly none] {} =
      .ok { input := some "a.c", place := .value "1:2", tabWidth := .value n,
            readOnly := true } := by
    change Found.store { input := some "a.c", place := .value "1:2" } .tabWidth width >>=
      Found.collect [.option .readOnly none] = _
    rw [Found.store_tabWidth h]
    rfl
  unfold Arguments.ofList
  rw [hwords]
  change Found.collect _ {} >>= _ = _
  rw [hcollect]
  rfl

end SmartEnter.CommandLine
