/-
# The options of a run

The options are found out step by step: the style file, the tab width, the language, the place.
`Options.From` says what each of them comes from (`Options.of_eq_ok_iff`).  The widths of the
settings are then positive, the language is a built-in one, and the place can be written.

A step that fails is reported, but for a style file that cannot be read as one, or holds a wrong
value that cannot be written (`StyleFault`), for an option without its value, and for a place in
which digits make up no number (`OptionFault`, `unreported_of_iff`).

The steps are composed by the law for two steps (`unreported_bind`), once for each of them.  The
faults are inductives in the same order, and each case of theirs has the successes that came before
it as hypotheses.  So a fault says not only what is wrong but also that nothing else was wrong
earlier, and it is exactly that which makes the statement an equivalence.

What the faults of a style file are is stated about its bytes: there are none, they are no text, the
text is no style file, or a value in it is wrong and cannot be shown.  How the text is read, and how
deep values may be nested, are matters of the reader and of its stack, which are the same in the run
and in the statement.
-/
import SmartEnter.CommandLine.Options
import SmartEnter.Proofs.CommandLine.Values
import SmartEnter.Proofs.Language.Builtin
import SmartEnter.Proofs.Text.Utf8

namespace SmartEnter

namespace Registry

theorem mem_builtin_of_forFilename {name : String} {language : Language}
    (h : builtin.forFilename name = some language) : language ∈ Language.builtin := by
  unfold forFilename at h
  split at h
  · cases h
  · exact List.mem_of_find?_eq_some h

end Registry

namespace CommandLine

open Text (Utf8.encode Utf8.decode)

variable {fs : FileSystem} {a : Arguments} {o : Options} {p : Path} {s : Style.Settings}

/-! ## 1. The language

A language is found among the built-in ones or it is reported that there is none. -/

theorem mem_builtin_of_chooseLanguage {id : Argument String} {language : Language}
    (h : chooseLanguage id p = .ok language) : language ∈ Language.builtin := by
  unfold chooseLanguage at h
  split at h
  · next id _ =>
    cases hget : Registry.builtin.get? id with
    | none => rw [hget] at h; cases h
    | some found =>
      rw [hget] at h
      cases h
      exact List.mem_of_find?_eq_some hget
  · cases hname : Registry.builtin.forFilename (String.ofList p.name) with
    | none => rw [hname] at h; cases h
    | some found =>
      rw [hname] at h
      cases h
      exact Registry.mem_builtin_of_forFilename hname

variable [Style.Stack]

/-- What is wrong with a language is reported: an id that nobody knows, or a file name that no
language goes with. -/
theorem not_unreported_chooseLanguage {id : Argument String} :
    ¬Unreported (chooseLanguage id p) := by
  unfold chooseLanguage
  split
  · split <;> simp [Problem.report?]
  · split <;> simp [Problem.report?]

/-! ## 2. The settings

Three questions are asked of the style file, and each of them may end the reading without a report:
whether there is one, what its bytes say, and what is in the table. -/

/-- The table of the style file at a path; a file that is not there is an empty one.  The settings
are read from it without another look at the file. -/
def styleAt (fs : FileSystem) (p : Path) : Except Problem Style.Table :=
  match fs.file? p with
  | .ok (some bytes) => styleTable bytes
  | .ok none => .ok []
  | .error f => .error (.styleAccess f p)

theorem readSettings_eq : readSettings fs p =
    styleAt fs p >>= fun table => (Style.Settings.ofTable table).mapError .setting := by
  unfold readSettings styleAt
  cases fs.file? p with
  | error f => rfl
  | ok found => cases found <;> rfl

theorem exists_ofTable_of_readSettings (h : readSettings fs p = .ok s) :
    ∃ table, Style.Settings.ofTable table = .ok s := by
  rw [readSettings_eq] at h
  obtain ⟨table, -, h⟩ := exists_of_bind_eq_ok h
  cases htable : Style.Settings.ofTable table with
  | error e => rw [htable] at h; cases h
  | ok settings =>
    rw [htable] at h
    cases h
    exact ⟨table, htable⟩

/-- What is wrong with a style file that nobody is told of: nobody can tell whether there is one, or
it cannot be opened; it is no text; it is no style file, or nested deeper than it can be read; or a
wrong value in it cannot be shown.  The cases exclude one another, for they follow the stages of
reading. -/
inductive StyleFault (fs : FileSystem) (p : Path) : Prop where
  | access {f : AccessFailure} (h : fs.file? p = .error f)
  | encoding {bytes : List UInt8} (h : fs.file? p = .ok (some bytes))
      (hbytes : ∀ s, Utf8.encode s ≠ bytes)
  | form {s : List Char} {f : Style.Toml.Failure} (h : fs.file? p = .ok (some (Utf8.encode s)))
      (hread : Style.Toml.read s = .error f)
  | value {s : List Char} {table : Style.Table} {e : Style.SettingError}
      (h : fs.file? p = .ok (some (Utf8.encode s))) (hread : Style.Toml.read s = .ok table)
      (htable : Style.Settings.ofTable table = .error e) (he : e.fault.isWritable = false)

theorem styleTable_encode (s : List Char) : styleTable (Utf8.encode s) =
    (Style.Toml.read s).mapError fun
      | .malformed => .styleSyntax
      | .tooDeep => .styleDepth
      | .integer failure => .integer failure := by
  unfold styleTable
  rw [Text.Utf8.decode_eq_ok_iff.2 rfl]
  rfl

/-- Bytes that are no text, or a text that is no style file, are not reported. -/
theorem unreported_styleTable_iff {bytes : List UInt8} : Unreported (styleTable bytes) ↔
    (∀ s, Utf8.encode s ≠ bytes) ∨
      ∃ s f, bytes = Utf8.encode s ∧ Style.Toml.read s = .error f := by
  cases hdecode : Utf8.decode bytes with
  | error f =>
    have hno : ∀ s, Utf8.encode s ≠ bytes := by
      intro s hs
      rw [Text.Utf8.decode_eq_ok_iff.2 hs] at hdecode
      cases hdecode
    refine iff_of_true ⟨.styleEncoding f, ?_, rfl⟩ (.inl hno)
    rw [styleTable, hdecode]
    rfl
  | ok s =>
    obtain rfl := Text.Utf8.decode_eq_ok_iff.1 hdecode
    rw [styleTable_encode]
    constructor
    · rintro ⟨problem, h, -⟩
      cases hread : Style.Toml.read s with
      | ok table => rw [hread] at h; cases h
      | error f => exact .inr ⟨s, f, rfl, hread⟩
    · rintro (hno | ⟨s', f, heq, hread⟩)
      · exact absurd rfl (hno s)
      · have hs : Utf8.decode (Utf8.encode s') = .ok s' := Text.Utf8.decode_eq_ok_iff.2 rfl
        rw [← heq, hdecode] at hs
        cases hs
        rw [hread]
        cases f <;> exact ⟨_, rfl, rfl⟩

theorem styleAt_eq_ok {table : Style.Table} (h : styleAt fs p = .ok table) :
    table = [] ∨ ∃ s, fs.file? p = .ok (some (Utf8.encode s)) ∧ Style.Toml.read s = .ok table := by
  unfold styleAt at h
  split at h
  · next bytes hread =>
    cases hdecode : Utf8.decode bytes with
    | error f =>
      rw [styleTable, hdecode] at h
      cases h
    | ok s =>
      obtain rfl := Text.Utf8.decode_eq_ok_iff.1 hdecode
      rw [styleTable_encode] at h
      cases htoml : Style.Toml.read s with
      | error f => rw [htoml] at h; cases h
      | ok table' =>
        rw [htoml] at h
        cases h
        exact .inr ⟨s, hread, htoml⟩
  · cases h
    exact .inl rfl
  · cases h

theorem styleAt_encode {s : List Char} (h : fs.file? p = .ok (some (Utf8.encode s))) :
    styleAt fs p = styleTable (Utf8.encode s) := by
  rw [styleAt, h]

theorem unreported_setting_iff {table : Style.Table} :
    Unreported ((Style.Settings.ofTable table).mapError .setting) ↔
      ∃ e, Style.Settings.ofTable table = .error e ∧ e.fault.isWritable = false := by
  cases Style.Settings.ofTable table with
  | ok s => simp [Except.mapError]
  | error e => simp [Except.mapError, Problem.report?]

/-- **What is wrong with a style file is reported**, but for the faults above.  All that remains to
be reported is a wrong value that can be shown. -/
theorem unreported_readSettings_iff : Unreported (readSettings fs p) ↔ StyleFault fs p := by
  rw [readSettings_eq, unreported_bind]
  constructor
  · rintro (h | ⟨table, htable, h⟩)
    · unfold styleAt at h
      split at h
      · next bytes hread =>
        rcases unreported_styleTable_iff.1 h with hno | ⟨s, f, rfl, htoml⟩
        · exact .encoding hread hno
        · exact .form hread htoml
      · exact absurd h not_unreported_ok
      · next f hread => exact .access hread
    · obtain ⟨e, he, hwritable⟩ := unreported_setting_iff.1 h
      rcases styleAt_eq_ok htable with rfl | ⟨s, hread, htoml⟩
      · cases he
      · exact .value hread htoml he hwritable
  · intro h
    cases h with
    | access hread => exact .inl ⟨.styleAccess _ p, by rw [styleAt, hread], rfl⟩
    | encoding hread hno =>
      rw [styleAt, hread]
      exact .inl (unreported_styleTable_iff.2 (.inl hno))
    | form hread htoml =>
      rw [styleAt_encode hread]
      exact .inl (unreported_styleTable_iff.2 (.inr ⟨_, _, rfl, htoml⟩))
    | value hread htoml he hwritable =>
      rw [styleAt_encode hread, styleTable_encode, htoml]
      exact .inr ⟨_, rfl, unreported_setting_iff.2 ⟨_, he, hwritable⟩⟩

omit [Style.Stack] in
theorem withTabWidth_value (n : Int) : withTabWidth s (.value n) =
    if n ≤ 0 then .error (.argument (.tabWidth n)) else .ok { s with tabWidth := n } := rfl

theorem unreported_withTabWidth_iff {width : Argument Int} :
    Unreported (withTabWidth s width) ↔ width = .bare := by
  cases width with
  | absent => simp [withTabWidth]
  | bare => simp [withTabWidth, Problem.report?]
  | value n =>
    rw [withTabWidth_value]
    split <;> simp [Problem.report?]

omit [Style.Stack] in
theorem positive_of_withTabWidth {width : Argument Int} {s' : Style.Settings} (hs : s.Positive)
    (h : withTabWidth s width = .ok s') : s'.Positive := by
  cases width with
  | absent => exact Except.ok.inj h ▸ hs
  | bare => cases h
  | value n =>
    rw [withTabWidth_value] at h
    split at h
    · cases h
    · next hn =>
      cases h
      exact ⟨hs.options, Int.not_le.1 hn⟩

/-! ## 3. The place

The place is the last thing to be found out, and it is the same question as for the argument alone,
but for an option that was left bare. -/

/-- What is wrong with a place is reported, unless there is none, or its digits make up no
number. -/
theorem unreported_choosePlace_iff {place : Option String} :
    Unreported (choosePlace place) ↔ place = none ∨ ∃ s, place = some s ∧ NoPlace s := by
  cases place with
  | none => simp [choosePlace, Problem.report?]
  | some s =>
    rw [choosePlace, unreported_ofString_iff]
    simp

omit [Style.Stack] in
theorem isWritable_of_choosePlace {place : Option String} {found : Place}
    (h : choosePlace place = .ok found) : found.IsWritable := by
  cases place with
  | none => cases h
  | some s => exact Place.isWritable_of_ofString h

/-! ## 4. All options

Put together, the steps give the options or the first fault. -/

/-- The options are found out one after the other.  This is how `Options.of` reads as steps to which
the law for two steps applies. -/
theorem Options.of_eq : Options.of fs a =
    readSettings fs (stylePath a.config (Path.ofString a.input)) >>= fun s =>
      withTabWidth s a.tabWidth >>= fun settings =>
        chooseLanguage a.language (Path.ofString a.input) >>= fun language =>
          choosePlace a.place >>= fun place =>
            .ok ⟨Path.ofString a.input, (given a.output).map Path.ofString, place, language,
              settings, a.readOnly⟩ := rfl

/-- What the options of a run come from.  There is one field for each option, and the order of the
steps does not show any more. -/
structure Options.From (o : Options) (fs : FileSystem) (a : Arguments) : Prop where
  input : o.input = Path.ofString a.input
  output : o.output = (given a.output).map Path.ofString
  readOnly : o.readOnly = a.readOnly
  place : choosePlace a.place = .ok o.place
  language : chooseLanguage a.language o.input = .ok o.language
  settings : ∃ s, readSettings fs (stylePath a.config o.input) = .ok s ∧
    withTabWidth s a.tabWidth = .ok o.settings

theorem Options.of_eq_ok_iff : Options.of fs a = .ok o ↔ o.From fs a := by
  constructor
  · intro h
    rw [Options.of_eq] at h
    obtain ⟨s, hs, h⟩ := exists_of_bind_eq_ok h
    obtain ⟨settings, hsettings, h⟩ := exists_of_bind_eq_ok h
    obtain ⟨language, hlanguage, h⟩ := exists_of_bind_eq_ok h
    obtain ⟨place, hplace, h⟩ := exists_of_bind_eq_ok h
    cases h
    exact ⟨rfl, rfl, rfl, hplace, hlanguage, s, hs, hsettings⟩
  · rintro ⟨hinput, houtput, hreadOnly, hplace, hlanguage, s, hs, hsettings⟩
    rw [hinput] at hlanguage hs
    rw [Options.of_eq, hs]
    obtain ⟨input, output, place, language, settings, readOnly⟩ := o
    dsimp only at *
    subst hinput houtput hreadOnly
    simp [bind, Except.bind, hsettings, hlanguage, hplace]

namespace Options.From

theorem positive (h : o.From fs a) : o.settings.Positive := by
  obtain ⟨s, hs, hsettings⟩ := h.settings
  obtain ⟨table, htable⟩ := exists_ofTable_of_readSettings hs
  exact positive_of_withTabWidth (Style.Settings.positive_of_ofTable htable) hsettings

theorem mem_builtin (h : o.From fs a) : o.language ∈ Language.builtin :=
  mem_builtin_of_chooseLanguage h.language

/-- The language opens its comments within a line, as all built-in ones do. -/
theorem newline_not_mem (h : o.From fs a) : '\n' ∉ o.language.commentLead :=
  (Language.lawful_of_mem_builtin h.mem_builtin).lead_inLine.1

theorem isWritable (h : o.From fs a) : o.place.IsWritable := isWritable_of_choosePlace h.place

end Options.From

/-- What is wrong with the options that nobody is told of: the style file; behind it, a tab width
without a value; and behind both and the language, a place that is missing or has digits that make
up no number.  A language is never among the faults, but has to be found for the place to be looked
at. -/
inductive OptionFault (fs : FileSystem) (a : Arguments) : Prop where
  | style (h : StyleFault fs (stylePath a.config (Path.ofString a.input)))
  | tabWidth {s : Style.Settings}
      (hs : readSettings fs (stylePath a.config (Path.ofString a.input)) = .ok s)
      (h : a.tabWidth = .bare)
  | place {s settings : Style.Settings} {language : Language}
      (hs : readSettings fs (stylePath a.config (Path.ofString a.input)) = .ok s)
      (hsettings : withTabWidth s a.tabWidth = .ok settings)
      (hlanguage : chooseLanguage a.language (Path.ofString a.input) = .ok language)
      (h : a.place = none ∨ ∃ s, a.place = some s ∧ NoPlace s)

/-- **What is wrong with the options is reported**, but for the faults above.  The proof takes the
steps apart from the first to the last. -/
theorem unreported_of_iff : Unreported (Options.of fs a) ↔ OptionFault fs a := by
  rw [Options.of_eq, unreported_bind, unreported_readSettings_iff]
  simp only [unreported_bind, unreported_withTabWidth_iff, unreported_choosePlace_iff,
    not_unreported_chooseLanguage, not_unreported_ok, false_or, and_false, exists_false, or_false]
  constructor
  · rintro (h | ⟨s, hs, h | ⟨settings, hsettings, language, hlanguage, h⟩⟩)
    · exact .style h
    · exact .tabWidth hs h
    · exact .place hs hsettings hlanguage h
  · rintro (h | ⟨hs, h⟩ | ⟨hs, hsettings, hlanguage, h⟩)
    · exact .inl h
    · exact .inr ⟨_, hs, .inl h⟩
    · exact .inr ⟨_, hs, .inr ⟨_, hsettings, _, hlanguage, h⟩⟩

end CommandLine

end SmartEnter
