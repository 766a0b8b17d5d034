/-
# Settings that are accepted

A style table is accepted if no known key has a wrong value.  The widths of the settings are then
positive, for all languages and for each one that has a table of its own
(`Settings.positive_of_ofTable`): where a key is missing, a positive width stands in for it, and a
value is taken only if it is positive (`positive_of_setting`).

There is no upper bound on a width.  What a width that is too great leads to is seen only when a
level is put in (`Enter.Decision.of_eq_error_iff`) or when the caret is reported.

The settings are read in steps of which any may fail, and the lemmas at the start take such steps
apart.
-/
import SmartEnter.Proofs.Indent.Level
import SmartEnter.Style.Settings

namespace SmartEnter

/-- A computation in two steps has a value only if both steps have one. -/
theorem exists_of_bind_eq_ok {ε α β : Type} {x : Except ε α} {f : α → Except ε β} {b : β}
    (h : x >>= f = .ok b) : ∃ a, x = .ok a ∧ f a = .ok b := by
  cases x with
  | error e => cases h
  | ok a => exact ⟨a, rfl, h⟩

/-- A computation in two steps fails in one of them: in the first, or in the second with the value
of the first. -/
theorem cases_of_bind_eq_error {ε α β : Type} {x : Except ε α} {f : α → Except ε β} {e : ε}
    (h : x >>= f = .error e) : x = .error e ∨ ∃ a, x = .ok a ∧ f a = .error e := by
  cases x with
  | error e' =>
    cases h
    exact .inl rfl
  | ok a => exact .inr ⟨a, rfl, h⟩

theorem exists_of_mem_mapM {ε α β : Type} {f : α → Except ε β} {l : List α} {l' : List β} {b : β}
    (h : l.mapM f = .ok l') (hb : b ∈ l') : ∃ a ∈ l, f a = .ok b := by
  induction l generalizing l' with
  | nil =>
    rw [List.mapM_nil] at h
    cases h
    cases hb
  | cons a l ih =>
    rw [List.mapM_cons] at h
    obtain ⟨first, hfirst, h⟩ := exists_of_bind_eq_ok h
    obtain ⟨rest, hrest, h⟩ := exists_of_bind_eq_ok h
    cases h
    rcases List.mem_cons.1 hb with rfl | hb
    · exact ⟨a, List.mem_cons_self, hfirst⟩
    · obtain ⟨x, hx, hfx⟩ := ih hrest hb
      exact ⟨x, List.mem_cons_of_mem a hx, hfx⟩

/-- A list fails at its first member that does, so all members before it have a value.  What stands
behind it is not looked at. -/
theorem exists_of_mapM_eq_error {ε α β : Type} {f : α → Except ε β} {l : List α} {e : ε}
    (h : l.mapM f = .error e) :
    ∃ before a behind, l = before ++ a :: behind ∧ (∃ l', before.mapM f = .ok l') ∧
      f a = .error e := by
  induction l with
  | nil =>
    rw [List.mapM_nil] at h
    cases h
  | cons a l ih =>
    rw [List.mapM_cons] at h
    rcases cases_of_bind_eq_error h with h | ⟨first, hfirst, h⟩
    · exact ⟨[], a, l, rfl, ⟨[], List.mapM_nil⟩, h⟩
    · rcases cases_of_bind_eq_error h with h | ⟨rest, -, h⟩
      · obtain ⟨before, x, behind, rfl, ⟨l', hl'⟩, hx⟩ := ih h
        refine ⟨a :: before, x, behind, rfl, ⟨first :: l', ?_⟩, hx⟩
        rw [List.mapM_cons, hfirst, hl']
        rfl
      · cases h

namespace Style

variable {table : Table} {path key : String}

theorem mem_of_lookup {α : Type} {l : List (String × α)} {a : α} (h : l.lookup key = some a) :
    (key, a) ∈ l := by
  obtain ⟨before, behind, rfl, -⟩ := List.lookup_eq_some_iff.1 h
  exact List.mem_append_right before List.mem_cons_self

/-! ## 1. One value

A width is read as it stands in the table, or taken over from the layer below.  It is positive in
both cases. -/

theorem positive_of_readPositive {v : Value} {n : Int} (h : readPositive v = .ok n) : 0 < n := by
  rw [readPositive.eq_def] at h
  split at h
  · split at h
    · next hn =>
      cases h
      exact hn
    · cases h
  · cases h

/-- The value of a key is the one that stands in for it, or one that was read. -/
theorem setting_cases {α : Type} {base x : α} {read : Value → Except Fault α}
    (h : setting table path key base read = .ok x) :
    table.lookup key = none ∧ x = base ∨ ∃ v, table.lookup key = some v ∧ read v = .ok x := by
  rw [setting] at h
  split at h
  · next hnone =>
    cases h
    exact .inl ⟨hnone, rfl⟩
  · next v hsome =>
    cases hv : read v with
    | error fault =>
      rw [hv] at h
      cases h
    | ok y =>
      rw [hv] at h
      cases h
      exact .inr ⟨v, hsome, hv⟩

theorem positive_of_setting {base n : Int} (hbase : 0 < base)
    (h : setting table path key base readPositive = .ok n) : 0 < n := by
  rcases setting_cases h with ⟨-, rfl⟩ | ⟨v, -, hv⟩
  · exact hbase
  · exact positive_of_readPositive hv

/-! ## 2. Options

The options of a layer are three settings, and the tables of the languages are layers on those for
all languages. -/

theorem positive_of_layer {base options : Indent.Options} (hbase : base.Positive)
    (h : layer base table path = .ok options) : options.Positive := by
  obtain ⟨useTabs, -, h⟩ := exists_of_bind_eq_ok h
  obtain ⟨size, hsize, h⟩ := exists_of_bind_eq_ok h
  obtain ⟨tabSize, htabSize, h⟩ := exists_of_bind_eq_ok h
  cases h
  exact ⟨positive_of_setting hbase.size hsize, positive_of_setting hbase.tabSize htabSize⟩

/-- A field of `indent` is the table of a language, or it is none and left out. -/
theorem override_cases {defaults : Indent.Options} {v : Value}
    {found : Option (String × Indent.Options)}
    (h : override defaults (key, v) = .ok found) :
    (∃ fields options, v = .table fields ∧ layer defaults fields ("indent." ++ key) = .ok options ∧
      found = some (key, options)) ∨ (∀ fields, v ≠ .table fields) ∧ found = none := by
  rw [override.eq_def] at h
  split at h
  · next heq =>
    cases heq
    obtain ⟨options, hoptions, h⟩ := exists_of_bind_eq_ok h
    cases h
    exact .inl ⟨_, options, rfl, hoptions, rfl⟩
  · next hne =>
    cases h
    exact .inr ⟨fun fields hv => hne key fields (by rw [hv]), rfl⟩

theorem positive_of_override {defaults options : Indent.Options} {field : String × Value}
    {language : String} (hdefaults : defaults.Positive)
    (h : override defaults field = .ok (some (language, options))) : options.Positive := by
  rcases override_cases h with ⟨t, layered, -, hlayered, heq⟩ | ⟨-, heq⟩
  · cases heq
    exact positive_of_layer hdefaults hlayered
  · cases heq

namespace Settings

/-- All widths of the settings are positive: those of the options for every language, with a table
of its own or without one, and the tab width of the editor. -/
structure Positive (s : Settings) : Prop where
  options (language : String) : (s.optionsFor language).Positive
  tabWidth : 0 < s.tabWidth

theorem positive_default : ({} : Settings).Positive where
  options _ := Indent.Options.positive_default
  tabWidth := by decide

/-- **Accepted settings have positive widths.**  A language without a table of its own has the
options for all languages. -/
theorem positive_of_ofTable {s : Settings} (h : ofTable table = .ok s) : s.Positive := by
  obtain ⟨defaults, hdefaults, h⟩ := exists_of_bind_eq_ok h
  obtain ⟨overrides, hoverrides, h⟩ := exists_of_bind_eq_ok h
  obtain ⟨tabWidth, htabWidth, h⟩ := exists_of_bind_eq_ok h
  obtain ⟨formatters, -, h⟩ := exists_of_bind_eq_ok h
  cases h
  have hbase := positive_of_layer Indent.Options.positive_default hdefaults
  refine ⟨fun language => ?_, positive_of_setting positive_default.tabWidth htabWidth⟩
  rw [optionsFor]
  cases hlookup : (overrides.filterMap id).lookup language with
  | none => exact hbase
  | some options =>
    -- the options are those of a field that is a table
    obtain ⟨entry, hentry, rfl⟩ := List.mem_filterMap.1 (mem_of_lookup hlookup)
    obtain ⟨field, -, hfield⟩ := exists_of_mem_mapM hoverrides hentry
    exact positive_of_override hbase hfield

end Settings

end Style

end SmartEnter
