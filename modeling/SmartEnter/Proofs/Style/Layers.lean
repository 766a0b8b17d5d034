/-
# What a style table says

A style table has a few keys that count, each at a path of its own and with values of its own
(`Recognised`).  A table is refused exactly if one of these keys holds a wrong value (`Wrong`), and
the error names such a key (`exists_error_iff`, `wrong_of_ofTable_eq_error`).

The options of a language come in layers: each field has the value in the table of the language, or
else the one in `indent`, or else the one that stands in for both (`Settings.Layered`).  The layers
of all three fields are read by one function, so what is said of it is said once for every field
(`layer_field`, `layer_fault`).

A key under `indent` may be a field or a language, and only its value tells which: a table is taken
for a language, also where the key is that of a field.  So `indent.tab_size.tab_size` is a key that
counts, for a language named `tab_size`, while the table itself is a wrong value of
`indent.tab_size`.

An error can be reported only if the value that it shows can be written.  What an error shows is
part of the value of the key (`Fault.Describes`), so it can be written if that value can
(`Fault.Describes.isWritable`).
-/
import SmartEnter.Proofs.Style.Accepted

namespace SmartEnter.Style

/-! ## 1. Recognised keys

Keys, the values that they may hold, and what is said of a value that is not one of them. -/

/-- The value at a path of keys, all of which but the last one lead to tables.  A key that is
missing on the way, or leads to no table, counts as an empty table. -/
def Table.at? : Table → List String → Option Value
  | _, [] => none
  | table, [key] => table.lookup key
  | table, key :: next :: rest => at? (sectionOf table key) (next :: rest)

def IsBoolean (v : Value) : Prop := ∃ b, v = .bool b

/-- A whole number above zero.  A truth value is none. -/
def IsPositive (v : Value) : Prop := ∃ n, 0 < n ∧ v = .int n

def IsIdList (v : Value) : Prop := v = .null ∨ ∃ ids : List String, v = .list (ids.map .string)

inductive Field where
  | useTabs
  | size
  | tabSize

namespace Field

def key : Field → String
  | useTabs => "use_tab_char"
  | size => "indent_size"
  | tabSize => "tab_size"

def Accepts : Field → Value → Prop
  | useTabs => IsBoolean
  | size | tabSize => IsPositive

def get (options : Indent.Options) : Field → Value
  | useTabs => .bool options.useTabs
  | size => .int options.size
  | tabSize => .int options.tabSize

theorem eq_of_get {o o' : Indent.Options} (h : ∀ f, get o f = get o' f) : o = o' := by
  obtain ⟨useTabs, size, tabSize⟩ := o
  obtain ⟨useTabs', size', tabSize'⟩ := o'
  cases h .useTabs
  cases h .size
  cases h .tabSize
  rfl

end Field

/-- The paths of the keys that count, with the values that they may hold.  A key that stands at any
other path is passed over. -/
inductive Recognised : List String → (Value → Prop) → Prop where
  | general (f : Field) : Recognised ["indent", f.key] f.Accepts
  | language (id : String) (f : Field) : Recognised ["indent", id, f.key] f.Accepts
  | tabWidth : Recognised ["editor", "tab_width"] IsPositive
  | formatters : Recognised ["formatters", "languages"] IsIdList

/-- A key that counts holds a wrong value.  A key that is missing holds none, so it is never
wrong. -/
def Wrong (table : Table) (path : List String) (v : Value) : Prop :=
  ∃ accepts, Recognised path accepts ∧ table.at? path = some v ∧ ¬accepts v

/-- What is said of a wrong value.  The value itself is shown where a width was expected, and the
first item that is no id where a list of ids was. -/
inductive Fault.Describes : Fault → Value → Prop where
  | notBoolean {v : Value} (h : ¬IsBoolean v) : Describes .notBoolean v
  | notPositive {v : Value} (h : ¬IsPositive v) : Describes (.notPositive v) v
  | notIdList {v : Value} (h : ∀ items, v ≠ .list items) : Describes .notIdList v
  | notId {ids : List String} {item : Value} {rest : List Value} (h : ∀ s, item ≠ .string s) :
      Describes (.notId item) (.list (ids.map .string ++ item :: rest))

variable {table fields : Table} {path key : String} {v : Value}

theorem fits_of_mem {items : List Value} (h : itemsFit items = true) (hv : v ∈ items) :
    v.fits = true := by
  induction items with
  | nil => cases hv
  | cons first rest ih =>
    rw [itemsFit, Bool.and_eq_true] at h
    rcases List.mem_cons.1 hv with rfl | hv
    · exact h.1
    · exact ih h.2 hv

/-- The items of a list that can be written can be written, too. -/
theorem isWritable_of_mem [Stack] {items : List Value} (h : (Value.list items).isWritable = true)
    (hv : v ∈ items) : v.isWritable = true := by
  rw [Value.isWritable, Bool.and_eq_true] at h ⊢
  exact ⟨Stack.shows_of_mem items v h.1 hv, fits_of_mem h.2 hv⟩

/-- A value that can be written can be reported: what is shown is the value or an item of it. -/
theorem Fault.Describes.isWritable [Stack] {f : Fault} (h : f.Describes v)
    (hv : v.isWritable = true) : f.isWritable = true := by
  cases h with
  | notBoolean _ => rfl
  | notPositive _ => exact hv
  | notIdList _ => rfl
  | notId _ => exact isWritable_of_mem hv (List.mem_append_right _ List.mem_cons_self)

/-! ## 2. Reading one value

There are three readers, one for each kind of value that a key may hold. -/

/-- A reader of values takes those that it accepts, and tells what is wrong with the others.  Every
reader of settings is one, and the two lemmas for a key need no more. -/
structure Reads {α : Type} (read : Value → Except Fault α) (good : Value → Prop) : Prop where
  accepts {v : Value} {x : α} : read v = .ok x → good v
  rejects {v : Value} {f : Fault} : read v = .error f → ¬good v ∧ f.Describes v

theorem readBoolean_eq_ok {b : Bool} (h : readBoolean v = .ok b) : v = .bool b := by
  rw [readBoolean.eq_def] at h
  split at h
  · cases h
    rfl
  · cases h

theorem reads_boolean : Reads readBoolean IsBoolean where
  accepts h := ⟨_, readBoolean_eq_ok h⟩
  rejects {v f} h := by
    have hv : ¬IsBoolean v := by
      rintro ⟨b, rfl⟩
      cases h
    rw [readBoolean.eq_def] at h
    split at h
    · cases h
    · cases h
      exact ⟨hv, .notBoolean hv⟩

theorem readPositive_eq_ok {n : Int} (h : readPositive v = .ok n) : v = .int n := by
  rw [readPositive.eq_def] at h
  split at h
  · split at h
    · cases h
      rfl
    · cases h
  · cases h

theorem reads_positive : Reads readPositive IsPositive where
  accepts h := ⟨_, positive_of_readPositive h, readPositive_eq_ok h⟩
  rejects {v f} h := by
    have hv : ¬IsPositive v := by
      rintro ⟨n, hn, rfl⟩
      rw [readPositive, if_pos hn] at h
      cases h
    refine ⟨hv, ?_⟩
    rw [readPositive.eq_def] at h
    split at h
    · split at h
      · cases h
      · cases h
        exact .notPositive hv
    · cases h
      exact .notPositive hv

theorem mapM_readId_eq_ok {items : List Value} {ids : List String}
    (h : items.mapM readId = .ok ids) : items = ids.map .string := by
  induction items generalizing ids with
  | nil =>
    rw [List.mapM_nil] at h
    cases h
    rfl
  | cons item items ih =>
    rw [List.mapM_cons] at h
    obtain ⟨s, hs, h⟩ := exists_of_bind_eq_ok h
    obtain ⟨rest, hrest, h⟩ := exists_of_bind_eq_ok h
    cases h
    rw [readId.eq_def] at hs
    split at hs
    · cases hs
      rw [ih hrest, List.map_cons]
    · cases hs

theorem readIds_eq_ok {ids : List String} (h : readIds v = .ok ids) :
    v = .list (ids.map .string) ∨ v = .null ∧ ids = [] := by
  rw [readIds.eq_def] at h
  split at h
  · cases h
    exact .inr ⟨rfl, rfl⟩
  · exact .inl (congrArg Value.list (mapM_readId_eq_ok h))
  · cases h

theorem reads_ids : Reads readIds IsIdList where
  accepts h := by
    rcases readIds_eq_ok h with h | ⟨h, -⟩
    · exact .inr ⟨_, h⟩
    · exact .inl h
  rejects {v f} h := by
    rw [readIds.eq_def] at h
    split at h
    case h_1 => cases h
    case h_2 items =>
      obtain ⟨before, item, behind, rfl, ⟨ids, hids⟩, hitem⟩ := exists_of_mapM_eq_error h
      obtain rfl := mapM_readId_eq_ok hids
      have hne : ∀ s, item ≠ .string s := by
        rintro s rfl
        cases hitem
      rw [readId.eq_def] at hitem
      split at hitem
      · cases hitem
      · cases hitem
        refine ⟨?_, .notId hne⟩
        rintro (hnull | ⟨ids', heq⟩)
        · cases hnull
        · have hmem : item ∈ ids'.map Value.string := by
            rw [← Value.list.inj heq]
            exact List.mem_append_right _ List.mem_cons_self
          obtain ⟨s, -, hs⟩ := List.mem_map.1 hmem
          exact hne s hs.symm
    case h_3 hnull hlist =>
      cases h
      refine ⟨?_, .notIdList hlist⟩
      rintro (hv | ⟨ids, hv⟩)
      · exact hnull hv
      · exact hlist _ hv

/-! ## 3. Reading one key

A key is looked up, and what it holds is read; if it is missing, another value stands in for it.
What is known of the reader carries over to the key. -/

theorem accepts_of_setting {α : Type} {read : Value → Except Fault α} {good : Value → Prop}
    {base x : α} (hread : Reads read good) (h : setting table path key base read = .ok x)
    (hv : table.lookup key = some v) : good v := by
  rcases setting_cases h with ⟨hnone, -⟩ | ⟨v', hsome, hx⟩
  · rw [hv] at hnone
    cases hnone
  · rw [hv] at hsome
    cases hsome
    exact hread.accepts hx

/-- A key has the value in the table, or else the one that stands in for it. -/
theorem value_of_setting {α : Type} {read : Value → Except Fault α} {toValue : α → Value}
    {base x : α} (hread : ∀ {v x}, read v = .ok x → v = toValue x)
    (h : setting table path key base read = .ok x) :
    toValue x = (table.lookup key).getD (toValue base) := by
  rcases setting_cases h with ⟨hnone, rfl⟩ | ⟨v, hsome, hx⟩
  · rw [hnone]
    rfl
  · rw [hsome]
    exact (hread hx).symm

/-- The error about a key names it and describes its value. -/
theorem fault_of_setting {α : Type} {read : Value → Except Fault α} {good : Value → Prop}
    {base : α} {e : SettingError} (hread : Reads read good)
    (h : setting table path key base read = .error e) :
    ∃ v, table.lookup key = some v ∧ ¬good v ∧ e.key = path ++ "." ++ key ∧
      e.fault.Describes v := by
  rw [setting] at h
  cases hv : table.lookup key with
  | none =>
    rw [hv] at h
    cases h
  | some v =>
    rw [hv] at h
    change (read v).mapError _ = .error e at h
    cases hfault : read v with
    | ok x =>
      rw [hfault] at h
      cases h
    | error f =>
      rw [hfault] at h
      cases h
      obtain ⟨hwrong, hdescribes⟩ := hread.rejects hfault
      exact ⟨v, rfl, hwrong, rfl, hdescribes⟩

/-! ## 4. One layer

A layer reads its three fields in turn, and it ends with the first that fails.  Both lemmas are
about any one of the fields. -/

/-- **A layer takes a field from its table** if the field is there, and it is then one that is
accepted. -/
theorem layer_field {base options : Indent.Options} (h : layer base table path = .ok options)
    (f : Field) : (∀ v, table.lookup f.key = some v → f.Accepts v) ∧
      f.get options = (table.lookup f.key).getD (f.get base) := by
  obtain ⟨useTabs, huseTabs, h⟩ := exists_of_bind_eq_ok h
  obtain ⟨size, hsize, h⟩ := exists_of_bind_eq_ok h
  obtain ⟨tabSize, htabSize, h⟩ := exists_of_bind_eq_ok h
  cases h
  cases f with
  | useTabs =>
    exact ⟨fun _ => accepts_of_setting reads_boolean huseTabs,
      value_of_setting readBoolean_eq_ok huseTabs⟩
  | size =>
    exact ⟨fun _ => accepts_of_setting reads_positive hsize,
      value_of_setting readPositive_eq_ok hsize⟩
  | tabSize =>
    exact ⟨fun _ => accepts_of_setting reads_positive htabSize,
      value_of_setting readPositive_eq_ok htabSize⟩

/-- **A layer fails at a field** whose value is not accepted.  The error has the path of the layer
and the key of the field. -/
theorem layer_fault {base : Indent.Options} {e : SettingError}
    (h : layer base table path = .error e) :
    ∃ (f : Field) (v : Value), table.lookup f.key = some v ∧ ¬f.Accepts v ∧
      e.key = path ++ "." ++ f.key ∧ e.fault.Describes v := by
  rcases cases_of_bind_eq_error h with h | ⟨useTabs, -, h⟩
  · exact ⟨.useTabs, fault_of_setting reads_boolean h⟩
  rcases cases_of_bind_eq_error h with h | ⟨size, -, h⟩
  · exact ⟨.size, fault_of_setting reads_positive h⟩
  rcases cases_of_bind_eq_error h with h | ⟨tabSize, -, h⟩
  · exact ⟨.tabSize, fault_of_setting reads_positive h⟩
  cases h

/-! ## 5. The tables of the languages

The fields of `indent` are gone through in order, and those that are tables become options of a
language.  That keys are different is needed to find the options of a language again. -/

theorem sectionOf_of_lookup (h : table.lookup key = some (.table fields)) :
    sectionOf table key = fields := by
  rw [sectionOf, h]

theorem sectionOf_eq_nil (h : ∀ fields, table.lookup key ≠ some (.table fields)) :
    sectionOf table key = [] := by
  rw [sectionOf]
  split
  · next fields hfields => exact absurd hfields (h fields)
  · rfl

/-- A table whose keys are all different has each of its fields under its key. -/
theorem lookup_of_mem (hkeys : (table.map Prod.fst).Nodup) (h : (key, v) ∈ table) :
    table.lookup key = some v := by
  obtain ⟨before, behind, rfl⟩ := List.append_of_mem h
  rw [List.map_append, List.nodup_append] at hkeys
  refine List.lookup_eq_some_iff.2 ⟨before, behind, rfl, fun p hp => bne_iff_ne.2 (Ne.symm ?_)⟩
  exact hkeys.2.2 p.1 (List.mem_map_of_mem hp) key List.mem_cons_self

/-- A field of `indent` fails only as the table of a language. -/
theorem override_fault {defaults : Indent.Options} {e : SettingError}
    (h : override defaults (key, v) = .error e) :
    ∃ fields, v = .table fields ∧ layer defaults fields ("indent." ++ key) = .error e := by
  rw [override.eq_def] at h
  split at h
  · next heq =>
    cases heq
    rcases cases_of_bind_eq_error h with h | ⟨options, -, h⟩
    · exact ⟨_, rfl, h⟩
    · cases h
  · cases h

/-- The tables of `indent` are found again among the options of the languages, and nothing else is.
By induction over the fields, which have different keys. -/
theorem lookup_overrides {defaults : Indent.Options}
    {found : List (Option (String × Indent.Options))}
    (h : fields.mapM (override defaults) = .ok found) (hkeys : (fields.map Prod.fst).Nodup)
    (language : String) :
    (∃ t options, fields.lookup language = some (.table t) ∧
        layer defaults t ("indent." ++ language) = .ok options ∧
        (found.filterMap id).lookup language = some options) ∨
      (∀ t, fields.lookup language ≠ some (.table t)) ∧
        (found.filterMap id).lookup language = none := by
  induction fields generalizing found with
  | nil =>
    rw [List.mapM_nil] at h
    cases h
    exact .inr ⟨fun _ ht => (by cases ht), rfl⟩
  | cons field fields ih =>
    obtain ⟨key, v⟩ := field
    rw [List.mapM_cons] at h
    obtain ⟨first, hfirst, h⟩ := exists_of_bind_eq_ok h
    obtain ⟨rest, hrest, h⟩ := exists_of_bind_eq_ok h
    cases h
    rw [List.map_cons, List.nodup_cons] at hkeys
    have ih := ih hrest hkeys.2
    have hnone : (none :: rest).filterMap id = rest.filterMap id := rfl
    have hsome : ∀ p, (some p :: rest).filterMap id = p :: rest.filterMap id := fun _ => rfl
    by_cases hkey : language = key
    · subst hkey
      rw [List.lookup_cons_self]
      rcases override_cases hfirst with ⟨t, options, rfl, hoptions, rfl⟩ | ⟨hne, rfl⟩
      · exact .inl ⟨t, options, rfl, hoptions, by rw [hsome, List.lookup_cons_self]⟩
      · refine .inr ⟨fun t ht => hne t (Option.some.inj ht), ?_⟩
        rcases ih with ⟨t, _, ht, -⟩ | ⟨-, hmissing⟩
        · exact absurd (List.mem_map_of_mem (mem_of_lookup ht)) hkeys.1
        · rw [hnone, hmissing]
    · have hskip : ((key, v) :: fields).lookup language = fields.lookup language := by
        rw [List.lookup_cons, beq_eq_false_iff_ne.2 hkey]
      have hfound : ((first :: rest).filterMap id).lookup language =
          (rest.filterMap id).lookup language := by
        rcases override_cases hfirst with ⟨_, _, -, -, rfl⟩ | ⟨-, rfl⟩
        · rw [hsome, List.lookup_cons, beq_eq_false_iff_ne.2 hkey]
        · rw [hnone]
      rw [hskip, hfound]
      exact ih

/-! ## 6. All settings

Settings are made of parts, which are read one after the other.  From the parts it follows what the
values of all keys are, and from a part that fails, which key was wrong. -/

namespace Settings

variable {s : Settings} {e : SettingError}

/-- The parts that settings are read from.  The options of every language are a layer on the options
for all languages, and an empty one if the language has no table. -/
structure Parts (table : Table) (s : Settings) : Prop where
  general : layer {} (sectionOf table "indent") "indent" = .ok s.defaults
  language (id : String) : layer s.defaults (sectionOf (sectionOf table "indent") id)
    ("indent." ++ id) = .ok (s.optionsFor id)
  own (id : String) : (s.overrides.lookup id).isSome ↔
    ∃ fields, (sectionOf table "indent").lookup id = some (.table fields)
  tabWidth : setting (sectionOf table "editor") "editor" "tab_width" 4 readPositive = .ok s.tabWidth
  formatters : setting (sectionOf table "formatters") "formatters" "languages" [] readIds =
    .ok s.formatters

theorem parts_of_ofTable (hkeys : ((sectionOf table "indent").map Prod.fst).Nodup)
    (h : ofTable table = .ok s) : Parts table s := by
  obtain ⟨defaults, hdefaults, h⟩ := exists_of_bind_eq_ok h
  obtain ⟨found, hfound, h⟩ := exists_of_bind_eq_ok h
  obtain ⟨tabWidth, htabWidth, h⟩ := exists_of_bind_eq_ok h
  obtain ⟨formatters, hformatters, h⟩ := exists_of_bind_eq_ok h
  cases h
  refine ⟨hdefaults, fun id => ?_, fun id => ?_, htabWidth, hformatters⟩
  · rw [optionsFor]
    rcases lookup_overrides hfound hkeys id with ⟨t, options, ht, hoptions, hid⟩ | ⟨hne, hid⟩
    · rw [sectionOf_of_lookup ht, hid]
      exact hoptions
    · rw [sectionOf_eq_nil hne, hid]
      rfl
  · rcases lookup_overrides hfound hkeys id with ⟨t, options, ht, -, hid⟩ | ⟨hne, hid⟩
    · exact iff_of_true (by rw [hid]; rfl) ⟨t, ht⟩
    · refine iff_of_false (by rw [hid]; exact Bool.false_ne_true) ?_
      rintro ⟨t, ht⟩
      exact hne t ht

/-- Every key that counts has a value that is accepted, if settings come of the parts. -/
theorem Parts.not_wrong (hparts : Parts table s) {path : List String} (h : Wrong table path v) :
    False := by
  obtain ⟨good, hpath, hv, hwrong⟩ := h
  cases hpath with
  | general f => exact hwrong ((layer_field hparts.general f).1 v hv)
  | language id f => exact hwrong ((layer_field (hparts.language id) f).1 v hv)
  | tabWidth => exact hwrong (accepts_of_setting reads_positive hparts.tabWidth hv)
  | formatters => exact hwrong (accepts_of_setting reads_ids hparts.formatters hv)

/-- **The settings of a table.**  A field of the options of a language has the value in the table of
the language, or else the one in `indent`, or else the one that stands in for both. -/
structure Layered (table : Table) (s : Settings) : Prop where
  general (f : Field) : f.get s.defaults = (table.at? ["indent", f.key]).getD (f.get {})
  language (id : String) (f : Field) : f.get (s.optionsFor id) =
    ((table.at? ["indent", id, f.key]).or (table.at? ["indent", f.key])).getD (f.get {})
  own (id : String) : (s.overrides.lookup id).isSome ↔
    ∃ fields, table.at? ["indent", id] = some (.table fields)
  tabWidth : .int s.tabWidth = (table.at? ["editor", "tab_width"]).getD (.int 4)
  formatters : table.at? ["formatters", "languages"] = some (.list (s.formatters.map .string)) ∨
    (table.at? ["formatters", "languages"]).getD .null = .null ∧ s.formatters = []

theorem Parts.layered (hparts : Parts table s) : Layered table s where
  general f := (layer_field hparts.general f).2
  language id f := by
    rw [(layer_field (hparts.language id) f).2, (layer_field hparts.general f).2]
    exact Option.getD_or.symm
  own := hparts.own
  tabWidth := value_of_setting readPositive_eq_ok hparts.tabWidth
  formatters := by
    change (sectionOf table "formatters").lookup "languages" = _ ∨
      ((sectionOf table "formatters").lookup "languages").getD .null = .null ∧ _
    rcases setting_cases hparts.formatters with ⟨hnone, hids⟩ | ⟨v, hv, hids⟩
    · rw [hnone]
      exact .inr ⟨rfl, hids⟩
    · rw [hv]
      rcases readIds_eq_ok hids with rfl | ⟨rfl, hempty⟩
      · exact .inl rfl
      · exact .inr ⟨rfl, hempty⟩

/-- **The error names a key with a wrong value**, and it describes that value.  It is the first one
in the order in which the keys are read. -/
theorem wrong_of_ofTable_eq_error (hkeys : ((sectionOf table "indent").map Prod.fst).Nodup)
    (h : ofTable table = .error e) :
    ∃ path v, Wrong table path v ∧ e.key = ".".intercalate path ∧ e.fault.Describes v := by
  rcases cases_of_bind_eq_error h with h | ⟨defaults, -, h⟩
  · obtain ⟨f, v, hv, hwrong, hkey, hfault⟩ := layer_fault h
    exact ⟨["indent", f.key], v, ⟨_, .general f, hv, hwrong⟩, hkey, hfault⟩
  rcases cases_of_bind_eq_error h with h | ⟨overrides, -, h⟩
  · -- The first table that fails is the one that stands under its key, as keys stand once.
    obtain ⟨before, ⟨id, w⟩, behind, hfields, -, h⟩ := exists_of_mapM_eq_error h
    obtain ⟨fields, rfl, hlayer⟩ := override_fault h
    obtain ⟨f, v, hv, hwrong, hkey, hfault⟩ := layer_fault hlayer
    have hmem : (id, Value.table fields) ∈ sectionOf table "indent" := by
      rw [hfields]
      exact List.mem_append_right before List.mem_cons_self
    have hat : table.at? ["indent", id, f.key] = some v := by
      rw [← hv, ← sectionOf_of_lookup (lookup_of_mem hkeys hmem)]
      rfl
    refine ⟨["indent", id, f.key], v, ⟨_, .language id f, hat, hwrong⟩, ?_, hfault⟩
    rw [hkey]
    rfl
  rcases cases_of_bind_eq_error h with h | ⟨tabWidth, -, h⟩
  · obtain ⟨v, hv, hwrong, hkey, hfault⟩ := fault_of_setting reads_positive h
    exact ⟨["editor", "tab_width"], v, ⟨_, .tabWidth, hv, hwrong⟩, hkey, hfault⟩
  rcases cases_of_bind_eq_error h with h | ⟨formatters, -, h⟩
  · obtain ⟨v, hv, hwrong, hkey, hfault⟩ := fault_of_setting reads_ids h
    exact ⟨["formatters", "languages"], v, ⟨_, .formatters, hv, hwrong⟩, hkey, hfault⟩
  cases h

/-- **A table is refused exactly if a key that counts holds a wrong value.**  All other keys may
hold anything. -/
theorem exists_error_iff (hkeys : ((sectionOf table "indent").map Prod.fst).Nodup) :
    (∃ e, ofTable table = .error e) ↔ ∃ path v, Wrong table path v := by
  constructor
  · rintro ⟨e, he⟩
    obtain ⟨path, v, hwrong, -⟩ := wrong_of_ofTable_eq_error hkeys he
    exact ⟨path, v, hwrong⟩
  · rintro ⟨path, v, hwrong⟩
    cases h : ofTable table with
    | error e => exact ⟨e, rfl⟩
    | ok s => exact ((parts_of_ofTable hkeys h).not_wrong hwrong).elim

end Settings

end SmartEnter.Style
