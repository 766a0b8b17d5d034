/-
# The order of keys

The fields of a table stand in some order, which says nothing.  Two orders of the same fields come
of one another by steps in which two neighbouring fields change places, in the table itself or in a
table further inside (`Value.Swap`, `Table.Reordered`).

One step changes what is found at a path only where a table or a list of tables is found
(`near_at?`), and no key that counts may hold one (`Recognised.not_good_of_swap`).  So a table and a
reordered one are refused alike, and settings that are accepted are the same ones
(`Settings.exists_alike_of_swap`).  The main statement puts this together with what a table says.

The order can be seen in two places, and both are left out of what is promised.  If more than one
key holds a wrong value, the error names the one that is read first, which for the tables of the
languages is the one that stands first.  And the settings list the languages in the order of their
tables, so settings are compared by what is found in them (`Settings.Alike`).
-/
import Mathlib.Logic.Relation
import SmartEnter.Proofs.Style.Layers

namespace SmartEnter.Style

/-- Two neighbouring fields of a table change places, somewhere in a value.  Keys stand once in a
table, so the two have different ones. -/
inductive Value.Swap : Value → Value → Prop where
  | here {before behind : Table} {p q : String × Value} (hne : p.1 ≠ q.1) :
      Swap (.table (before ++ p :: q :: behind)) (.table (before ++ q :: p :: behind))
  | field {before behind : Table} {key : String} {v v' : Value} (h : Swap v v') :
      Swap (.table (before ++ (key, v) :: behind)) (.table (before ++ (key, v') :: behind))
  | item {before behind : List Value} {v v' : Value} (h : Swap v v') :
      Swap (.list (before ++ v :: behind)) (.list (before ++ v' :: behind))

/-- A table in which the fields stand in another order, as may those of the tables in it. -/
def Table.Reordered : Table → Table → Prop :=
  Relation.ReflTransGen fun table table' => Value.Swap (.table table) (.table table')

/-- What is found in a table, and what is found in its place after a step: the same, or a value that
comes of it by a step. -/
inductive Near : Option Value → Option Value → Prop where
  | same (o : Option Value) : Near o o
  | swap {v v' : Value} (h : v.Swap v') : Near (some v) (some v')

variable {table table' : Table} {path key : String} {v v' : Value} {o o' : Option Value}

/-! ## 1. One step

What a step does to a lookup, to a part, and to a path.  Keys that count hold values that no step
can change, so for them nothing has happened. -/

theorem perm_keys_of_swap (h : Value.Swap (.table table) (.table table')) :
    (table.map Prod.fst).Perm (table'.map Prod.fst) := by
  cases h with
  | here _ =>
    rw [List.map_append, List.map_append]
    exact .append_left _ (.swap _ _ _)
  | field _ => rw [List.map_append, List.map_append, List.map_cons, List.map_cons]

/-- A step leaves the value of a key as it is, or it is a step in that value.  Two fields that
change places have different keys, so the first match for a key stays the same. -/
theorem near_lookup (h : Value.Swap (.table table) (.table table')) (key : String) :
    Near (table.lookup key) (table'.lookup key) := by
  cases h with
  | @here before behind p q hne =>
    have hswap : (p :: q :: behind).lookup key = (q :: p :: behind).lookup key := by
      obtain ⟨kp, vp⟩ := p
      obtain ⟨kq, vq⟩ := q
      rw [List.lookup_cons, List.lookup_cons, List.lookup_cons, List.lookup_cons]
      cases hp : key == kp with
      | false => rfl
      | true =>
        -- The two keys are different, so it is only one of them.
        have hq : (key == kq) = false := by
          rw [eq_of_beq hp]
          exact beq_eq_false_iff_ne.2 hne
        rw [hq]
    rw [List.lookup_append, List.lookup_append, hswap]
    exact .same _
  | @field before behind k v v' h =>
    rw [List.lookup_append, List.lookup_append]
    cases before.lookup key with
    | some w => exact .same _
    | none =>
      rw [Option.none_or, Option.none_or, List.lookup_cons, List.lookup_cons]
      cases key == k with
      | true => exact .swap h
      | false => exact .same _

theorem Near.isTable (h : Near o o') :
    (∃ fields, o = some (.table fields)) ↔ ∃ fields, o' = some (.table fields) := by
  cases h with
  | same => exact Iff.rfl
  | swap h => cases h <;> simp

/-- A step leaves a part of a table as it is, or it is a step in that part. -/
theorem sectionOf_of_swap (h : Value.Swap (.table table) (.table table')) (key : String) :
    sectionOf table key = sectionOf table' key ∨
      Value.Swap (.table (sectionOf table key)) (.table (sectionOf table' key)) := by
  have hnear := near_lookup h key
  rw [sectionOf, sectionOf]
  generalize table.lookup key = o at hnear
  generalize table'.lookup key = o' at hnear
  cases hnear with
  | same => exact .inl rfl
  | swap h =>
    cases h with
    | here hne => exact .inr (.here hne)
    | field h => exact .inr (.field h)
    | item _ => exact .inl rfl

/-- **A step leaves what is found at a path**, or it is a step in what is found there.  By induction
over the path, with one lookup for each key. -/
theorem near_at? (h : Value.Swap (.table table) (.table table')) (path : List String) :
    Near (table.at? path) (table'.at? path) := by
  fun_induction Table.at? table path generalizing table' with
  | case1 => exact .same _
  | case2 table key => exact near_lookup h key
  | case3 table key next rest ih =>
    rw [Table.at?]
    rcases sectionOf_of_swap h key with heq | hswap
    · rw [heq]
      exact .same _
    · exact ih hswap

theorem Value.Swap.symm (h : v.Swap v') : v'.Swap v := by
  induction h with
  | here hne => exact .here hne.symm
  | field _ ih => exact .field ih
  | item _ ih => exact .item ih

theorem Value.Swap.ne_string (h : v.Swap v') (s : String) : v ≠ .string s := by
  rintro rfl
  cases h

/-- **No key that counts may hold** a value in which fields can change places: all of them are truth
values, numbers or lists of ids. -/
theorem Recognised.not_good_of_swap {path : List String} {good : Value → Prop}
    (hpath : Recognised path good) (h : v.Swap v') : ¬good v := by
  have hboolean : ¬IsBoolean v := by
    rintro ⟨b, rfl⟩
    cases h
  have hpositive : ¬IsPositive v := by
    rintro ⟨n, -, rfl⟩
    cases h
  have hids : ¬IsIdList v := by
    rintro (rfl | ⟨ids, rfl⟩)
    · cases h
    · generalize hitems : ids.map Value.string = items at h
      cases h with
      | @item before behind w w' hw =>
        have hmem : w ∈ ids.map Value.string := by
          rw [hitems]
          exact List.mem_append_right before List.mem_cons_self
        obtain ⟨s, -, rfl⟩ := List.mem_map.1 hmem
        exact hw.ne_string s rfl
  cases hpath with
  | general f => cases f <;> assumption
  | language id f => cases f <;> assumption
  | tabWidth => exact hpositive
  | formatters => exact hids

/-- A key that counts and holds a wrong value holds one after a step, too. -/
theorem exists_wrong_of_swap {path : List String} (h : Value.Swap (.table table) (.table table'))
    (hwrong : Wrong table path v) : ∃ v', Wrong table' path v' := by
  obtain ⟨good, hpath, hv, hbad⟩ := hwrong
  have hnear := near_at? h path
  rw [hv] at hnear
  generalize hv' : table'.at? path = o' at hnear
  cases hnear with
  | same => exact ⟨v, good, hpath, hv', hbad⟩
  | @swap _ v' hswap => exact ⟨v', good, hpath, hv', hpath.not_good_of_swap hswap.symm⟩

/-- A key that counts keeps its value where no such key holds a wrong one. -/
theorem at?_eq_of_swap {path : List String} {good : Value → Prop}
    (h : Value.Swap (.table table) (.table table')) (hpath : Recognised path good)
    (hright : ∀ v, ¬Wrong table path v) : table'.at? path = table.at? path := by
  have hnear := near_at? h path
  generalize hv : table.at? path = o at hnear
  generalize table'.at? path = o' at hnear
  cases hnear with
  | same => rfl
  | swap hswap => exact absurd ⟨good, hpath, hv, hpath.not_good_of_swap hswap⟩ (hright _)

/-! ## 2. Settings that are alike

Settings are determined by the values at the paths that count and by which languages have a table of
their own.  A step changes none of these. -/

namespace Settings

variable {s s' s'' : Settings}

/-- The same settings, but for the order in which the languages stand.  A language is looked up by
its id, so a press does not see the order. -/
structure Alike (s s' : Settings) : Prop where
  defaults : s'.defaults = s.defaults
  overrides (language : String) : s'.overrides.lookup language = s.overrides.lookup language
  tabWidth : s'.tabWidth = s.tabWidth
  formatters : s'.formatters = s.formatters

theorem Alike.refl (s : Settings) : Alike s s := ⟨rfl, fun _ => rfl, rfl, rfl⟩

theorem Alike.trans (h : Alike s s') (h' : Alike s' s'') : Alike s s'' :=
  ⟨h'.defaults.trans h.defaults,
    fun language => (h'.overrides language).trans (h.overrides language),
    h'.tabWidth.trans h.tabWidth, h'.formatters.trans h.formatters⟩

/-- A language with a table of its own is found with its options, so settings are determined by
options and by which languages have a table. -/
theorem lookup_eq (s : Settings) (language : String) : s.overrides.lookup language =
    if (s.overrides.lookup language).isSome then some (s.optionsFor language) else none := by
  rw [optionsFor]
  cases s.overrides.lookup language <;> rfl

/-- The list of formatters is read off its value. -/
theorem formatters_eq {o : Option Value} {ids ids' : List String}
    (h : o = some (.list (ids.map .string)) ∨ o.getD .null = .null ∧ ids = [])
    (h' : o = some (.list (ids'.map .string)) ∨ o.getD .null = .null ∧ ids' = []) :
    ids' = ids := by
  rcases h with rfl | ⟨hnull, rfl⟩
  · rcases h' with h' | ⟨hnull, -⟩
    · have hids : ids.map Value.string = ids'.map Value.string :=
        Value.list.inj (Option.some.inj h')
      exact ((List.map_inj_right fun _ _ => Value.string.inj).1 hids).symm
    · cases hnull
  · rcases h' with rfl | ⟨-, rfl⟩
    · cases hnull
    · rfl

/-- **Values at the same places give the same settings.**  Every field is calculated from the values
at its paths. -/
theorem Layered.alike (h : Layered table s) (h' : Layered table' s')
    (hsame : ∀ path good, Recognised path good → table'.at? path = table.at? path)
    (hown : ∀ id, (∃ fields, table.at? ["indent", id] = some (.table fields)) ↔
      ∃ fields, table'.at? ["indent", id] = some (.table fields)) : Alike s s' := by
  have hoptions : ∀ id, s'.optionsFor id = s.optionsFor id := fun id => by
    refine Field.eq_of_get fun f => ?_
    rw [h.language, h'.language, hsame _ _ (.language id f), hsame _ _ (.general f)]
  refine ⟨?_, fun id => ?_, ?_, ?_⟩
  · refine Field.eq_of_get fun f => ?_
    rw [h.general, h'.general, hsame _ _ (.general f)]
  · have hsome : (s'.overrides.lookup id).isSome = (s.overrides.lookup id).isSome := by
      rw [Bool.eq_iff_iff, h.own, h'.own, hown]
    rw [lookup_eq, hsome, hoptions, ← lookup_eq]
  · have htabWidth := h'.tabWidth
    rw [hsame _ _ .tabWidth, ← h.tabWidth] at htabWidth
    exact Value.int.inj htabWidth
  · have hformatters := h'.formatters
    rw [hsame _ _ .formatters] at hformatters
    exact formatters_eq h.formatters hformatters

/-- **One step leaves the settings alike.**  The reordered table has no wrong value either, so it is
accepted, and both settings are layered from the same values. -/
theorem exists_alike_of_swap (hkeys : ((sectionOf table "indent").map Prod.fst).Nodup)
    (hswap : Value.Swap (.table table) (.table table')) (h : ofTable table = .ok s) :
    ((sectionOf table' "indent").map Prod.fst).Nodup ∧
      ∃ s', ofTable table' = .ok s' ∧ Alike s s' := by
  have hkeys' : ((sectionOf table' "indent").map Prod.fst).Nodup := by
    rcases sectionOf_of_swap hswap "indent" with heq | hswap
    · rwa [← heq]
    · exact (perm_keys_of_swap hswap).nodup_iff.1 hkeys
  have hparts := parts_of_ofTable hkeys h
  refine ⟨hkeys', ?_⟩
  cases h' : ofTable table' with
  | error e =>
    -- A wrong value after the step was a wrong one before.
    obtain ⟨path, v, hwrong⟩ := (exists_error_iff hkeys').1 ⟨e, h'⟩
    obtain ⟨v', hwrong'⟩ := exists_wrong_of_swap hswap.symm hwrong
    exact (hparts.not_wrong hwrong').elim
  | ok s' =>
    refine ⟨s', rfl, hparts.layered.alike (parts_of_ofTable hkeys' h').layered
      (fun path good hpath => at?_eq_of_swap hswap hpath fun v => hparts.not_wrong) fun id => ?_⟩
    exact (near_at? hswap ["indent", id]).isTable

/-- **The order of keys leaves the settings alike.**  The steps are taken one by one. -/
theorem exists_alike_of_reordered (hkeys : ((sectionOf table "indent").map Prod.fst).Nodup)
    (hreordered : table.Reordered table') (h : ofTable table = .ok s) :
    ((sectionOf table' "indent").map Prod.fst).Nodup ∧
      ∃ s', ofTable table' = .ok s' ∧ Alike s s' := by
  induction hreordered with
  | refl => exact ⟨hkeys, s, h, .refl s⟩
  | tail _ hswap ih =>
    obtain ⟨hkeys', s', hs', halike⟩ := ih
    obtain ⟨hkeys'', s'', hs'', halike'⟩ := exists_alike_of_swap hkeys' hswap hs'
    exact ⟨hkeys'', s'', hs'', halike.trans halike'⟩

/-- **A style table is accepted exactly if all its keys that count hold right values**, and the
error names one that does not.  Settings that are accepted are layered field by field, all their
widths are positive, and the order of the keys does not matter. -/
theorem ofTable_accepts_and_layers [Stack]
    (hkeys : ((sectionOf table "indent").map Prod.fst).Nodup) :
    ((∃ e, ofTable table = .error e) ↔ ∃ path v, Wrong table path v) ∧
      (∀ e, ofTable table = .error e → ∃ path v, Wrong table path v ∧
        e.key = ".".intercalate path ∧ e.fault.Describes v ∧
        (v.isWritable = true → e.fault.isWritable = true)) ∧
      (∀ s, ofTable table = .ok s → Layered table s ∧ s.Positive) ∧
      ∀ table', table.Reordered table' → ∀ s, ofTable table = .ok s →
        ∃ s', ofTable table' = .ok s' ∧ Alike s s' := by
  refine ⟨exists_error_iff hkeys, fun e he => ?_, fun s hs => ?_, fun table' hreordered s hs => ?_⟩
  · obtain ⟨path, v, hwrong, hkey, hfault⟩ := wrong_of_ofTable_eq_error hkeys he
    exact ⟨path, v, hwrong, hkey, hfault, hfault.isWritable⟩
  · exact ⟨(parts_of_ofTable hkeys hs).layered, positive_of_ofTable hs⟩
  · exact (exists_alike_of_reordered hkeys hreordered hs).2

/-- A language takes over the field that its table leaves out.  The one field of its own is not
taken over by the others. -/
theorem ofTable_accepts_and_layers_one_language :
    let table : Table := [("indent", .table [("use_tab_char", .bool true),
      ("c", .table [("indent_size", .int 2)])])]
    ((sectionOf table "indent").map Prod.fst).Nodup ∧
      (∃ s, ofTable table = .ok s ∧ s.optionsFor "c" = { useTabs := true, size := 2 }) ∧
      ¬∃ path v, Wrong table path v := by
  intro table
  have hkeys : ((sectionOf table "indent").map Prod.fst).Nodup := by decide
  have htable : ∃ s, ofTable table = .ok s ∧
      s.optionsFor "c" = { useTabs := true, size := 2 } := ⟨_, rfl, rfl⟩
  refine ⟨hkeys, htable, fun hwrong => ?_⟩
  obtain ⟨s, hs, -⟩ := htable
  let _ := Stack.ofDepth 1
  obtain ⟨e, he⟩ := (ofTable_accepts_and_layers hkeys).1.2 hwrong
  rw [hs] at he
  cases he

/-- A wrong value goes without its message if a number in it has too many digits to be shown, or if
it is nested deeper than the stack holds out. -/
theorem not_isWritable_of_wrong_value :
    let _ := Stack.ofDepth 2
    let long : Value := .list [.int (Nat.pow 16 3600)]
    let deep : Value := .list [.list [.list []]]
    let table (v : Value) : Table := [("indent", .table [("indent_size", v)])]
    ∀ v ∈ [long, deep], Wrong (table v) ["indent", "indent_size"] v ∧
      ofTable (table v) = .error ⟨"indent.indent_size", .notPositive v⟩ ∧
      (Fault.notPositive v).isWritable = false := by
  intro _ long deep table v hv
  have hwritable : v.isWritable = false := by
    rw [List.mem_cons, List.mem_singleton] at hv
    rcases hv with rfl | rfl
    · have hfar : ¬Decimal.IsWritable (Nat.pow 16 3600) :=
        Decimal.not_isWritable_of_le (by decide +kernel)
      have hfits : long.fits = false := by
        rw [Value.fits, itemsFit, Value.fits, decide_eq_false hfar, Bool.false_and]
      rw [Value.isWritable, hfits, Bool.and_false]
    · rfl
  obtain ⟨items, rfl⟩ : ∃ items, v = .list items := by
    rw [List.mem_cons, List.mem_singleton] at hv
    rcases hv with rfl | rfl <;> exact ⟨_, rfl⟩
  have hwrong : ¬IsPositive (.list items) := by
    rintro ⟨n, -, hn⟩
    cases hn
  exact ⟨⟨_, .general .size, rfl, hwrong⟩, rfl, hwritable⟩

end Settings

end SmartEnter.Style
