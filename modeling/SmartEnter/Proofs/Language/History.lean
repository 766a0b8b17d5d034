/-
# What a registry knows after a number of registrations

A registry holds one definition for each id.  Its history is the list of the languages that were
registered, one after the other, and all answers of the registry are said of the history alone:

* the definition of an id is the one that was registered last (`Latest`);
* the ids stand in the order in which they were registered first (`debut`), and registering one of
  them again does not move it (`pairwise_debut`);
* so the language of a file is, of all definitions that are current and have the suffix, the one
  whose id is the oldest (`forFilename_ofHistory_eq_some_iff`).

The last point is where the order of first registration can be seen.  A language that is registered
again with a suffix it did not have takes precedence over younger ones at once, as if it had always
had the suffix.

All proofs are by induction on the history, with one registration more at its end (`latest_concat`,
`debut_concat_of_mem`).  The main statement is `follows_history`, which adds that the built-in
registry is the one whose history starts with the built-in languages.
-/
import SmartEnter.Language.Registry
import Mathlib.Data.List.Induction
import Mathlib.Data.List.Nodup

namespace SmartEnter

namespace Registry

variable {history ls : List Language} {l m x : Language} {id : String} {name : String}

/-- The registry after some more languages were registered, one after the other. -/
def after (r : Registry) (calls : List Language) : Registry := calls.foldl register r

/-- The registry in which nothing but some languages was registered, in the order of the list. -/
def ofHistory (history : List Language) : Registry := ({} : Registry).after history

/-- The definition is the current one of its id: none was registered later.  The history is cut
behind the registration, and no language of that id is in the second part. -/
def Latest (history : List Language) (l : Language) : Prop :=
  ∃ A B, history = A ++ l :: B ∧ ∀ m ∈ B, m.id ≠ l.id

/-- How many registrations came before the first one of an id.  It tells which of two ids is
older. -/
def debut (history : List Language) (id : String) : Nat := (history.map (·.id)).idxOf id

/-- The suffix that is looked up for a file, in small letters.  It comes with its dot, as languages
list theirs, and it is empty for a name without one. -/
def suffixOf (name : String) : List Char := Unicode.lower (Path.ofString name).suffix

/-- The registry answers as its history says: which language an id has, which ids there are, and
which language belongs to a file name. -/
structure Follows (r : Registry) (history : List Language) : Prop where
  /-- The language of an id is the one that was registered last. -/
  found : ∀ id l, r.get? id = some l ↔ l.id = id ∧ Latest history l
  missing : ∀ id, r.get? id = none ↔ ∀ l ∈ history, l.id ≠ id
  /-- The ids are those of the history, once each and in ascending order. -/
  ascending : r.ids.Pairwise (· < ·)
  mem_ids : ∀ id, id ∈ r.ids ↔ ∃ l ∈ history, l.id = id
  /-- A file has the language that is current, has the suffix, and came first. -/
  file : ∀ name l, r.forFilename name = some l ↔
    suffixOf name ≠ [] ∧ Latest history l ∧ String.ofList (suffixOf name) ∈ l.extensions ∧
      ∀ m, Latest history m → String.ofList (suffixOf name) ∈ m.extensions →
        debut history l.id ≤ debut history m.id
  noFile : ∀ name, r.forFilename name = none ↔
    suffixOf name = [] ∨ ∀ l, Latest history l → String.ofList (suffixOf name) ∉ l.extensions

/-! ## 1. One registration more

What becomes of histories, of debuts and of the list of a registry when a language is registered
behind all others. -/

theorem after_append (r : Registry) (calls more : List Language) :
    r.after (calls ++ more) = (r.after calls).after more :=
  List.foldl_append

theorem ofHistory_concat (history : List Language) (x : Language) :
    ofHistory (history ++ [x]) = (ofHistory history).register x :=
  after_append {} history [x]

/-- What is registered becomes current, and all other ids keep their definitions.  This is the step
of every induction over the history. -/
theorem latest_concat : Latest (history ++ [x]) l ↔ l = x ∨ x.id ≠ l.id ∧ Latest history l := by
  constructor
  · rintro ⟨A, B, h, hB⟩
    -- the new language is the definition itself, or the last one behind it
    rcases List.eq_nil_or_concat B with rfl | ⟨B, b, rfl⟩
    · exact .inl (List.cons.inj (List.append_inj' h rfl).2).1.symm
    · rw [List.concat_eq_append] at h hB
      rw [← List.cons_append, ← List.append_assoc] at h
      obtain ⟨rfl, hb⟩ := List.append_inj' h rfl
      obtain rfl := (List.cons.inj hb).1
      exact .inr ⟨hB x (by simp), A, B, rfl, fun m hm => hB m (List.mem_append_left _ hm)⟩
  · rintro (rfl | ⟨hne, A, B, rfl, hB⟩)
    · exact ⟨history, [], rfl, nofun⟩
    · refine ⟨A, B ++ [x], by simp, fun m hm => ?_⟩
      rcases List.mem_append.1 hm with hm | hm
      · exact hB m hm
      · rwa [List.mem_singleton.1 hm]

/-- The first registration of an id is not moved by a later one, of the same id or of another. -/
theorem debut_concat_of_mem (h : id ∈ history.map (·.id)) :
    debut (history ++ [x]) id = debut history id := by
  rw [debut, List.map_append, List.idxOf_append_of_mem h]
  rfl

theorem debut_lt_length (h : id ∈ history.map (·.id)) : debut history id < history.length := by
  have hlt := List.idxOf_lt_length_iff.2 h
  rwa [List.length_map] at hlt

theorem debut_concat_self (h : x.id ∉ history.map (·.id)) :
    debut (history ++ [x]) x.id = history.length := by
  rw [debut, List.map_append, List.idxOf_append_of_notMem h, List.length_map]
  simp

/-- A definition takes the place of the one with its id, or the last place.  So the order of the ids
tells when each came first. -/
theorem map_id_put (x : Language) (ls : List Language) :
    (put x ls).map (·.id) =
      if x.id ∈ ls.map (·.id) then ls.map (·.id) else ls.map (·.id) ++ [x.id] := by
  induction ls with
  | nil => rfl
  | cons l ls ih =>
    by_cases hl : l.id = x.id
    · simp [put, hl]
    · rw [put, if_neg hl, List.map_cons, ih]
      by_cases hx : x.id ∈ ls.map (·.id)
      · have hcons : x.id ∈ (l :: ls).map (·.id) := List.mem_cons_of_mem _ hx
        rw [if_pos hx, if_pos hcons, List.map_cons]
      · have hcons : x.id ∉ (l :: ls).map (·.id) :=
          List.not_mem_cons_of_ne_of_not_mem (Ne.symm hl) hx
        rw [if_neg hx, if_neg hcons, List.map_cons, List.cons_append]

/-! ## 2. The languages of a registry

The list of a registry has the current definitions and nothing else, in the order in which their ids
came up. -/

theorem mem_map_id_ofHistory :
    id ∈ (ofHistory history).languages.map (·.id) ↔ id ∈ history.map (·.id) := by
  induction history using List.reverseRecOn with
  | nil => rfl
  | append_singleton history x ih =>
    rw [ofHistory_concat, register, map_id_put, List.map_append, List.mem_append, ← ih]
    split
    · next hx =>
      refine ⟨.inl, fun h => h.elim (fun hid => hid) fun hid => ?_⟩
      rwa [List.mem_singleton.1 hid]
    · next hx => exact List.mem_append

/-- **The ids stand in the order of their first registration.**  By induction on the history: an id
that is new goes to the end, and any other stays where it is. -/
theorem pairwise_debut (history : List Language) :
    ((ofHistory history).languages.map (·.id)).Pairwise
      fun a b => debut history a < debut history b := by
  induction history using List.reverseRecOn with
  | nil => exact .nil
  | append_singleton history x ih =>
    -- ids that were there keep their place, which is below the length of the history before
    have hold : ∀ a ∈ (ofHistory history).languages.map (·.id),
        debut (history ++ [x]) a = debut history a ∧ debut history a < history.length := by
      intro a ha
      have ha := mem_map_id_ofHistory.1 ha
      exact ⟨debut_concat_of_mem ha, debut_lt_length ha⟩
    have hkept : ((ofHistory history).languages.map (·.id)).Pairwise
        fun a b => debut (history ++ [x]) a < debut (history ++ [x]) b := by
      refine ih.imp_of_mem fun ha hb hab => ?_
      rwa [(hold _ ha).1, (hold _ hb).1]
    rw [ofHistory_concat, register, map_id_put]
    split
    · exact hkept
    · next hx =>
      refine List.pairwise_append.2 ⟨hkept, List.pairwise_singleton _ _, fun a ha b hb => ?_⟩
      rw [List.mem_singleton.1 hb, debut_concat_self (mt mem_map_id_ofHistory.2 hx), (hold a ha).1]
      exact (hold a ha).2

theorem nodup_ofHistory (history : List Language) :
    ((ofHistory history).languages.map (·.id)).Nodup :=
  (pairwise_debut history).imp fun h => by
    rintro rfl
    exact Nat.lt_irrefl _ h

/-- **The language of an id is the one that was registered last.**  What was registered under other
ids behind it makes no difference. -/
theorem get?_ofHistory_eq_some_iff :
    (ofHistory history).get? id = some l ↔ l.id = id ∧ Latest history l := by
  induction history using List.reverseRecOn with
  | nil =>
    refine iff_of_false nofun ?_
    rintro ⟨-, A, B, h, -⟩
    simp at h
  | append_singleton history x ih =>
    rw [ofHistory_concat, get?_register, latest_concat]
    split
    · next hx =>
      rw [Option.some.injEq]
      constructor
      · rintro rfl
        exact ⟨hx, .inl rfl⟩
      · rintro ⟨hl, rfl | ⟨hne, -⟩⟩
        · rfl
        · exact absurd (hx.trans hl.symm) hne
    · next hx =>
      rw [ih]
      refine and_congr_right fun hl => ?_
      rw [← hl] at hx
      refine ⟨fun h => .inr ⟨hx, h⟩, ?_⟩
      rintro (rfl | ⟨-, h⟩)
      · exact absurd rfl hx
      · exact h

/-- The languages of a registry are the current definitions, and those that were replaced are
nowhere to be found. -/
theorem mem_languages_ofHistory : l ∈ (ofHistory history).languages ↔ Latest history l := by
  constructor
  · intro hl
    cases hget : (ofHistory history).get? l.id with
    | none => exact absurd (List.find?_eq_none.1 hget l hl) (by simp)
    | some k =>
      have hid : k.id = l.id := by simpa using List.find?_some hget
      obtain rfl := List.inj_on_of_nodup_map (nodup_ofHistory history)
        (List.mem_of_find?_eq_some hget) hl hid
      exact (get?_ofHistory_eq_some_iff.1 hget).2
  · intro hl
    exact List.mem_of_find?_eq_some (get?_ofHistory_eq_some_iff.2 ⟨rfl, hl⟩)

theorem get?_ofHistory_eq_none_iff :
    (ofHistory history).get? id = none ↔ ∀ l ∈ history, l.id ≠ id := by
  have hmem : (∃ l ∈ (ofHistory history).languages, l.id = id) ↔ ∃ l ∈ history, l.id = id := by
    rw [← List.mem_map, ← List.mem_map, mem_map_id_ofHistory]
  rw [get?, List.find?_eq_none]
  simpa using not_congr hmem

/-! ## 3. Ids in ascending order -/

theorem mem_ids_ofHistory : id ∈ (ofHistory history).ids ↔ ∃ l ∈ history, l.id = id := by
  rw [ids, List.mem_mergeSort, mem_map_id_ofHistory, List.mem_map]

/-- **The ids are in ascending order**, none of them twice. -/
theorem pairwise_ids_ofHistory (history : List Language) :
    (ofHistory history).ids.Pairwise (· < ·) := by
  have hsorted : (ofHistory history).ids.Pairwise (· ≤ ·) := by
    refine (List.pairwise_mergeSort ?_ ?_ _).imp of_decide_eq_true
    · intro a b c hab hbc
      exact decide_eq_true (String.le_trans (of_decide_eq_true hab) (of_decide_eq_true hbc))
    · intro a b
      simpa using String.le_total a b
  have hnodup : (ofHistory history).ids.Nodup :=
    (List.mergeSort_perm _ _).nodup_iff.2 (nodup_ofHistory history)
  refine (hsorted.and hnodup).imp fun ⟨hle, hne⟩ => ?_
  exact String.not_le.1 fun hge => hne (String.le_antisymm hle hge)

/-! ## 4. The language of a file

The first definition in the list that has the suffix is the one with the least debut, because the
list is in the order of debuts. -/

/-- In a list in the order of some places, the first member that passes a test has the least place
of all that do. -/
theorem find?_eq_some_iff_least {test : Language → Bool} {place : Language → Nat}
    (h : ls.Pairwise fun l m => place l < place m) :
    ls.find? test = some l ↔
      l ∈ ls ∧ test l = true ∧ ∀ m ∈ ls, test m = true → place l ≤ place m := by
  constructor
  · intro hl
    obtain ⟨htest, A, B, rfl, hA⟩ := List.find?_eq_some_iff_append.1 hl
    refine ⟨by simp, htest, fun m hm hpass => ?_⟩
    rcases List.mem_append.1 hm with hm | hm
    · exact absurd hpass (by simpa using hA m hm)
    · rcases List.mem_cons.1 hm with rfl | hm
      · exact Nat.le_refl _
      · exact Nat.le_of_lt ((List.pairwise_cons.1 (List.pairwise_append.1 h).2.1).1 m hm)
  · rintro ⟨hmem, htest, hleast⟩
    obtain ⟨A, B, rfl⟩ := List.append_of_mem hmem
    refine List.find?_eq_some_iff_append.2 ⟨htest, A, B, rfl, fun m hm => ?_⟩
    have hlt := (List.pairwise_append.1 h).2.2 m hm l List.mem_cons_self
    rw [Bool.not_eq_true', Bool.eq_false_iff]
    exact fun hpass => absurd (hleast m (List.mem_append_left _ hm) hpass) (Nat.not_le.2 hlt)

/-- Without a suffix no language is looked for. -/
theorem forFilename_eq (r : Registry) (name : String) :
    r.forFilename name = if suffixOf name = [] then none
      else r.languages.find? (·.extensions.contains (String.ofList (suffixOf name))) := by
  rw [forFilename, suffixOf]
  cases Unicode.lower (Path.ofString name).suffix <;> rfl

/-- **The language of a file** is the oldest one that is current and has the suffix.  Its age is
that of its id, not of its definition. -/
theorem forFilename_ofHistory_eq_some_iff :
    (ofHistory history).forFilename name = some l ↔
      suffixOf name ≠ [] ∧ Latest history l ∧ String.ofList (suffixOf name) ∈ l.extensions ∧
        ∀ m, Latest history m → String.ofList (suffixOf name) ∈ m.extensions →
          debut history l.id ≤ debut history m.id := by
  rw [forFilename_eq]
  by_cases hs : suffixOf name = []
  · rw [if_pos hs]
    exact iff_of_false nofun fun h => h.1 hs
  · have horder : (ofHistory history).languages.Pairwise
        fun l m => debut history l.id < debut history m.id := by
      have hids := pairwise_debut history
      rwa [List.pairwise_map] at hids
    rw [if_neg hs, find?_eq_some_iff_least horder]
    simp only [mem_languages_ofHistory, List.contains_iff_mem, hs, ne_eq, not_false_eq_true,
      true_and]

theorem forFilename_ofHistory_eq_none_iff :
    (ofHistory history).forFilename name = none ↔
      suffixOf name = [] ∨
        ∀ l, Latest history l → String.ofList (suffixOf name) ∉ l.extensions := by
  rw [forFilename_eq]
  by_cases hs : suffixOf name = []
  · rw [if_pos hs]
    exact iff_of_true rfl (.inl hs)
  · rw [if_neg hs, List.find?_eq_none]
    simp only [mem_languages_ofHistory, List.contains_iff_mem, hs, false_or]

theorem follows_ofHistory (history : List Language) : Follows (ofHistory history) history where
  found _ _ := get?_ofHistory_eq_some_iff
  missing _ := get?_ofHistory_eq_none_iff
  ascending := pairwise_ids_ofHistory history
  mem_ids _ := mem_ids_ofHistory
  file _ _ := forFilename_ofHistory_eq_some_iff
  noFile _ := forFilename_ofHistory_eq_none_iff

/-- **A registry answers as its history says**, whether it was empty at first or held the built-in
languages, which then come first in its history. -/
theorem follows_history (calls : List Language) :
    Follows (({} : Registry).after calls) calls ∧
      Follows (builtin.after calls) (Language.builtin ++ calls) := by
  refine ⟨follows_ofHistory calls, ?_⟩
  have hbuiltin : builtin.after calls = ofHistory (Language.builtin ++ calls) :=
    (after_append {} Language.builtin calls).symm
  rw [hbuiltin]
  exact follows_ofHistory _

/-- Of two languages with a suffix the older one is found, until it is registered without it. -/
example :
    let shell : Language := { Language.shell with extensions := [".c"] }
    let r := ({} : Registry).after [.c, shell]
    r.forFilename "main.c" = some .c ∧
      (r.register { Language.c with extensions := [] }).forFilename "main.c" = some shell :=
  ⟨rfl, rfl⟩

end Registry

end SmartEnter
