/-
# Registered languages

A registry is a list of languages with distinct ids.  Registering an id again replaces its
definition and keeps its place, so the last definition of an id counts while the suffix search goes
by the order of first registration.

The suffix of a file name is compared in small letters, and those of a language are taken as they
were registered; so one with a capital letter in it is never found.  A name without a suffix belongs
to no language, even if one was registered with an empty suffix.

What a registry answers is a matter of the registrations that led to it and of nothing else.
`Proofs/Language/History` states it that way, for every sequence of calls.
-/
import SmartEnter.Language.Basic
import SmartEnter.Path
import SmartEnter.Unicode.LetterCase

namespace SmartEnter

/-- The known languages, in the order in which their ids were first registered.  That the ids are
distinct holds of every registry that was made by registering, and is no part of the type. -/
structure Registry where
  languages : List Language := []
  deriving Repr, DecidableEq

namespace Registry

/-- Puts a language in the place of the one with its id, or at the end if there is none.  All that
was registered under other ids stays as it is, in its place. -/
def put (language : Language) : List Language → List Language
  | [] => [language]
  | l :: rest => if l.id = language.id then language :: rest else l :: put language rest

/-- Adds a language or replaces the one with its id, in whose place it then stands. -/
def register (r : Registry) (language : Language) : Registry := ⟨put language r.languages⟩

/-- The language of an id, which is compared letter by letter. -/
def get? (r : Registry) (id : String) : Option Language := r.languages.find? (·.id == id)

/-- The ids in ascending order, each of them once.  The order is that of code points, character by
character. -/
def ids (r : Registry) : List String :=
  (r.languages.map (·.id)).mergeSort fun a b => decide (a ≤ b)

/-- The first language that has the suffix of a file name, in small letters, among its own.  A file
in a directory is looked up by its own name only. -/
def forFilename (r : Registry) (name : String) : Option Language :=
  match Unicode.lower (Path.ofString name).suffix with
  | [] => none
  | suffix => r.languages.find? (·.extensions.contains (String.ofList suffix))

/-- The registry of the built-in languages, which is what a registry is that they were registered
in, one after the other. -/
def builtin : Registry := Language.builtin.foldl register {}

/-! ## 1. Registering and looking up -/

theorem find?_put (language : Language) (id : String) (l : List Language) :
    (put language l).find? (·.id == id) =
      if language.id = id then some language else l.find? (·.id == id) := by
  induction l with
  | nil => by_cases h : language.id = id <;> simp [put, h]
  | cons x rest ih =>
    by_cases hx : x.id = language.id
    · by_cases h : language.id = id <;> simp [put, hx, h]
    · by_cases h : language.id = id
      · subst h
        simpa [put, hx] using ih
      · by_cases hi : x.id = id
        · simp [put, hi, h, hi ▸ hx]
        · simp [put, hx, hi, ih, h]

/-- **The last language registered under an id is the one that is found**, and all other ids find
what they found before. -/
theorem get?_register (r : Registry) (language : Language) (id : String) :
    (r.register language).get? id = if language.id = id then some language else r.get? id :=
  find?_put language id r.languages

end Registry

end SmartEnter
