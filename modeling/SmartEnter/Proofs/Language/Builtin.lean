/-
# What the built-in languages have in common

The built-in languages differ in their comment markers, quotes and openers.  `Language.Lawful` says
what a proof about all of them needs, and nothing of it names one of them, so that it holds of
every language that is added in the same way.
-/
import SmartEnter.Language.Basic
import SmartEnter.Proofs.Token.Cut

namespace SmartEnter

open Text (isBlank)

namespace Language

/-- Comments of the language open within a line, with one or two characters that are no blanks, and
the text that opens a comment anew opens one. -/
structure Lawful (language : Language) : Prop where
  short : language.lexis.Short
  blanks_eq : language.blanks = [.ws, .newline]
  commentKind_eq : language.commentKind = .lineComment
  marker_head : ∀ m ∈ language.lexis.lineComments, m.head?.any (!isBlank ·) = true
  lead_starts : language.lexis.startsLineComment language.commentLead = true
  lead_inLine : '\n' ∉ language.commentLead ∧ '\r' ∉ language.commentLead

theorem lawful_of_mem_builtin {language : Language} (h : language ∈ builtin) :
    language.Lawful := by
  simp only [builtin, List.mem_cons, List.not_mem_nil, or_false] at h
  rcases h with rfl | rfl | rfl
  all_goals
    exact ⟨⟨⟨by decide, by decide⟩, by decide⟩, rfl, rfl, by decide, by decide, by decide⟩

/-- Block comments of the built-in languages, where there are any, are all of one form.  So a proof
that needs to know how a comment closes need not go through the languages. -/
theorem blockComment_of_mem_builtin {language : Language} {m q : List Char} (h : language ∈ builtin)
    (hm : language.lexis.blockComment = some (m, q)) : m = ['/', '*'] ∧ q = ['*', '/'] := by
  simp only [builtin, List.mem_cons, List.not_mem_nil, or_false] at h
  rcases h with rfl | rfl | rfl
  · obtain ⟨rfl, rfl⟩ := Prod.mk.inj (Option.some.inj hm)
    exact ⟨rfl, rfl⟩
  · cases hm
  · cases hm

end Language

end SmartEnter
