import OpenSound.Regex.Basic
/-!
# Engines

What patterns ask of an engine for regular expressions: to escape a text, to compile an expression from
its text, and to search with it. Which engine it is stays open, and so does why it may refuse an
expression; `Engine.Documented` is what an engine's documentation promises for the expressions of this
library, once they are compiled.
-/

namespace OpenSound.Regex

structure Engine where
  Compiled : Type
  escape : String → String
  /-- The failure is the text that is reported. -/
  compile : String → Except String Compiled
  isMatch : Compiled → String → Bool

structure Engine.Documented (engine : Engine) : Prop where
  /-- What is escaped stands for the text and for nothing else. -/
  escape : ∀ text, ∃ literals : List Literal, (∀ l ∈ literals, l.Proper special) ∧
    literals.map Literal.char = text.toList ∧
      (engine.escape text).toList = literals.flatMap Literal.text
  isMatch : ∀ (r : Regex) compiled, r.Proper → engine.compile r.text = .ok compiled →
    ∀ haystack, engine.isMatch compiled haystack = true ↔ r.FoundIn haystack.toList

end OpenSound.Regex
