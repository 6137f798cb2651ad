import OpenSound.Pattern.Token
import OpenSound.Regex.Matching
/-!
# Matching addresses

A pattern of plain characters is compared with an address as it stands. For any other pattern an engine
compiles its regular expression, once, and searches every address with it. Any engine will do; patterns
that name none use the one of this library.
-/

namespace OpenSound

namespace Pattern

/-- How a pattern is matched. -/
inductive Matcher (Compiled : Type) where
  | exact
  | regex (compiled : Compiled)

/-- Whether tokens are plain characters and nothing else. -/
def arePlain : List Token → Bool
  | [] | [.literal _] => true
  | _ => false

/-- Chooses how to match the tokens of a pattern. The failure is what the engine reports. -/
def chooseMatcher (engine : Regex.Engine) (ts : List Token) :
    Except String (Matcher engine.Compiled) :=
  if arePlain ts then .ok .exact
  else Matcher.regex <$> engine.compile (expression engine.escape ts)

end Pattern

/-- A pattern that has been read: its text, which begins with a slash, its elements, and how it is
matched. -/
structure Pattern (engine : Regex.Engine := .marking) where
  text : String
  elements : List Pattern.Element
  matcher : Pattern.Matcher engine.Compiled
  slash : text.toList.head? = some '/'
  parsed : Pattern.parse text.toList = .ok elements
  compiled : Pattern.chooseMatcher engine (Pattern.tokens elements) = .ok matcher

namespace Pattern

variable {engine : Regex.Engine}

/-- Reads a pattern and compiles its regular expression, if it needs one. -/
def compileWith (engine : Regex.Engine) (text : String) : Except AddressFault (Pattern engine) :=
  if slash : text.toList.head? = some '/' then
    match parsed : parse text.toList with
    | .error fault => .error (.pattern fault text)
    | .ok elements =>
      match compiled : Pattern.chooseMatcher engine (tokens elements) with
      | .error reason => .error (.expression reason)
      | .ok matcher => .ok ⟨text, elements, matcher, slash, parsed, compiled⟩
  else .error (.missingSlash text)

def compile (text : String) : Except AddressFault Pattern := compileWith .marking text

/-- Whether the pattern has no wildcards. -/
def isLiteral (p : Pattern engine) : Bool :=
  match p.matcher with
  | .exact => true
  | .regex _ => false

/-- Whether an address matches. A run of any length may cross slashes. -/
def accepts (p : Pattern engine) (address : String) : Bool :=
  match p.matcher with
  | .exact => address == p.text
  | .regex compiled => engine.isMatch compiled address

/-- What is read is the pattern with this text, which knows how it was read. -/
theorem compileWith_eq_ok_iff {s : String} {p : Pattern engine} :
    compileWith engine s = .ok p ↔ p.text = s := by
  unfold compileWith
  apply Iff.intro
  · intro h
    split at h
    · split at h
      · cases h
      split at h
      · cases h
      · cases h
        rfl
    · cases h
  · intro h
    subst h
    obtain ⟨text, elements, matcher, slash, parsed, compiled⟩ := p
    rw [dif_pos slash]
    split
    · rename_i herror
      rw [parsed] at herror
      cases herror
    rename_i elements' hparsed
    obtain rfl : elements' = elements := Except.ok.inj (hparsed.symm.trans parsed)
    split
    · rename_i herror
      rw [compiled] at herror
      cases herror
    rename_i matcher' hcompiled
    obtain rfl : matcher' = matcher := Except.ok.inj (hcompiled.symm.trans compiled)
    rfl

theorem text_of_compile {s : String} {p : Pattern} (h : compile s = .ok p) : p.text = s :=
  compileWith_eq_ok_iff.1 h

end Pattern

end OpenSound
