import OpenSound.Proofs.Registration
/-!
# Building a dispatcher

A table is built as a whole or not at all. Which of the two, and the fault if there is one, can be read
off the history of registrations: only the patterns count, and of those that cannot be read the one that
was registered first. What was registered for it, how often, and what came after it changes nothing.
-/

namespace OpenSound

/-! ### The first text that is refused -/

namespace Pattern

/-- Why a text is no pattern, if it is none. -/
def refusal? (s : String) : Option AddressFault :=
  match compile s with
  | .error fault => some fault
  | .ok _ => none

theorem refusal?_eq_some_iff {s : String} {fault : AddressFault} :
    refusal? s = some fault ↔ compile s = .error fault := by
  unfold refusal?
  cases compile s <;> simp

theorem refusal?_eq_none_iff {s : String} : refusal? s = none ↔ ∃ p, compile s = .ok p := by
  unfold refusal?
  cases compile s <;> simp

/-- All texts up to one can be read, and that one is refused for the fault. -/
def FirstRefused (texts : List String) (fault : AddressFault) : Prop :=
  ∃ before s after, texts = before ++ s :: after ∧ (∀ t ∈ before, ∃ p, compile t = .ok p) ∧
    compile s = .error fault

theorem findSome?_refusal?_eq_some_iff {texts : List String} {fault : AddressFault} :
    texts.findSome? refusal? = some fault ↔ FirstRefused texts fault := by
  rw [List.findSome?_eq_some_iff, FirstRefused]
  simp only [refusal?_eq_some_iff, refusal?_eq_none_iff, and_comm]

end Pattern

open Pattern (refusal? FirstRefused)

/-! ### Tables -/

namespace Methods

variable {α : Type}

end Methods

/-! ### Dispatchers -/

namespace Dispatcher

variable {α : Type}

theorem compileAll_eq_error_iff {entries : List (String × α)} {fault : AddressFault} :
    compileAll entries = .error fault ↔ FirstRefused (entries.map Prod.fst) fault := by
  rw [← Pattern.findSome?_refusal?_eq_some_iff]
  induction entries with
  | nil => simp [compileAll]
  | cons entry entries ih =>
    rw [compileAll, List.map_cons, List.findSome?_cons, refusal?]
    cases Pattern.compile entry.1 with
    | error fault' => simp
    | ok p => rw [← ih]; cases compileAll entries <;> simp

theorem build_eq_error_iff {ms : Methods α} (hsome : ms.entries ≠ []) {e : Error} :
    build (some ms) = .error e ↔
      ∃ fault, e = .invalidAddress fault ∧ FirstRefused ms.patterns fault := by
  have hpatterns : ∀ fault, FirstRefused ms.patterns fault ↔ compileAll ms.entries = .error fault :=
    fun fault => compileAll_eq_error_iff.symm
  rw [build, Methods.isEmpty, if_neg (by simpa using hsome)]
  simp only [hpatterns]
  cases compileAll ms.entries <;> simp [eq_comm]

end Dispatcher

end OpenSound
