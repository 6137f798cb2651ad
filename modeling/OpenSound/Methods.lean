import OpenSound.Pattern.Matching
/-!
# Tables of methods

An ordered association from pattern to handler, of whatever kind handlers are. A pattern stands once:
registering it again replaces its handler and keeps its place.

A dispatcher is a table whose patterns have all been read. It is built as a whole or not at all, and
the first pattern that cannot be read says why.
-/

namespace OpenSound

/-- A table of handlers, in the order in which their patterns were first registered. -/
structure Methods (α : Type) where
  entries : List (String × α)

namespace Methods

variable {α : Type}

def empty : Methods α := ⟨[]⟩

/-- Replaces the handler of a pattern where it stands, or adds both at the end. -/
def put (pattern : String) (handler : α) : List (String × α) → List (String × α)
  | [] => [(pattern, handler)]
  | (p, h) :: entries =>
    if p = pattern then (pattern, handler) :: entries else (p, h) :: put pattern handler entries

def insert (ms : Methods α) (pattern : String) (handler : α) : Methods α :=
  ⟨put pattern handler ms.entries⟩

/-- The table that a sequence of registrations leaves behind. -/
def ofList (registrations : List (String × α)) : Methods α :=
  registrations.foldl (fun ms (pattern, handler) => ms.insert pattern handler) empty

/-- The registered patterns, in order of first registration. -/
def patterns (ms : Methods α) : List String := ms.entries.map Prod.fst

def size (ms : Methods α) : Nat := ms.entries.length

def isEmpty (ms : Methods α) : Bool := ms.entries.isEmpty

theorem map_fst_put (pattern : String) (handler : α) (entries : List (String × α)) :
    (put pattern handler entries).map Prod.fst =
      if pattern ∈ entries.map Prod.fst then entries.map Prod.fst
      else entries.map Prod.fst ++ [pattern] := by
  induction entries with
  | nil => simp [put]
  | cons entry entries ih =>
    obtain ⟨p, h⟩ := entry
    by_cases hp : p = pattern
    · simp [put, hp]
    · simp only [put, hp, if_false, List.map_cons, ih, List.mem_cons, Ne.symm hp, false_or]
      split <;> simp

/-- A new pattern comes last, and a known one stays where it is. -/
theorem patterns_insert (ms : Methods α) (pattern : String) (handler : α) :
    (ms.insert pattern handler).patterns =
      if pattern ∈ ms.patterns then ms.patterns else ms.patterns ++ [pattern] :=
  map_fst_put pattern handler ms.entries

end Methods

def showPatterns (patterns : List String) : String :=
  "[" ++ ", ".intercalate (patterns.map Text.quoted) ++ "]"

/-- A table whose patterns have been read. -/
structure Dispatcher (α : Type) where
  routes : List (Pattern × α)

namespace Dispatcher

variable {α : Type}

/-- Reads the pattern of every entry, up to the first that is none. -/
def compileAll : List (String × α) → Except AddressFault (List (Pattern × α))
  | [] => .ok []
  | (text, handler) :: entries =>
    match Pattern.compile text with
    | .error fault => .error fault
    | .ok p =>
      match compileAll entries with
      | .error fault => .error fault
      | .ok routes => .ok ((p, handler) :: routes)

/-- Builds a dispatcher from a table, if there is one and it registers anything. -/
def build : Option (Methods α) → Except Error (Dispatcher α)
  | none => .error .nilDispatcher
  | some ms =>
    if ms.isEmpty then .error .emptyDispatcher
    else match compileAll ms.entries with
      | .error fault => .error (.invalidAddress fault)
      | .ok routes => .ok ⟨routes⟩

def patterns (d : Dispatcher α) : List String := d.routes.map fun (p, _) => p.text

def size (d : Dispatcher α) : Nat := d.routes.length

def isEmpty (d : Dispatcher α) : Bool := d.routes.isEmpty

def handlersFor (d : Dispatcher α) (address : String) : List α :=
  (d.routes.filter fun (p, _) => p.accepts address).map Prod.snd

end Dispatcher

end OpenSound
