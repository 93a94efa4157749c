import Phrasebook.Diagnostic
import Phrasebook.Pool.Traffic

/-!
Computations that take notes. Besides its value a rendering leaves diagnostics and the traffic of
the pools, in the order in which they arise, and nothing of what it does depends on these notes.
-/

namespace Phrasebook

structure Noted (α : Type) where
  value : α
  diagnostics : List Diagnostic
  traffic : List Traffic

namespace Noted

variable {α β : Type}

def pure (value : α) : Noted α := ⟨value, [], []⟩

def bind (first : Noted α) (next : α → Noted β) : Noted β :=
  let second := next first.value
  ⟨second.value, first.diagnostics ++ second.diagnostics, first.traffic ++ second.traffic⟩

instance : Monad Noted where
  pure := pure
  bind := bind

instance : LawfulMonad Noted := LawfulMonad.mk' Noted
  (by intro α noted; cases noted; simp [Functor.map, bind, pure])
  (by intro α β value next; simp [Bind.bind, Pure.pure, bind, pure])
  (by intro α β γ noted first second; simp [Bind.bind, bind, List.append_assoc])

def report (diagnostic : Diagnostic) : Noted Unit := ⟨(), [diagnostic], []⟩

def reportAll (diagnostics : List Diagnostic) : Noted Unit := ⟨(), diagnostics, []⟩

def record (traffic : List Traffic) : Noted Unit := ⟨(), [], traffic⟩

def emit (text : String) : Noted String := ⟨text, [], [.write text]⟩

/-- A computation that rents an item for as long as it takes. -/
def renting (shelf : Shelf) (inner : Noted α) : Noted α :=
  ⟨inner.value, inner.diagnostics, .rent shelf :: inner.traffic ++ [.giveBack shelf]⟩

@[simp] theorem value_pure (value : α) : (Pure.pure value : Noted α).value = value := rfl

@[simp] theorem diagnostics_pure (value : α) : (Pure.pure value : Noted α).diagnostics = [] := rfl

@[simp] theorem traffic_pure (value : α) : (Pure.pure value : Noted α).traffic = [] := rfl

@[simp] theorem value_bind (first : Noted α) (next : α → Noted β) :
    (first >>= next).value = (next first.value).value := rfl

@[simp] theorem diagnostics_bind (first : Noted α) (next : α → Noted β) :
    (first >>= next).diagnostics = first.diagnostics ++ (next first.value).diagnostics := rfl

@[simp] theorem traffic_bind (first : Noted α) (next : α → Noted β) :
    (first >>= next).traffic = first.traffic ++ (next first.value).traffic := rfl

@[simp] theorem value_emit (text : String) : (emit text).value = text := rfl

@[simp] theorem diagnostics_emit (text : String) : (emit text).diagnostics = [] := rfl

theorem bind_congr {noted : Noted α} {next other : α → Noted β}
    (same : next noted.value = other noted.value) : (noted >>= next) = (noted >>= other) := by
  change noted.bind next = noted.bind other
  rw [bind, bind, same]

end Noted

end Phrasebook
