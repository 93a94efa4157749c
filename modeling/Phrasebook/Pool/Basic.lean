/-!
Pools of reusable items. A pool counts what is rented and returned and keeps returned items for
later rents, oldest first, up to a limit. An item is cleared before it is kept, and one that has
grown too large is not kept at all.
-/

namespace Phrasebook

universe u

class Reusable (α : Type u) where
  fresh : α
  reset : α → α
  worthKeeping : α → Bool

structure Buffer where
  content : String
  capacity : Nat
  deriving DecidableEq, Repr

namespace Buffer

def largestKept : Nat := 65536

/-- The capacity after a text of `needed` bytes: at least twice what it was, if it must grow. -/
def grown (capacity needed : Nat) : Nat :=
  if needed ≤ capacity then capacity else max (2 * capacity) (max needed 8)

def write (buffer : Buffer) (text : String) : Buffer :=
  let content := buffer.content ++ text
  ⟨content, grown buffer.capacity content.utf8ByteSize⟩

/-- Makes room for `bytes` bytes after the content, as writing them would. -/
def reserve (buffer : Buffer) (bytes : Nat) : Buffer :=
  ⟨buffer.content, grown buffer.capacity (buffer.content.utf8ByteSize + bytes)⟩

/-- Makes room for `bytes` bytes after the content, and no more. -/
def reserveExact (buffer : Buffer) (bytes : Nat) : Buffer :=
  ⟨buffer.content, max buffer.capacity (buffer.content.utf8ByteSize + bytes)⟩

instance : Reusable Buffer where
  fresh := ⟨"", 0⟩
  reset := fun buffer => ⟨"", buffer.capacity⟩
  worthKeeping := fun buffer => buffer.capacity ≤ largestKept

end Buffer

instance : Reusable Unit where
  fresh := ()
  reset := id
  worthKeeping := fun _ => true

structure Pool (α : Type u) where
  maxIdle : Nat
  idle : List α
  created : Nat
  rented : Nat
  returned : Nat
  deriving DecidableEq, Repr

namespace Pool

variable {α : Type u}

def defaultMaxIdle : Nat := 32

def new (maxIdle : Nat) : Pool α := ⟨maxIdle, [], 0, 0, 0⟩

def outstanding (pool : Pool α) : Nat := pool.rented - pool.returned

variable [Reusable α]

/-- Hands out the oldest idle item, or a fresh one. -/
def rent (pool : Pool α) : α × Pool α :=
  match pool.idle with
  | item :: rest => (item, { pool with idle := rest, rented := pool.rented + 1 })
  | [] => (Reusable.fresh,
      { pool with created := pool.created + 1, rented := pool.rented + 1 })

def giveBack (pool : Pool α) (item : α) : Pool α :=
  let counted := { pool with returned := pool.returned + 1 }
  if Reusable.worthKeeping item && pool.idle.length < pool.maxIdle then
    { counted with idle := pool.idle ++ [Reusable.reset item] }
  else counted

end Pool

end Phrasebook
