import Phrasebook.Pool.Basic

/-!
Lending of texts. A pool of texts is seen together with the texts that are out, each under the
number of its rent. Holders write to their texts, make room in them, and return them in any order.
-/

namespace Phrasebook

structure Lending where
  pool : Pool Buffer
  out : List (Nat × Buffer)
  deriving DecidableEq, Repr

/-- What a holder does. A number is that of a rent, counted from zero. -/
inductive LendingStep where
  | rent
  | write (number : Nat) (text : String)
  | reserve (number : Nat) (bytes : Nat)
  | reserveExact (number : Nat) (bytes : Nat)
  | giveBack (number : Nat)
  deriving DecidableEq, Repr

namespace Lending

def new (maxIdle : Nat) : Lending := ⟨.new maxIdle, []⟩

def held? (lending : Lending) (number : Nat) : Option Buffer :=
  (lending.out.find? fun item => item.1 = number).map (·.2)

def amend (lending : Lending) (number : Nat) (change : Buffer → Buffer) : Lending :=
  ⟨lending.pool, lending.out.map fun item =>
    if item.1 = number then (number, change item.2) else item⟩

/-- What the holder sees of the text, and the lending after the step. A number that is not out does
nothing. -/
def step (lending : Lending) : LendingStep → Option String × Lending
  | .rent =>
      let rented := lending.pool.rent
      (some rented.1.content, ⟨rented.2, (lending.pool.rented, rented.1) :: lending.out⟩)
  | .write number text =>
      let written := lending.amend number (·.write text)
      ((written.held? number).map (·.content), written)
  | .reserve number bytes => (none, lending.amend number (·.reserve bytes))
  | .reserveExact number bytes => (none, lending.amend number (·.reserveExact bytes))
  | .giveBack number =>
      match lending.held? number with
      | none => (none, lending)
      | some buffer =>
          (none, ⟨lending.pool.giveBack buffer, lending.out.eraseP fun item => item.1 = number⟩)

def follow (lending : Lending) (steps : List LendingStep) : Lending :=
  steps.foldl (fun lending step => (lending.step step).2) lending

theorem follow_append (lending : Lending) (first second : List LendingStep) :
    lending.follow (first ++ second) = (lending.follow first).follow second :=
  List.foldl_append

@[simp] theorem pool_amend (lending : Lending) (number : Nat) (change : Buffer → Buffer) :
    (lending.amend number change).pool = lending.pool := rfl

@[simp] theorem length_out_amend (lending : Lending) (number : Nat) (change : Buffer → Buffer) :
    (lending.amend number change).out.length = lending.out.length :=
  List.length_map _

end Lending

end Phrasebook
