import Phrasebook.Pool.Basic

/-!
The pools behind a phrasebook: one each for the trees and the readers of templates and for texts
under construction. A rendering does not touch the pools itself. It leaves a list of what it rents,
writes and returns, in order, and the pools follow that list afterwards.
-/

namespace Phrasebook

inductive Shelf where
  | trees
  | texts
  | readers
  deriving DecidableEq, Repr

/-- An event of a rendering. What is written goes to the text rented last and not yet returned. -/
inductive Traffic where
  | rent (shelf : Shelf)
  | giveBack (shelf : Shelf)
  | write (text : String)
  deriving DecidableEq, Repr

structure Pools where
  trees : Pool Unit
  texts : Pool Buffer
  readers : Pool Unit

/-- The pools with the texts that are out, innermost first. -/
structure PoolDesk where
  pools : Pools
  opened : List Buffer

namespace Pools

def new : Pools :=
  ⟨Pool.new Pool.defaultMaxIdle, Pool.new Pool.defaultMaxIdle, Pool.new Pool.defaultMaxIdle⟩

def isBalanced (pools : Pools) : Bool :=
  pools.trees.outstanding = 0 && pools.texts.outstanding = 0 && pools.readers.outstanding = 0

end Pools

namespace PoolDesk

def step (desk : PoolDesk) : Traffic → PoolDesk
  | .rent .trees => ⟨{ desk.pools with trees := desk.pools.trees.rent.2 }, desk.opened⟩
  | .rent .readers => ⟨{ desk.pools with readers := desk.pools.readers.rent.2 }, desk.opened⟩
  | .rent .texts =>
      let rented := desk.pools.texts.rent
      ⟨{ desk.pools with texts := rented.2 }, rented.1 :: desk.opened⟩
  | .giveBack .trees => ⟨{ desk.pools with trees := desk.pools.trees.giveBack () }, desk.opened⟩
  | .giveBack .readers =>
      ⟨{ desk.pools with readers := desk.pools.readers.giveBack () }, desk.opened⟩
  | .giveBack .texts =>
      match desk.opened with
      | [] => desk
      | buffer :: outer =>
          ⟨{ desk.pools with texts := desk.pools.texts.giveBack buffer }, outer⟩
  | .write text =>
      match desk.opened with
      | [] => desk
      | buffer :: outer => ⟨desk.pools, buffer.write text :: outer⟩

def follow (desk : PoolDesk) (traffic : List Traffic) : PoolDesk :=
  traffic.foldl step desk

end PoolDesk

def Pools.follow (pools : Pools) (traffic : List Traffic) : Pools :=
  (PoolDesk.follow ⟨pools, []⟩ traffic).pools

end Phrasebook
