import Mathlib.Data.List.Induction
import Mathlib.Data.List.Infix
import Mathlib.Order.Bounds.Basic
import Phrasebook.Pool.Lending
import Phrasebook.Proofs.Rentals

/-!
The accounts of a pool of texts. Whatever holders do with their texts, the counters of the pool add
up, what it keeps is empty and small, and what it hands out is empty. As long as every text that
comes back can be kept, the pool has made as many texts as were ever out at once.
-/

namespace Phrasebook

namespace Pool

variable {α : Type} [Reusable α]

theorem rent_cases (pool : Pool α) :
    (∃ item rest, pool.idle = item :: rest ∧
        pool.rent = (item, { pool with idle := rest, rented := pool.rented + 1 })) ∨
      (pool.idle = [] ∧ pool.rent = (Reusable.fresh,
        { pool with created := pool.created + 1, rented := pool.rented + 1 })) := by
  unfold rent
  split
  · rename_i item rest idle
    exact .inl ⟨item, rest, idle, rfl⟩
  · rename_i idle
    exact .inr ⟨idle, rfl⟩

theorem giveBack_cases (pool : Pool α) (item : α) :
    (Reusable.worthKeeping item = true ∧ pool.idle.length < pool.maxIdle ∧
        pool.giveBack item = { pool with
          returned := pool.returned + 1, idle := pool.idle ++ [Reusable.reset item] }) ∨
      pool.giveBack item = { pool with returned := pool.returned + 1 } := by
  simp only [giveBack]
  split
  · rename_i kept
    simp only [Bool.and_eq_true, decide_eq_true_eq] at kept
    exact .inl ⟨kept.1, kept.2, rfl⟩
  · exact .inr rfl

end Pool

structure Buffer.Kept (buffer : Buffer) : Prop where
  empty : buffer.content = ""
  small : buffer.capacity ≤ 65536

namespace Lending

/-- The counters add up with what is out, and what is idle can be handed out. This is the invariant
of every step. -/
structure Accounted (maxIdle : Nat) (lending : Lending) : Prop where
  limit : lending.pool.maxIdle = maxIdle
  balanced : lending.pool.rented = lending.pool.returned + lending.out.length
  bounded : lending.pool.idle.length ≤ maxIdle
  made : lending.pool.idle.length + lending.out.length ≤ lending.pool.created
  needed : lending.pool.created ≤ lending.pool.rented
  kept : ∀ buffer ∈ lending.pool.idle, buffer.Kept
  known : ∀ item ∈ lending.out, item.1 < lending.pool.rented
  distinct : (lending.out.map (·.1)).Nodup

variable {maxIdle number : Nat} {lending : Lending} {buffer : Buffer}

theorem numbers_amend (lending : Lending) (number : Nat) (change : Buffer → Buffer) :
    (lending.amend number change).out.map (·.1) = lending.out.map (·.1) := by
  rw [amend, List.map_map]
  refine List.map_congr_left fun item _ => ?_
  by_cases same : item.1 = number <;> simp [same]

theorem length_out_giveBack (held : lending.held? number = some buffer) :
    (lending.out.eraseP fun item => item.1 = number).length + 1 = lending.out.length := by
  obtain ⟨item, found, rfl⟩ := Option.map_eq_some_iff.mp held
  have listed := List.mem_of_find?_eq_some found
  have named := List.find?_some found
  have nonempty := List.length_pos_of_mem listed
  rw [List.length_eraseP_of_mem listed named]
  omega

namespace Accounted

theorem new (maxIdle : Nat) : (Lending.new maxIdle).Accounted maxIdle :=
  ⟨rfl, rfl, Nat.zero_le _, Nat.le_refl _, Nat.le_refl _, List.forall_mem_nil _,
    List.forall_mem_nil _, .nil⟩

theorem rent (accounted : lending.Accounted maxIdle) :
    (lending.step .rent).2.Accounted maxIdle := by
  obtain ⟨limit, balanced, bounded, made, needed, kept, known, distinct⟩ := accounted
  have unused : lending.pool.rented ∉ lending.out.map (·.1) := by
    intro used
    obtain ⟨item, listed, same⟩ := List.mem_map.mp used
    exact Nat.ne_of_lt (known item listed) same
  have distinct := List.nodup_cons.mpr ⟨unused, distinct⟩
  have known (rented : Buffer) : ∀ item ∈ (lending.pool.rented, rented) :: lending.out,
      item.1 < lending.pool.rented + 1 :=
    List.forall_mem_cons.mpr
      ⟨Nat.lt_succ_self _, fun item listed => Nat.lt_succ_of_lt (known item listed)⟩
  simp only [Lending.step]
  obtain ⟨item, rest, idle, rented⟩ | ⟨idle, rented⟩ := lending.pool.rent_cases
  · rw [idle, List.length_cons] at bounded made
    rw [idle] at kept
    rw [rented]
    refine ⟨limit, ?_, ?_, ?_, ?_, (List.forall_mem_cons.mp kept).2, known item, distinct⟩
    all_goals simp only [List.length_cons]; omega
  · rw [idle, List.length_nil] at made
    rw [rented]
    refine ⟨limit, ?_, bounded, ?_, ?_, kept, known Reusable.fresh, distinct⟩
    all_goals simp only [idle, List.length_cons, List.length_nil]; omega

theorem amend (accounted : lending.Accounted maxIdle) (number : Nat) (change : Buffer → Buffer) :
    (lending.amend number change).Accounted maxIdle := by
  have counted := lending.length_out_amend number change
  have numbers := lending.numbers_amend number change
  obtain ⟨limit, balanced, bounded, made, needed, kept, known, distinct⟩ := accounted
  rw [← counted] at balanced made
  rw [← numbers] at distinct
  refine ⟨limit, balanced, bounded, made, needed, kept, ?_, distinct⟩
  refine List.forall_mem_map.mpr fun item listed => ?_
  have below := known item listed
  split
  · rename_i same
    exact same ▸ below
  · exact below

theorem giveBack (accounted : lending.Accounted maxIdle)
    (held : lending.held? number = some buffer) :
    (lending.step (.giveBack number)).2.Accounted maxIdle := by
  have counted := length_out_giveBack held
  obtain ⟨limit, balanced, bounded, made, needed, kept, known, distinct⟩ := accounted
  have fewer : (lending.out.eraseP fun item => item.1 = number).Sublist lending.out :=
    List.eraseP_sublist
  have known := fun item left => known item (fewer.subset left)
  have distinct := distinct.sublist (fewer.map (·.1))
  simp only [Lending.step, held]
  obtain ⟨worth, room, returned⟩ | returned := lending.pool.giveBack_cases buffer
  · rw [returned]
    have cleared : (Reusable.reset buffer).Kept := ⟨rfl, of_decide_eq_true worth⟩
    have idle := List.forall_mem_append.mpr ⟨kept, List.forall_mem_singleton.mpr cleared⟩
    refine ⟨limit, ?_, ?_, ?_, needed, idle, known, distinct⟩
    all_goals simp only [List.length_append, List.length_singleton]; omega
  · rw [returned]
    refine ⟨limit, ?_, bounded, ?_, needed, kept, known, distinct⟩
    all_goals simp only; omega

theorem step (accounted : lending.Accounted maxIdle) (taken : LendingStep) :
    (lending.step taken).2.Accounted maxIdle := by
  cases taken with
  | rent => exact accounted.rent
  | write number text => exact accounted.amend number (·.write text)
  | reserve number bytes => exact accounted.amend number (·.reserve bytes)
  | reserveExact number bytes => exact accounted.amend number (·.reserveExact bytes)
  | giveBack number =>
      cases held : lending.held? number with
      | none => simpa only [Lending.step, held] using accounted
      | some buffer => exact accounted.giveBack held

theorem follow (accounted : lending.Accounted maxIdle) (steps : List LendingStep) :
    (lending.follow steps).Accounted maxIdle := by
  induction steps generalizing lending with
  | nil => exact accounted
  | cons taken later ih => exact ih (accounted.step taken)

theorem rent_empty (accounted : lending.Accounted maxIdle) :
    (lending.step .rent).1 = some "" := by
  -- What is handed out is empty, whether it was idle or is made for the rent.
  simp only [Lending.step]
  obtain ⟨item, rest, idle, rented⟩ | ⟨idle, rented⟩ := lending.pool.rent_cases
  · have kept := accounted.kept item (by rw [idle]; exact List.mem_cons_self)
    rw [rented, kept.empty]
  · rw [rented]
    rfl

end Accounted

/-- How many texts were out at some time of a history. -/
def counts (maxIdle : Nat) (steps : List LendingStep) : Set Nat :=
  { count | ∃ before, before <+: steps ∧ ((new maxIdle).follow before).out.length = count }

/-- No text came back that had grown too large. -/
def NoneOversized (maxIdle : Nat) (steps : List LendingStep) : Prop :=
  ∀ before number, before ++ [.giveBack number] <+: steps →
    ∀ buffer ∈ ((new maxIdle).follow before).held? number, buffer.capacity ≤ 65536

theorem noneOversized_of_inits {steps : List LendingStep}
    (small : ∀ before ∈ steps.inits, ∀ item ∈ ((new maxIdle).follow before).out,
      item.2.capacity ≤ 65536) : NoneOversized maxIdle steps := by
  intro before number earlier buffer held
  obtain ⟨item, found, rfl⟩ := Option.map_eq_some_iff.mp held
  have begun := (List.mem_inits _ _).mpr ((List.prefix_append ..).trans earlier)
  exact small before begun item (List.mem_of_find?_eq_some found)

theorem counts_nil (maxIdle : Nat) : counts maxIdle [] = {0} := by
  ext count
  simp [counts, follow, new, eq_comm]

theorem counts_snoc (maxIdle : Nat) (steps : List LendingStep) (last : LendingStep) :
    counts maxIdle (steps ++ [last]) =
      insert ((new maxIdle).follow (steps ++ [last])).out.length (counts maxIdle steps) := by
  ext count
  simp only [counts, Set.mem_ofPred_eq, Set.mem_insert_iff, List.prefix_concat_iff]
  constructor
  · rintro ⟨before, rfl | earlier, same⟩
    · exact .inl same.symm
    · exact .inr ⟨before, earlier, same⟩
  · rintro (rfl | ⟨before, earlier, same⟩)
    · exact ⟨_, .inl rfl, rfl⟩
    · exact ⟨before, .inr earlier, same⟩

theorem follow_snoc (lending : Lending) (steps : List LendingStep) (last : LendingStep) :
    lending.follow (steps ++ [last]) = ((lending.follow steps).step last).2 := by
  rw [follow_append]
  rfl

/-- A pool that is thrifty makes a text only when more are out than were made. -/
theorem created_step (thrifty : lending.pool.Thrifty maxIdle lending.out.length)
    (taken : LendingStep) :
    (lending.step taken).2.pool.created =
      max (lending.step taken).2.out.length lending.pool.created := by
  have counted := thrifty.counted
  cases taken with
  | rent =>
      simp only [step]
      obtain ⟨item, rest, idle, rented⟩ | ⟨idle, rented⟩ := lending.pool.rent_cases
      · rw [idle, List.length_cons] at counted
        simp only [rented, List.length_cons]
        omega
      · rw [idle, List.length_nil] at counted
        simp only [rented, List.length_cons]
        omega
  | write | reserve | reserveExact =>
      simp only [step, length_out_amend, pool_amend]
      omega
  | giveBack number =>
      simp only [step]
      cases held : lending.held? number with
      | none => simp only; omega
      | some buffer =>
          have fewer := length_out_giveBack held
          simp only
          obtain ⟨_, _, returned⟩ | returned := lending.pool.giveBack_cases buffer <;>
            simp only [returned] <;> omega

theorem thrifty_step (thrifty : lending.pool.Thrifty maxIdle lending.out.length)
    {taken : LendingStep} (few : (lending.step taken).2.out.length ≤ maxIdle)
    (small : ∀ number, taken = .giveBack number →
      ∀ buffer ∈ lending.held? number, buffer.capacity ≤ 65536) :
    (lending.step taken).2.pool.Thrifty maxIdle (lending.step taken).2.out.length := by
  cases taken with
  | rent => exact thrifty.rent few
  | write | reserve | reserveExact =>
      simp only [step, length_out_amend]
      exact thrifty
  | giveBack number =>
      simp only [step]
      cases held : lending.held? number with
      | none => exact thrifty
      | some buffer =>
          rw [← length_out_giveBack held] at thrifty
          exact thrifty.giveBack (decide_eq_true (small number rfl buffer held))

theorem thrifty_follow {steps : List LendingStep} (none : NoneOversized maxIdle steps)
    (few : ∀ count ∈ counts maxIdle steps, count ≤ maxIdle) :
    ((new maxIdle).follow steps).pool.Thrifty maxIdle ((new maxIdle).follow steps).out.length ∧
      IsGreatest (counts maxIdle steps) ((new maxIdle).follow steps).pool.created := by
  induction steps using List.reverseRecOn with
  | nil =>
      rw [counts_nil]
      exact ⟨.new (Nat.le_refl maxIdle), isGreatest_singleton⟩
  | append_singleton steps last ih =>
      rw [counts_snoc] at few ⊢
      obtain ⟨thrifty, greatest⟩ := ih
        (fun before number earlier => none before number (earlier.trans (List.prefix_append ..)))
        (fun count member => few count (Set.mem_insert_of_mem _ member))
      have now := few _ (Set.mem_insert _ _)
      rw [follow_snoc] at now ⊢
      refine ⟨thrifty_step thrifty now ?_, ?_⟩
      · rintro number rfl
        exact none steps number (List.prefix_refl _)
      · rw [created_step thrifty]
        exact greatest.insert _

/-- Whatever is done with the texts of a pool, its counters add up and all that it keeps and hands
out is empty. If every text that comes back can be kept, it makes as many as were out at once. -/
theorem follow_accounted (maxIdle : Nat) (steps : List LendingStep) :
    let lending := (new maxIdle).follow steps
    lending.pool.rented = lending.pool.returned + lending.out.length ∧
      lending.pool.idle.length ≤ maxIdle ∧
      lending.pool.idle.length + lending.out.length ≤ lending.pool.created ∧
      lending.pool.created ≤ lending.pool.rented ∧
      (∀ buffer ∈ lending.pool.idle, buffer.content = "" ∧ buffer.capacity ≤ 65536) ∧
      (lending.step .rent).1 = some "" ∧
      (lending.out.map (·.1)).Nodup ∧
      (NoneOversized maxIdle steps → (∀ count ∈ counts maxIdle steps, count ≤ maxIdle) →
        IsGreatest (counts maxIdle steps) lending.pool.created) := by
  have accounted := (Accounted.new maxIdle).follow steps
  refine ⟨accounted.balanced, accounted.bounded, accounted.made, accounted.needed, ?_,
    accounted.rent_empty, accounted.distinct, fun none few => (thrifty_follow none few).2⟩
  intro buffer idle
  exact ⟨(accounted.kept buffer idle).empty, (accounted.kept buffer idle).small⟩

/-- Three texts are rented, and no more than two of them are out at once. -/
def relay : List LendingStep :=
  [.rent, .write 0 "first", .rent, .reserve 1 40000, .giveBack 0, .rent, .giveBack 2, .giveBack 1]

theorem follow_accounted_relay :
    ((new 2).follow relay).pool.rented = 3 ∧ ((new 2).follow relay).pool.created = 2 ∧
      IsGreatest (counts 2 relay) ((new 2).follow relay).pool.created := by
  have few : ∀ before ∈ relay.inits, ((new 2).follow before).out.length ≤ 2 := by decide
  obtain ⟨-, -, -, -, -, -, -, peak⟩ := follow_accounted 2 relay
  refine ⟨by decide, by decide, peak (noneOversized_of_inits (by decide)) ?_⟩
  rintro count ⟨before, earlier, rfl⟩
  exact few before ((List.mem_inits _ _).mpr earlier)

-- Room is doubled when it must grow, which can make a text too large to be kept.
example :
    let kept := fun makeRoom : Nat → Nat → LendingStep =>
      ((new 1).follow [.rent, makeRoom 0 40000, makeRoom 0 50000, .giveBack 0]).pool.idle
    kept .reserve = [] ∧ kept .reserveExact = [⟨"", 50000⟩] := by
  decide

end Lending

end Phrasebook
