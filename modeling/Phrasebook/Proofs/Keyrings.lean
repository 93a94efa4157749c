import Phrasebook.Key.Keyring

/-!
Keyrings are true to their keys. Whatever the register already holds, and in whatever order keys are
read, changed, copied and asked for their texts, every text that is kept is the text of its key: a
keyring replies like keys that keep nothing. Its keys stay valid, and their texts tell them apart.
-/

namespace Phrasebook

namespace KeyOutcome

variable {α β : Type}

structure All (property : α → Prop) (outcome : KeyOutcome α) : Prop where
  here : property outcome.here
  made : ∀ key ∈ outcome.made, property key

section Keys

variable {property : α → Prop} {key : α} (holds : property key)
include holds

theorem all_changing {outcome : Except KeyError α}
    (changed : ∀ other, outcome = .ok other → property other) :
    (changing key outcome).All property := by
  cases outcome with
  | error error => exact ⟨holds, nofun⟩
  | ok other => exact ⟨changed other rfl, nofun⟩

theorem all_making {outcome : Except KeyError α}
    (made : ∀ other, outcome = .ok other → property other) :
    (making key outcome).All property := by
  cases outcome with
  | error error => exact ⟨holds, nofun⟩
  | ok other => exact ⟨holds, fun _ same => Option.some.inj same ▸ made other rfl⟩

theorem all_offering {found : Option α}
    (offered : ∀ other, found = some other → property other) :
    (offering key found).All property := by
  cases found with
  | none => exact ⟨holds, nofun⟩
  | some other => exact ⟨holds, fun _ same => Option.some.inj same ▸ offered other rfl⟩

end Keys

section Changes

variable (change : α → β) (key : α)

theorem map_changing (outcome : Except KeyError α) :
    (changing key outcome).map change = changing (change key) (outcome.map change) := by
  cases outcome <;> rfl

theorem map_making (outcome : Except KeyError α) :
    (making key outcome).map change = making (change key) (outcome.map change) := by
  cases outcome <;> rfl

theorem map_offering (found : Option α) :
    (offering key found).map change = offering (change key) (found.map change) := by
  cases found <;> rfl

theorem map_settle (outcome : KeyOutcome α) (keys : List α) (place : Nat) :
    (outcome.settle keys place).map change =
      (outcome.map change).settle (keys.map change) place := by
  obtain ⟨reply, here, made⟩ := outcome
  cases made <;> simp [settle, map, List.map_set]

end Changes

section Refused

variable {key : α} {error : KeyError}

theorem changing_refused {outcome : Except KeyError α}
    (refused : (changing key outcome).reply = .refused error) :
    changing key outcome = ⟨.refused error, key, none⟩ := by
  cases outcome <;> cases refused
  rfl

theorem making_refused {outcome : Except KeyError α}
    (refused : (making key outcome).reply = .refused error) :
    making key outcome = ⟨.refused error, key, none⟩ := by
  cases outcome <;> cases refused
  rfl

theorem offering_refused {found : Option α}
    (refused : (offering key found).reply = .refused error) :
    offering key found = ⟨.refused error, key, none⟩ := by
  cases found <;> cases refused

end Refused

theorem All.settle {property : α → Prop} {outcome : KeyOutcome α} {keys : List α}
    (all : outcome.All property) (before : ∀ key ∈ keys, property key) (place : Nat) :
    ∀ key ∈ outcome.settle keys place, property key := by
  refine List.forall_mem_append.mpr ⟨fun key listed => ?_, ?_⟩
  · rcases List.mem_or_eq_of_mem_set listed with old | rfl
    · exact before key old
    · exact all.here
  · exact fun key listed => all.made key (Option.mem_toList.mp listed)

end KeyOutcome

/-- What is kept for segments is what they are joined to. -/
def TextRegister.Faithful (register : TextRegister) : Prop :=
  ∀ entry ∈ register.entries, entry.2 = ".".intercalate entry.1

namespace TextRegister

variable {register : TextRegister}

theorem faithful_empty : empty.Faithful := List.forall_mem_nil _

theorem Faithful.of_find? (faithful : register.Faithful) {segments : List String} {text : String}
    (found : register.find? segments = some text) : text = ".".intercalate segments := by
  obtain ⟨entry, listed, rfl⟩ := Option.map_eq_some_iff.mp found
  have same : entry.1 = segments := by simpa using List.find?_some listed
  rw [faithful entry (List.mem_of_find?_eq_some listed), same]

theorem Faithful.join (faithful : register.Faithful) (segments : List String) :
    (register.join segments).1 = ".".intercalate segments ∧
      (register.join segments).2.Faithful := by
  unfold TextRegister.join
  split
  · rename_i text found
    exact ⟨faithful.of_find? found, faithful⟩
  · simp only
    split
    · exact ⟨rfl, List.forall_mem_append.mpr ⟨faithful, List.forall_mem_singleton.mpr rfl⟩⟩
    · exact ⟨rfl, faithful⟩

theorem Faithful.joinAll (faithful : register.Faithful) (texts : List (List String)) :
    (register.joinAll texts).Faithful := by
  induction texts generalizing register with
  | nil => exact faithful
  | cons segments later ih => exact ih (faithful.join segments).2

end TextRegister

namespace KeptKey

def Faithful (kept : KeptKey) : Prop := ∀ text ∈ kept.joined, text = kept.key.text

variable {kept : KeptKey} {register : TextRegister}

theorem faithful_fresh (key : Key) : (fresh key).Faithful := nofun

theorem Faithful.text (faithful : kept.Faithful) (known : register.Faithful) :
    (kept.text register).1 = kept.key.text ∧ (kept.text register).2.1.key = kept.key ∧
      (kept.text register).2.1.Faithful ∧ (kept.text register).2.2.Faithful := by
  unfold KeptKey.text
  split
  · rename_i text joined
    exact ⟨faithful text joined, rfl, faithful, known⟩
  · obtain ⟨joined, later⟩ := known.join kept.key.segments
    refine ⟨joined, rfl, ?_, later⟩
    rintro text ⟨⟩
    exact joined

theorem Faithful.push (faithful : kept.Faithful) (known : register.Faithful) (segment : String) :
    (kept.push segment register).1 = (kept.key.push segment).map fresh ∧
      (kept.push segment register).2.1.key = kept.key ∧
      (kept.push segment register).2.1.Faithful ∧ (kept.push segment register).2.2.Faithful := by
  unfold Key.push KeptKey.push
  cases segmentFault? segment.toList with
  | none => exact ⟨rfl, rfl, faithful, known⟩
  | some fault =>
      obtain ⟨same, unchanged, later, after⟩ := faithful.text known
      by_cases top : kept.key.isRoot
      · simp only [top, if_true]
        exact ⟨rfl, trivial, faithful, known⟩
      · simp only [top, same]
        exact ⟨rfl, unchanged, later, after⟩

theorem Faithful.join (faithful : kept.Faithful) (known : register.Faithful)
    (extra : List String) :
    (kept.join extra register).1.map KeptKey.key = kept.key.join extra ∧
      (∀ made, (kept.join extra register).1 = .ok made → made.Faithful) ∧
      (kept.join extra register).2.Faithful := by
  induction extra generalizing kept register with
  | nil =>
      refine ⟨rfl, ?_, known⟩
      rintro made ⟨⟩
      exact faithful
  | cons segment rest ih =>
      obtain ⟨same, _, _, later⟩ := faithful.push known segment
      rw [Key.join, List.foldlM_cons, KeptKey.join]
      generalize kept.push segment register = pushed at same later
      obtain ⟨outcome, read, after⟩ := pushed
      obtain rfl : outcome = _ := same
      cases kept.key.push segment with
      | error error => exact ⟨rfl, nofun, later⟩
      | ok longer => exact ih (faithful_fresh longer) later

section Fresh

variable {other : KeptKey}

theorem map_made (outcome : Except KeyError Key) :
    (outcome.map fresh).map KeptKey.key = outcome := by
  cases outcome <;> rfl

theorem map_offered (found : Option Key) : (found.map fresh).map KeptKey.key = found := by
  cases found <;> rfl

theorem faithful_of_made (outcome : Except KeyError Key) (made : outcome.map fresh = .ok other) :
    other.Faithful := by
  cases outcome with
  | error error => cases made
  | ok key => exact Except.ok.inj made ▸ faithful_fresh key

theorem faithful_of_offered (found : Option Key) (offered : found.map fresh = some other) :
    other.Faithful := by
  obtain ⟨key, _, rfl⟩ := Option.map_eq_some_iff.mp offered
  exact faithful_fresh key

end Fresh

/-- The outcome is that of the key that keeps nothing, and all that is kept is true. -/
theorem Faithful.act (faithful : kept.Faithful) (known : register.Faithful) (act : KeyAct) :
    (kept.act register act).1.map KeptKey.key = kept.key.act act ∧
      (kept.act register act).1.All KeptKey.Faithful ∧ (kept.act register act).2.Faithful := by
  cases act with
  | push segment =>
      obtain ⟨same, unchanged, here, later⟩ := faithful.push known segment
      simp only [KeptKey.act, Key.act, KeyOutcome.map_changing, same, unchanged, map_made]
      exact ⟨trivial, KeyOutcome.all_changing here fun _ => faithful_of_made _, later⟩
  | withSegment segment =>
      obtain ⟨same, made, later⟩ := faithful.join known [segment]
      have single : kept.key.join [segment] = kept.key.push segment := by simp [Key.join]
      simp only [KeptKey.act, Key.act, KeyOutcome.map_making, same, single]
      exact ⟨trivial, KeyOutcome.all_making faithful made, later⟩
  | join extra =>
      obtain ⟨same, made, later⟩ := faithful.join known extra
      simp only [KeptKey.act, Key.act, KeyOutcome.map_making, same]
      exact ⟨trivial, KeyOutcome.all_making faithful made, later⟩
  | slice start stop =>
      have offered := fun other => @faithful_of_offered other (kept.key.slice? start stop)
      simp only [KeptKey.act, Key.act, KeyOutcome.map_offering, map_offered]
      exact ⟨trivial, KeyOutcome.all_offering faithful offered, known⟩
  | dropLast n =>
      have made := fun other => @faithful_of_made other (.ok (kept.key.dropLast n))
      exact ⟨rfl, KeyOutcome.all_changing faithful made, known⟩
  | withoutLast n =>
      have made := fun other => @faithful_of_made other (.ok (kept.key.dropLast n))
      exact ⟨rfl, KeyOutcome.all_making faithful made, known⟩
  | parent =>
      have offered := fun other => @faithful_of_offered other kept.key.parent?
      simp only [KeptKey.act, Key.act, KeyOutcome.map_offering, map_offered]
      exact ⟨trivial, KeyOutcome.all_offering faithful offered, known⟩
  | copy =>
      have made : ∀ other, Except.ok (ε := KeyError) kept = .ok other → other.Faithful :=
        fun _ same => Except.ok.inj same ▸ faithful
      exact ⟨rfl, KeyOutcome.all_making faithful made, known⟩
  | text =>
      obtain ⟨same, unchanged, here, later⟩ := faithful.text known
      exact ⟨by simp [KeptKey.act, Key.act, KeyOutcome.map, same, unchanged], ⟨here, nofun⟩, later⟩

end KeptKey

namespace Key

variable {key : Key}

theorem valid_of_subset {other : Key} (valid : key.Valid)
    (fewer : other.segments ⊆ key.segments) : other.Valid :=
  fun segment listed => valid segment (fewer listed)

theorem Valid.push {longer : Key} {segment : String} (valid : key.Valid)
    (pushed : key.push segment = .ok longer) : longer.Valid := by
  obtain ⟨sound, rfl⟩ := (push_eq_ok_iff key longer segment).mp pushed
  exact List.forall_mem_append.mpr ⟨valid, List.forall_mem_singleton.mpr sound⟩

theorem Valid.join {longer : Key} {extra : List String} (valid : key.Valid)
    (joined : key.join extra = .ok longer) : longer.Valid := by
  induction extra generalizing key with
  | nil =>
      cases joined
      exact valid
  | cons segment rest ih =>
      rw [Key.join, List.foldlM_cons] at joined
      cases pushed : key.push segment with
      | error error =>
          rw [pushed] at joined
          cases joined
      | ok next =>
          rw [pushed] at joined
          exact ih (valid.push pushed) joined

theorem Valid.dropLast (valid : key.Valid) (n : Nat) : (key.dropLast n).Valid :=
  valid_of_subset valid (List.take_subset _ _)

theorem Valid.slice {part : Key} {start stop : Nat} (valid : key.Valid)
    (cut : key.slice? start stop = some part) : part.Valid := by
  unfold slice? at cut
  split at cut
  · cases cut
    exact valid_of_subset valid fun _ listed => List.mem_of_mem_take (List.mem_of_mem_drop listed)
  · cases cut

theorem Valid.parent {above : Key} (valid : key.Valid) (found : key.parent? = some above) :
    above.Valid := by
  unfold parent? at found
  split at found
  · cases found
  · cases found
    exact valid.dropLast 1

theorem Valid.act (valid : key.Valid) (act : KeyAct) : (key.act act).All Valid := by
  cases act with
  | push segment => exact KeyOutcome.all_changing valid fun _ => valid.push
  | withSegment segment => exact KeyOutcome.all_making valid fun _ => valid.push
  | join extra => exact KeyOutcome.all_making valid fun _ => valid.join
  | slice start stop => exact KeyOutcome.all_offering valid fun _ => valid.slice
  | dropLast n =>
      exact KeyOutcome.all_changing valid fun _ same => Except.ok.inj same ▸ valid.dropLast n
  | withoutLast n =>
      exact KeyOutcome.all_making valid fun _ same => Except.ok.inj same ▸ valid.dropLast n
  | parent => exact KeyOutcome.all_offering valid fun _ => valid.parent
  | copy => exact KeyOutcome.all_making valid fun _ same => Except.ok.inj same ▸ valid
  | text => exact ⟨valid, nofun⟩

theorem act_refused {act : KeyAct} {error : KeyError}
    (refused : (key.act act).reply = .refused error) :
    key.act act = ⟨.refused error, key, none⟩ := by
  cases act with
  | push segment => exact KeyOutcome.changing_refused refused
  | withSegment segment => exact KeyOutcome.making_refused refused
  | join extra => exact KeyOutcome.making_refused refused
  | slice start stop => exact KeyOutcome.offering_refused refused
  | dropLast n => exact KeyOutcome.changing_refused refused
  | withoutLast n => exact KeyOutcome.making_refused refused
  | parent => exact KeyOutcome.offering_refused refused
  | copy => exact KeyOutcome.making_refused refused
  | text => cases refused

end Key

def Key.follow (keys : List Key) (steps : List KeyringStep) : List Key :=
  steps.foldl (fun keys taken => (step keys taken).2) keys

namespace Keyring

def follow (ring : Keyring) (steps : List KeyringStep) : Keyring :=
  steps.foldl (fun ring taken => (ring.step taken).2) ring

def bare (ring : Keyring) : List Key := ring.keys.map KeptKey.key

/-- All that is kept is true, and all keys are valid. This is the invariant of every step. -/
structure Faithful (ring : Keyring) : Prop where
  keys : ∀ kept ∈ ring.keys, kept.Faithful
  valid : ∀ key ∈ ring.bare, key.Valid
  register : ring.register.Faithful

variable {ring : Keyring}

theorem getElem?_bare (ring : Keyring) (place : Nat) :
    ring.bare[place]? = ring.keys[place]?.map KeptKey.key :=
  List.getElem?_map ..

theorem Faithful.step (faithful : ring.Faithful) (taken : KeyringStep) :
    (ring.step taken).1 = (Key.step ring.bare taken).1 ∧
      (ring.step taken).2.bare = (Key.step ring.bare taken).2 ∧ (ring.step taken).2.Faithful := by
  cases taken with
  | parse text =>
      rw [Keyring.step, Key.step]
      cases parsed : Key.parse text with
      | error error => exact ⟨rfl, rfl, faithful⟩
      | ok key =>
          have longer : (Keyring.mk (ring.keys ++ [.fresh key]) ring.register).bare =
              ring.bare ++ [key] := List.map_append
          refine ⟨rfl, longer, ?_, ?_, faithful.register⟩
          · exact List.forall_mem_append.mpr
              ⟨faithful.keys, List.forall_mem_singleton.mpr (KeptKey.faithful_fresh key)⟩
          · rw [longer]
            exact List.forall_mem_append.mpr
              ⟨faithful.valid, List.forall_mem_singleton.mpr (Key.valid_of_parse parsed)⟩
  | act place act =>
      rw [Keyring.step, Key.step, getElem?_bare]
      cases found : ring.keys[place]? with
      | none => exact ⟨rfl, rfl, faithful⟩
      | some kept =>
          have listed := List.mem_of_getElem? found
          obtain ⟨same, all, later⟩ := (faithful.keys kept listed).act faithful.register act
          have valid := (faithful.valid kept.key (List.mem_map_of_mem listed)).act act
          have settled : ((kept.act ring.register act).1.settle ring.keys place).map KeptKey.key =
              (kept.key.act act).settle ring.bare place := by
            rw [KeyOutcome.map_settle, same]
            rfl
          refine ⟨congrArg KeyOutcome.reply same, settled, all.settle faithful.keys place, ?_,
            later⟩
          intro key member
          exact valid.settle faithful.valid place key (settled ▸ member)

theorem Faithful.follow (faithful : ring.Faithful) (steps : List KeyringStep) :
    (ring.follow steps).bare = Key.follow ring.bare steps ∧ (ring.follow steps).Faithful := by
  induction steps generalizing ring with
  | nil => exact ⟨rfl, faithful⟩
  | cons taken later ih =>
      obtain ⟨_, same, next⟩ := faithful.step taken
      obtain ⟨rest, last⟩ := ih next
      rw [same] at rest
      exact ⟨rest, last⟩

theorem step_refused {keys : List Key} {taken : KeyringStep} {error : KeyError}
    (refused : (Key.step keys taken).1 = .refused error) : (Key.step keys taken).2 = keys := by
  cases taken with
  | parse text =>
      rw [Key.step] at refused ⊢
      cases parsed : Key.parse text with
      | error error => rfl
      | ok key =>
          rw [parsed] at refused
          cases refused
  | act place act =>
      rw [Key.step] at refused ⊢
      cases found : keys[place]? with
      | none => rfl
      | some key =>
          rw [found] at refused
          simp only [Key.act_refused refused, KeyOutcome.settle, Option.toList_none,
            List.append_nil]
          obtain ⟨inside, rfl⟩ := List.getElem?_eq_some_iff.mp found
          exact List.set_getElem_self inside

/-- Whatever has been done with the keys of a keyring and whatever its register already held, it
replies like keys that keep nothing. Its keys are valid, each is read back from its text, and what
is refused changes none of them. -/
theorem follow_faithful (earlier : List (List String)) (steps : List KeyringStep) :
    let ring := (Keyring.mk [] (TextRegister.empty.joinAll earlier)).follow steps
    ring.bare = Key.follow [] steps ∧
      (∀ taken, (ring.step taken).1 = (Key.step ring.bare taken).1) ∧
      (∀ key ∈ ring.bare, ∀ segment ∈ key.segments,
        segment ≠ "" ∧ ∀ c ∈ segment.toList, isSegmentChar c = true) ∧
      (∀ kept ∈ ring.keys, (kept.text ring.register).1 = ".".intercalate kept.key.segments ∧
        Key.parse (kept.text ring.register).1 = .ok kept.key) ∧
      (∀ first ∈ ring.keys, ∀ second ∈ ring.keys, first.key = second.key ↔
        (first.text ring.register).1 = (second.text ring.register).1) ∧
      ∀ taken error, (ring.step taken).1 = .refused error →
        (ring.step taken).2.bare = ring.bare := by
  have start : (Keyring.mk [] (TextRegister.empty.joinAll earlier)).Faithful :=
    ⟨List.forall_mem_nil _, List.forall_mem_nil _, TextRegister.faithful_empty.joinAll earlier⟩
  obtain ⟨same, faithful⟩ := start.follow steps
  intro ring
  have text (kept : KeptKey) (listed : kept ∈ ring.keys) :
      (kept.text ring.register).1 = kept.key.text :=
    ((faithful.keys kept listed).text faithful.register).1
  have read (kept : KeptKey) (listed : kept ∈ ring.keys) : Key.parse kept.key.text = .ok kept.key :=
    (faithful.valid kept.key (List.mem_map_of_mem listed)).parse_text
  refine ⟨same, fun taken => (faithful.step taken).1, ?_, ?_, ?_, ?_⟩
  · intro key listed segment inside
    have sound := faithful.valid key listed segment inside
    obtain ⟨filled, allowed⟩ := (segmentFault?_eq_none_iff _).mp sound
    exact ⟨fun empty => filled (by rw [empty]; rfl), allowed⟩
  · intro kept listed
    rw [text kept listed]
    exact ⟨rfl, read kept listed⟩
  · intro first listed second also
    rw [text first listed, text second also]
    constructor
    · exact congrArg Key.text
    · intro alike
      have parsed := read first listed
      rw [alike, read second also] at parsed
      exact (Except.ok.inj parsed).symm
  · intro taken error refused
    obtain ⟨reply, after, _⟩ := faithful.step taken
    rw [after, step_refused (reply.symm.trans refused)]

def extension : List KeyringStep :=
  [.parse "A.B", .act 0 .text, .act 0 .copy, .act 1 (.push "C.D"), .act 1 (.push "C")]

theorem follow_faithful_extension :
    let ring := (Keyring.mk [] (TextRegister.empty.joinAll [["A", "B"]])).follow extension
    let longer : KeptKey := ⟨⟨["A", "B", "C"]⟩, none⟩
    ring.keys = [⟨⟨["A", "B"]⟩, some "A.B"⟩, longer] ∧
      Key.parse (longer.text ring.register).1 = .ok longer.key ∧
      (ring.step (.act 1 (.push "C.D"))).2.bare = ring.bare := by
  intro ring longer
  obtain ⟨-, -, -, texts, -, refused⟩ := follow_faithful [["A", "B"]] extension
  have listed : longer ∈ ring.keys := by decide
  exact ⟨by decide, (texts longer listed).2, refused _ _ rfl⟩

end Keyring

end Phrasebook
