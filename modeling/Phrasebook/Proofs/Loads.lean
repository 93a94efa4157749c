import Mathlib.Data.Finset.Sort
import Phrasebook.Book
import Phrasebook.Proofs.KeyViews

/-!
Lexicons as finite maps from keys to texts. A lexicon keeps the normal form of a text beside it once
it has been read, and no history of loads, edits and reads makes a difference to what is read: the
replies are those of a finite map that knows nothing of normal forms being kept. A load takes effect
as a whole or not at all.
-/

namespace Phrasebook

theorem compare_eq_lt_iff (first second : List String) :
    compare first second = .lt ↔ first < second := by
  induction first generalizing second with
  | nil => cases second <;> simp [compare, List.compareLex]
  | cons segment path ih =>
      cases second with
      | nil => simp [compare, List.compareLex]
      | cons other rest =>
          change List.compareLex compare (segment :: path) (other :: rest) = .lt ↔ _
          rw [List.compareLex_cons_cons]
          change (compare segment other).then (compare path rest) = .lt ↔ _
          rw [Ordering.then_eq_lt, ih, List.cons_lt_cons_iff, compare_lt_iff_lt,
            Std.compare_eq_iff_eq]

namespace Key

theorem compare_eq_lt_iff (first second : Key) :
    compare first second = .lt ↔ first.Precedes second :=
  Phrasebook.compare_eq_lt_iff first.segments second.segments

def UpTo (first second : Key) : Prop := (compare first second).isLE

instance : DecidableRel UpTo := fun first second =>
  inferInstanceAs (Decidable ((compare first second).isLE = true))

instance : IsTrans Key UpTo :=
  ⟨fun _ _ _ => @Std.TransCmp.isLE_trans (List String) compare _ _ _ _⟩

instance : Std.Antisymm UpTo := by
  refine ⟨fun first second before after => eq_of_segments ?_⟩
  exact Std.LawfulEqCmp.eq_of_compare (Std.OrientedCmp.isLE_antisymm before after)

instance : Std.Total UpTo := by
  refine ⟨fun first second => ?_⟩
  have swapped : compare second.segments first.segments =
      (compare first.segments second.segments).swap := Std.OrientedCmp.eq_swap
  change (compare first.segments second.segments).isLE ∨
    (compare second.segments first.segments).isLE
  rw [swapped]
  cases compare first.segments second.segments <;> decide

end Key

inductive LexiconRequest where
  | load (pairs : List (String × String))
  | insert (key : Key) (text : String)
  | remove (key : Key)
  | get (key : Key)
  | raw (key : Key)
  | entry (key : Key)
  | lookup (key : Key)

/-- An entry shows its text as it was loaded and in its normal form. -/
inductive LexiconReply where
  | loaded (outcome : Except LoadError Nat)
  | text (found : Option String)
  | entry (found : Option (String × String))
  | keys (found : List Key)

def Lexicon.answer (lexicon : Lexicon) : LexiconRequest → LexiconReply × Lexicon
  | .load pairs => (.loaded (lexicon.load pairs).1, (lexicon.load pairs).2)
  | .insert key text => (.text (lexicon.insert key text).1, (lexicon.insert key text).2)
  | .remove key => (.text (lexicon.remove key).1, (lexicon.remove key).2)
  | .get key => (.text (lexicon.read key).1, (lexicon.read key).2)
  | .raw key => (.text (lexicon.raw? key), lexicon)
  | .entry key =>
      (.entry ((lexicon.entry? key).map fun entry => (entry.raw, entry.text)),
        (lexicon.read key).2)
  | .lookup key => (.keys (lexicon.lookup key), lexicon)

def LoadError.of? (pair : String × String) : Option LoadError :=
  match Key.parse pair.1 with
  | .ok _ => none
  | .error cause => some ⟨pair.1, cause⟩

/-- The error is that of the first pair whose key is none. -/
def LoadError.IsFirst (error : LoadError) (pairs : List (String × String)) : Prop :=
  ∃ before pair after, pairs = before ++ pair :: after ∧
    (∀ earlier ∈ before, ∃ key, Key.parse earlier.1 = .ok key) ∧
    error.key = pair.1 ∧ Key.parse pair.1 = .error error.cause

def namedTexts (pairs : List (String × String)) : List (Key × String) :=
  pairs.filterMap fun pair => (Key.parse pair.1).toOption.map fun key => (key, pair.2)

def lastText? (pairs : List (String × String)) (key : Key) : Option String :=
  (pairs.reverse.find? fun pair => (Key.parse pair.1).toOption = some key).map (·.2)

abbrev TextMap := KeyMap String

namespace TextMap

def ofPairs (pairs : List (String × String)) : TextMap :=
  KeyMap.insertAll ∅ (namedTexts pairs)

def keysFrom (texts : TextMap) (key : Key) : List Key :=
  (texts.keys.filter (Key.startsWith · key)).sort Key.UpTo

/-- The specification of the replies. -/
def answer (texts : TextMap) : LexiconRequest → LexiconReply × TextMap
  | .load pairs =>
      match pairs.findSome? LoadError.of? with
      | some error => (.loaded (.error error), texts)
      | none => (.loaded (.ok (ofPairs pairs).keys.card), ofPairs pairs)
  | .insert key text => (.text (texts.lookup key), texts.insert key text)
  | .remove key => (.text (texts.lookup key), texts.erase key)
  | .get key => (.text ((texts.lookup key).map normalizeColors), texts)
  | .raw key => (.text (texts.lookup key), texts)
  | .entry key => (.entry ((texts.lookup key).map fun raw => (raw, normalizeColors raw)), texts)
  | .lookup key => (.keys (texts.keysFrom key), texts)

theorem lookup_ofPairs (pairs : List (String × String)) (key : Key) :
    (ofPairs pairs).lookup key = lastText? pairs key := by
  induction pairs using List.reverseRecOn with
  | nil => rfl
  | append_singleton pairs pair ih =>
      cases parsed : Key.parse pair.1 with
      | error cause =>
          simpa [ofPairs, namedTexts, lastText?, parsed, Except.toOption] using ih
      | ok named =>
          by_cases same : key = named
          · subst same
            simp [ofPairs, namedTexts, KeyMap.insertAll, lastText?, parsed, Except.toOption]
          · simpa [ofPairs, namedTexts, KeyMap.insertAll, lastText?, parsed, Except.toOption, same,
              Ne.symm same] using ih

end TextMap

def LexiconRequest.serve {State : Type} (answer : State → LexiconRequest → LexiconReply × State)
    (state : State) : List LexiconRequest → List LexiconReply × State
  | [] => ([], state)
  | request :: later =>
      let first := answer state request
      let rest := serve answer first.2 later
      (first.1 :: rest.1, rest.2)

def Lexicon.history (requests : List LexiconRequest) : List LexiconReply × Lexicon :=
  LexiconRequest.serve Lexicon.answer Lexicon.empty requests

def TextMap.history (requests : List LexiconRequest) : List LexiconReply × TextMap :=
  LexiconRequest.serve TextMap.answer ∅ requests

/-- The entry holds the text, and what it keeps beside the text is its normal form. -/
def Entry.Keeps (entry : Option Entry) (text : Option String) : Prop :=
  entry.map Entry.raw = text ∧ ∀ stored ∈ entry, stored.Faithful

def KeyMap.Keeps (entries : KeyMap Entry) (texts : TextMap) : Prop :=
  ∀ key, Entry.Keeps (entries.lookup key) (texts.lookup key)

theorem Entry.keeps_new (text : String) : Keeps (some (.new text)) (some text) := by
  refine ⟨rfl, ?_⟩
  rintro stored ⟨⟩
  exact faithful_new text

theorem Entry.Keeps.read {stored : Entry} {text : Option String}
    (keeps : Keeps (some stored) text) : Keeps (some stored.read.2) text := by
  refine ⟨keeps.1, ?_⟩
  rintro read ⟨⟩
  exact (keeps.2 stored rfl).read

theorem Entry.Keeps.shown {α : Type} {entry : Option Entry} {text : Option String}
    (keeps : Keeps entry text) (view : String → String → α) :
    (entry.map fun stored => view stored.raw stored.text) =
      text.map fun raw => view raw (normalizeColors raw) := by
  obtain ⟨rfl, faithful⟩ := keeps
  cases entry with
  | none => rfl
  | some stored => simp [(faithful stored rfl).text_eq]

namespace KeyMap.Keeps

variable {entries : KeyMap Entry} {texts : TextMap}

theorem empty : Keeps ∅ ∅ := fun _ => ⟨rfl, nofun⟩

theorem insert (keeps : entries.Keeps texts) (key : Key) (text : String) :
    Keeps (entries.insert key (Entry.new text)) (texts.insert key text) := by
  intro other
  by_cases same : other = key
  · subst same
    simpa using Entry.keeps_new text
  · simpa [same] using keeps other

theorem insertAll (keeps : entries.Keeps texts) (pairs : List (Key × String)) :
    Keeps (KeyMap.insertAll entries (pairs.map fun pair => (pair.1, Entry.new pair.2)))
      (KeyMap.insertAll texts pairs) := by
  induction pairs generalizing entries texts with
  | nil => exact keeps
  | cons pair rest ih => exact ih (keeps.insert pair.1 pair.2)

theorem erase (keeps : entries.Keeps texts) (key : Key) :
    Keeps (entries.erase key) (texts.erase key) := by
  intro other
  by_cases same : other = key
  · subst same
    rw [Finmap.lookup_erase, Finmap.lookup_erase]
    exact ⟨rfl, nofun⟩
  · simpa [same] using keeps other

theorem read (keeps : entries.Keeps texts) (key : Key) :
    Keeps (entries.update key fun entry => entry.read.2) texts := by
  unfold KeyMap.update
  cases found : entries.lookup key with
  | none => exact keeps
  | some stored =>
      intro other
      by_cases same : other = key
      · subst same
        have here := keeps other
        rw [found] at here
        simpa using here.read
      · simpa [same] using keeps other

theorem keys_eq (keeps : entries.Keeps texts) : entries.keys = texts.keys := by
  ext key
  rw [Finmap.mem_keys, Finmap.mem_keys, ← Finmap.lookup_isSome, ← Finmap.lookup_isSome,
    ← (keeps key).1, Option.isSome_map]

end KeyMap.Keeps

theorem LoadError.of?_eq_none_iff (pair : String × String) :
    LoadError.of? pair = none ↔ ∃ key, Key.parse pair.1 = .ok key := by
  unfold LoadError.of?
  cases Key.parse pair.1 <;> simp

theorem LoadError.isFirst_of_findSome? {error : LoadError} {pairs : List (String × String)}
    (found : pairs.findSome? LoadError.of? = some error) : error.IsFirst pairs := by
  obtain ⟨before, pair, after, whole, here, earlier⟩ := List.findSome?_eq_some_iff.mp found
  have sound (other : String × String) (member : other ∈ before) :=
    (of?_eq_none_iff other).mp (earlier other member)
  unfold LoadError.of? at here
  split at here
  · cases here
  · rename_i cause parsed
    obtain rfl := Option.some.inj here
    exact ⟨before, pair, after, whole, sound, rfl, parsed⟩

theorem parsePairs_eq (pairs : List (String × String)) :
    Lexicon.parsePairs pairs =
      match pairs.findSome? LoadError.of? with
      | some error => .error error
      | none => .ok ((namedTexts pairs).map fun pair => (pair.1, Entry.new pair.2)) := by
  induction pairs with
  | nil => rfl
  | cons pair later ih =>
      unfold Lexicon.parsePairs at ih ⊢
      rw [List.mapM_cons, ih]
      cases parsed : Key.parse pair.1 with
      | error cause =>
          simp only [List.findSome?_cons, LoadError.of?, parsed]
          rfl
      | ok key =>
          simp only [List.findSome?_cons, LoadError.of?, parsed, namedTexts]
          cases later.findSome? LoadError.of? with
          | some error => rfl
          | none =>
              simp [parsed, Except.toOption, Bind.bind, Except.bind, Pure.pure, Except.pure]

theorem ofPairs_eq (pairs : List (String × String)) :
    Lexicon.ofPairs pairs =
      match pairs.findSome? LoadError.of? with
      | some error => .error error
      | none =>
          .ok ⟨.ofList ((namedTexts pairs).map fun pair => (pair.1, Entry.new pair.2))⟩ := by
  rw [Lexicon.ofPairs, parsePairs_eq]
  cases pairs.findSome? LoadError.of? <;> rfl

def Lexicon.Holds (lexicon : Lexicon) (texts : TextMap) : Prop :=
  ∃ entries, lexicon.entries.Represents entries ∧ entries.Keeps texts

namespace Lexicon.Holds

variable {lexicon : Lexicon} {texts : TextMap}

theorem empty : Lexicon.empty.Holds ∅ := ⟨∅, .empty, .empty⟩

theorem shown {α : Type} (holds : lexicon.Holds texts) (key : Key) (view : String → String → α) :
    ((lexicon.entry? key).map fun entry => view entry.raw entry.text) =
      (texts.lookup key).map fun raw => view raw (normalizeColors raw) := by
  obtain ⟨entries, represents, keeps⟩ := holds
  rw [Lexicon.entry?, represents.values]
  exact (keeps key).shown view

theorem raw (holds : lexicon.Holds texts) (key : Key) : lexicon.raw? key = texts.lookup key := by
  rw [raw?, holds.shown key fun raw _ => raw, Option.map_id']

theorem text (holds : lexicon.Holds texts) (key : Key) :
    lexicon.text? key = (texts.lookup key).map normalizeColors :=
  holds.shown key fun _ text => text

theorem size (holds : lexicon.Holds texts) : lexicon.size = texts.keys.card := by
  obtain ⟨entries, represents, keeps⟩ := holds
  rw [Lexicon.size, represents.size_eq, keeps.keys_eq]

theorem lookup (holds : lexicon.Holds texts) (key : Key) :
    lexicon.lookup key = texts.keysFrom key := by
  obtain ⟨entries, represents, keeps⟩ := holds
  unfold Lexicon.lookup TextMap.keysFrom
  rw [← keeps.keys_eq]
  cases found : lexicon.entries.subtree? key.segments with
  | none =>
      have hidden : ¬ (lexicon.entries.view? key).isSome := by simp [KeyTree.view?, found]
      rw [represents.view?_isSome_iff] at hidden
      have bare : entries.keys.filter (Key.startsWith · key) = ∅ :=
        Finset.filter_eq_empty_iff.mpr fun stored member starts =>
          hidden (.inr ⟨stored, member, starts⟩)
      rw [bare, KeyTree.view?, found, Finset.sort_empty]
      rfl
  | some node =>
      have canonical := KeyTree.canonical_subtree represents.canonical found
      have walked := represents.toFinset_walk found
      have ascending : ((node.entriesFrom key).map (·.1)).Pairwise Key.UpTo := by
        refine List.pairwise_map.mpr ((KeyTree.entriesFrom_ascending canonical key).imp ?_)
        intro first second before
        rw [Key.UpTo, (Key.compare_eq_lt_iff _ _).mpr before]
        rfl
      have nodup := KeyTree.nodup_entriesFrom canonical key
      rw [← walked, (List.toFinset_sort Key.UpTo nodup).mpr ascending, KeyTree.view?, found]
      rfl

theorem read (holds : lexicon.Holds texts) (key : Key) : (lexicon.read key).2.Holds texts := by
  obtain ⟨entries, represents, keeps⟩ := holds
  exact ⟨_, represents.modify key _, keeps.read key⟩

theorem insert (holds : lexicon.Holds texts) (key : Key) (text : String) :
    (lexicon.insert key text).1 = texts.lookup key ∧
      (lexicon.insert key text).2.Holds (texts.insert key text) := by
  obtain ⟨entries, represents, keeps⟩ := holds
  refine ⟨?_, _, represents.insert key _, keeps.insert key text⟩
  rw [Lexicon.insert, KeyTree.insert_fst, represents.values]
  exact (keeps key).1

theorem remove (holds : lexicon.Holds texts) (key : Key) :
    (lexicon.remove key).1 = texts.lookup key ∧
      (lexicon.remove key).2.Holds (texts.erase key) := by
  obtain ⟨entries, represents, keeps⟩ := holds
  refine ⟨?_, _, represents.remove key, keeps.erase key⟩
  rw [Lexicon.remove, KeyTree.remove_fst key represents.canonical, represents.values]
  exact (keeps key).1

theorem load_fails (lexicon : Lexicon) {pairs : List (String × String)} {error : LoadError}
    (failed : pairs.findSome? LoadError.of? = some error) :
    lexicon.load pairs = (.error error, lexicon) := by
  rw [Lexicon.load, ofPairs_eq, failed]

theorem load_succeeds (lexicon : Lexicon) {pairs : List (String × String)}
    (sound : pairs.findSome? LoadError.of? = none) :
    (lexicon.load pairs).1 = .ok (TextMap.ofPairs pairs).keys.card ∧
      (lexicon.load pairs).2.Holds (TextMap.ofPairs pairs) := by
  have loaded : Lexicon.Holds
      ⟨.ofList ((namedTexts pairs).map fun pair => (pair.1, Entry.new pair.2))⟩
      (TextMap.ofPairs pairs) :=
    ⟨_, KeyTree.Represents.empty.insertAll _, KeyMap.Keeps.empty.insertAll _⟩
  rw [Lexicon.load, ofPairs_eq, sound]
  exact ⟨congrArg Except.ok loaded.size, loaded⟩

theorem answer (holds : lexicon.Holds texts) (request : LexiconRequest) :
    (lexicon.answer request).1 = (texts.answer request).1 ∧
      (lexicon.answer request).2.Holds (texts.answer request).2 := by
  cases request with
  | load pairs =>
      cases failed : pairs.findSome? LoadError.of? with
      | some error =>
          simp only [Lexicon.answer, TextMap.answer, load_fails lexicon failed, failed]
          exact ⟨trivial, holds⟩
      | none =>
          obtain ⟨count, held⟩ := load_succeeds lexicon failed
          simp only [Lexicon.answer, TextMap.answer, count, failed]
          exact ⟨trivial, held⟩
  | insert key text =>
      obtain ⟨previous, held⟩ := holds.insert key text
      exact ⟨congrArg LexiconReply.text previous, held⟩
  | remove key =>
      obtain ⟨previous, held⟩ := holds.remove key
      exact ⟨congrArg LexiconReply.text previous, held⟩
  | get key => exact ⟨congrArg LexiconReply.text (holds.text key), holds.read key⟩
  | raw key => exact ⟨congrArg LexiconReply.text (holds.raw key), holds⟩
  | entry key => exact ⟨congrArg LexiconReply.entry (holds.shown key Prod.mk), holds.read key⟩
  | lookup key => exact ⟨congrArg LexiconReply.keys (holds.lookup key), holds⟩

theorem serve (holds : lexicon.Holds texts) (requests : List LexiconRequest) :
    (LexiconRequest.serve Lexicon.answer lexicon requests).1 =
        (LexiconRequest.serve TextMap.answer texts requests).1 ∧
      (LexiconRequest.serve Lexicon.answer lexicon requests).2.Holds
        (LexiconRequest.serve TextMap.answer texts requests).2 := by
  induction requests generalizing lexicon texts with
  | nil => exact ⟨rfl, holds⟩
  | cons request later ih =>
      obtain ⟨first, next⟩ := holds.answer request
      obtain ⟨rest, last⟩ := ih next
      exact ⟨by simp only [LexiconRequest.serve, first, rest], last⟩

end Lexicon.Holds

/-- What a load does, whatever has come before it. -/
structure Lexicon.Loads (lexicon : Lexicon) (pairs : List (String × String)) : Prop where
  succeeds : (∃ count, (lexicon.load pairs).1 = .ok count) ↔
    ∀ pair ∈ pairs, ∃ key, Key.parse pair.1 = .ok key
  counts : ∀ count, (lexicon.load pairs).1 = .ok count →
    count = (TextMap.ofPairs pairs).keys.card ∧
      ∀ key, (lexicon.load pairs).2.raw? key = lastText? pairs key
  fails : ∀ error, (lexicon.load pairs).1 = .error error →
    error.IsFirst pairs ∧ (lexicon.load pairs).2 = lexicon

theorem Lexicon.loads (lexicon : Lexicon) (pairs : List (String × String)) :
    lexicon.Loads pairs := by
  cases failed : pairs.findSome? LoadError.of? with
  | some error =>
      have outcome := Holds.load_fails lexicon failed
      have first := LoadError.isFirst_of_findSome? failed
      refine ⟨⟨?_, fun all => ?_⟩, ?_, ?_⟩
      · rintro ⟨count, succeeded⟩
        rw [outcome] at succeeded
        cases succeeded
      · obtain ⟨_, pair, _, whole, _, _, invalid⟩ := first
        obtain ⟨key, parsed⟩ := all pair (by simp [whole])
        cases parsed.symm.trans invalid
      · intro count succeeded
        rw [outcome] at succeeded
        cases succeeded
      · intro other fault
        rw [outcome] at fault ⊢
        cases fault
        exact ⟨first, rfl⟩
  | none =>
      obtain ⟨count, held⟩ := Holds.load_succeeds lexicon failed
      refine ⟨⟨fun _ pair member => ?_, fun _ => ⟨_, count⟩⟩, ?_, ?_⟩
      · exact (LoadError.of?_eq_none_iff pair).mp (List.findSome?_eq_none_iff.mp failed pair member)
      · intro other succeeded
        refine ⟨Except.ok.inj (succeeded.symm.trans count), fun key => ?_⟩
        rw [held.raw, TextMap.lookup_ofPairs]
      · intro error fault
        cases fault.symm.trans count

/-- A lexicon answers every history of requests like a finite map from keys to texts, however often
its texts are read, overwritten and loaded anew. -/
theorem Lexicon.history_as_texts (requests : List LexiconRequest) :
    (history requests).1 = (TextMap.history requests).1 ∧
      (∀ key, (history requests).2.raw? key = (TextMap.history requests).2.lookup key ∧
        (history requests).2.text? key =
          ((TextMap.history requests).2.lookup key).map normalizeColors) ∧
      ∀ pairs, (history requests).2.Loads pairs := by
  obtain ⟨replies, holds⟩ := Holds.empty.serve requests
  exact ⟨replies, fun key => ⟨holds.raw key, holds.text key⟩, (history requests).2.loads⟩

end Phrasebook
