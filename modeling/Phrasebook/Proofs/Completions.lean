import Phrasebook.Proofs.Loads

/-!
Completion of partially typed keys. What is offered for a typed text are the names that begin as its
end is typed and lead to something stored, in their order. So the segment that the typing of a key
has come to is always among them, and a name that is offered leads on, but behind a dot in front of
everything: the empty path before that dot is taken for the root.
-/

namespace Phrasebook

def LexiconRequest.named : LexiconRequest → List Key
  | .load _ => []
  | .insert key _ => [key]
  | .remove key => [key]
  | .get key => [key]
  | .raw key => [key]
  | .entry key => [key]
  | .lookup key => [key]

def LexiconRequest.Valid (request : LexiconRequest) : Prop :=
  ∀ key ∈ request.named, key.Valid

instance (request : LexiconRequest) : Decidable request.Valid :=
  inferInstanceAs (Decidable (∀ key ∈ request.named, key.Valid))

def TextMap.Valid (texts : TextMap) : Prop := ∀ key ∈ texts.keys, key.Valid

namespace TextMap.Valid

variable {texts : TextMap}

theorem empty : Valid ∅ := by
  intro key member
  simp at member

theorem insert (valid : texts.Valid) {key : Key} (named : key.Valid) (text : String) :
    Valid (texts.insert key text) := by
  intro other member
  rw [Finmap.mem_keys, Finmap.mem_insert] at member
  rcases member with rfl | before
  · exact named
  · exact valid other (Finmap.mem_keys.mpr before)

theorem insertAll (valid : texts.Valid) {pairs : List (Key × String)}
    (named : ∀ pair ∈ pairs, pair.1.Valid) : Valid (KeyMap.insertAll texts pairs) := by
  induction pairs generalizing texts with
  | nil => exact valid
  | cons pair rest ih =>
      obtain ⟨here, later⟩ := List.forall_mem_cons.mp named
      exact ih (valid.insert here pair.2) later

theorem erase (valid : texts.Valid) (key : Key) : Valid (texts.erase key) := by
  intro other member
  rw [Finmap.mem_keys, Finmap.mem_erase] at member
  exact valid other (Finmap.mem_keys.mpr member.2)

theorem ofPairs (pairs : List (String × String)) : (TextMap.ofPairs pairs).Valid := by
  refine empty.insertAll fun pair listed => ?_
  obtain ⟨given, _, named⟩ := List.mem_filterMap.mp listed
  cases parsed : Key.parse given.1 with
  | error cause => simp [parsed, Except.toOption] at named
  | ok key =>
      obtain rfl : (key, given.2) = pair := by simpa [parsed, Except.toOption] using named
      exact Key.valid_of_parse parsed

theorem answer (valid : texts.Valid) {request : LexiconRequest} (named : request.Valid) :
    (texts.answer request).2.Valid := by
  cases request with
  | load pairs =>
      simp only [TextMap.answer]
      split
      · exact valid
      · exact ofPairs pairs
  | insert key text => exact valid.insert (named key List.mem_cons_self) text
  | remove key => exact valid.erase key
  | _ => exact valid

theorem serve (valid : texts.Valid) {requests : List LexiconRequest}
    (named : ∀ request ∈ requests, request.Valid) :
    (LexiconRequest.serve TextMap.answer texts requests).2.Valid := by
  induction requests generalizing texts with
  | nil => exact valid
  | cons request later ih =>
      obtain ⟨here, behind⟩ := List.forall_mem_cons.mp named
      exact ih (valid.answer here) behind

end TextMap.Valid

theorem Lexicon.holds_history {requests : List LexiconRequest}
    (named : ∀ request ∈ requests, request.Valid) :
    ∃ texts : TextMap, (history requests).2.Holds texts ∧ texts.Valid :=
  ⟨_, (Holds.empty.serve requests).2, TextMap.Valid.empty.serve named⟩

theorem Branches.isSome_find?_iff {α : Type*} (branches : Branches α) (name : String) :
    (branches.find? name).isSome ↔ name ∈ branches.names := by
  induction branches with
  | nil => simp [find?, names]
  | cons other value count below next _ ih =>
      rw [find?, names, List.mem_cons]
      split
      · rename_i same
        simp [same]
      · rename_i different
        simp [ih, Ne.symm different]

namespace Lexicon

/-- Something is stored at the key or below it. -/
def StoresFrom (lexicon : Lexicon) (key : Key) : Prop :=
  ∃ stored, lexicon.contains stored = true ∧ stored.startsWith key = true

variable {lexicon : Lexicon} {texts : TextMap}

theorem Holds.contains_iff (holds : lexicon.Holds texts) (key : Key) :
    lexicon.contains key = true ↔ key ∈ texts.keys := by
  obtain ⟨entries, represents, keeps⟩ := holds
  rw [contains, KeyTree.contains, represents.isSome_iff, keeps.keys_eq]

theorem Holds.isSome_view?_iff (holds : lexicon.Holds texts) {key : Key} (below : key ≠ Key.root) :
    (lexicon.entries.view? key).isSome ↔ lexicon.StoresFrom key := by
  have found := holds.contains_iff
  obtain ⟨entries, represents, keeps⟩ := holds
  rw [represents.view?_isSome_iff, keeps.keys_eq, or_iff_right below]
  simp only [StoresFrom, found]

/-- What is offered: the names that begin as typed and lead to something that is stored. -/
theorem Holds.mem_options_iff (holds : lexicon.Holds texts) (typed name : String) :
    name ∈ lexicon.options typed ↔
      ∃ path, Key.parse (splitTyped typed).1 = .ok path ∧
        (splitTyped typed).2.toList <+: name.toList ∧ lexicon.StoresFrom (path.child name) := by
  unfold options
  cases parsed : Key.parse (splitTyped typed).1 with
  | error cause => simp [parsed]
  | ok path =>
      simp only [parsed, Except.ok.injEq, exists_eq_left']
      rw [← holds.isSome_view?_iff (path.child_ne_root name)]
      cases found : lexicon.entries.view? path with
      | none =>
          have absent : lexicon.entries.subtree? path.segments = none :=
            Option.map_eq_none_iff.mp found
          have hidden : lexicon.entries.view? (path.child name) = none := by
            rw [KeyTree.view?, Key.segments_child, KeyTree.subtree?_append, absent]
            rfl
          simp [hidden]
      | some view =>
          rw [← KeyTree.child?_of_view? found, KeyView.child?, Option.isSome_map,
            Branches.isSome_find?_iff, List.mem_filter, List.isPrefixOf_iff_prefix, and_comm]
          rfl

theorem Holds.options_ascending (holds : lexicon.Holds texts) (typed : String) :
    (lexicon.options typed).Pairwise (· < ·) := by
  obtain ⟨entries, represents, keeps⟩ := holds
  unfold options
  simp only
  split
  · exact .nil
  · split
    · exact .nil
    · rename_i key view found
      obtain ⟨node, here, rfl⟩ := Option.map_eq_some_iff.mp found
      have canonical := KeyTree.canonical_subtree represents.canonical here
      exact (KeyTree.names_ascending canonical.branches).filter _

theorem StoresFrom.valid (holds : lexicon.Holds texts) (valid : texts.Valid) {key : Key}
    (leads : lexicon.StoresFrom key) : key.Valid := by
  obtain ⟨stored, held, starts⟩ := leads
  intro segment listed
  exact valid stored ((holds.contains_iff stored).mp held) segment
    ((List.isPrefixOf_iff_prefix.mp starts).subset listed)

end Lexicon

namespace Key

theorem count_text {key : Key} (below : key ≠ root)
    (solid : ∀ segment ∈ key.segments, '.' ∉ segment.toList) :
    key.text.toList.count '.' + 1 = key.length := by
  rw [← Text.length_fields, fields_text below solid, List.length_map, length]

theorem cut_text {key : Key} (below : key ≠ root) {typed : String}
    (cut : typed.toList <+: key.text.toList) :
    ∃ (path : Key) (segment : String) (rest : List String) (start : String),
      key.segments = path.segments ++ segment :: rest ∧
      start.toList <+: segment.toList ∧ typed = (path.child start).text := by
  have nonempty : key.segments.map String.toList ≠ [] :=
    fun bare => segments_ne_nil below (List.map_eq_nil_iff.mp bare)
  rw [toList_text] at cut
  obtain ⟨before, stretch, after, start, split, starts, same⟩ := Text.cut_joined nonempty cut
  obtain ⟨path, behind, whole, rfl, named⟩ := List.map_eq_append_iff.mp split
  obtain ⟨segment, rest, rfl, rfl, -⟩ := List.map_eq_cons_iff.mp named
  refine ⟨⟨path⟩, segment, rest, String.ofList start, whole, by rwa [String.toList_ofList], ?_⟩
  rw [← String.toList_inj, same, toList_text, segments_child, List.map_append, List.map_singleton,
    String.toList_ofList]

theorem parse_behind_dot (text : String) :
    parse ("." ++ text) = .error ⟨"." ++ text, 0, "", .empty⟩ := by
  have filled : ("." ++ text).isEmpty = false := by
    refine Bool.eq_false_iff.mpr fun empty => ?_
    have bare := congrArg String.toList (String.isEmpty_iff.mp empty)
    rw [String.toList_append] at bare
    cases bare
  have fields : Text.fields '.' ("." ++ text).toList = [] :: Text.fields '.' text.toList := by
    rw [String.toList_append]
    exact Text.fields_append text.toList List.not_mem_nil
  simp only [parse, splitKey, filled, fields, violation?]
  rfl

end Key

namespace Lexicon

/-- A typed text whose unfinished end is replaced by a name. -/
def completed (typed name : String) : String :=
  match Text.splitLast? '.' typed.toList with
  | some (path, _) => String.ofList path ++ "." ++ name
  | none => name

theorem solid_or_dotted (typed : String) :
    '.' ∉ typed.toList ∨ ∃ path start, '.' ∉ start.toList ∧ typed = path ++ "." ++ start := by
  cases found : Text.splitLast? '.' typed.toList with
  | none => exact .inl ((Text.splitLast?_eq_none_iff _ _).mp found)
  | some parts =>
      obtain ⟨whole, solid⟩ := Text.splitLast?_eq_some found
      refine .inr ⟨String.ofList parts.1, String.ofList parts.2, by rwa [String.toList_ofList], ?_⟩
      rw [← String.toList_inj, whole]
      simp

section Typed

variable {start : String} (solid : '.' ∉ start.toList)

include solid

theorem splitTyped_solid : splitTyped start = ("", start) := by
  rw [splitTyped, (Text.splitLast?_eq_none_iff _ _).mpr solid]

theorem completed_solid (name : String) : completed start name = name := by
  rw [completed, (Text.splitLast?_eq_none_iff _ _).mpr solid]

theorem splitLast?_dotted (path : String) :
    Text.splitLast? '.' (path ++ "." ++ start).toList = some (path.toList, start.toList) := by
  have dotted : (path ++ "." ++ start).toList = path.toList ++ '.' :: start.toList := by
    rw [String.toList_append, String.toList_append, List.append_assoc]
    rfl
  rw [dotted, Text.splitLast?_append path.toList solid]

theorem splitTyped_dotted (path : String) : splitTyped (path ++ "." ++ start) = (path, start) := by
  rw [splitTyped, splitLast?_dotted solid path]
  simp

theorem completed_dotted (path name : String) :
    completed (path ++ "." ++ start) name = path ++ "." ++ name := by
  rw [completed, splitLast?_dotted solid path]
  simp

theorem splitTyped_text (path : Key) : splitTyped (path.child start).text = (path.text, start) := by
  by_cases top : path = Key.root
  · rw [top, Key.text_child_root]
    exact splitTyped_solid solid
  · rw [Key.text_child top, splitTyped_dotted solid path.text]

theorem options_behind_dot (lexicon : Lexicon) :
    lexicon.options ("." ++ start) = lexicon.options start := by
  have split : splitTyped ("." ++ start) = ("", start) := splitTyped_dotted solid ""
  rw [options, options, split, splitTyped_solid solid]

end Typed

variable {lexicon : Lexicon} {texts : TextMap}

theorem Holds.offers_segment (holds : lexicon.Holds texts) {key : Key} (valid : key.Valid)
    (stored : lexicon.contains key = true) (below : key ≠ Key.root) {typed : String}
    (cut : typed.toList <+: key.text.toList) :
    ∃ segment ∈ lexicon.options typed,
      key.segments[typed.toList.count '.']? = some segment := by
  obtain ⟨path, segment, rest, start, split, starts, rfl⟩ := Key.cut_text below cut
  have listed : path.segments ++ [segment] <+: key.segments := by
    rw [split, List.append_cons path.segments segment rest]
    exact List.prefix_append _ rest
  have above : path.Valid := fun other here =>
    valid other (listed.subset (List.mem_append_left _ here))
  have solid : '.' ∉ start.toList := fun dotted =>
    valid.solid (listed.subset List.mem_concat_self) (starts.subset dotted)
  refine ⟨segment, (holds.mem_options_iff _ _).mpr ?_, ?_⟩
  · rw [splitTyped_text solid path]
    exact ⟨path, above.parse_text, starts, key, stored, List.isPrefixOf_iff_prefix.mpr listed⟩
  · have dots := Key.count_text (path.child_ne_root start)
      (List.forall_mem_append.mpr ⟨fun _ => above.solid, List.forall_mem_singleton.mpr solid⟩)
    have place : (path.child start).text.toList.count '.' = path.segments.length := by
      simpa [Key.length] using dots
    rw [place, split, List.getElem?_append_right (Nat.le_refl _), Nat.sub_self]
    rfl

/-- A name that is offered makes the typed text a key that leads to an entry, unless the text begins
with its only dot. -/
theorem Holds.offered_leads (holds : lexicon.Holds texts) (valid : texts.Valid)
    {typed name : String} (offered : name ∈ lexicon.options typed)
    (ordinary : ∀ start : String, '.' ∉ start.toList → typed ≠ "." ++ start) :
    ∃ key, Key.parse (completed typed name) = .ok key ∧ lexicon.StoresFrom key := by
  obtain ⟨path, parsed, -, leads⟩ := (holds.mem_options_iff typed name).mp offered
  refine ⟨path.child name, ?_, leads⟩
  have read := (leads.valid holds valid).parse_text
  rcases solid_or_dotted typed with solid | ⟨before, start, solid, rfl⟩
  · rw [splitTyped_solid solid, Key.parse_empty] at parsed
    cases parsed
    rwa [completed_solid solid name]
  · rw [splitTyped_dotted solid before] at parsed
    have named : path.text = before := Key.text_of_parse parsed
    -- A path that is the root has no text: then nothing stands in front of the dot.
    have below : path ≠ Key.root := by
      rintro rfl
      exact ordinary start solid (by rw [← named, Key.text_root, String.empty_append])
    rwa [completed_dotted solid before name, ← named, ← Key.text_child below]

def shelves : List LexiconRequest :=
  [.load [("UI.Item.Sword", "Sword"), ("UI.Item.Shield.name", "Shield"), ("UI", "Menu")],
    .insert ⟨["UI", "Item"]⟩ "Thing", .remove ⟨["UI"]⟩, .get ⟨["UI", "Item", "Sword"]⟩]

/-- Completion never misses. Wherever the typing of a stored key stops, also at a dot or at its end,
the segment that it has come to is offered. The names are offered in order, each of them once. -/
theorem options_complete (requests : List LexiconRequest)
    (named : ∀ request ∈ requests, request.Valid) :
    (∀ key, (history requests).2.contains key = true → key ≠ Key.root →
        ∀ typed : String, typed.toList <+: key.text.toList →
          ∃ segment ∈ (history requests).2.options typed,
            key.segments[typed.toList.count '.']? = some segment) ∧
      ∀ typed, ((history requests).2.options typed).Pairwise (· < ·) ∧
        ((history requests).2.options typed).Nodup := by
  obtain ⟨texts, holds, valid⟩ := holds_history named
  refine ⟨fun key stored below typed cut => ?_, fun typed => ?_⟩
  · have sound := valid key ((holds.contains_iff key).mp stored)
    exact holds.offers_segment sound stored below cut
  · have ascending := holds.options_ascending typed
    exact ⟨ascending, ascending.imp fun before => ne_of_lt before⟩

theorem options_complete_shelves :
    (∀ request ∈ shelves, request.Valid) ∧
      (∃ segment ∈ (history shelves).2.options "UI.Item.S",
        ["UI", "Item", "Shield", "name"][2]? = some segment) ∧
      (history shelves).2.options "UI.Item.S" = ["Shield", "Sword"] ∧
      (history shelves).2.options "UI." = ["Item"] ∧
      ((history shelves).2.options "UI.Item.S").Nodup := by
  have named : ∀ request ∈ shelves, request.Valid := by decide
  obtain ⟨offers, ordered⟩ := options_complete shelves named
  refine ⟨named, ?_, by decide +kernel, by decide +kernel, (ordered "UI.Item.S").2⟩
  exact offers ⟨["UI", "Item", "Shield", "name"]⟩ (by decide +kernel) (by decide) "UI.Item.S"
    (by decide +kernel)

/-- What is offered leads on. Put in the place of the end of the typed text, a name that is offered
makes it a key with an entry at or below it. The one exception is a text that begins with its only
dot: it is completed as if the dot was not there, and no key begins with a dot. -/
theorem options_lead_on (requests : List LexiconRequest)
    (named : ∀ request ∈ requests, request.Valid) :
    (∀ typed name, name ∈ (history requests).2.options typed →
        (∀ start : String, '.' ∉ start.toList → typed ≠ "." ++ start) →
          ∃ key, Key.parse (completed typed name) = .ok key ∧
            (history requests).2.StoresFrom key) ∧
      ∀ start : String, '.' ∉ start.toList →
        (history requests).2.options ("." ++ start) = (history requests).2.options start ∧
          ∀ name, Key.parse (completed ("." ++ start) name) =
            .error ⟨"." ++ name, 0, "", .empty⟩ := by
  obtain ⟨texts, holds, valid⟩ := holds_history named
  refine ⟨fun typed name offered ordinary => ?_, fun start solid => ⟨?_, fun name => ?_⟩⟩
  · exact holds.offered_leads valid offered ordinary
  · exact options_behind_dot solid _
  · have behind : completed ("." ++ start) name = "." ++ name := completed_dotted solid "" name
    rw [behind]
    exact Key.parse_behind_dot name

theorem options_lead_on_shelves :
    (∀ request ∈ shelves, request.Valid) ∧
      (∃ key, Key.parse (completed "UI.Item.Sh" "Shield") = .ok key ∧
        (history shelves).2.StoresFrom key) ∧
      completed "UI.Item.Sh" "Shield" = "UI.Item.Shield" ∧
      (history shelves).2.options ".U" = (history shelves).2.options "U" := by
  have named : ∀ request ∈ shelves, request.Valid := by decide
  obtain ⟨leads, behind⟩ := options_lead_on shelves named
  refine ⟨named, ?_, by decide +kernel, (behind "U" (by decide)).1⟩
  refine leads "UI.Item.Sh" "Shield" (by decide +kernel) fun start solid same => ?_
  have first := congrArg String.toList same
  rw [String.toList_append] at first
  cases first

/-- A name is offered behind a dot with which no key can begin. -/
theorem options_lead_nowhere :
    "UI" ∈ (history [.insert ⟨["UI"]⟩ "Menu"]).2.options ".U" ∧
      completed ".U" "UI" = ".UI" ∧
      ¬ ∃ key, Key.parse (completed ".U" "UI") = .ok key := by
  refine ⟨by decide +kernel, by decide +kernel, ?_⟩
  rintro ⟨key, parsed⟩
  have refused : Key.parse (completed ".U" "UI") = .error ⟨".UI", 0, "", .empty⟩ := by
    decide +kernel
  cases refused.symm.trans parsed

end Lexicon

end Phrasebook
