import Mathlib
import Phrasebook.Dictionary
import Phrasebook.Proofs.Loads

/-!
Dictionaries and the leaves of their JSON. The flattening of an object keeps every leaf that is a
phrase, in order, or reports the first one that is none. The key of a leaf is the path to it, except
that empty names at its front are lost: a group without a path is taken for the outermost one.
-/

namespace Phrasebook

/-- A value that is no object, with the names on the way to it. -/
structure JsonLeaf where
  path : List String
  value : Json

mutual

/-- The leaves of a value in the order in which they stand. -/
def Json.leaves : Json → List JsonLeaf
  | .object members => membersLeaves members
  | value => [⟨[], value⟩]

def Json.membersLeaves : List (String × Json) → List JsonLeaf
  | [] => []
  | (name, value) :: rest =>
      value.leaves.map (fun leaf => ⟨name :: leaf.path, leaf.value⟩) ++ membersLeaves rest

end

def Json.phrase? : Json → Option String
  | .string text => some text
  | .number value => some value.text
  | .bool value => some (if value then "true" else "false")
  | _ => none

namespace Dictionary

section Collect

variable (keyOf : List String → String)

/-- The phrases of leaves in order, up to a leaf that is no phrase. -/
def collect (leaves : List JsonLeaf) : Except DictionaryError (List (String × String)) :=
  leaves.mapM fun leaf =>
    match leaf.value.phrase? with
    | some text => .ok (keyOf leaf.path, text)
    | none => .error (.unsupported (keyOf leaf.path) leaf.value)

theorem collect_cons (leaf : JsonLeaf) (rest : List JsonLeaf) :
    collect keyOf (leaf :: rest) =
      match leaf.value.phrase? with
      | some text => (collect keyOf rest).map fun others => (keyOf leaf.path, text) :: others
      | none => .error (.unsupported (keyOf leaf.path) leaf.value) := by
  unfold collect
  rw [List.mapM_cons]
  cases leaf.value.phrase? <;> rfl

theorem collect_append (first second : List JsonLeaf) :
    collect keyOf (first ++ second) = (do
      let before ← collect keyOf first
      let after ← collect keyOf second
      .ok (before ++ after)) := by
  unfold collect
  rw [List.mapM_append]
  rfl

theorem collect_map (name : String) (leaves : List JsonLeaf) :
    collect keyOf (leaves.map fun leaf => ⟨name :: leaf.path, leaf.value⟩) =
      collect (fun path => keyOf (name :: path)) leaves := by
  unfold collect
  rw [List.mapM_map]
  rfl

theorem collect_keeps {leaves : List JsonLeaf} {pairs : List (String × String)}
    (collected : collect keyOf leaves = .ok pairs) :
    pairs.map Prod.fst = leaves.map (fun leaf => keyOf leaf.path) ∧
      pairs.map (fun pair => some pair.2) = leaves.map fun leaf => leaf.value.phrase? := by
  induction leaves generalizing pairs with
  | nil =>
      obtain rfl : [] = pairs := Except.ok.inj collected
      exact ⟨rfl, rfl⟩
  | cons leaf rest ih =>
      rw [collect_cons] at collected
      cases phrase : leaf.value.phrase? with
      | none => simp [phrase] at collected
      | some text =>
          cases later : collect keyOf rest with
          | error cause => simp [phrase, later, Except.map] at collected
          | ok others =>
              obtain rfl : (keyOf leaf.path, text) :: others = pairs := by
                simpa [phrase, later, Except.map] using collected
              obtain ⟨keys, texts⟩ := ih later
              exact ⟨by rw [List.map_cons, List.map_cons, keys],
                by rw [List.map_cons, List.map_cons, texts, phrase]⟩

theorem collect_phrases {leaves : List JsonLeaf}
    (phrases : ∀ leaf ∈ leaves, leaf.value.phrase?.isSome) :
    ∃ pairs, collect keyOf leaves = .ok pairs := by
  induction leaves with
  | nil => exact ⟨[], rfl⟩
  | cons leaf rest ih =>
      obtain ⟨here, later⟩ := List.forall_mem_cons.mp phrases
      obtain ⟨text, phrase⟩ := Option.isSome_iff_exists.mp here
      obtain ⟨others, collected⟩ := ih later
      exact ⟨(keyOf leaf.path, text) :: others, by rw [collect_cons, phrase, collected]; rfl⟩

theorem collect_refused {before after : List JsonLeaf} {leaf : JsonLeaf}
    (phrases : ∀ earlier ∈ before, earlier.value.phrase?.isSome)
    (refused : leaf.value.phrase? = none) :
    collect keyOf (before ++ leaf :: after) =
      .error (.unsupported (keyOf leaf.path) leaf.value) := by
  obtain ⟨pairs, collected⟩ := collect_phrases keyOf phrases
  rw [collect_append, collected, collect_cons, refused]
  rfl

end Collect

mutual

theorem flattenValue_eq (path : String) :
    ∀ value, flattenValue path value = collect (List.foldl pathTo path) value.leaves
  | .object members => by
      rw [flattenValue, Json.leaves]
      exact flatten_eq path members
  | .string _ => rfl
  | .number _ => rfl
  | .bool _ => rfl
  | .array _ => rfl
  | .null => rfl

theorem flatten_eq (group : String) :
    ∀ members,
      flatten group members = collect (List.foldl pathTo group) (Json.membersLeaves members)
  | [] => rfl
  | (name, value) :: rest => by
      rw [flatten, Json.membersLeaves, collect_append, collect_map, flattenValue_eq, flatten_eq]
      rfl

end

/-- The key of a path: its names from the first one on that is not empty, joined by dots. -/
def keyText (path : List String) : String :=
  ".".intercalate (path.dropWhile (· = ""))

@[simp] theorem keyText_nameless (rest : List String) : keyText ("" :: rest) = keyText rest := by
  rw [keyText, List.dropWhile_cons_of_pos rfl, keyText]

theorem keyText_named {name : String} (named : name ≠ "") (rest : List String) :
    keyText (name :: rest) = ".".intercalate (name :: rest) := by
  rw [keyText, List.dropWhile_cons_of_neg (by simpa using named)]

theorem foldl_pathTo {group : String} (named : group ≠ "") (path : List String) :
    path.foldl pathTo group = ".".intercalate (group :: path) := by
  induction path generalizing group with
  | nil => exact String.intercalate_singleton.symm
  | cons name rest ih =>
      have longer : group ++ "." ++ name ≠ "" := by simp [named]
      have below : pathTo group name = group ++ "." ++ name := by simp [pathTo, named]
      rw [List.foldl_cons, below, ih longer]
      rfl

theorem foldl_pathTo_empty (path : List String) : path.foldl pathTo "" = keyText path := by
  induction path with
  | nil => rfl
  | cons name rest ih =>
      have top : pathTo "" name = name := rfl
      rw [List.foldl_cons, top]
      by_cases bare : name = ""
      · rw [bare, ih, keyText_nameless]
      · rw [foldl_pathTo bare, keyText_named bare]

theorem length_keyText_le (path : List String) :
    (keyText path).length ≤ (".".intercalate path).length := by
  induction path with
  | nil => exact Nat.le_refl _
  | cons name rest ih =>
      by_cases bare : name = ""
      · rw [bare, keyText_nameless]
        cases rest with
        | nil => exact Nat.le_refl _
        | cons second others =>
            rw [String.intercalate_cons_cons, String.length_append]
            omega
      · rw [keyText_named bare]

/-- The key is the whole path, unless an empty name in front was lost with the dot behind it. -/
theorem keyText_eq_iff (path : List String) :
    keyText path = ".".intercalate path ↔ (path.head? = some "" → path = [""]) := by
  cases path with
  | nil => exact iff_of_true rfl nofun
  | cons name rest =>
      by_cases bare : name = ""
      · cases rest with
        | nil => exact iff_of_true (by rw [bare, keyText_nameless]; rfl) fun _ => by rw [bare]
        | cons second others =>
            -- The path has a dot more than the rest of it, which is no shorter than the key.
            have shorter := length_keyText_le (second :: others)
            refine iff_of_false (fun same => ?_) (by simp [bare])
            have length := congrArg String.length same
            rw [bare, keyText_nameless, String.intercalate_cons_cons, String.length_append,
              String.length_append] at length
            have dot : ".".length = 1 := rfl
            omega
      · exact iff_of_true (keyText_named bare rest) (by simp [bare])

end Dictionary

theorem Key.parse_joined_ne_ok {names : List String} (bare : "" ∈ names) (more : names ≠ [""])
    (key : Key) : parse (".".intercalate names) ≠ .ok key := by
  intro parsed
  have text := text_of_parse parsed
  have valid := valid_of_parse parsed
  -- Two names have a dot between them, and the text of the root has none.
  have below : key ≠ root := by
    rintro rfl
    match names, bare, more with
    | [_], listed, more => exact more (by rw [List.mem_singleton.mp listed])
    | _ :: _ :: _, _, _ => simp [String.intercalate_cons_cons] at text
  have nonempty : names.map String.toList ≠ [] := by
    simpa using List.ne_nil_of_mem bare
  have empty : [] ∈ Text.fields '.' key.text.toList := by
    rw [text, String.toList_intercalate]
    change [] ∈ Text.fields '.' (List.intercalate ['.'] _)
    rw [Text.fields_joined nonempty]
    exact List.mem_flatMap.mpr ⟨_, List.mem_map_of_mem bare, List.mem_singleton_self []⟩
  rw [fields_text below fun _ => valid.solid] at empty
  obtain ⟨segment, listed, none⟩ := List.mem_map.mp empty
  exact ((segmentFault?_eq_none_iff _).mp (valid segment listed)).1 none

namespace Dictionary

theorem parse_keyText_ne_ok {name : String} {before behind : List String} (named : name ≠ "")
    (bare : "" ∈ behind) (key : Key) :
    Key.parse (keyText (before ++ name :: behind)) ≠ .ok key := by
  induction before with
  | nil =>
      rw [List.nil_append, keyText_named named]
      exact Key.parse_joined_ne_ok (List.mem_cons_of_mem _ bare) (by simp [named]) key
  | cons first rest ih =>
      by_cases empty : first = ""
      · rwa [empty, List.cons_append, keyText_nameless]
      · rw [List.cons_append, keyText_named empty]
        exact Key.parse_joined_ne_ok (by simp [bare]) (by simp [empty]) key

theorem lexicon_ok_iff (pairs : List (String × String)) :
    (∃ lexicon, Dictionary.lexicon pairs = .ok lexicon) ↔
      ∀ pair ∈ pairs, ∃ key, Key.parse pair.1 = .ok key := by
  have sound := List.findSome?_eq_none_iff (p := LoadError.of?) (l := pairs)
  simp only [LoadError.of?_eq_none_iff] at sound
  rw [← sound, Dictionary.lexicon, ofPairs_eq]
  cases pairs.findSome? LoadError.of? <;> simp [Except.mapError]

structure Flattened (members : List (String × Json))
    (outcome : Except DictionaryError (List (String × String))) : Prop where
  /-- If all leaves are phrases, each of them gets a pair, in order. -/
  kept : (∀ leaf ∈ Json.membersLeaves members, leaf.value.phrase?.isSome) →
    ∃ pairs, outcome = .ok pairs ∧
      pairs.map Prod.fst = (Json.membersLeaves members).map (fun leaf => keyText leaf.path) ∧
      pairs.map (fun pair => some pair.2) =
        (Json.membersLeaves members).map fun leaf => leaf.value.phrase?
  /-- Otherwise the first leaf that is no phrase is reported. -/
  refused : ∀ before leaf after, Json.membersLeaves members = before ++ leaf :: after →
    (∀ earlier ∈ before, earlier.value.phrase?.isSome) → leaf.value.phrase? = none →
      outcome = .error (.unsupported (keyText leaf.path) leaf.value)
  /-- The key is the whole path, unless that begins with an empty name and goes on. -/
  whole : ∀ leaf ∈ Json.membersLeaves members,
    (keyText leaf.path = ".".intercalate leaf.path ↔
      (leaf.path.head? = some "" → leaf.path = [""]))
  /-- An empty name behind another one keeps the dictionary from being loaded. -/
  unloadable : ∀ leaf ∈ Json.membersLeaves members, ∀ before name behind,
    leaf.path = before ++ name :: behind → name ≠ "" → "" ∈ behind →
      ∀ pairs, outcome = .ok pairs → ∀ lexicon, Dictionary.lexicon pairs ≠ .ok lexicon

theorem flatten_flattened (members : List (String × Json)) :
    Flattened members (flatten "" members) := by
  have top : List.foldl pathTo "" = keyText := funext foldl_pathTo_empty
  rw [flatten_eq, top]
  constructor
  case kept =>
    intro phrases
    obtain ⟨pairs, collected⟩ := collect_phrases keyText phrases
    exact ⟨pairs, collected, collect_keeps keyText collected⟩
  case refused =>
    intro before leaf after split phrases other
    rw [split]
    exact collect_refused keyText phrases other
  case whole => exact fun leaf _ => keyText_eq_iff leaf.path
  case unloadable =>
    intro leaf listed before name behind path named bare pairs collected lexicon loaded
    obtain ⟨keys, -⟩ := collect_keeps keyText collected
    obtain ⟨pair, given, same⟩ := List.mem_map.mp (keys ▸ List.mem_map_of_mem listed)
    obtain ⟨key, parsed⟩ := (lexicon_ok_iff pairs).mp ⟨lexicon, loaded⟩ pair given
    rw [same, path] at parsed
    exact parse_keyText_ne_ok named bare key parsed

theorem ofJson_nameless (members : List (String × Json)) :
    ofJson (.object [("", .object members)]) = ofJson (.object members) := by
  -- An outermost group without a name might as well not be there.
  have top : pathTo "" "" = "" := rfl
  simp only [ofJson, flatten, flattenValue, top]
  cases flatten "" members with
  | error cause => rfl
  | ok pairs => exact congrArg Except.ok (List.append_nil pairs)

/-- Flattening keeps every path from its first name on that is not empty, whatever the nesting. What
stands in front of that name makes no difference. -/
theorem paths_kept (members : List (String × Json)) :
    Flattened members (ofJson (.object members)) ∧
      (∀ content, Json.read? content = some (.object members) →
        Flattened members (read content)) ∧
      ofJson (.object [("", .object members)]) = ofJson (.object members) := by
  refine ⟨flatten_flattened members, fun content written => ?_, ofJson_nameless members⟩
  rw [read, written]
  exact flatten_flattened members

def gapped : List (String × Json) :=
  [("a", .object [("", .string "x"), ("b", .bool true)]), ("c", .string "z")]

theorem paths_kept_gapped :
    let content := "\x7b\"a\":\x7b\"\":\"x\",\"b\":true\x7d,\"c\":\"z\"\x7d"
    Json.read? content = some (.object gapped) ∧
      (∀ leaf ∈ Json.membersLeaves gapped, leaf.value.phrase?.isSome) ∧
      ∃ pairs, read content = .ok pairs ∧ pairs.map Prod.fst = ["a.", "a.b", "c"] ∧
        pairs.map (fun pair => some pair.2) = [some "x", some "true", some "z"] ∧
        ∀ lexicon, Dictionary.lexicon pairs ≠ .ok lexicon := by
  intro content
  have written : Json.read? content = some (.object gapped) := by cbv
  have phrases : ∀ leaf ∈ Json.membersLeaves gapped, leaf.value.phrase?.isSome := by
    simp [gapped, Json.membersLeaves, Json.leaves, Json.phrase?]
  obtain ⟨-, flattened, -⟩ := paths_kept gapped
  obtain ⟨pairs, outcome, keys, texts⟩ := (flattened content written).kept phrases
  refine ⟨written, phrases, pairs, outcome, keys.trans ?_, texts.trans ?_, ?_⟩
  · rfl
  · rfl
  · exact (flattened content written).unloadable ⟨["a", ""], .string "x"⟩ List.mem_cons_self []
      "a" [""] rfl (by decide) List.mem_cons_self pairs outcome

/-- The key of a leaf is not the path to it, and it is loaded under a name that is not its own. -/
theorem outermost_name_lost :
    (Json.membersLeaves [("", .object [("x", .string "y")])]).map (·.path) = [["", "x"]] ∧
      ".".intercalate ["", "x"] = ".x" ∧
      read "\x7b\"\":\x7b\"x\":\"y\"\x7d\x7d" = .ok [("x", "y")] ∧
      ∃ lexicon, Dictionary.lexicon [("x", "y")] = .ok lexicon := by
  refine ⟨rfl, rfl, by cbv, ?_⟩
  exact (lexicon_ok_iff _).mpr (List.forall_mem_singleton.mpr ⟨⟨["x"]⟩, by decide +kernel⟩)

end Dictionary

end Phrasebook
