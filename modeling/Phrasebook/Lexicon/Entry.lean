import Phrasebook.Color.Normalize

/-!
Entries of a lexicon. The normal form of a text is computed when the text is read for the first
time, and kept from then on.
-/

namespace Phrasebook

structure Entry where
  raw : String
  normal : Option String
  deriving DecidableEq, Repr

namespace Entry

def new (raw : String) : Entry := ⟨raw, none⟩

def isNormalized (entry : Entry) : Bool := entry.normal.isSome

def text (entry : Entry) : String :=
  entry.normal.getD (normalizeColors entry.raw)

def read (entry : Entry) : String × Entry :=
  (entry.text, ⟨entry.raw, some entry.text⟩)

/-- Entries are the same when their texts are, whether these have been read or not. -/
def same (first second : Entry) : Bool := first.raw = second.raw

/-- A normal form that is kept is the one of the text. -/
def Faithful (entry : Entry) : Prop :=
  ∀ kept ∈ entry.normal, kept = normalizeColors entry.raw

theorem Faithful.text_eq {entry : Entry} (faithful : entry.Faithful) :
    entry.text = normalizeColors entry.raw := by
  cases kept : entry.normal with
  | none => simp [text, kept]
  | some normal => rw [text, kept, Option.getD_some, faithful normal kept]

theorem faithful_new (raw : String) : (new raw).Faithful := nofun

theorem Faithful.read {entry : Entry} (faithful : entry.Faithful) :
    entry.read.2.Faithful := by
  rintro kept ⟨⟩
  exact faithful.text_eq

@[simp] theorem text_new (raw : String) : (new raw).text = normalizeColors raw := rfl

@[simp] theorem text_read (entry : Entry) : entry.read.2.text = entry.text := rfl

@[simp] theorem isNormalized_read (entry : Entry) : entry.read.2.isNormalized = true := rfl

end Entry

end Phrasebook
