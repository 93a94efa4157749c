import Phrasebook.Key.Basic

/-!
Keys that keep their texts. A key joins its segments when its text is asked for, and keeps the text
until its segments change; a copy keeps it too. A register that all keys share keeps joined texts by
their segments, until it is full. A keyring holds keys side by side, which are changed, copied and
read in any order.
-/

namespace Phrasebook

structure TextRegister where
  entries : List (List String × String)
  deriving DecidableEq, Repr

namespace TextRegister

def empty : TextRegister := ⟨[]⟩

def limit : Nat := 16384

def find? (register : TextRegister) (segments : List String) : Option String :=
  (register.entries.find? fun entry => entry.1 = segments).map (·.2)

def join (register : TextRegister) (segments : List String) : String × TextRegister :=
  match register.find? segments with
  | some text => (text, register)
  | none =>
      let text := ".".intercalate segments
      if register.entries.length < limit then (text, ⟨register.entries ++ [(segments, text)]⟩)
      else (text, register)

def joinAll (register : TextRegister) (texts : List (List String)) : TextRegister :=
  texts.foldl (fun register segments => (register.join segments).2) register

end TextRegister

/-- A key with its text, if this has been asked for since the segments were last changed. -/
structure KeptKey where
  key : Key
  joined : Option String
  deriving DecidableEq, Repr

/-- What is done with a key. Its text may be asked for to be shown, shared or compared. -/
inductive KeyAct where
  | push (segment : String)
  | withSegment (segment : String)
  | join (extra : List String)
  | slice (start stop : Nat)
  | dropLast (n : Nat)
  | withoutLast (n : Nat)
  | parent
  | copy
  | text
  deriving DecidableEq, Repr

inductive KeyReplied where
  | done
  | nothing
  | refused (error : KeyError)
  | text (text : String)
  deriving DecidableEq, Repr

/-- What an act comes to: the reply, the key itself afterwards, and another key made from it. -/
structure KeyOutcome (α : Type) where
  reply : KeyReplied
  here : α
  made : Option α
  deriving DecidableEq, Repr

namespace KeyOutcome

variable {α β : Type}

def map (change : α → β) (outcome : KeyOutcome α) : KeyOutcome β :=
  ⟨outcome.reply, change outcome.here, outcome.made.map change⟩

def changing (here : α) : Except KeyError α → KeyOutcome α
  | .ok changed => ⟨.done, changed, none⟩
  | .error error => ⟨.refused error, here, none⟩

def making (here : α) : Except KeyError α → KeyOutcome α
  | .ok made => ⟨.done, here, some made⟩
  | .error error => ⟨.refused error, here, none⟩

def offering (here : α) : Option α → KeyOutcome α
  | some made => ⟨.done, here, some made⟩
  | none => ⟨.nothing, here, none⟩

end KeyOutcome

def Key.act (key : Key) : KeyAct → KeyOutcome Key
  | .push segment => .changing key (key.push segment)
  | .withSegment segment => .making key (key.push segment)
  | .join extra => .making key (key.join extra)
  | .slice start stop => .offering key (key.slice? start stop)
  | .dropLast n => .changing key (.ok (key.dropLast n))
  | .withoutLast n => .making key (.ok (key.dropLast n))
  | .parent => .offering key key.parent?
  | .copy => .making key (.ok key)
  | .text => ⟨.text key.text, key, none⟩

namespace KeptKey

def fresh (key : Key) : KeptKey := ⟨key, none⟩

def text (kept : KeptKey) (register : TextRegister) : String × KeptKey × TextRegister :=
  match kept.joined with
  | some text => (text, kept, register)
  | none =>
      let joined := register.join kept.key.segments
      (joined.1, ⟨kept.key, some joined.1⟩, joined.2)

/-- The key one segment longer, the key as it was, and the register. If a longer key is refused, the
text of the key has been asked for to tell the whole text that was attempted. -/
def push (kept : KeptKey) (segment : String) (register : TextRegister) :
    Except KeyError KeptKey × KeptKey × TextRegister :=
  match segmentFault? segment.toList with
  | none => (.ok (fresh (kept.key.child segment)), kept, register)
  | some fault =>
      if kept.key.isRoot then (.error ⟨segment, kept.key.length, segment, fault⟩, kept, register)
      else
        let read := kept.text register
        (.error ⟨s!"{read.1}.{segment}", kept.key.length, segment, fault⟩, read.2)

def join (kept : KeptKey) : List String → TextRegister → Except KeyError KeptKey × TextRegister
  | [], register => (.ok kept, register)
  | segment :: rest, register =>
      match kept.push segment register with
      | (.ok longer, _, after) => longer.join rest after
      | (.error error, _, after) => (.error error, after)

def act (kept : KeptKey) (register : TextRegister) : KeyAct → KeyOutcome KeptKey × TextRegister
  | .push segment =>
      let pushed := kept.push segment register
      (.changing pushed.2.1 pushed.1, pushed.2.2)
  | .withSegment segment =>
      let joined := kept.join [segment] register
      (.making kept joined.1, joined.2)
  | .join extra =>
      let joined := kept.join extra register
      (.making kept joined.1, joined.2)
  | .slice start stop => (.offering kept ((kept.key.slice? start stop).map fresh), register)
  | .dropLast n => (.changing kept (.ok (fresh (kept.key.dropLast n))), register)
  | .withoutLast n => (.making kept (.ok (fresh (kept.key.dropLast n))), register)
  | .parent => (.offering kept (kept.key.parent?.map fresh), register)
  | .copy => (.making kept (.ok kept), register)
  | .text =>
      let read := kept.text register
      (⟨.text read.1, read.2.1, none⟩, read.2.2)

end KeptKey

/-- Reads a new key, or does something with the key at a place. -/
inductive KeyringStep where
  | parse (text : String)
  | act (place : Nat) (act : KeyAct)
  deriving DecidableEq, Repr

def KeyOutcome.settle {α : Type} (outcome : KeyOutcome α) (keys : List α) (place : Nat) : List α :=
  keys.set place outcome.here ++ outcome.made.toList

structure Keyring where
  keys : List KeptKey
  register : TextRegister
  deriving DecidableEq, Repr

def Key.step (keys : List Key) : KeyringStep → KeyReplied × List Key
  | .parse text =>
      match Key.parse text with
      | .ok key => (.done, keys ++ [key])
      | .error error => (.refused error, keys)
  | .act place act =>
      match keys[place]? with
      | none => (.nothing, keys)
      | some key => ((key.act act).reply, (key.act act).settle keys place)

def Keyring.step (ring : Keyring) : KeyringStep → KeyReplied × Keyring
  | .parse text =>
      match Key.parse text with
      | .ok key => (.done, ⟨ring.keys ++ [.fresh key], ring.register⟩)
      | .error error => (.refused error, ring)
  | .act place act =>
      match ring.keys[place]? with
      | none => (.nothing, ring)
      | some kept =>
          let outcome := kept.act ring.register act
          (outcome.1.reply, ⟨outcome.1.settle ring.keys place, outcome.2⟩)

end Phrasebook
