/-
NostrMesh/Nostr/Event.lean

Nostr events as every part of the program sees them, and the kinds that the
relay and the API tell apart.

The texts of an event are strings of Unicode scalar values.  Strings with
unpaired surrogates, which JavaScript and JSON have besides, are outside the
model: they do not come through UTF-8 unchanged.
-/
import Mathlib.Data.Int.Notation
import Mathlib.Data.Nat.Notation

namespace NostrMesh

/-- A signed event. -/
structure Event where
  id : String
  pubkey : String
  createdAt : ℤ
  kind : ℕ
  tags : List (List String)
  content : String
  sig : String
  deriving DecidableEq, Repr

/-- An event before it gets its public key, its id and its signature. -/
structure EventTemplate where
  kind : ℕ
  createdAt : ℤ
  tags : List (List String)
  content : String
  deriving DecidableEq, Repr

/-! ### Kinds -/

namespace EventKinds

def setMetadata : ℕ := 0
def contactList : ℕ := 3
def delete : ℕ := 5
def channelMetadata : ℕ := 41
def invoiceUpdate : ℕ := 402
def replaceableFirst : ℕ := 10000
def replaceableLast : ℕ := 19999
def ephemeralFirst : ℕ := 20000
def ephemeralLast : ℕ := 29999
def parameterizedReplaceableFirst : ℕ := 30000
def parameterizedReplaceableLast : ℕ := 39999

end EventKinds

namespace Event

open EventKinds

def isReplaceableEvent (event : Event) : Bool :=
  event.kind = setMetadata || event.kind = contactList || event.kind = channelMetadata ||
    (replaceableFirst ≤ event.kind && event.kind ≤ replaceableLast)

def isEphemeralEvent (event : Event) : Bool :=
  ephemeralFirst ≤ event.kind && event.kind ≤ ephemeralLast

def isParameterizedReplaceableEvent (event : Event) : Bool :=
  parameterizedReplaceableFirst ≤ event.kind && event.kind ≤ parameterizedReplaceableLast

def isDeleteEvent (event : Event) : Bool := event.kind = EventKinds.delete

end Event

end NostrMesh
