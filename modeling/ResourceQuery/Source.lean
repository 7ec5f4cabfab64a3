/-! Sources: the named texts that trees are read from. A source has a handle besides its name and
text, and the handle alone is its identity: two sources with one name and one text are equal and
yet not the same. -/

namespace ResourceQuery

/-- A named text with an identity. -/
structure Source where
  handle : Nat
  name : String
  text : String
  deriving DecidableEq

namespace Source

/-- Whether the two are one source. -/
def isSame (a b : Source) : Bool :=
  a.handle == b.handle

/-- Whether the two have the same contents, whichever sources they are. -/
def alike (a b : Source) : Bool :=
  a.name == b.name && a.text == b.text

end Source

/-- Where a node comes from: the byte offset that it starts at, and the source that it belongs to,
unless it is detached. -/
structure Origin where
  pos : Nat
  source : Option Source
  deriving DecidableEq

namespace Origin

/-- An offset in no source. -/
def detached (pos : Nat) : Origin := ⟨pos, none⟩

/-- The same offset in the given source. -/
def bind (source : Source) (origin : Origin) : Origin :=
  { origin with source := some source }

/-- Whether the offsets are equal and the sources are alike, or both missing. -/
def alike (a b : Origin) : Bool :=
  a.pos == b.pos &&
    match a.source, b.source with
    | some s, some t => s.alike t
    | none, none => true
    | _, _ => false

end Origin

end ResourceQuery
