/-!
Byte ranges of a source text.
-/

namespace IntScript

/-- A byte range of the source: `first` is in it and `limit` is not. Nothing keeps the two in order,
so a span may be inverted; it then counts as empty. -/
structure Span where
  first : UInt32
  limit : UInt32
deriving DecidableEq

namespace Span

def origin : Span := ⟨0, 0⟩

/-- A byte offset as a span stores it; offsets that do not fit saturate. -/
def clamp (offset : Nat) : UInt32 :=
  (min offset 4294967295).toUInt32

def ofRange (first limit : Nat) : Span :=
  ⟨clamp first, clamp limit⟩

def emptyAt (offset : UInt32) : Span :=
  ⟨offset, offset⟩

/-- The smallest span that covers both. -/
def merge (a b : Span) : Span :=
  ⟨min a.first b.first, max a.limit b.limit⟩

/-- Number of bytes; none if the span is inverted. -/
def length (span : Span) : Nat :=
  span.limit.toNat - span.first.toNat

def isEmpty (span : Span) : Bool :=
  span.limit ≤ span.first

def text (span : Span) : String :=
  s!"{span.first.toNat}..{span.limit.toNat}"

end Span

end IntScript
