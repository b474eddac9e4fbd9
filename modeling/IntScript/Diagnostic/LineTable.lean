/-!
Lines and columns of a source text.

The table holds the byte offsets at which lines start. They increase, so the line of an offset is found by
halving. Texts are cut from the source between two offsets, which may fail: an offset can lie inside a
character, or behind the end.
-/

namespace IntScript

/-- A source text with the byte offset of every start of a line. -/
structure LineTable where
  source : String
  offsets : Array Nat

namespace LineTable

def feed : UInt8 := 10

/-- The offsets behind the line feeds among bytes that begin at `offset`. -/
def startsAfter (offset : Nat) : List UInt8 → List Nat
  | [] => []
  | byte :: bytes =>
      if byte = feed then
        (offset + 1) :: startsAfter (offset + 1) bytes
      else
        startsAfter (offset + 1) bytes

/-- The table of a text. The first line starts where the text does. -/
def ofSource (source : String) : LineTable :=
  ⟨source, (0 :: startsAfter 0 source.toByteArray.data.toList).toArray⟩

/-- A text up to a byte offset, and from there on. There is no such place inside a character or behind the
end. -/
def splitAt? : List Char → Nat → Option (List Char × List Char)
  | cs, 0 => some ([], cs)
  | [], _ + 1 => none
  | c :: cs, bytes + 1 =>
      if c.utf8Size ≤ bytes + 1 then
        (splitAt? cs (bytes + 1 - c.utf8Size)).map fun (front, back) => (c :: front, back)
      else
        none

/-- The text between two byte offsets, if there are such places and they are not the wrong way round. -/
def slice? (table : LineTable) (start stop : Nat) : Option (List Char) := do
  let (front, _) ← splitAt? table.source.toList stop
  let (_, part) ← splitAt? front start
  return part

/-- Number of starts among those numbered `low` to `high - 1` and all before them that are not behind
`offset`, provided that the ones before `low` are not and the ones from `high` on are. -/
def startsUpTo (table : LineTable) (offset low high : Nat) : Nat :=
  if low < high then
    let middle := (low + high) / 2
    if table.offsets[middle]?.any (· ≤ offset) then
      table.startsUpTo offset (middle + 1) high
    else
      table.startsUpTo offset low middle
  else
    low
termination_by high - low

/-- The number of the line that holds a byte offset, counted from one. An offset behind the text
belongs to the last line. -/
def lineAt (table : LineTable) (offset : Nat) : Nat :=
  max 1 (table.startsUpTo offset 0 table.offsets.size)

/-- Line and column of a byte offset, both counted from one. Columns count characters. An offset
behind the text counts as its end, and one inside a character has column one. -/
def position (table : LineTable) (offset : Nat) : Nat × Nat :=
  let line := table.lineAt offset
  let start := table.offsets[line - 1]?.getD 0
  let stop := min offset table.source.utf8ByteSize
  (line, ((table.slice? start stop).map List.length).getD 0 + 1)

/-- The text of a line counted from one, without the carriage returns at its end. It stops before the byte
in front of the next start, which is a line feed. A line that does not exist is empty. -/
def text (table : LineTable) (line : Nat) : List Char :=
  match line with
  | 0 => []
  | index + 1 =>
      match table.offsets[index]? with
      | none => []
      | some start =>
          let stop := (table.offsets[index + 1]?.map (· - 1)).getD table.source.utf8ByteSize
          (((table.slice? start (max stop start)).getD []).reverse.dropWhile (· == '\r')).reverse

end LineTable

end IntScript
