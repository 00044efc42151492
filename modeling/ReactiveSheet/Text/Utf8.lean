/-! # Text in bytes

Files and typed input arrive as bytes. They are text only if they are well-formed UTF-8.
-/

namespace ReactiveSheet.Text

set_option autoImplicit false

def decode? (bytes : List UInt8) : Option String :=
  String.fromUTF8? ⟨bytes.toArray⟩

def lineFeed : UInt8 := 10

def carriageReturn : UInt8 := 13

def dropCarriageReturn (line : List UInt8) : List UInt8 :=
  if line.getLast? = some carriageReturn then line.dropLast else line

/-- A line ends at a line feed, and a carriage return just before that belongs to the end. What
follows the last line feed is a line as it stands, if there is anything. -/
def lines (bytes : List UInt8) : List (List UInt8) :=
  let pieces := bytes.splitOn lineFeed
  pieces.dropLast.map dropCarriageReturn ++
    (pieces.getLast?.toList.filter fun rest => !rest.isEmpty)

end ReactiveSheet.Text
