/-!
# Lines of text
-/

namespace Speculation
namespace Lines

/-- Drop a carriage return at the end. -/
def dropReturn (line : String) : String :=
  if line.endsWith "\r" then String.ofList line.toList.dropLast else line

/-- The lines of a text. A line break at the end starts no further line, and a carriage return
before a line break belongs to it. -/
def split (s : String) : List String :=
  let parts := s.splitOn "\n"
  match parts.getLast? with
  | some last => parts.dropLast.map dropReturn ++ (if last.isEmpty then [] else [last])
  | none => []

/-- The lines of entries that stand one below the other; an entry may hold line breaks itself. -/
def ofEntries (entries : Array String) : List String := split ("\n".intercalate entries.toList)

/-- The lines of records that are each closed by a line break. -/
def ofRecords (records : List String) : List String :=
  split (String.join (records.map fun r => r ++ "\n"))

end Lines

end Speculation
