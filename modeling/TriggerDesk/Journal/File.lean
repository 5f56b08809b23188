import TriggerDesk.Wire.ToJson

/-!
# Journal files

A journal is kept in a file of lines, one JSON value a line, to which entries are added at the
end.
-/

namespace TriggerDesk.Journal

/-- The line of an entry. -/
def Entry.line (entry : Entry) : String := entry.toJson.write

/-- What a file holds after some entries were added to what it held. -/
def addTo (contents : String) (entries : List Entry) : String :=
  entries.foldl (fun contents entry => contents ++ entry.line ++ "\n") contents

/-- Whether a path can only be that of a directory: it is empty, or its last step leads to
none but a directory. -/
def isDirectoryPath (path : String) : Bool :=
  (path.splitOn "/").getLast?.any fun step => step = "" || step = "." || step = ".."

theorem addTo_nil (contents : String) : addTo contents [] = contents := rfl

/-- Entries in a row are added one part after the other. -/
theorem addTo_append (contents : String) (first second : List Entry) :
    addTo contents (first ++ second) = addTo (addTo contents first) second :=
  List.foldl_append ..

end TriggerDesk.Journal
