/-!
# DocQuery.Path

Paths to attributes, such as `address.lines[0]`.

A path is split at its points, and each segment at its first opening bracket, into a name and
whatever follows the name. Nothing is lost: the steps of a text give the text back
(`Path.text_ofText`).
-/

namespace DocQuery

/-- One step of a path: a name, and the index that follows it, kept as it is written. -/
structure Step where
  name : String
  index : String
deriving DecidableEq, Repr

namespace Step

/-- A segment between two points; the index starts at the first opening bracket. -/
def ofSegment (segment : List Char) : Step where
  name := String.ofList (segment.takeWhile (· ≠ '['))
  index := String.ofList (segment.dropWhile (· ≠ '['))

def text (step : Step) : String :=
  step.name ++ step.index

theorem text_ofSegment (segment : List Char) :
    (ofSegment segment).text = String.ofList segment := by
  simp [text, ofSegment, ← String.ofList_append, List.takeWhile_append_dropWhile]

end Step

/-- A path as its steps. In a document the names are the names of attributes; in an expression
they are the tokens that stand for those names. -/
abbrev Path := List Step

namespace Path

def ofText (text : String) : Path :=
  (text.toList.splitOn '.').map Step.ofSegment

def text (path : Path) : String :=
  ".".intercalate (path.map Step.text)

theorem text_ofText (path : String) : text (ofText path) = path := by
  apply String.toList_inj.mp
  have steps : (fun segment => (Step.ofSegment segment).text.toList) = id := by
    funext segment
    simp [Step.text_ofSegment]
  simp only [text, ofText, String.toList_intercalate, List.map_map, Function.comp_def, steps,
    List.map_id]
  exact List.intercalate_splitOn '.'

end Path

end DocQuery
