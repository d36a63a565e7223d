/-!
# Lines

A printed text is as many lines as it has line feeds, and one more.
-/

namespace Pubsub

/-- The lines of a text: its pieces between line feeds. -/
def linesOf : List Char → List (List Char)
  | [] => [[]]
  | c :: rest =>
    if c = '\n' then [] :: linesOf rest
    else match linesOf rest with
      | line :: others => (c :: line) :: others
      | [] => [[c]]

/-- The lines of a text. -/
def textLines (s : String) : List String := (linesOf s.toList).map String.ofList

end Pubsub
