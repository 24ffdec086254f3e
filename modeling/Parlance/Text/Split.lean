/-! Cutting text at a separator. -/
namespace Parlance.Text

/-- The parts between separators; there is always one more part than there are separators. -/
def splitOn (separator : Char) : List Char → List (List Char)
  | [] => [[]]
  | c :: rest =>
    if c = separator then [] :: splitOn separator rest
    else match splitOn separator rest with
      | [] => [[c]]
      | part :: parts => (c :: part) :: parts

end Parlance.Text
