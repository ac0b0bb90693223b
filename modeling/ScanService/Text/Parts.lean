/-! Texts in parts. -/
namespace ScanService.Text

def splitOn (mark : Char) : List Char → List (List Char)
  | [] => [[]]
  | c :: r =>
    if c = mark then [] :: splitOn mark r
    else match splitOn mark r with
      | [] => [[c]]
      | part :: parts => (c :: part) :: parts

end ScanService.Text
