/-! Lines of a text or of a byte sequence. -/
namespace AttackSurface.Text

/-- The lines of `text`. A line ends at `newline`; one `return` right before it belongs to the
line break, any other `return` to the line. A break at the very end opens no further line. -/
def lines {α : Type} [DecidableEq α] (newline ret : α) : List α → List (List α)
  | [] => []
  | c :: rest =>
    if c = newline then [] :: lines newline ret rest
    else if c = ret ∧ rest.head? = some newline then lines newline ret rest
    else
      match lines newline ret rest with
      | [] => [[c]]
      | first :: others => (c :: first) :: others

def textLines (text : String) : List String :=
  (lines '\n' '\r' text.toList).map String.ofList

end AttackSurface.Text
