namespace KotlinCompile.Text
variable {α : Type} [BEq α]

/-- The pieces between the separators, empty ones included: one more than there are separators. -/
def pieces (separator : α) : List α → List (List α)
  | [] => [[]]
  | x :: rest =>
    if x == separator then [] :: pieces separator rest
    else match pieces separator rest with
      | [] => [[x]]
      | piece :: others => (x :: piece) :: others

def cutAt? (separator : α) : List α → Option (List α × List α)
  | [] => none
  | x :: rest =>
    if x == separator then some ([], rest)
    else (cutAt? separator rest).map fun cut => (x :: cut.1, cut.2)

def behind? (start text : List α) : Option (List α) := start.isPrefixOf? text

def hasRun (run : List α) : List α → Bool
  | [] => run.isEmpty
  | x :: rest => run.isPrefixOf (x :: rest) || hasRun run rest

def behindRun? (run : List α) : List α → Option (List α)
  | [] => behind? run []
  | x :: rest => (behind? run (x :: rest)).or (behindRun? run rest)

/-- The pieces up to and including each separator, and a last one without it if anything is left. -/
def piecesThrough (separator : α) : List α → List (List α)
  | [] => []
  | x :: rest =>
    if x == separator then [x] :: piecesThrough separator rest
    else match piecesThrough separator rest with
      | [] => [[x]]
      | piece :: others => (x :: piece) :: others

theorem flatten_piecesThrough (separator : α) (text : List α) :
    (piecesThrough separator text).flatten = text := by
  induction text with
  | nil => rfl
  | cons x rest ih =>
    simp only [piecesThrough]
    split
    · simp [ih]
    · split
      · next h => simpa [h] using ih
      · next h => simpa [h] using ih

def withoutLineEnd (line : List Char) : List Char :=
  match line.reverse with
  | '\n' :: '\r' :: body => body.reverse
  | '\n' :: body => body.reverse
  | _ => line

/-- The lines of a text without their ends; a line feed at the very end starts no further line. -/
def lines (text : List Char) : List (List Char) := (piecesThrough '\n' text).map withoutLineEnd

end KotlinCompile.Text
