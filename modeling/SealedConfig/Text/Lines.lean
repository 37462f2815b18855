/-!
# Lines of a text

The pieces of a text between its line feeds. Joining them with line feeds gives the text back.
-/

namespace SealedConfig

/-- The lines of a text without their line feeds; a text that ends in one has an empty last line. -/
def lines : List Char → List (List Char)
  | [] => [[]]
  | c :: rest =>
    if c = '\n' then [] :: lines rest
    else
      match lines rest with
      | [] => [[c]]
      | line :: more => (c :: line) :: more

end SealedConfig
