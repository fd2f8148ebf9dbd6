/-!
Texts made of sections with a separator between them.
-/
namespace Commissioning.Text

/-- The sections of a text; a text without separators is one section. -/
def sections (sep : Char) : List Char → List (List Char)
  | [] => [[]]
  | c :: rest =>
    match sections sep rest with
    | first :: more => if c = sep then [] :: first :: more else (c :: first) :: more
    | [] => [[c]]

/-- What stands before the first separator, and what stands after it if there is one. -/
def cut (sep : Char) : List Char → List Char × Option (List Char)
  | [] => ([], none)
  | c :: rest =>
    if c = sep then ([], some rest)
    else
      let (before, after) := cut sep rest
      (c :: before, after)

end Commissioning.Text
