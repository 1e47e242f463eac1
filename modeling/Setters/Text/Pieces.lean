/-!
# Pieces of a text

A text cut at every place where a separator stands. Nothing is dropped: a separator at either
end, or two in a row, leave an empty piece. Where offsets count bytes, `byteCount` is the length
of a piece.
-/

namespace Setters.Text

/-- The pieces of a text between its separators: one more than there are separators. -/
def pieces (separator : Char) : List Char → List (List Char)
  | [] => [[]]
  | c :: cs =>
    if c = separator then [] :: pieces separator cs
    else (pieces separator cs).modifyHead (c :: ·)

/-- Number of bytes in UTF-8. -/
def byteCount (cs : List Char) : Nat :=
  cs.foldr (fun c bytes => c.utf8Size + bytes) 0

end Setters.Text
