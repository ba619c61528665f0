/-!
# Text

Text is kept as its list of characters, so that its length is its number of characters and
concatenation is that of lists.

* `Text.pieces`: the pieces of a text between separators.
* `Text.bytes`, `Text.cut`: lengths and cuts counted in bytes.
-/

namespace SmlSynth

/-- Text. -/
abbrev Text := List Char

namespace Text

/-- **The pieces of a text between separators**, one more than there are separators. -/
def pieces (separator : Char) : Text → List Text
  | [] => [[]]
  | c :: cs =>
    if c = separator then [] :: pieces separator cs
    else
      match pieces separator cs with
      | [] => [[c]]
      | piece :: rest => (c :: piece) :: rest

/-- The number of bytes of a text. -/
def bytes : Text → Nat
  | [] => 0
  | c :: cs => c.utf8Size + bytes cs

/-- A text without its first `n` bytes, unless a character would be cut in two. -/
def dropBytes? : Nat → Text → Option Text
  | 0, cs => some cs
  | _ + 1, [] => none
  | n + 1, c :: cs => if c.utf8Size ≤ n + 1 then dropBytes? (n + 1 - c.utf8Size) cs else none

/-- The first `n` bytes of a text, unless a character would be cut in two. -/
def takeBytes? : Nat → Text → Option Text
  | 0, _ => some []
  | _ + 1, [] => none
  | n + 1, c :: cs =>
    if c.utf8Size ≤ n + 1 then (takeBytes? (n + 1 - c.utf8Size) cs).map (c :: ·) else none

/-- **The `n` bytes of a text that follow its first `start` bytes.** -/
def cut? (start n : Nat) (cs : Text) : Option Text := (dropBytes? start cs).bind (takeBytes? n)

end Text

end SmlSynth
