/-!
# Lines of a byte stream

A stream of bytes is cut into lines at the line feeds; a carriage return right before a line feed
belongs to the line's end, and the last line may lack its end.  A line is a text when its bytes are
UTF-8, and each line is looked at on its own.

## Main definitions

* `lineBytes` — the lines of a stream, as bytes.
* `textOf?` — the text that the bytes of a line are, if they are one.
* `streamLines` — the lines of a stream, as texts where they are texts.
* `nextLine?` — the first line of a stream and what follows it.
-/

namespace PostfixCalculator.Console

/-- The byte that ends a line. -/
def lineFeed : UInt8 := 10

/-- The byte that is dropped before the end of a line. -/
def carriageReturn : UInt8 := 13

/-- The text that bytes are, if they are UTF-8. -/
def textOf? (bytes : List UInt8) : Option String := String.fromUTF8? ⟨bytes.toArray⟩

/-! ### All lines at once -/

/-- The line whose bytes are `read`, the last one first, without a carriage return at its end. -/
def closeLine (read : List UInt8) : List UInt8 :=
  match read with
  | [] => []
  | b :: rest => if b = carriageReturn then rest.reverse else (b :: rest).reverse

/-- The lines of a stream when the bytes `read`, the last one first, of the first line have been
read already. -/
def lineBytesAfter (read : List UInt8) : List UInt8 → List (List UInt8)
  | [] => if read = [] then [] else [read.reverse]
  | b :: bytes =>
    if b = lineFeed then closeLine read :: lineBytesAfter [] bytes
    else lineBytesAfter (b :: read) bytes

/-- The lines of a stream, as bytes. -/
def lineBytes (bytes : List UInt8) : List (List UInt8) := lineBytesAfter [] bytes

/-- The lines of a stream, each `none` where its bytes are no text. -/
def streamLines (bytes : List UInt8) : List (Option String) := (lineBytes bytes).map textOf?

/-! ### One line at a time -/

/-- The bytes of a line without the line feed and the carriage return that end it. -/
def withoutEnd (line : List UInt8) : List UInt8 :=
  if line.getLast? = some lineFeed then
    let body := line.dropLast
    if body.getLast? = some carriageReturn then body.dropLast else body
  else line

/-- The first line of a stream, its end included, and the bytes after it; `none` at the end of the
stream. -/
def nextLine? (bytes : List UInt8) : Option (List UInt8 × List UInt8) :=
  match bytes.dropWhile (· ≠ lineFeed) with
  | b :: rest => some (bytes.takeWhile (· ≠ lineFeed) ++ [b], rest)
  | [] => if bytes = [] then none else some (bytes, [])

/-- Taking a line makes a stream shorter. -/
theorem length_lt_of_nextLine? {bytes line rest : List UInt8}
    (h : nextLine? bytes = some (line, rest)) : rest.length < bytes.length := by
  unfold nextLine? at h
  split at h
  · next b tail hd =>
    obtain ⟨-, rfl⟩ := Prod.mk.inj (Option.some.inj h)
    have := (List.dropWhile_suffix (l := bytes) (· ≠ lineFeed)).length_le
    rw [hd, List.length_cons] at this
    omega
  · split at h
    · cases h
    · next hne =>
      obtain ⟨-, rfl⟩ := Prod.mk.inj (Option.some.inj h)
      exact List.length_pos_iff.mpr hne

end PostfixCalculator.Console
