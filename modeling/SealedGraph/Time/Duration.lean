import SealedGraph.Text.Digits

/-!
# Spans of time

The text of a span of whole milliseconds: in seconds if it reaches one, with the digits of the
second that are needed, in milliseconds below that, and `0ns` for no time at all.
-/

namespace SealedGraph.Duration

/-- Three digits behind a dot, without the zeros at their end; nothing for no part of a second. -/
def fractionText (millis : Nat) : List Char :=
  if millis = 0 then []
  else '.' :: ((Text.padZero 3 (Text.natText millis)).reverse.dropWhile (· = '0')).reverse

/-- The text of a span. -/
def text (millis : Nat) : List Char :=
  if millis = 0 then ['0', 'n', 's']
  else if millis < 1000 then Text.natText millis ++ ['m', 's']
  else Text.natText (millis / 1000) ++ fractionText (millis % 1000) ++ ['s']

end SealedGraph.Duration
