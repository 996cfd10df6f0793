import FloatFlattening.Text.Decimal
import FloatFlattening.Text.Pattern
import FloatFlattening.Text.Search
/-!
Lengths stated as a share of the line width, such as `0.45\linewidth`.
-/

namespace FloatFlattening.Length

def lineWidths : List Text := ["\\linewidth", "\\textwidth", "\\columnwidth", "\\hsize"]

def isNumeral (c : Char) : Bool := c.isDigit || c = '.'

/-- A line width without a number is the whole of it; other lengths are no share. -/
def share? (t : Text) : Option Decimal :=
  let t := t.trim
  let number := t.takeWhile isNumeral
  if Text.trimStart (t.drop number.length) ∈ lineWidths then
    if number.isEmpty then some Decimal.one else Decimal.ofText? number
  else none

def widthKey : Pattern := .blanks ++ .word "width" ++ .blanks ++ .word "="

/-- The value after `width=` in one part of an option list. -/
def widthValue? (part : Text) : Option Text :=
  (widthKey.length? part).bind fun n => if n < part.length then some (part.drop n) else none

/-- The share that the first `width` among bracket groups of options asks for. -/
def shareOfOptions? (options : List Text) : Option Decimal :=
  (options.findSome? fun o => (Text.splitCommas o).findSome? widthValue?).bind share?

end FloatFlattening.Length
