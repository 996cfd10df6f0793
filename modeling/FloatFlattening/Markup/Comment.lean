import FloatFlattening.Text.Basic
/-!
Comments run from a percent sign through the end of the line, the line feed included, so that the
line is joined to the next. A percent sign after a backslash starts none.
-/

namespace FloatFlattening.Comment

/-- The text outside comments; `inside` tells whether it begins within one. -/
def erase : (inside : Bool) → Text → Text
  | _, [] => []
  | true, c :: t => erase (c ≠ '\n') t
  | false, ['\\'] => ['\\']
  | false, '\\' :: c :: t => '\\' :: c :: erase false t
  | false, '%' :: t => erase true t
  | false, c :: t => c :: erase false t

end FloatFlattening.Comment

namespace FloatFlattening.Text

def withoutComments (t : Text) : Text := Comment.erase false t

end FloatFlattening.Text
