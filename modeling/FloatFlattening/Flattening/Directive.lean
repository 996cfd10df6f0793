import FloatFlattening.Text.Pattern
/-!
Directives that change how floats and equations are numbered. The flattened document counts them
plainly, so its text does without.
-/

namespace FloatFlattening.Directive

def numberWithin : Pattern :=
  .word "\\numberwithin" ++ .blanks ++ .flatGroup ++ .blanks ++ .flatGroup

def counterWithin : Pattern :=
  .oneOf ["\\counterwithin", "\\counterwithout"] ++ .opt (.word "*") ++ .blanks ++ .flatGroup ++
    .blanks ++ .flatGroup

def setCounter : Pattern :=
  .word "\\setcounter" ++ .blanks ++ .word "\x7b" ++ .blanks ++
    .oneOf ["figure", "table", "equation"] ++ .blanks ++ .word "\x7d" ++ .blanks ++ .flatGroup

def pattern : Pattern := numberWithin <|> counterWithin <|> setCounter

def erase (t : Text) : Text := pattern.erase t

def count (t : Text) : Nat := (pattern.spans 0 t).length

end FloatFlattening.Directive
