import FloatFlattening.Text.Search
/-!
Paths as they are written: names between slashes. An empty name and the name `.` lead nowhere; they
are dropped where a path is taken apart, except for a `.` at its beginning.
-/

namespace FloatFlattening.Path

def isAbsolute (p : Text) : Bool := p.head? = some '/'

/-- The names between slashes, empty ones included. -/
def pieces (p : Text) : List Text := p.splitOn '/'

/-- On a reversed path: drops what leads nowhere at the end. -/
def dropIdle : Text → Text
  | ['/'] => ['/']
  | '/' :: p => dropIdle p
  | '.' :: '/' :: p => dropIdle ('/' :: p)
  | p => p

def trimEnd (p : Text) : Text := (dropIdle p.reverse).reverse

/-- The last name of a trimmed path, empty for no path and for the root. -/
def last (p : Text) : Text := (p.reverse.takeWhile (· ≠ '/')).reverse

/-- The path without its last name. -/
def parent? (p : Text) : Option Text :=
  let p := trimEnd p
  if (last p).isEmpty then none else some (trimEnd (p.take (p.length - (last p).length)))

theorem length_dropIdle_le (p : Text) : (dropIdle p).length ≤ p.length := by
  fun_induction dropIdle p <;> simp_all only [List.length_cons, Nat.le_refl] <;> omega

theorem length_parent?_lt {p q : Text} (h : parent? p = some q) : q.length < p.length := by
  have trim_le (p : Text) : (trimEnd p).length ≤ p.length := by
    simpa [trimEnd] using length_dropIdle_le p.reverse
  simp only [parent?] at h
  split at h
  · simp at h
  · rename_i hlast
    have := trim_le ((trimEnd p).take ((trimEnd p).length - (last (trimEnd p)).length))
    have := trim_le p
    have : (last (trimEnd p)).length ≤ (trimEnd p).length := by
      have := (List.takeWhile_sublist (l := (trimEnd p).reverse) (· ≠ '/')).length_le
      simpa [last] using this
    have : 0 < (last (trimEnd p)).length := by
      cases hl : last (trimEnd p) <;> simp_all
    obtain rfl := Option.some.inj h
    simp only [List.length_take] at *
    omega

/-- The parent, the parent of the parent and so on. -/
def parents (p : Text) : List Text :=
  match _h : parent? p with
  | none => []
  | some q => q :: parents q
termination_by p.length
decreasing_by exact length_parent?_lt _h

def fileName? (p : Text) : Option Text :=
  let name := last (trimEnd p)
  if name.isEmpty ∨ name = "." ∨ name = ".." then none else some name

/-- A name before and after its last dot; a dot that begins a name does not divide it. -/
def splitName (name : Text) : Text × Option Text :=
  let extension := (name.reverse.takeWhile (· ≠ '.')).reverse
  if extension.length + 1 < name.length then
    (name.take (name.length - extension.length - 1), some extension)
  else (name, none)

def stem? (p : Text) : Option Text := (fileName? p).map fun name => (splitName name).1

def extension? (p : Text) : Option Text := (fileName? p).bind fun name => (splitName name).2

/-- An absolute path stands by itself. -/
def join (base p : Text) : Text :=
  if isAbsolute p ∨ base.isEmpty then p
  else if Text.endsWith base "/" then base ++ p
  else base ++ "/" ++ p

/-- Exchanges the extension of the last name, or gives it one. -/
def withExtension (p extension : Text) : Text :=
  match fileName? p with
  | none => p
  | some name =>
    let p := trimEnd p
    p.take (p.length - name.length) ++ (splitName name).1 ++ "." ++ extension

def withFileName (p name : Text) : Text :=
  if (fileName? p).isSome then join ((parent? p).getD []) name else join p name

/-- The names that lead somewhere, `..` among them. -/
def names (p : Text) : List Text := (pieces p).filter fun name => name ≠ [] ∧ name ≠ "."

/-- The path from the root, for a path seen from the directory `base`. Two slashes at the beginning
stay two, and a slash at the end stays. -/
def absolute (base p : Text) : Text :=
  if p.isEmpty then p
  else
    let start :=
      if !isAbsolute p then base
      else if p.take 2 = "//" ∧ p.take 3 ≠ "///" then "//" else "/"
    let whole := (names p).foldl join start
    if Text.endsWith p "/" then join whole [] else whole

end FloatFlattening.Path
