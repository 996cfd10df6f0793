import FloatFlattening.Markup.Command
/-!
The directories that the last `\graphicspath{{a/}{b/}}` of a text names.
-/

namespace FloatFlattening.GraphicsPath

/-- The trimmed brace groups that say something; nothing when one of them stays open. -/
def entries? : Text → Option (List Text)
  | [] => some []
  | c :: t =>
    if c = '{' then
      match braceLength? 0 t with
      | none => none
      | some n =>
        let entry := Text.trim (t.take n)
        (entries? (t.drop (n + 1))).map fun more => if entry.isEmpty then more else entry :: more
    else entries? t
termination_by t => t.length
decreasing_by all_goals simp only [List.length_drop, List.length_cons]; omega

def ofText (t : Text) : Except Fault (List Text) := do
  let commands ← (Command.all t ["graphicspath"]).complete t
  match commands.getLast? with
  | none => return []
  | some c =>
    match entries? c.argument with
    | none => throw (Malformed.fault t ⟨"\\graphicspath", c.span.start, .openGroup⟩)
    | some entries => return entries

end FloatFlattening.GraphicsPath
