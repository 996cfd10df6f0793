import FloatFlattening.Markup.GraphicsPath
import FloatFlattening.Markup.Mark
import FloatFlattening.Proofs.Bytes.Command
import FloatFlattening.Proofs.Markup.Environment
/-!
Environments, marks, references and directories of pictures as walks over the bytes of a text find them.
-/

namespace FloatFlattening

def Environment.atBytes (t : Text) (e : Environment) : Environment :=
  { e with span := t.spanBytes e.span, body := t.spanBytes e.body }

def Mark.atBytes (t : Text) (m : Mark) : Mark := { m with span := t.spanBytes m.span }

def Reference.atBytes (t : Text) (r : Reference) : Reference := { r with span := t.spanBytes r.span }

namespace Bytewise

/-- The first `\begin` of a listed environment, and the commands after it. -/
def opening? (names : List Text) : List Command → Option (Command × List Command)
  | [] => none
  | c :: cs => if c.name = "begin" ∧ c.argument.trim ∈ names then some (c, cs) else opening? names cs

/-- The `\end` of an environment, with `depth` of its name open. -/
def ending? (name : Text) : (depth : Nat) → List Command → Except Slip (Option Command)
  | _, [] => .ok none
  | depth, c :: cs =>
    if c.argument.trim ≠ name then ending? name depth cs
    else if c.name = "begin" then ending? name (depth + 1) cs
    else
      match depth with
      | 0 => .error .depth
      | 1 => .ok (some c)
      | depth + 2 => ending? name (depth + 1) cs

/-- The outermost environments from an offset on. After each of them the commands are searched for anew. -/
def environments (t : Text) (names : List Text) (pos : Nat) : Except Slip (Scan Environment) := do
  let commands ← commands t ["begin", "end"] pos
  match opening? names commands.found with
  | none => return ⟨[], commands.stopped⟩
  | some (b, later) =>
    let name := b.argument.trim
    match ← ending? name 1 later with
    | none =>
      return .stop <| commands.stopped.getD ⟨"\\begin\x7b" ++ name ++ "\x7d", b.span.start, .openEnvironment name⟩
    | some e =>
      if _h : pos < e.span.stop ∧ e.span.stop ≤ t.toBytes.length then
        return (← environments t names e.span.stop).cons
          ⟨name, ⟨b.span.start, e.span.stop⟩, ⟨b.span.stop, e.span.start⟩⟩
      else throw .stuck
termination_by t.toBytes.length - pos
decreasing_by omega

def environmentsIn (t : Text) (s : Span) (names : List Text) : Except Slip (Scan Environment) := do
  environments (← cut t ⟨0, s.stop⟩) names s.start

def lineAt (t : Text) (pos : Nat) : Nat := (t.toBytes.take pos).count '\n'.toUInt8 + 1

def marksIn (t : Text) (s : Span) : Except Slip (Scan Mark) := do
  return (← commandsIn t s ["label"]).map fun c => ⟨c.span, c.argument.trim, lineAt t c.span.start⟩

def references (t : Text) : Except Slip (Scan Reference) := do
  return (← commands t Reference.commandNames 0).map fun c =>
    ⟨c.span, c.argument.trim, .ofName c.name, lineAt t c.span.start⟩

/-- The trimmed brace groups from an offset on that say something; nothing when one of them stays open. -/
def entries? (t : Text) (pos : Nat) : Except Slip (Option (List Text)) := do
  let tail ← cut t ⟨pos, t.toBytes.length⟩
  match tail.toBytes.idxOf? '{'.toUInt8 with
  | none => return some []
  | some i =>
    match ← closingBrace? 0 (pos + i) (t.toBytes.drop (pos + i)) with
    | none => return none
    | some stop =>
      let entry := (← cut t ⟨pos + i + 1, stop⟩).trim
      if _h : pos < stop + 1 ∧ stop + 1 ≤ t.toBytes.length then
        return (← entries? t (stop + 1)).map fun more => if entry.isEmpty then more else entry :: more
      else throw .stuck
termination_by t.toBytes.length - pos
decreasing_by omega

def fault (t : Text) (m : Malformed) : Fault := .malformed m.construct (lineAt t m.pos) m.defect.describe

def graphicsPaths (t : Text) : Except Slip (Except Fault (List Text)) := do
  let commands ← commands t ["graphicspath"] 0
  match commands.stopped, commands.found.getLast? with
  | some m, _ => return .error (fault t m)
  | none, none => return .ok []
  | none, some c =>
    match ← entries? c.argument 0 with
    | none => return .error (fault t ⟨"\\graphicspath", c.span.start, .openGroup⟩)
    | some entries => return .ok entries

variable {t u v : Text} {names : List Text} {p q : Nat}

theorem opening?_map (t : Text) (names : List Text) (cs : List Command) :
    opening? names (cs.map (Command.atBytes t)) =
      (opening? names cs).map fun (b, later) => (b.atBytes t, later.map (Command.atBytes t)) := by
  induction cs with
  | nil => rfl
  | cons c cs ih =>
    rw [List.map_cons, opening?, opening?, ih]
    split_ifs with h₁ h₂ h₂
    · rfl
    · exact absurd h₁ h₂
    · exact absurd h₂ h₁
    · rfl

theorem opening?_split {cs later : List Command} {b : Command} (h : opening? names cs = some (b, later)) :
    ∃ before, cs = before ++ b :: later := by
  induction cs with
  | nil => simp [opening?] at h
  | cons c cs ih =>
    rw [opening?] at h
    split_ifs at h with begins
    · obtain ⟨rfl, rfl⟩ := Prod.mk.inj (Option.some.inj h)
      exact ⟨[], rfl⟩
    · obtain ⟨before, rfl⟩ := ih h
      exact ⟨c :: before, rfl⟩

/-- The first of the environments that commands pair to. -/
theorem pair_eq (names : List Text) (stopped : Option Malformed) (cs : List Command) :
    Environment.pair names stopped cs =
      match opening? names cs with
      | none => ⟨[], stopped⟩
      | some (b, later) =>
        match Environment.ending? b.argument.trim 0 later with
        | some (e, rest) =>
          (Environment.pair names stopped rest).cons
            ⟨b.argument.trim, ⟨b.span.start, e.span.stop⟩, ⟨b.span.stop, e.span.start⟩⟩
        | none =>
          .stop <| stopped.getD
            ⟨"\\begin\x7b" ++ b.argument.trim ++ "\x7d", b.span.start, .openEnvironment b.argument.trim⟩ := by
  induction cs with
  | nil => rw [Environment.pair]; rfl
  | cons c cs ih =>
    rw [Environment.pair, opening?]
    split_ifs with begins
    · dsimp only
      split <;> simp_all
    · exact ih

/-- The walk finds the end of an environment. -/
theorem ending?_eq (t name : Text) (depth : Nat) (cs : List Command) :
    ending? name (depth + 1) (cs.map (Command.atBytes t)) =
      .ok ((Environment.ending? name depth cs).map fun (e, _) => e.atBytes t) := by
  induction cs generalizing depth with
  | nil => rfl
  | cons c cs ih =>
    rw [List.map_cons, ending?.eq_def, Environment.ending?.eq_def]
    dsimp only
    by_cases other : c.argument.trim ≠ name
    · rw [if_pos other, if_pos (by exact other), ih]
    · rw [if_neg other, if_neg (by exact other)]
      by_cases begins : c.name = "begin"
      · rw [if_pos begins, if_pos (by exact begins), ih]
      · rw [if_neg begins, if_neg (by exact begins)]
        cases depth with
        | zero => rfl
        | succ depth => exact ih depth

/-- The walk finds the outermost environments of the text. -/
theorem environments_eq (t : Text) (names : List Text) (h : p ≤ t.length) :
    environments t names (t.byteOffset p) =
      .ok ((Environment.ofCommands names (Command.scan ["begin", "end"] p (t.drop p))).atBytes t
        (Environment.atBytes t)) := by
  induction n : t.length - p using Nat.strong_induction_on generalizing p with
  | _ n ih =>
    rw [environments, commands_eq t _ h, Except.ok_bind, Environment.ofCommands, pair_eq]
    generalize search : Command.scan ["begin", "end"] p (t.drop p) = s
    dsimp only [Scan.atBytes]
    rw [opening?_map]
    cases opens : opening? names s.found with
    | none => rfl
    | some o =>
      obtain ⟨b, later⟩ := o
      dsimp only [Option.map]
      rw [show (b.atBytes t).argument = b.argument from rfl, ending?_eq, Except.ok_bind]
      cases ends : Environment.ending? b.argument.trim 0 later with
      | none => cases stopped : s.stopped <;> rfl
      | some f =>
        obtain ⟨e, rest⟩ := f
        obtain ⟨before, split⟩ := opening?_split opens
        obtain ⟨between, split'⟩ := Environment.isSuffix_ending? ends
        have found : s.found = (before ++ b :: between) ++ e :: rest := by
          rw [split, ← split', List.append_assoc, List.cons_append]
        have mem : e ∈ (Command.scan ["begin", "end"] p (t.drop p)).found := by
          rw [search, found]
          simp
        have := Command.le_start mem
        have := Command.start_lt_stop mem
        have le := Command.stop_le mem
        rw [List.length_drop, Nat.add_sub_cancel' h] at le
        have on := byteOffset_on (t := t) (p := p) (q := e.span.stop) (by omega) le
        have next := Command.scan_past (search ▸ found)
        rw [List.drop_drop, Nat.add_sub_cancel' (by omega), search] at next
        dsimp only [Option.map, Command.atBytes, Text.spanBytes]
        rw [dif_pos on, ih (t.length - e.span.stop) (by omega) le rfl, next]
        rfl

end Bytewise

end FloatFlattening
