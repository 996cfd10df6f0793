import FloatFlattening.Proofs.Bytes.Arguments
import FloatFlattening.Proofs.Markup.Found
/-!
Commands as a walk over the bytes of a text finds them: those of the text, with offsets for positions.
-/

namespace FloatFlattening

def Command.atBytes (t : Text) (c : Command) : Command :=
  { c with span := t.spanBytes c.span, argumentSpan := t.spanBytes c.argumentSpan }

def Scan.atBytes {α : Type} (t : Text) (f : α → α) (s : Scan α) : Scan α :=
  ⟨s.found.map f, s.stopped.map (Malformed.atByte t)⟩

namespace Bytewise

def isLetter (x : UInt8) : Bool :=
  ('A'.toUInt8 ≤ x && x ≤ 'Z'.toUInt8) || ('a'.toUInt8 ≤ x && x ≤ 'z'.toUInt8)

/-- What a round of the search for commands comes to. -/
inductive Round
  | finished
  | onward (pos : Nat)
  | failed (m : Malformed)
  | found (c : Command)

/-- The round for a control word between two offsets. -/
def mention (t : Text) (names : List Text) (start stop : Nat) : Except Slip Round := do
  let name ← cut t ⟨start + 1, stop⟩
  if name ∈ names then
    let starred := t.toBytes[stop]? = some '*'.toUInt8
    match ← arguments t ('\\' :: name) 1 (if starred then stop + 1 else stop) with
    | .error m => return .failed m
    | .ok none => return .onward stop
    | .ok (some found) =>
      match found.mandatory with
      | [] => throw .slice
      | inner :: _ =>
        let argument ← cut t inner
        return .found
          { name, starred, span := ⟨start, found.stop⟩, optional := found.optional, argument, argumentSpan := inner }
  else return .onward stop

/-- The round for the backslash at an offset. -/
def control (t : Text) (names : List Text) (start : Nat) : Except Slip Round := do
  let stop := start + 1 + ((t.toBytes.drop (start + 1)).takeWhile isLetter).length
  if stop = start + 1 then
    let after ← cut t ⟨start + 1, t.toBytes.length⟩
    return .onward (start + 1 + (after.head?.map Char.utf8Size).getD 0)
  else mention t names start stop

/-- One round of the search for commands. -/
def round (t : Text) (names : List Text) (pos : Nat) : Except Slip Round := do
  let tail ← cut t ⟨pos, t.toBytes.length⟩
  match tail.toBytes.idxOf? '\\'.toUInt8 with
  | none => return .finished
  | some i => control t names (pos + i)

/-- The commands from an offset on. -/
def commands (t : Text) (names : List Text) (pos : Nat) : Except Slip (Scan Command) := do
  match ← round t names pos with
  | .finished => return .done
  | .failed m => return .stop m
  | .onward next =>
    if _h : pos < next ∧ next ≤ t.toBytes.length then commands t names next else throw .stuck
  | .found c =>
    if _h : pos < c.span.stop ∧ c.span.stop ≤ t.toBytes.length then
      return (← commands t names c.span.stop).cons c
    else throw .stuck
termination_by t.toBytes.length - pos
decreasing_by all_goals simp only [Text.length_toBytes] at *; omega

def commandsIn (t : Text) (s : Span) (names : List Text) : Except Slip (Scan Command) := do
  commands (← cut t ⟨0, s.stop⟩) names s.start

theorem isLetter_iff (x : UInt8) : isLetter x = true ↔ 65 ≤ x.toNat ∧ x.toNat ≤ 90 ∨ 97 ≤ x.toNat ∧ x.toNat ≤ 122 := by
  simp only [isLetter, Bool.or_eq_true, Bool.and_eq_true, decide_eq_true_eq, UInt8.le_iff_toNat_le]
  exact Iff.rfl

theorem isAlpha_iff (c : Char) : c.isAlpha = true ↔
    65 ≤ c.toNat ∧ c.toNat ≤ 90 ∨ 97 ≤ c.toNat ∧ c.toNat ≤ 122 := by
  have ranges : c.isAlpha = (decide (65 ≤ c.val ∧ c.val ≤ 90) ||
      decide (97 ≤ c.val) && decide (c.val ≤ 122)) := rfl
  simp only [ranges, Bool.or_eq_true, Bool.and_eq_true, decide_eq_true_eq, UInt32.le_iff_toNat_le]
  exact Iff.rfl

theorem tells_isLetter : Tells isLetter Char.isAlpha := by
  intro c
  rcases Text.encode_cases c with ⟨ascii, one⟩ | ⟨wide, x, w, more, lead, -⟩
  · have same : c.toUInt8.toNat = c.toNat := Nat.mod_eq_of_lt (by change c.toNat < 256; omega)
    have iff : isLetter c.toUInt8 = c.isAlpha := by rw [Bool.eq_iff_iff, isLetter_iff, isAlpha_iff, same]
    refine ⟨fun h => ⟨ascii, iff.trans h⟩, fun h x hx => ?_⟩
    rw [one] at hx
    obtain rfl := Option.some.inj hx
    exact iff.trans h
  · refine ⟨fun h => ?_, fun _ y hy => ?_⟩
    · have := (isAlpha_iff c).1 h
      omega
    · rw [more] at hy
      obtain rfl := Option.some.inj hy
      have lead : 192 ≤ x.toNat := UInt8.le_iff_toNat_le.1 lead
      rw [← Bool.not_eq_true, isLetter_iff]
      omega

variable {t u v : Text} {names : List Text} {p q : Nat}

theorem cut_rest (h : p ≤ t.length) : cut t ⟨t.byteOffset p, t.toBytes.length⟩ = .ok (t.drop p) := by
  rw [Text.length_toBytes, ← Text.byteOffset_length, cut_byteOffset h (Nat.le_refl _), Text.slice_eq_drop]

theorem not_mem_toBytes {d : Char} (hd : d.toNat < 128) (hu : ∀ c ∈ u, c ≠ d) : d.toUInt8 ∉ Text.toBytes u := by
  intro mem
  obtain ⟨c, hc, hx⟩ := List.mem_flatMap.1 mem
  exact Text.ne_of_mem_encode hd (hu c hc) hx rfl

theorem idxOf?_toBytes {d : Char} (hd : d.toNat < 128) (hu : ∀ c ∈ u, c ≠ d) (v : Text) :
    (Text.toBytes (u ++ d :: v)).idxOf? d.toUInt8 = some u.byteSize := by
  rw [Text.toBytes_append, Text.toBytes_ascii hd, ← Text.length_toBytes, List.idxOf?_eq_some_iff]
  refine ⟨by simp, by simp, fun j hj eq => not_mem_toBytes hd hu ?_⟩
  rw [← eq, List.getElem_append_left hj]
  exact List.getElem_mem hj

/-- Where the walk finds the first of an ASCII character from a position on. -/
theorem idxOf?_cases {d : Char} (hd : d.toNat < 128) (t : Text) (p : Nat) :
    (∃ u v i, t.drop p = u ++ d :: v ∧ (∀ c ∈ u, c ≠ d) ∧ (Text.toBytes (t.drop p)).idxOf? d.toUInt8 = some i ∧
      t.drop (p + u.length) = d :: v ∧ t.byteOffset p + i = t.byteOffset (p + u.length)) ∨
    (∀ c ∈ t.drop p, c ≠ d) ∧ (Text.toBytes (t.drop p)).idxOf? d.toUInt8 = none := by
  by_cases mem : d ∈ t.drop p
  · obtain ⟨u, v, split, hu⟩ := List.eq_append_cons_of_mem mem
    have first : ∀ c ∈ u, c ≠ d := fun c hc eq => hu (eq ▸ hc)
    refine .inl ⟨u, v, Text.byteSize u, split, first, by rw [split, idxOf?_toBytes hd first], ?_, ?_⟩
    · rw [← List.drop_drop, split, List.drop_left]
    · rw [Text.byteOffset_add, split, Text.byteOffset, Text.byteOffset, List.take_left]
  · have none : ∀ c ∈ t.drop p, c ≠ d := fun c hc eq => mem (eq ▸ hc)
    exact .inr ⟨none, List.idxOf?_eq_none_iff.2 (not_mem_toBytes hd none)⟩

theorem byteOffset_on (lt : p < q) (le : q ≤ t.length) :
    t.byteOffset p < t.byteOffset q ∧ t.byteOffset q ≤ t.toBytes.length := by
  rw [Text.length_toBytes, ← Text.byteOffset_length]
  exact ⟨Text.byteOffset_lt lt (by omega), Text.byteOffset_mono t le⟩

/-- What a round comes to, and what is left to search after it. -/
inductive Leaves (t : Text) (names : List Text) (p : Nat) : Round → Prop
  | finished (eq : Command.scan names p (t.drop p) = .done) : Leaves t names p .finished
  | onward (q : Nat) (lt : p < q) (le : q ≤ t.length)
      (eq : Command.scan names p (t.drop p) = Command.scan names q (t.drop q)) :
      Leaves t names p (.onward (t.byteOffset q))
  | failed (m : Malformed) (eq : Command.scan names p (t.drop p) = .stop m) : Leaves t names p (.failed (m.atByte t))
  | found (c : Command) (lt : p < c.span.stop) (le : c.span.stop ≤ t.length)
      (eq : Command.scan names p (t.drop p) = (Command.scan names c.span.stop (t.drop c.span.stop)).cons c) :
      Leaves t names p (.found (c.atBytes t))

theorem leaves_symbol {c : Char} (names : List Text) (h : t.drop p = '\\' :: c :: v) (hc : c.isAlpha = false) :
    Leaves t names p (.onward (t.byteOffset (p + 2))) := by
  have length := congrArg List.length h
  simp only [List.length_drop, List.length_cons] at length
  refine .onward (p + 2) (by omega) (by omega) ?_
  rw [h, Command.scan_symbol hc, ← List.drop_drop, h]
  rfl

/-- The offset past a star, if one stands there. -/
theorem exists_pastStar (h : p ≤ t.length) : ∃ q, p ≤ q ∧ q ≤ t.length ∧
    (Cursor.ofPosition t p).skipStar = .ofPosition t q ∧
      (if t.toBytes[t.byteOffset p]? = some '*'.toUInt8 then t.byteOffset p + 1 else t.byteOffset p) =
        t.byteOffset q := by
  have star := getElem?_byteOffset (c := '*') t p (by decide)
  by_cases starred : (t.drop p).head? = some '*'
  · obtain ⟨r, hr⟩ := List.head?_eq_some_iff.1 starred
    obtain ⟨-, offset⟩ := byteOffset_of_drop (by decide) hr
    have length := congrArg List.length hr
    simp only [List.length_drop, List.length_cons] at length
    refine ⟨p + 1, by omega, by omega, ?_, (if_pos (star.2 starred)).trans offset.symm⟩
    rw [Cursor.skipStar, if_pos (by exact starred), Cursor.skip_ofPosition]
  · refine ⟨p, Nat.le_refl _, h, ?_, if_neg (mt star.1 starred)⟩
    rw [Cursor.skipStar, if_neg (by exact starred)]

open Command in
theorem exists_mention {w r : Text} (h : t.drop p = '\\' :: (w ++ r)) (hw : Word w r) :
    ∃ round, mention t names (t.byteOffset p) (t.byteOffset (p + 1 + w.length)) = .ok round ∧
      Leaves t names p round := by
  obtain ⟨later, first⟩ := byteOffset_of_drop (by decide) h
  have length := congrArg List.length h
  simp only [List.length_drop, List.length_cons, List.length_append] at length
  have rest : t.drop (p + 1 + w.length) = r := by rw [← List.drop_drop, later, List.drop_left]
  have name : t.slice ⟨p + 1, p + 1 + w.length⟩ = w := by rw [Text.slice_eq_take, later, List.take_left]
  rw [mention, ← first, cut_byteOffset (by omega) (by omega), name, Except.ok_bind]
  by_cases listed : w ∈ names
  · obtain ⟨q, le, le', cursor, offset⟩ := exists_pastStar (t := t) (p := p + 1 + w.length) (by omega)
    have after := afterName?_eq w p (.ofPosition t (p + 1 + w.length))
    rw [cursor, Cursor.ofPosition, rest] at after
    rw [if_pos listed]
    dsimp only
    rw [offset, arguments_eq t _ 1 le']
    cases read : Arguments.read ('\\' :: w) 1 (.ofPosition t q) with
    | error m =>
      rw [read] at after
      refine ⟨_, rfl, .failed m ?_⟩
      rw [h, scan_stopped hw listed after]
    | ok a? =>
      cases a? with
      | none =>
        rw [read] at after
        refine ⟨_, rfl, .onward (p + 1 + w.length) (by omega) (by omega) ?_⟩
        rw [h, scan_mention hw fun _ => after, rest]
      | some a =>
        obtain ⟨groups, c', u, n, opens, rfl⟩ := Arguments.read_one_eq_some_iff.1 read
        rw [← cursor] at opens
        have made := afterName?_of_opens opens p
        rw [cursor] at opens
        obtain ⟨k, rfl, open_, le_end⟩ := opens.skip
        rw [Cursor.skip_ofPosition] at made ⊢
        simp only [Cursor.ofPosition, List.drop_drop, List.length_drop] at open_ le_end
        obtain ⟨later', -⟩ := byteOffset_of_drop (by decide) open_
        have inner : cut t (t.spanBytes ⟨q + k + 1, q + k + 1 + n⟩) = .ok (u.take n) := by
          rw [Text.spanBytes, cut_byteOffset (Nat.le_add_right _ _) (by dsimp only; omega), Text.slice_eq_take, later']
        have starred : (t.toBytes[t.byteOffset (p + 1 + w.length)]? = some '*'.toUInt8) =
            ((Cursor.ofPosition t (p + 1 + w.length)).rest.head? = some '*') :=
          propext (getElem?_byteOffset t _ (by decide))
        generalize hd : ofGroup w p (.ofPosition t (p + 1 + w.length)) groups (.ofPosition t (q + k)) u n = d at made
        have stop : d.span.stop = q + k + (n + 2) := by rw [← hd]; rfl
        refine ⟨.found (d.atBytes t), ?_, .found d (by omega) (by omega) ?_⟩
        · simp only [Except.ok_bind, atBytes, Option.map_some, Arguments.atBytes, List.map_cons]
          simp only [Cursor.ofPosition, inner, Except.ok_bind]
          subst hd
          simp only [starred]
          rfl
        · rw [Cursor.ofPosition, rest] at made
          have past : t.drop d.span.stop = r.drop (d.span.stop - (p + 1 + w.length)) := by
            rw [← rest, List.drop_drop, Nat.add_sub_cancel' (by omega)]
          rw [h, scan_command hw listed made (k := d.span.stop - (p + 1 + w.length)) (by omega), past]
  · rw [if_neg listed]
    have := List.length_pos_of_ne_nil hw.ne_nil
    refine ⟨_, rfl, .onward (p + 1 + w.length) (by omega) (by omega) ?_⟩
    rw [h, scan_mention hw fun mem => absurd mem listed, rest]

theorem exists_control (names : List Text) (h : t.drop p = '\\' :: v) :
    ∃ r, control t names (t.byteOffset p) = .ok r ∧ Leaves t names p r := by
  obtain ⟨later, first⟩ := byteOffset_of_drop (by decide) h
  have length := congrArg List.length h
  simp only [List.length_drop, List.length_cons] at length
  rw [control, ← first, Text.drop_toBytes, length_takeWhile_toBytes tells_isLetter, later]
  cases v with
  | nil =>
    rw [if_pos (by rfl), cut_rest (by omega), later]
    refine ⟨_, rfl, .onward (p + 1) (by omega) (by omega) ?_⟩
    rw [h, later, Command.scan_lone, Command.scan_nil]
  | cons c v =>
    cases hc : c.isAlpha with
    | false =>
      rw [List.takeWhile_cons_of_neg (by simp [hc]), if_pos (by rfl), cut_rest (by omega), later]
      refine ⟨_, rfl, ?_⟩
      have second : t.byteOffset (p + 1) + c.utf8Size = t.byteOffset (p + 2) := by
        rw [Text.byteOffset_add t (p + 1) 1, later, Text.byteOffset_cons]
        rfl
      have := leaves_symbol names h hc
      rwa [← second] at this
    | true =>
      obtain ⟨w, r, hw, split⟩ := Command.exists_word hc v
      rw [split] at h later ⊢
      have past : t.byteOffset (p + 1) + Text.byteOffset (w ++ r) w.length = t.byteOffset (p + 1 + w.length) := by
        rw [Text.byteOffset_add t (p + 1), later]
      have wide : t.byteOffset (p + 1 + w.length) ≠ t.byteOffset (p + 1) := by
        have := List.length_pos_of_ne_nil hw.ne_nil
        have := Text.byteOffset_lt (t := t) (p := p + 1) (q := p + 1 + w.length) (by omega) (by
          have := congrArg List.length h
          simp only [List.length_drop, List.length_cons, List.length_append] at this
          omega)
        omega
      rw [hw.takeWhile, past, if_neg wide]
      exact exists_mention h hw

theorem exists_round (names : List Text) (h : p ≤ t.length) : ∃ r, round t names (t.byteOffset p) = .ok r ∧ Leaves t names p r := by
  rw [round, cut_rest h, Except.ok_bind]
  rcases idxOf?_cases (d := '\\') (by decide) t p with ⟨u, v, i, split, hu, index, rest, start⟩ | ⟨none, index⟩
  · rw [index]
    obtain ⟨r, control, leaves⟩ := exists_control names rest
    have same : Command.scan names p (t.drop p) = Command.scan names (p + u.length) (t.drop (p + u.length)) := by
      rw [split, Command.scan_chars hu, rest]
    refine ⟨r, by rw [← control, ← start], ?_⟩
    cases leaves with
    | finished eq => exact .finished (same.trans eq)
    | onward q lt le eq => exact .onward q (by omega) le (same.trans eq)
    | failed m eq => exact .failed m (same.trans eq)
    | found c lt le eq => exact .found c (by omega) le (same.trans eq)
  · rw [index]
    refine ⟨_, rfl, .finished ?_⟩
    have done : Command.scan names p (t.drop p ++ []) = _ := Command.scan_chars none p []
    rwa [List.append_nil, Command.scan_nil] at done

/-- The walk finds the commands of the text. -/
theorem commands_eq (t : Text) (names : List Text) (h : p ≤ t.length) :
    commands t names (t.byteOffset p) = .ok ((Command.scan names p (t.drop p)).atBytes t (Command.atBytes t)) := by
  induction n : t.length - p using Nat.strong_induction_on generalizing p with
  | _ n ih =>
    obtain ⟨r, rounds, leaves⟩ := exists_round names h
    rw [commands, rounds, Except.ok_bind]
    cases leaves with
    | finished eq =>
      rw [eq]
      rfl
    | onward q lt le eq =>
      have on := byteOffset_on lt le
      dsimp only
      rw [dif_pos on, ih (t.length - q) (by omega) le rfl, eq]
    | failed m eq =>
      rw [eq]
      rfl
    | found c lt le eq =>
      have on := byteOffset_on lt le
      dsimp only [Command.atBytes, Text.spanBytes]
      rw [dif_pos on, ih (t.length - c.span.stop) (by omega) le rfl, eq]
      rfl

end Bytewise

end FloatFlattening
