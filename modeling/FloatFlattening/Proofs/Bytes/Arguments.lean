import FloatFlattening.Proofs.Bytes.Group
import FloatFlattening.Proofs.Markup.Ids
import FloatFlattening.Proofs.Text
/-!
Arguments as a walk over the bytes of a text reads them. From an offset at which a character begins, the walk only
stops at such offsets, and only slices there.
-/

namespace FloatFlattening

/-- A defect at the offset of where it is. -/
def Malformed.atByte (t : Text) (m : Malformed) : Malformed := { m with pos := t.byteOffset m.pos }

/-- The position past the blanks at a position. -/
def Text.pastBlanks (t : Text) (p : Nat) : Nat := p + ((t.drop p).takeWhile isAsciiBlank).length

theorem Text.le_pastBlanks (t : Text) (p : Nat) : p ≤ t.pastBlanks p := Nat.le_add_right _ _

theorem Text.pastBlanks_le {t : Text} {p : Nat} (h : p ≤ t.length) : t.pastBlanks p ≤ t.length := by
  have blanks := (List.takeWhile_prefix (l := t.drop p) isAsciiBlank).length_le
  rw [List.length_drop] at blanks
  rw [pastBlanks]
  omega

namespace Cursor

theorem skip_ofPosition (t : Text) (p n : Nat) : (ofPosition t p).skip n = ofPosition t (p + n) := by
  rw [skip, ofPosition, ofPosition, List.drop_drop]

theorem skipBlanks_ofPosition (t : Text) (p : Nat) : (ofPosition t p).skipBlanks = ofPosition t (t.pastBlanks p) := by
  rw [skipBlanks, skip_ofPosition]
  rfl

end Cursor

namespace Arguments

/-- No blanks are left where bracket groups end. -/
theorem brackets_blanks {construct : Text} {c c' : Cursor} {groups : List Text} (hc : c.skipBlanks = c)
    (h : brackets construct c = .ok (groups, c')) : c'.skipBlanks = c' := by
  induction c using brackets_induction generalizing groups with
  | unclosed c t rest unclosed => simp [brackets_unclosed rest unclosed] at h
  | group c t n rest found ih =>
    rw [brackets_group rest found] at h
    obtain ⟨⟨more, c''⟩, h', e⟩ := Except.map_eq_ok_iff.1 h
    obtain ⟨-, rfl⟩ := Prod.mk.inj e
    exact ih (Cursor.skipBlanks_skipBlanks _) h'
  | done c rest =>
    rw [brackets_of_head?_ne rest] at h
    obtain ⟨-, rfl⟩ := Prod.mk.inj (Except.ok.inj h)
    exact hc

theorem exists_ofPosition {t construct : Text} {p : Nat} (h : p ≤ t.length) {c' : Cursor} {groups : List Text}
    (found : brackets construct (Cursor.ofPosition t p).skipBlanks = .ok (groups, c')) :
    ∃ q, c' = .ofPosition t q ∧ p ≤ q ∧ q ≤ t.length ∧ t.pastBlanks q = q := by
  have blanks := brackets_blanks (Cursor.skipBlanks_skipBlanks _) found
  rw [Cursor.skipBlanks_ofPosition] at found
  obtain ⟨n, hn, rfl⟩ := brackets_skip found
  rw [Cursor.skip_ofPosition, Cursor.skipBlanks_ofPosition] at blanks
  have := Text.le_pastBlanks t p
  have := Text.pastBlanks_le h
  simp only [Cursor.ofPosition, List.length_drop] at hn
  exact ⟨_, Cursor.skip_ofPosition t _ n, by omega, by omega, congrArg Cursor.pos blanks⟩

theorem braces_group {construct u : Text} {c : Cursor} {n : Nat} (h : c.skipBlanks.rest = '{' :: u)
    (found : braceLength? 0 u = some n) (count : Nat) :
    braces construct (count + 1) c = (braces construct count (c.skipBlanks.skip (n + 2))).map
      (Option.map fun (more, stop) => (⟨c.skipBlanks.pos + 1, c.skipBlanks.pos + 1 + n⟩ :: more, stop)) := by
  simp [braces, h, found]

theorem braces_unclosed {construct u : Text} {c : Cursor} (h : c.skipBlanks.rest = '{' :: u)
    (unclosed : braceLength? 0 u = none) (count : Nat) :
    braces construct (count + 1) c = .error ⟨construct, c.skipBlanks.pos, .openBrace⟩ := by
  simp [braces, h, unclosed]

theorem braces_of_head?_ne {construct : Text} {c : Cursor} (h : c.skipBlanks.rest.head? ≠ some '{') (count : Nat) :
    braces construct (count + 1) c = .ok none := by
  rw [braces]
  split
  · simp_all
  · rfl

/-- Brace groups come in order, and lie in the text. -/
theorem braces_inside {t construct : Text} {count p stop : Nat} {spans : List Span} (h : p ≤ t.length)
    (found : braces construct count (.ofPosition t p) = .ok (some (spans, stop))) :
    p ≤ stop ∧ stop ≤ t.length ∧ ∀ s ∈ spans, p ≤ s.start ∧ s.start ≤ s.stop ∧ s.stop ≤ stop := by
  induction count generalizing p spans with
  | zero =>
    obtain ⟨rfl, rfl⟩ := Prod.mk.inj (Option.some.inj (Except.ok.inj found))
    exact ⟨Nat.le_refl _, h, by simp⟩
  | succ count ih =>
    have skip := Cursor.skipBlanks_ofPosition t p
    have := Text.le_pastBlanks t p
    have := Text.pastBlanks_le h
    by_cases open_ : (Cursor.ofPosition t p).skipBlanks.rest.head? = some '{'
    · obtain ⟨u, rest⟩ := List.head?_eq_some_iff.1 open_
      cases close : braceLength? 0 u with
      | none => simp [braces_unclosed rest close] at found
      | some n =>
        have lt := braceLength?_lt close
        rw [braces_group rest close, skip, Cursor.skip_ofPosition] at found
        rw [skip] at rest
        have length : t.length - t.pastBlanks p = u.length + 1 := by
          rw [← List.length_drop, ← List.length_cons (a := '{'), ← rest]
          rfl
        obtain ⟨r?, later, made⟩ := Except.map_eq_ok_iff.1 found
        obtain ⟨⟨more, stop'⟩, rfl, both⟩ := Option.map_eq_some_iff.1 made
        obtain ⟨rfl, rfl⟩ := Prod.mk.inj both
        obtain ⟨le, le', inside⟩ := ih (by omega) later
        refine ⟨by omega, le', List.forall_mem_cons.2 ⟨?_, fun s hs => ?_⟩⟩
        · simp only [Cursor.ofPosition]
          omega
        · have := inside s hs
          omega
    · simp [braces_of_head?_ne open_] at found

theorem read_inside {t construct : Text} {count p : Nat} {a : Arguments} (h : p ≤ t.length)
    (found : read construct count (.ofPosition t p) = .ok (some a)) :
    p ≤ a.stop ∧ a.stop ≤ t.length ∧ ∀ s ∈ a.mandatory, p ≤ s.start ∧ s.start ≤ s.stop ∧ s.stop ≤ a.stop := by
  cases groups : brackets construct (Cursor.ofPosition t p).skipBlanks with
  | error m => simp [read_eq_error groups] at found
  | ok r =>
    obtain ⟨optional, c'⟩ := r
    obtain ⟨q, rfl, le, hq, -⟩ := exists_ofPosition h groups
    rw [read_eq groups] at found
    obtain ⟨r?, later, eq⟩ := Except.map_eq_ok_iff.1 found
    obtain ⟨⟨spans, stop⟩, rfl, rfl⟩ := Option.map_eq_some_iff.1 eq
    obtain ⟨le', hs, inside⟩ := braces_inside hq later
    exact ⟨le.trans le', hs, fun s hs => ⟨le.trans (inside s hs).1, (inside s hs).2⟩⟩

end Arguments

def Arguments.atBytes (t : Text) (a : Arguments) : Arguments :=
  { a with mandatory := a.mandatory.map t.spanBytes, stop := t.byteOffset a.stop }

namespace Bytewise

/-- What was read, with offsets for positions. -/
def atBytes {α β : Type} (t : Text) (f : α → β) : Except Malformed α → Except Malformed β
  | .ok a => .ok (f a)
  | .error m => .error (m.atByte t)

/-- The part of a text between two offsets. -/
def cut (t : Text) (s : Span) : Except Slip Text :=
  match t.boundary? s.start, t.boundary? s.stop with
  | some start, some stop => if start ≤ stop then .ok (t.slice ⟨start, stop⟩) else .error .slice
  | _, _ => .error .slice

def isBlank (x : UInt8) : Bool :=
  x = ' '.toUInt8 || x = '\t'.toUInt8 || x = '\n'.toUInt8 || x = '\x0c'.toUInt8 || x = '\r'.toUInt8

def skipBlanks (b : Bytes) (pos : Nat) : Nat := pos + ((b.drop pos).takeWhile isBlank).length

/-- The bracket groups from an offset on, and the offset past them and the blanks after each. -/
def brackets (t construct : Text) (pos : Nat) : Except Slip (Except Malformed (List Text × Nat)) :=
  if _h : t.toBytes[pos]? = some '['.toUInt8 then do
    match ← closingBracket? 0 pos (t.toBytes.drop pos) with
    | none => return .error ⟨construct, pos, .openBracket⟩
    | some stop =>
      let group ← cut t ⟨pos + 1, stop⟩
      let next := skipBlanks t.toBytes (stop + 1)
      if _h : pos < next then
        return (← brackets t construct next).map fun (more, pos) => (group :: more, pos)
      else throw .stuck
  else return .ok ([], pos)
termination_by t.toBytes.length - pos
decreasing_by
  have := (List.getElem?_eq_some_iff.1 ‹t.toBytes[pos]? = _›).1
  omega

/-- `count` brace groups, the first at `pos` and the others after blanks, where the text before ends at `stop`. -/
def braces (t construct : Text) : (count pos stop : Nat) → Except Slip (Except Malformed (Option (List Span × Nat)))
  | 0, _, stop => return .ok (some ([], stop))
  | count + 1, pos, _ =>
    if t.toBytes[pos]? = some '{'.toUInt8 then do
      match ← closingBrace? 0 pos (t.toBytes.drop pos) with
      | none => return .error ⟨construct, pos, .openBrace⟩
      | some stop =>
        return (← braces t construct count (skipBlanks t.toBytes (stop + 1)) (stop + 1)).map <|
          Option.map fun (more, past) => (⟨pos + 1, stop⟩ :: more, past)
    else return .ok none

def arguments (t construct : Text) (count pos : Nat) : Except Slip (Except Malformed (Option Arguments)) := do
  match ← brackets t construct (skipBlanks t.toBytes pos) with
  | .error m => return .error m
  | .ok (optional, pos) =>
    return (← braces t construct count pos pos).map <|
      Option.map fun (mandatory, stop) => ⟨optional, mandatory, stop⟩

variable {t u construct : Text} {p q n : Nat} {c : Char}

theorem cut_byteOffset (h : p ≤ q) (hq : q ≤ t.length) :
    cut t ⟨t.byteOffset p, t.byteOffset q⟩ = .ok (t.slice ⟨p, q⟩) := by
  rw [cut, Text.boundary?_byteOffset (Nat.le_trans h hq), Text.boundary?_byteOffset hq]
  exact if_pos h

/-- A class of ASCII characters, told from the first byte of a character. -/
def Tells (f : UInt8 → Bool) (class_ : Char → Bool) : Prop :=
  ∀ c, (class_ c = true → c.toNat < 128 ∧ f c.toUInt8 = true) ∧
    (class_ c = false → ∀ x ∈ (String.utf8EncodeChar c).head?, f x = false)

theorem length_takeWhile_toBytes {f : UInt8 → Bool} {class_ : Char → Bool} (h : Tells f class_) (t : Text) :
    (t.toBytes.takeWhile f).length = t.byteOffset (t.takeWhile class_).length := by
  induction t with
  | nil => rfl
  | cons c t ih =>
    cases hc : class_ c with
    | true =>
      obtain ⟨ascii, tells⟩ := (h c).1 hc
      rw [Text.toBytes_ascii ascii, List.takeWhile_cons_of_pos tells, List.takeWhile_cons_of_pos hc, List.length_cons,
        List.length_cons, Text.byteOffset_ascii ascii, ih]
    | false =>
      obtain ⟨x, w, encode, -, -⟩ := Text.exists_encode c
      have tells := (h c).2 hc x (by rw [encode]; rfl)
      rw [Text.toBytes_cons, encode, List.cons_append, List.takeWhile_cons_of_neg (by simp [tells]),
        List.takeWhile_cons_of_neg (by simp [hc])]
      rfl

theorem tells_isBlank : Tells isBlank Text.isAsciiBlank := by
  intro c
  constructor
  · intro h
    simp only [Text.isAsciiBlank, Bool.or_eq_true, decide_eq_true_eq] at h
    rcases h with (((rfl | rfl) | rfl) | rfl) | rfl <;> decide
  · intro h x hx
    simp only [Text.isAsciiBlank, Bool.or_eq_false_iff, decide_eq_false_iff_not] at h
    obtain ⟨⟨⟨⟨h₁, h₂⟩, h₃⟩, h₄⟩, h₅⟩ := h
    have mem := List.mem_of_mem_head? hx
    simp [isBlank, Text.ne_of_mem_encode (by decide) h₁ mem, Text.ne_of_mem_encode (by decide) h₂ mem,
      Text.ne_of_mem_encode (by decide) h₃ mem, Text.ne_of_mem_encode (by decide) h₄ mem,
      Text.ne_of_mem_encode (by decide) h₅ mem]

theorem skipBlanks_byteOffset (t : Text) (p : Nat) :
    skipBlanks t.toBytes (t.byteOffset p) = t.byteOffset (t.pastBlanks p) := by
  rw [skipBlanks, Text.drop_toBytes, length_takeWhile_toBytes tells_isBlank, Text.pastBlanks, Text.byteOffset_add]

theorem getElem?_byteOffset (t : Text) (p : Nat) (hc : c.toNat < 128) :
    t.toBytes[t.byteOffset p]? = some c.toUInt8 ↔ (t.drop p).head? = some c := by
  rw [← List.head?_drop, Text.drop_toBytes]
  cases t.drop p with
  | nil => simp [Text.toBytes]
  | cons d u =>
    obtain ⟨x, w, encode, -, -⟩ := Text.exists_encode d
    constructor
    · intro h
      by_contra ne
      refine Text.ne_of_mem_encode hc (fun eq => ne (congrArg some eq)) (x := x) (by rw [encode]; simp) ?_
      simpa [Text.toBytes_cons, encode] using h
    · intro h
      obtain rfl := Option.some.inj h
      rw [Text.toBytes_ascii hc]
      rfl

theorem atBytes_ok {α β : Type} (t : Text) (f : α → β) (a : α) : atBytes t f (.ok a) = .ok (f a) := rfl

theorem atBytes_map {α β γ : Type} (t : Text) (f : β → γ) (g : α → β) (r : Except Malformed α) :
    atBytes t f (r.map g) = atBytes t (f ∘ g) r := by
  cases r <;> rfl

theorem map_atBytes {α β γ : Type} (t : Text) (f : α → β) (g : β → γ) (r : Except Malformed α) :
    (atBytes t f r).map g = atBytes t (g ∘ f) r := by
  cases r <;> rfl

theorem brackets_of_head?_ne (h : (t.drop p).head? ≠ some '[') :
    brackets t construct (t.byteOffset p) = .ok (.ok ([], t.byteOffset p)) := by
  have none : t.toBytes[t.byteOffset p]? ≠ some '['.toUInt8 := by rwa [Ne, getElem?_byteOffset t p (by decide)]
  rw [brackets]
  exact dif_neg none

theorem byteOffset_of_drop (hc : c.toNat < 128) (h : t.drop p = c :: u) :
    t.drop (p + 1) = u ∧ t.byteOffset (p + 1) = t.byteOffset p + 1 := by
  refine ⟨by rw [← List.drop_drop, h, List.drop_succ_cons, List.drop_zero], Text.byteOffset_succ ?_ hc⟩
  rw [← List.head?_drop, h]
  rfl

/-- What the walk finds where a bracket opens. -/
theorem closingBracket?_byteOffset (h : t.drop p = '[' :: u) :
    closingBracket? 0 (t.byteOffset p) (t.toBytes.drop (t.byteOffset p)) =
      .ok ((bracketLength? 0 u).map fun n => t.byteOffset (p + 1 + n)) := by
  obtain ⟨later, past⟩ := byteOffset_of_drop (by decide) h
  rw [Text.drop_toBytes, h, Text.toBytes_ascii (by decide), closingBracket?_opening, closingBracket?_eq]
  congr 2
  funext n
  rw [Text.byteOffset_add t (p + 1), past, later]

/-- What the walk finds where a brace opens. -/
theorem closingBrace?_byteOffset (h : t.drop p = '{' :: u) :
    closingBrace? 0 (t.byteOffset p) (t.toBytes.drop (t.byteOffset p)) =
      .ok ((braceLength? 0 u).map fun n => t.byteOffset (p + 1 + n)) := by
  obtain ⟨later, past⟩ := byteOffset_of_drop (by decide) h
  rw [Text.drop_toBytes, h, closingBrace?_group]
  congr 2
  funext n
  rw [Text.byteOffset_add t (p + 1), past, later]

/-- The offset past the character that closes a group. -/
theorem byteOffset_close {d : Char} (hc : c.toNat < 128) (hd : d.toNat < 128) (h : t.drop p = c :: u)
    (close : u[n]? = some d) :
    t.byteOffset (p + 1 + n + 1) = t.byteOffset (p + 1 + n) + 1 ∧ p + 1 + n < t.length := by
  obtain ⟨later, -⟩ := byteOffset_of_drop hc h
  rw [← later, List.getElem?_drop] at close
  exact ⟨Text.byteOffset_succ close hd, (List.getElem?_eq_some_iff.1 close).1⟩

/-- The walk reads the bracket groups of the text. -/
theorem brackets_eq (t construct : Text) (h : p ≤ t.length) :
    brackets t construct (t.byteOffset p) =
      .ok (atBytes t (fun (groups, c) => (groups, t.byteOffset c.pos))
        (Arguments.brackets construct (.ofPosition t p))) := by
  generalize hc : Cursor.ofPosition t p = c
  induction c using Arguments.brackets_induction generalizing p with
  | unclosed c u rest unclosed =>
    subst hc
    replace rest : t.drop p = '[' :: u := rest
    have opens : t.toBytes[t.byteOffset p]? = some '['.toUInt8 :=
      (getElem?_byteOffset t p (by decide)).2 (by rw [rest]; rfl)
    rw [Arguments.brackets_unclosed rest unclosed, brackets, dif_pos opens, closingBracket?_byteOffset rest, unclosed]
    rfl
  | group c u n rest found ih =>
    subst hc
    replace rest : t.drop p = '[' :: u := rest
    have opens : t.toBytes[t.byteOffset p]? = some '['.toUInt8 :=
      (getElem?_byteOffset t p (by decide)).2 (by rw [rest]; rfl)
    obtain ⟨later, first⟩ := byteOffset_of_drop (by decide) rest
    obtain ⟨last, inside⟩ := byteOffset_close (by decide) (by decide) rest (getElem?_bracketLength? found)
    have le := t.le_pastBlanks (p + 1 + n + 1)
    have next := ih (Text.pastBlanks_le (t := t) (p := p + 1 + n + 1) inside) (by
      rw [Cursor.skip_ofPosition, Cursor.skipBlanks_ofPosition, show p + (n + 2) = p + 1 + n + 1 by omega])
    have on : t.byteOffset p < t.byteOffset (t.pastBlanks (p + 1 + n + 1)) := Text.byteOffset_lt (by omega) (by omega)
    have group : t.slice ⟨p + 1, p + 1 + n⟩ = u.take n := by rw [Text.slice_eq_take, later]
    rw [Arguments.brackets_group rest found, brackets, dif_pos opens, closingBracket?_byteOffset rest, found,
      Option.map_some, Except.ok_bind]
    dsimp only
    rw [← first, cut_byteOffset (by omega) (by omega), Except.ok_bind, ← last, skipBlanks_byteOffset, dif_pos on, next,
      Except.ok_bind, map_atBytes, atBytes_map, group]
    rfl
  | done c rest =>
    subst hc
    rw [Arguments.brackets_of_head?_ne rest, brackets_of_head?_ne rest]
    rfl

/-- The walk reads the brace groups of the text. -/
theorem braces_eq (t construct : Text) (count : Nat) (h : p ≤ t.length) :
    braces t construct count (t.byteOffset (t.pastBlanks p)) (t.byteOffset p) =
      .ok (atBytes t (Option.map fun (spans, stop) => (spans.map t.spanBytes, t.byteOffset stop))
        (Arguments.braces construct count (.ofPosition t p))) := by
  induction count generalizing p with
  | zero => rfl
  | succ count ih =>
    have skip := Cursor.skipBlanks_ofPosition t p
    by_cases open_ : (t.drop (t.pastBlanks p)).head? = some '{'
    · obtain ⟨u, rest⟩ := List.head?_eq_some_iff.1 open_
      have opens := (getElem?_byteOffset t (t.pastBlanks p) (by decide)).2 open_
      rw [braces, if_pos opens, closingBrace?_byteOffset rest]
      cases close : braceLength? 0 u with
      | none =>
        rw [Arguments.braces_unclosed (by rw [skip]; exact rest) close, skip]
        rfl
      | some n =>
        obtain ⟨later, first⟩ := byteOffset_of_drop (by decide) rest
        obtain ⟨last, inside⟩ := byteOffset_close (by decide) (by decide) rest (getElem?_braceLength? close)
        rw [Arguments.braces_group (by rw [skip]; exact rest) close, skip, Cursor.skip_ofPosition, Option.map_some,
          Except.ok_bind]
        dsimp only
        rw [← last, skipBlanks_byteOffset, ih inside, Except.ok_bind, map_atBytes, atBytes_map,
          show t.pastBlanks p + (n + 2) = t.pastBlanks p + 1 + n + 1 by omega, ← first]
        congr 2
        funext r?
        cases r? <;> rfl
    · have opens := mt (getElem?_byteOffset t (t.pastBlanks p) (by decide)).1 open_
      rw [braces, if_neg opens, Arguments.braces_of_head?_ne (by rw [skip]; exact open_)]
      rfl

/-- The walk reads the arguments of the text. -/
theorem arguments_eq (t construct : Text) (count : Nat) (h : p ≤ t.length) :
    arguments t construct count (t.byteOffset p) =
      .ok (atBytes t (Option.map (Arguments.atBytes t)) (Arguments.read construct count (.ofPosition t p))) := by
  have skip := Cursor.skipBlanks_ofPosition t p
  rw [arguments, skipBlanks_byteOffset, brackets_eq t construct (Text.pastBlanks_le h), ← skip, Except.ok_bind]
  cases groups : Arguments.brackets construct (Cursor.ofPosition t p).skipBlanks with
  | error m =>
    rw [Arguments.read_eq_error groups]
    rfl
  | ok r =>
    obtain ⟨optional, c'⟩ := r
    obtain ⟨q, rfl, -, hq, blanks⟩ := Arguments.exists_ofPosition h groups
    have read := braces_eq t construct count hq
    rw [blanks] at read
    have same : (Cursor.ofPosition t q).pos = q := rfl
    rw [Arguments.read_eq groups, atBytes_map, atBytes_ok]
    dsimp only
    rw [same, read, Except.ok_bind, map_atBytes]
    congr 2
    funext r?
    cases r? <;> rfl

end Bytewise

end FloatFlattening
