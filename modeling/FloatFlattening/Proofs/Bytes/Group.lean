import FloatFlattening.Proofs.Bytes.Encoding
import FloatFlattening.Proofs.Except
import FloatFlattening.Proofs.Markup.Group
/-!
Groups as a walk over the bytes of a text finds them. After a backslash the walk skips one byte, which may be only
a part of a character; the rest of that is then taken for nothing else, so that the walk finds the groups of the
text.
-/

namespace FloatFlattening

/-- How a walk over bytes could go wrong. -/
inductive Slip
  /-- A slice that cuts a character, ends before it begins, or lies outside the text. -/
  | slice
  /-- A depth below zero. -/
  | depth
  /-- A round of a loop that leaves it where it was. -/
  | stuck
  deriving DecidableEq, Repr

namespace Bytewise

/-- The offset of the brace that closes a group, with `depth` groups open. -/
def closingBrace? (depth pos : Nat) : Bytes → Except Slip (Option Nat)
  | [] => .ok none
  | x :: r =>
    if x = '\\'.toUInt8 then
      match r with
      | [] => .ok none
      | _ :: r => closingBrace? depth (pos + 2) r
    else if x = '{'.toUInt8 then closingBrace? (depth + 1) (pos + 1) r
    else if x = '}'.toUInt8 then
      match depth with
      | 0 => .error .depth
      | 1 => .ok (some pos)
      | depth + 2 => closingBrace? (depth + 1) (pos + 1) r
    else closingBrace? depth (pos + 1) r

/-- The offset of the bracket that closes a group, with `depth` groups open. -/
def closingBracket? (depth pos : Nat) : Bytes → Except Slip (Option Nat)
  | [] => .ok none
  | x :: r =>
    if x = '\\'.toUInt8 then closingBracket? depth (pos + 2) (r.drop 1)
    else if x = '{'.toUInt8 then do
      match ← closingBrace? 0 pos (x :: r) with
      | none => return none
      | some stop => closingBracket? depth (stop + 1) (r.drop (stop - pos))
    else if x = '['.toUInt8 then closingBracket? (depth + 1) (pos + 1) r
    else if x = ']'.toUInt8 then
      match depth with
      | 0 => .error .depth
      | 1 => .ok (some pos)
      | depth + 2 => closingBracket? (depth + 1) (pos + 1) r
    else closingBracket? depth (pos + 1) r
termination_by r => r.length
decreasing_by all_goals simp only [List.length_drop, List.length_cons]; omega

variable {depth pos : Nat} {c : Char} {t : Text} {w r : Bytes}

theorem closingBrace?_pair (x : UInt8) :
    closingBrace? depth pos ('\\'.toUInt8 :: x :: r) = closingBrace? depth (pos + 2) r := by
  rw [closingBrace?.eq_def]
  exact if_pos rfl

theorem closingBrace?_opening :
    closingBrace? depth pos ('{'.toUInt8 :: r) = closingBrace? (depth + 1) (pos + 1) r := by
  rw [closingBrace?.eq_def]
  exact (if_neg (by decide)).trans (if_pos rfl)

theorem closingBrace?_closing :
    closingBrace? depth pos ('}'.toUInt8 :: r) =
      match depth with
      | 0 => .error .depth
      | 1 => .ok (some pos)
      | depth + 2 => closingBrace? (depth + 1) (pos + 1) r := by
  rw [closingBrace?.eq_def]
  exact (if_neg (by decide)).trans ((if_neg (by decide)).trans (if_pos rfl))

theorem closingBrace?_skip (h : ∀ x ∈ w, x ≠ '\\'.toUInt8 ∧ x ≠ '{'.toUInt8 ∧ x ≠ '}'.toUInt8) :
    closingBrace? depth pos (w ++ r) = closingBrace? depth (pos + w.length) r := by
  induction w generalizing pos with
  | nil => rfl
  | cons x w ih =>
    simp only [List.forall_mem_cons] at h
    have one : closingBrace? depth pos (x :: (w ++ r)) = closingBrace? depth (pos + 1) (w ++ r) := by
      rw [closingBrace?.eq_def]
      exact (if_neg h.1.1).trans ((if_neg h.1.2.1).trans (if_neg h.1.2.2))
    rw [List.cons_append, one, ih h.2, List.length_cons, Nat.add_right_comm, Nat.add_assoc]

/-- The offset of a position that is counted past some characters. -/
theorem map_byteOffset_append (u t : Text) (pos : Nat) (o : Option Nat) :
    (o.map (· + u.length)).map (fun n => pos + (u ++ t).byteOffset n) =
      o.map fun n => pos + u.byteSize + t.byteOffset n := by
  rw [Option.map_map]
  congr 1
  funext n
  have size : (u ++ t).byteOffset u.length = u.byteSize := by rw [Text.byteOffset, List.take_left]
  rw [Function.comp, Nat.add_comm n, Text.byteOffset_add, List.drop_left, size, Nat.add_assoc]

theorem map_byteOffset_cons (c : Char) (t : Text) (pos : Nat) (o : Option Nat) :
    (o.map (· + 1)).map (fun n => pos + Text.byteOffset (c :: t) n) =
      o.map fun n => pos + c.utf8Size + t.byteOffset n :=
  map_byteOffset_append [c] t pos o

theorem map_byteOffset_pair {n : Nat} (size : n + 1 = c.utf8Size) (t : Text) (pos : Nat) (o : Option Nat) :
    (o.map (· + 2)).map (fun m => pos + Text.byteOffset ('\\' :: c :: t) m) =
      o.map fun m => pos + 2 + n + t.byteOffset m := by
  have sizes : Text.byteSize ['\\', c] = 2 + n := by
    rw [Text.byteSize_cons, Text.byteSize_cons, ← size]
    change 1 + (n + 1) = 2 + n
    omega
  rw [Nat.add_assoc pos, ← sizes]
  exact map_byteOffset_append ['\\', c] t pos o

/-- The walk finds the end of a brace group. -/
theorem closingBrace?_eq (depth : Nat) (t : Text) (pos : Nat) :
    closingBrace? (depth + 1) pos t.toBytes =
      .ok ((braceLength? depth t).map fun n => pos + t.byteOffset n) := by
  induction depth, t using braceLength?_induction generalizing pos with
  | nil => rfl
  | lone => rfl
  | pair depth c t ih =>
    obtain ⟨x, w, encode, -, rest⟩ := Text.exists_encode c
    have size : w.length + 1 = c.utf8Size := by rw [← String.length_utf8EncodeChar, encode, List.length_cons]
    have other : ∀ y ∈ w, y ≠ '\\'.toUInt8 ∧ y ≠ '{'.toUInt8 ∧ y ≠ '}'.toUInt8 := fun y hy =>
      ⟨Text.ne_of_continues (by decide) (rest y hy), Text.ne_of_continues (by decide) (rest y hy),
        Text.ne_of_continues (by decide) (rest y hy)⟩
    rw [Text.toBytes_ascii (by decide), Text.toBytes_cons, encode, List.cons_append, closingBrace?_pair,
      closingBrace?_skip other, ih, braceLength?, map_byteOffset_pair size]
  | opening depth t ih =>
    rw [Text.toBytes_ascii (by decide), closingBrace?_opening, ih, braceLength?, map_byteOffset_cons]
    rfl
  | last t =>
    rw [Text.toBytes_ascii (by decide), closingBrace?_closing]
    rfl
  | closing depth t ih =>
    rw [Text.toBytes_ascii (by decide), closingBrace?_closing]
    dsimp only
    rw [ih, braceLength?, map_byteOffset_cons]
    rfl
  | other depth c t h₁ h₂ h₃ ih =>
    have skip : ∀ x ∈ String.utf8EncodeChar c, x ≠ '\\'.toUInt8 ∧ x ≠ '{'.toUInt8 ∧ x ≠ '}'.toUInt8 := fun x hx =>
      ⟨Text.ne_of_mem_encode (by decide) h₁ hx, Text.ne_of_mem_encode (by decide) h₂ hx,
        Text.ne_of_mem_encode (by decide) h₃ hx⟩
    rw [Text.toBytes_cons, closingBrace?_skip skip, ih, braceLength?_other h₁ h₂ h₃, map_byteOffset_cons,
      String.length_utf8EncodeChar]

/-- The byte skipped is the first of two; the other is then passed over. -/
example : closingBrace? 0 0 (Text.toBytes "\x7b\\é\x7d") = .ok (some 4) := by decide +kernel

theorem closingBrace?_group (t : Text) (pos : Nat) :
    closingBrace? 0 pos (Text.toBytes ('{' :: t)) = .ok ((braceLength? 0 t).map fun n => pos + 1 + t.byteOffset n) := by
  rw [Text.toBytes_ascii (by decide), closingBrace?_opening, closingBrace?_eq]

theorem closingBracket?_pair :
    closingBracket? depth pos ('\\'.toUInt8 :: r) = closingBracket? depth (pos + 2) (r.drop 1) := by
  rw [closingBracket?.eq_def]
  exact if_pos rfl

theorem closingBracket?_brace :
    closingBracket? depth pos ('{'.toUInt8 :: r) = (do
      match ← closingBrace? 0 pos ('{'.toUInt8 :: r) with
      | none => return none
      | some stop => closingBracket? depth (stop + 1) (r.drop (stop - pos))) := by
  rw [closingBracket?.eq_def]
  exact (if_neg (by decide)).trans (if_pos rfl)

theorem closingBracket?_opening :
    closingBracket? depth pos ('['.toUInt8 :: r) = closingBracket? (depth + 1) (pos + 1) r := by
  rw [closingBracket?.eq_def]
  exact (if_neg (by decide)).trans ((if_neg (by decide)).trans (if_pos rfl))

theorem closingBracket?_closing :
    closingBracket? depth pos (']'.toUInt8 :: r) =
      match depth with
      | 0 => .error .depth
      | 1 => .ok (some pos)
      | depth + 2 => closingBracket? (depth + 1) (pos + 1) r := by
  rw [closingBracket?.eq_def]
  exact (if_neg (by decide)).trans ((if_neg (by decide)).trans ((if_neg (by decide)).trans (if_pos rfl)))

theorem closingBracket?_skip
    (h : ∀ x ∈ w, x ≠ '\\'.toUInt8 ∧ x ≠ '{'.toUInt8 ∧ x ≠ '['.toUInt8 ∧ x ≠ ']'.toUInt8) :
    closingBracket? depth pos (w ++ r) = closingBracket? depth (pos + w.length) r := by
  induction w generalizing pos with
  | nil => rfl
  | cons x w ih =>
    simp only [List.forall_mem_cons] at h
    have one : closingBracket? depth pos (x :: (w ++ r)) = closingBracket? depth (pos + 1) (w ++ r) := by
      rw [closingBracket?.eq_def]
      exact (if_neg h.1.1).trans ((if_neg h.1.2.1).trans ((if_neg h.1.2.2.1).trans (if_neg h.1.2.2.2)))
    rw [List.cons_append, one, ih h.2, List.length_cons, Nat.add_right_comm, Nat.add_assoc]

/-- The walk finds the end of a bracket group. -/
theorem closingBracket?_eq (depth : Nat) (t : Text) (pos : Nat) :
    closingBracket? (depth + 1) pos t.toBytes =
      .ok ((bracketLength? depth t).map fun n => pos + t.byteOffset n) := by
  induction depth, t using bracketLength?_induction generalizing pos with
  | nil =>
    rw [closingBracket?.eq_def, bracketLength?]
    rfl
  | lone =>
    rw [Text.toBytes_ascii (by decide), closingBracket?_pair, closingBracket?.eq_def,
      bracketLength?]
    rfl
  | pair depth c t ih =>
    obtain ⟨x, w, encode, -, rest⟩ := Text.exists_encode c
    have size : w.length + 1 = c.utf8Size := by rw [← String.length_utf8EncodeChar, encode, List.length_cons]
    have other : ∀ y ∈ w, y ≠ '\\'.toUInt8 ∧ y ≠ '{'.toUInt8 ∧ y ≠ '['.toUInt8 ∧ y ≠ ']'.toUInt8 := fun y hy =>
      ⟨Text.ne_of_continues (by decide) (rest y hy), Text.ne_of_continues (by decide) (rest y hy),
        Text.ne_of_continues (by decide) (rest y hy), Text.ne_of_continues (by decide) (rest y hy)⟩
    rw [Text.toBytes_ascii (by decide), Text.toBytes_cons, encode, List.cons_append, closingBracket?_pair,
      List.drop_succ_cons, List.drop_zero, closingBracket?_skip other, ih, bracketLength?, map_byteOffset_pair size]
  | unclosed depth t open_ =>
    have brace := closingBrace?_group t pos
    rw [open_, Text.toBytes_ascii (by decide)] at brace
    rw [Text.toBytes_ascii (by decide), closingBracket?_brace, brace, bracketLength?, open_]
    rfl
  | group depth t n found ih =>
    have brace := closingBrace?_group t pos
    rw [found, Text.toBytes_ascii (by decide)] at brace
    have past : t.byteOffset (n + 1) = t.byteOffset n + 1 :=
      Text.byteOffset_succ (getElem?_braceLength? found) (by decide)
    rw [Text.toBytes_ascii (by decide), closingBracket?_brace, brace,
      bracketLength?_group found, Option.map_some, Except.ok_bind]
    dsimp only
    rw [show pos + 1 + t.byteOffset n - pos = t.byteOffset (n + 1) by omega, Text.drop_toBytes, ih, Option.map_map]
    congr 2
    funext m
    simp only [Function.comp]
    rw [show m + (n + 2) = n + 1 + m + 1 by omega, Text.byteOffset_ascii (c := '{') (by decide), Text.byteOffset_add]
    omega
  | opening depth t ih =>
    rw [Text.toBytes_ascii (by decide), closingBracket?_opening, ih, bracketLength?, map_byteOffset_cons]
    rfl
  | last t =>
    rw [Text.toBytes_ascii (by decide), closingBracket?_closing, bracketLength?]
    rfl
  | closing depth t ih =>
    rw [Text.toBytes_ascii (by decide), closingBracket?_closing]
    dsimp only
    rw [ih, bracketLength?, map_byteOffset_cons]
    rfl
  | other depth c t h₁ h₂ h₃ h₄ ih =>
    have skip : ∀ x ∈ String.utf8EncodeChar c,
        x ≠ '\\'.toUInt8 ∧ x ≠ '{'.toUInt8 ∧ x ≠ '['.toUInt8 ∧ x ≠ ']'.toUInt8 := fun x hx =>
      ⟨Text.ne_of_mem_encode (by decide) h₁ hx, Text.ne_of_mem_encode (by decide) h₂ hx,
        Text.ne_of_mem_encode (by decide) h₃ hx, Text.ne_of_mem_encode (by decide) h₄ hx⟩
    rw [Text.toBytes_cons, closingBracket?_skip skip, ih, bracketLength?_other h₁ h₂ h₃ h₄, map_byteOffset_cons,
      String.length_utf8EncodeChar]

end Bytewise

end FloatFlattening
