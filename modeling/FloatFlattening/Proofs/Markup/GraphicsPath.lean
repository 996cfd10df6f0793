import FloatFlattening.Markup.GraphicsPath
import FloatFlattening.Proofs.Markup.Plain
import FloatFlattening.Proofs.Markup.Usage
import FloatFlattening.Proofs.Text
import FloatFlattening.Standalone
/-!
The graphics directories of a document, written for a document one level below and read again.
-/

namespace FloatFlattening

open Text

namespace Text

theorem exists_trimEnd (t : Text) : ∃ v, t = trimEnd t ++ v ∧ ∀ c ∈ v, isBlank c := by
  refine ⟨(t.reverse.takeWhile isBlank).reverse, ?_, fun c hc => ?_⟩
  · rw [trimEnd, ← List.reverse_append, List.takeWhile_append_dropWhile, List.reverse_reverse]
  · exact List.mem_takeWhile_imp (List.mem_reverse.1 hc)

end Text

namespace Braced

variable {c : Char} {s t u v w : Text}

theorem tail (h : Braced (c :: t)) (hc : isInner c) : Braced t := by
  cases h with
  | pair | group => exact absurd hc (by decide)
  | other _ _ _ h => exact h

/-- What a text ends in can be exchanged, as long as no escape is left without its character. -/
theorem exchange_end (h : Braced (u ++ v)) (hv : ∀ c ∈ v, isInner c) (hw : ∀ c ∈ w, isInner c)
    (free : w = [] → Text.escapes u = false) : Braced (u ++ w) := by
  have strange {d : Char} (hd : isInner d = false) : d ∉ v := fun mem => by simp [hv d mem] at hd
  generalize eq : u ++ v = t at h
  induction h generalizing u with
  | nil =>
    obtain ⟨rfl, -⟩ := List.append_eq_nil_iff.1 eq
    exact .of_inner hw
  | @pair t c _ ih =>
    match u with
    | [] => exact absurd (show '\\' ∈ v from (show v = _ from eq) ▸ List.mem_cons_self) (strange rfl)
    | [x] =>
      obtain ⟨rfl, -⟩ := List.cons.inj eq
      cases w with
      | nil => exact absurd (free rfl) (by decide)
      | cons d w => exact .pair d (.of_inner (List.forall_mem_cons.1 hw).2)
    | x :: y :: u =>
      obtain ⟨rfl, eq'⟩ := List.cons.inj eq
      obtain ⟨rfl, rest⟩ := List.cons.inj eq'
      exact .pair y (ih (by simpa using free) rest)
  | @group s t hs _ _ ih =>
    cases u with
    | nil => exact absurd (show '{' ∈ v from (show v = _ from eq) ▸ List.mem_cons_self) (strange rfl)
    | cons x u =>
      obtain ⟨rfl, inside⟩ := List.cons.inj eq
      rcases List.append_eq_append_iff.1 inside with ⟨m, -, rfl⟩ | ⟨m, rfl, after⟩
      · exact absurd (by simp) (strange (d := '}') rfl)
      · cases m with
        | nil => exact absurd (show '}' ∈ v from (show _ = v from after) ▸ List.mem_cons_self) (strange rfl)
        | cons x m =>
          obtain ⟨rfl, rfl⟩ := List.cons.inj after
          have rest := ih (u := m) (fun nil => by
            have := free nil
            rwa [escapes_cons (by decide), escapes_append hs.escapes, escapes_cons (by decide)] at this) rfl
          simpa using Braced.group hs rest
  | @other c t h₁ h₂ h₃ _ ih =>
    cases u with
    | nil => exact .of_inner hw
    | cons x u =>
      obtain ⟨rfl, rest⟩ := List.cons.inj eq
      exact .other h₁ h₂ h₃ (ih (fun nil => by simpa [escapes_cons h₁] using free nil) rest)

theorem trimStart (h : Braced t) : Braced (trimStart t) := by
  induction t with
  | nil => exact h
  | cons c t ih =>
    rw [Text.trimStart, List.dropWhile_cons]
    split
    next blank => exact ih (h.tail (isInner_of_isBlank blank))
    next => exact h

end Braced

namespace GraphicsPath

variable {t e : Text} {es : List Text}

/-- A directory with a slash at its end. -/
def slashed (e : Text) : Text := e ++ if e.getLast? = some '/' then [] else ['/']

/-- A directory that an entry names, seen from one level below. -/
def lowered (e : Text) : Text := (if e.head? = some '/' then [] else ['.', '.', '/']) ++ slashed e

theorem getLast?_slashed (e : Text) : (slashed e).getLast? = some '/' := by
  rw [slashed]
  split
  next slash => rwa [List.append_nil]
  next => exact List.getLast?_concat

theorem fromBelow_eq (ne : e ≠ []) : Standalone.fromBelow e = lowered e := by
  have ends : Text.endsWith e "/" = decide (e.getLast? = some '/') := by
    rw [Bool.eq_iff_iff, decide_eq_true_eq, Text.endsWith, List.isSuffixOf_iff_suffix, List.getLast?_eq_some_iff]
    exact ⟨fun ⟨s, eq⟩ => ⟨s, eq.symm⟩, fun ⟨s, eq⟩ => ⟨s, eq.symm⟩⟩
  have path : (if Text.endsWith e "/" then e else e ++ "/") = slashed e := by
    rw [slashed, ends]
    by_cases slash : e.getLast? = some '/' <;> simp [slash]
  have head : (slashed e).head? = e.head? := List.head?_append_of_ne_nil e ne
  rw [Standalone.fromBelow, path, head, lowered]
  split <;> rfl

/-- Braces pair in the directory of an entry, even if its last blank was escaped. -/
theorem braced_lowered (h : Braced t) : Braced (lowered t.trim) := by
  obtain ⟨v, eq, blank⟩ := exists_trimEnd (trimStart t)
  have whole : Braced (t.trim ++ v) := by
    rw [trim, ← eq]
    exact h.trimStart
  have slashed : Braced (slashed t.trim) := by
    refine whole.exchange_end (fun c hc => isInner_of_isBlank (blank c hc)) ?_ ?_
    · split <;> decide
    · intro nil
      split at nil
      next slash => exact escapes_of_getLast? slash (by decide)
      next => cases nil
  refine Braced.append (.of_inner ?_) slashed
  split <;> decide

theorem trim_lowered (e : Text) : (lowered e).trim = lowered e := by
  refine trim_eq_self (fun c hc => ?_) fun c hc => ?_
  · rw [lowered] at hc
    split at hc
    next slash =>
      obtain ⟨e, rfl⟩ := List.head?_eq_some_iff.1 slash
      obtain rfl : '/' = c := by simpa [slashed] using hc
      decide
    next =>
      obtain rfl : '.' = c := by simpa using hc
      decide
  · rw [lowered, List.getLast?_append, getLast?_slashed] at hc
    obtain rfl : '/' = c := by simpa using hc
    decide

theorem lowered_ne_nil (e : Text) : lowered e ≠ [] := by
  intro nil
  have := getLast?_slashed e
  simp [(List.append_eq_nil_iff.1 nil).2] at this

theorem entries?_group {n : Nat} (h : braceLength? 0 t = some n) :
    entries? ('{' :: t) = (entries? (t.drop (n + 1))).map fun more =>
      if (trim (t.take n)).isEmpty then more else trim (t.take n) :: more := by
  rw [entries?, if_pos rfl, h]

/-- An entry is what its group holds, trimmed. -/
theorem exists_group (h : entries? t = some es) (he : e ∈ es) : e ≠ [] ∧ ∃ s, Braced s ∧ e = s.trim := by
  induction t using entries?.induct generalizing es with
  | case1 =>
    rw [entries?] at h
    obtain rfl := Option.some.inj h
    cases he
  | case2 t unclosed =>
    rw [entries?, if_pos rfl, unclosed] at h
    cases h
  | case3 t n length ih =>
    rw [entries?_group length] at h
    obtain ⟨more, rest, rfl⟩ := Option.map_eq_some_iff.1 h
    split at he
    next => exact ih rest he
    next ne =>
      rcases List.mem_cons.1 he with rfl | he
      · exact ⟨by simpa using ne, t.take n, (closes_of_braceLength? length).inner, rfl⟩
      · exact ih rest he
  | case4 c t other ih =>
    rw [entries?, if_neg other] at h
    exact ih h he

def group (e : Text) : Text := '{' :: (e ++ ['}'])

/-- Directories written as groups are read again. -/
theorem entries?_groups (h : ∀ e ∈ es, Braced e ∧ e.trim = e ∧ e ≠ []) : entries? (es.flatMap group) = some es := by
  induction es with
  | nil => rw [List.flatMap_nil, entries?]
  | cons e es ih =>
    obtain ⟨⟨braced, trim, ne⟩, rest⟩ := List.forall_mem_cons.1 h
    have length : braceLength? 0 (e ++ '}' :: es.flatMap group) = some e.length :=
      braceLength?_eq_some_iff.2 ⟨e, _, braced, rfl, rfl⟩
    rw [List.flatMap_cons, group, List.cons_append, List.append_assoc, List.singleton_append,
      entries?_group length, ← List.drop_drop, List.drop_left, List.take_left, List.drop_succ_cons, List.drop_zero,
      ih rest]
    simp [trim, ne]

theorem braced_groups (h : ∀ e ∈ es, Braced e) : Braced (es.flatMap group) := by
  induction es with
  | nil => exact .nil
  | cons e es ih =>
    obtain ⟨braced, rest⟩ := List.forall_mem_cons.1 h
    rw [List.flatMap_cons, group, List.cons_append, List.append_assoc, List.singleton_append]
    exact .group braced (ih rest)

/-- The one command of a text that is nothing else. -/
theorem exists_only_command {w a : Text} (ne : w ≠ []) (letters : ∀ c ∈ w, c.isAlpha) (ha : Braced a) :
    ∃ c, Command.all ('\\' :: (w ++ '{' :: (a ++ ['}']))) [w] = ⟨[c], none⟩ ∧ c.argument = a := by
  have word : Command.Word w ('{' :: (a ++ ['}'])) := ⟨ne, letters, by rintro c ⟨⟩; decide⟩
  have length : braceLength? 0 (a ++ ['}']) = some a.length := braceLength?_eq_some_iff.2 ⟨a, [], ha, rfl, rfl⟩
  have opens : Arguments.Opens ('\\' :: w) (Cursor.skipStar ⟨0 + 1 + w.length, '{' :: (a ++ ['}'])⟩) []
      ⟨0 + 1 + w.length, '{' :: (a ++ ['}'])⟩ (a ++ ['}']) a.length :=
    Arguments.opens_iff.2 ⟨[], rfl, .nil (by simp), rfl, length⟩
  have stop : (Command.ofGroup w 0 ⟨0 + 1 + w.length, '{' :: (a ++ ['}'])⟩ []
      ⟨0 + 1 + w.length, '{' :: (a ++ ['}'])⟩ (a ++ ['}']) a.length).span.stop =
        0 + 1 + w.length + (a.length + 2) := rfl
  refine ⟨Command.ofGroup w 0 ⟨0 + 1 + w.length, '{' :: (a ++ ['}'])⟩ [] ⟨0 + 1 + w.length, '{' :: (a ++ ['}'])⟩
    (a ++ ['}']) a.length, ?_, List.take_left⟩
  rw [Command.all, Command.scan_command word List.mem_cons_self (Command.afterName?_of_opens opens 0) stop,
    List.drop_eq_nil_of_le (by simp), Command.scan_nil]
  rfl

/-- The directories of a document are found again where the document one level below lists them. -/
theorem ofText_graphicsPath (h : ofText t = .ok es) :
    ofText ("\\graphicspath\x7b" ++ Standalone.graphicsPath es ++ "\x7d") =
      .ok (es.map lowered ++ [("../" : Text)]) := by
  have groups : ∀ e ∈ es, e ≠ [] ∧ ∃ s, Braced s ∧ e = s.trim := by
    rw [ofText, Except.bind_eq_ok_iff] at h
    obtain ⟨commands, -, h⟩ := h
    intro e he
    split at h
    next =>
      obtain rfl := Except.ok.inj h
      cases he
    next c last =>
      split at h
      next => cases h
      next entries read =>
        obtain rfl := Except.ok.inj h
        exact exists_group read he
  have written : ∀ e ∈ es.map lowered ++ [("../" : Text)], Braced e ∧ e.trim = e ∧ e ≠ [] := by
    refine List.forall_mem_append.2 ⟨fun e he => ?_, ?_⟩
    · obtain ⟨e, mem, rfl⟩ := List.mem_map.1 he
      obtain ⟨-, s, braced, rfl⟩ := groups e mem
      exact ⟨braced_lowered braced, trim_lowered _, lowered_ne_nil _⟩
    · rw [List.forall_mem_singleton]
      exact ⟨.of_inner (by decide), by decide, by decide⟩
  have spelled : Standalone.graphicsPath es = (es.map lowered ++ [("../" : Text)]).flatMap group := by
    rw [Standalone.graphicsPath, List.map_congr_left fun e he => fromBelow_eq (groups e he).1]
    rfl
  obtain ⟨c, found, argument⟩ := exists_only_command (w := "graphicspath") (by decide) (by decide)
    (braced_groups fun e he => (written e he).1)
  rw [spelled]
  generalize es.map lowered ++ [("../" : Text)] = ds at *
  have text : ("\\graphicspath\x7b" : Text) ++ ds.flatMap group ++ ("\x7d" : Text) =
      '\\' :: ("graphicspath" ++ '{' :: (ds.flatMap group ++ ['}'])) := by simp
  rw [text, ofText, found]
  simp only [Scan.complete, Except.ok_bind, List.getLast?_singleton, argument, entries?_groups written]
  rfl

/-- The blank that an entry ends in is cut off behind its backslash, and the slash takes its place. -/
theorem ofText_graphicsPath_escaped :
    ofText "\\graphicspath\x7b\x7ba\\ \x7d \x7b/b\x7bc\x7d/\x7d\x7b\\\x7dd\x7d\x7d" =
        .ok [("a\\" : Text), "/b\x7bc\x7d/", "\\\x7dd"] ∧
      ofText ("\\graphicspath\x7b" ++ Standalone.graphicsPath [("a\\" : Text), "/b\x7bc\x7d/", "\\\x7dd"] ++ "\x7d") =
        .ok [("../a\\/" : Text), "/b\x7bc\x7d/", "../\\\x7dd/", "../"] := by
  have found : ofText "\\graphicspath\x7b\x7ba\\ \x7d \x7b/b\x7bc\x7d/\x7d\x7b\\\x7dd\x7d\x7d" =
      .ok [("a\\" : Text), "/b\x7bc\x7d/", "\\\x7dd"] := by decide +kernel
  have lowered : [("a\\" : Text), "/b\x7bc\x7d/", "\\\x7dd"].map lowered ++ [("../" : Text)] =
      [("../a\\/" : Text), "/b\x7bc\x7d/", "../\\\x7dd/", "../"] := by decide
  exact ⟨found, (ofText_graphicsPath found).trans (congrArg Except.ok lowered)⟩

end GraphicsPath

end FloatFlattening
