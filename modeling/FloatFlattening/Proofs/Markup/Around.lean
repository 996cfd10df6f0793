import FloatFlattening.Proofs.Markup.Plain
import FloatFlattening.Proofs.Markup.Sequel
import FloatFlattening.Proofs.Markup.Tally
/-!
Commands among the braces around them. A command closes as many groups as it opens unless one of its optional
arguments does not, and then it can be exchanged for other such markup without a change to what pairs around it.
-/

namespace FloatFlattening

open Text

variable {g m s t u : Text} {groups : List Text}

theorem Text.Balanced.le_left (h : Balanced (s ++ t)) : tally '}' s ≤ tally '{' s := by
  simpa using h.le s.length

namespace Braced

theorem tally_eq (h : Braced t) : tally '{' t = tally '}' t := (braced_iff.1 h).1.eq

/-- Characters of a kind that the backslash and the braces are not of. -/
theorem of_kind {p : Char → Bool} (h : ∀ c ∈ u, p c) (escape : p '\\' = false) (opening : p '{' = false)
    (closing : p '}' = false) : Braced u :=
  .of_inner fun c hc => isInner_of_kind (h c hc) escape opening closing

theorem append_iff (h : Braced s) : Braced (s ++ t) ↔ Braced t := by
  refine ⟨fun whole => ?_, h.append⟩
  have length := braceLength?_eq_some_iff.2 ⟨s ++ t, [], whole, rfl, rfl⟩
  rw [List.append_assoc, h.length_append, Option.map_eq_some_iff] at length
  obtain ⟨n, length, eq⟩ := length
  obtain ⟨t', r, braced, text, rfl⟩ := braceLength?_eq_some_iff.1 length
  obtain ⟨rfl, -⟩ := List.append_inj text (by simpa [Nat.add_comm] using eq.symm)
  exact braced

end Braced

/-! What stands in brackets can close groups that it does not open, but opens none that it does not close. -/

namespace Bracketed

theorem escapes (h : Bracketed g) : Text.escapes g = false := by
  induction h with
  | nil => rfl
  | pair c _ ih => rwa [escapes_pair]
  | braces hs _ ih => rwa [escapes_cons (by decide), escapes_append hs.escapes, escapes_cons (by decide)]
  | group _ _ ihs iht => rwa [escapes_cons (by decide), escapes_append ihs, escapes_cons (by decide)]
  | other h _ _ _ _ ih => rwa [escapes_cons h]

theorem tally_braces (hs : Braced s) (b : Char) (t : Text) :
    tally b ('{' :: (s ++ '}' :: t)) =
      tally b s + (tally b t + if '}' = b then 1 else 0) + if '{' = b then 1 else 0 := by
  rw [tally_cons (by decide), tally_append hs.escapes, tally_cons (by decide)]

theorem tally_le (h : Bracketed g) : tally '{' g ≤ tally '}' g := by
  induction h with
  | nil => exact le_rfl
  | pair c _ ih => simpa using ih
  | braces hs _ ih =>
    have := hs.tally_eq
    simp [tally_braces hs]
    omega
  | group hs _ ihs iht =>
    simp [tally_cons, tally_append hs.escapes]
    omega
  | @other c t h₁ h₂ _ _ _ ih =>
    rw [tally_cons h₁, tally_cons h₁, if_neg h₂]
    omega

/-- Its braces pair if it closes as many groups as it opens. -/
theorem braced (h : Bracketed g) (eq : tally '{' g = tally '}' g) : Braced g := by
  induction h with
  | nil => exact .nil
  | pair c _ ih => exact .pair c (ih (by simpa using eq))
  | braces hs _ ih =>
    have := hs.tally_eq
    simp [tally_braces hs] at eq
    exact .group hs (ih (by omega))
  | @group s t hs ht ihs iht =>
    have := hs.tally_le
    have := ht.tally_le
    simp [tally_cons, tally_append hs.escapes] at eq
    exact .other (by decide) (by decide) (by decide)
      ((ihs (by omega)).append (.other (by decide) (by decide) (by decide) (iht (by omega))))
  | @other c t h₁ h₂ _ _ ht ih =>
    have := ht.tally_le
    rw [tally_cons h₁, tally_cons h₁, if_neg h₂] at eq
    have h₃ : c ≠ '}' := by
      rintro rfl
      simp at eq
      omega
    rw [if_neg h₃] at eq
    exact .other h₁ h₂ h₃ (ih eq)

theorem balanced_iff (h : Bracketed g) : Balanced g ↔ Braced g := by
  rw [braced_iff, and_iff_left h.escapes]

theorem braced_append_iff (h : Bracketed g) : Braced (g ++ t) ↔ Braced g ∧ Braced t := by
  refine ⟨fun whole => ?_, fun both => both.1.append both.2⟩
  have := (braced_iff.1 whole).1.le_left
  have inner := h.braced (h.tally_le.antisymm this)
  exact ⟨inner, inner.append_iff.1 whole⟩

end Bracketed

theorem Options.bracketed (h : Options groups u) : ∀ g ∈ groups, Bracketed g := by
  induction h with
  | nil => simp
  | cons _ hg _ ih => exact List.forall_mem_cons.2 ⟨hg, ih⟩

theorem Options.braced_append_iff (h : Options groups u) (hs : Braced s) :
    Braced (u ++ s) ↔ ∀ g ∈ groups, Braced g := by
  have blanks {u : Text} (hu : ∀ c ∈ u, isAsciiBlank c) : Braced u := .of_kind hu (by decide) (by decide) (by decide)
  have bracket {c : Char} (hc : isInner c) (t : Text) : Braced (c :: t) ↔ Braced t :=
    (Braced.of_inner (t := [c]) (by simpa using hc)).append_iff
  induction h with
  | nil blank => simp [(blanks blank).append hs]
  | @cons groups u g v blank hg _ ih =>
    rw [List.append_assoc, (blanks blank).append_iff, List.cons_append, bracket (by decide),
      List.append_assoc, hg.braced_append_iff, List.cons_append, bracket (by decide), List.forall_mem_cons]
    exact and_congr_right fun _ => ih

/-- The braces in a command pair if they do in each of its optional arguments. -/
theorem Command.Used.braced_iff {d : Command} {before options after : Text}
    (h : Used t d before options after) : Braced (d.written options) ↔ ∀ g ∈ d.optional, Braced g := by
  have word : Braced ('\\' :: (d.name ++ star d.starred)) := by
    have letters : ∀ c ∈ d.name, c.isAlpha := fun c hc => List.mem_takeWhile_imp (h.word ▸ hc)
    have stars : Braced (star d.starred) := by
      refine .of_inner ?_
      cases d.starred <;> decide
    obtain ⟨x, w, hw⟩ := List.exists_cons_of_ne_nil h.named
    rw [hw] at letters ⊢
    exact .pair x ((Braced.of_kind (List.forall_mem_cons.1 letters).2 (by decide) (by decide) (by decide)).append stars)
  have written : d.written options =
      '\\' :: (d.name ++ star d.starred) ++ (options ++ '{' :: (d.argument ++ '}' :: [])) := by
    simp [written]
  rw [written, word.append_iff, h.groups.braced_append_iff (.group h.argument .nil)]

/-! Markup exchanged for other markup, and what stands around it. -/

/-- Where a position outside a span comes to stand when the span is exchanged for a text of some length. -/
def Span.moved (r : Span) (length i : Nat) : Nat := if i < r.start then i else i - (r.stop - r.start) + length

namespace Span

variable {r : Span} {i k l : Nat}

theorem moved_of_lt (h : i < r.start) (l : Nat) : r.moved l i = i := if_pos h

theorem moved_stop_add (h : r.start ≤ r.stop) (l k : Nat) : r.moved l (r.stop + k) = r.start + l + k := by
  rw [moved, if_neg (by omega)]
  omega

theorem lt_or_exists_add (h : ¬ r.Holds i) : i < r.start ∨ ∃ k, i = r.stop + k := by
  by_cases lt : i < r.start
  · exact .inl lt
  · exact .inr ⟨i - r.stop, by rw [Holds] at h; omega⟩

theorem not_holds_add : ¬ r.Holds (r.stop + k) := fun h => by
  rw [Holds] at h
  omega

end Span

/-- Exchanging a span of a text changes nothing around it: neither which characters are escaped, nor how braces
pair, which do so with others around it. -/
structure Text.PairsAround (t t' : Text) (r : Span) (length : Nat) : Prop where
  char (i : Nat) : ¬ r.Holds i → t'[r.moved length i]? = t[i]?
  escapes (i : Nat) : ¬ r.Holds i → escapes (t'.take (r.moved length i)) = escapes (t.take i)
  closes (i : Nat) : ¬ r.Holds i → t[i]? = some '{' →
    (∀ j, closingBrace? t i = some j → ¬ r.Holds j) ∧
      closingBrace? t' (r.moved length i) = (closingBrace? t i).map (r.moved length)

theorem EndsPast.eq_map {k l : Nat} {n? n'? : Option Nat} (h : EndsPast k l n? n'?) :
    n'? = n?.map (· + l) ∧ ∀ n, n? = some n → k ≤ n := by
  cases h with
  | never => exact ⟨rfl, nofun⟩
  | ends n => simp [Nat.add_right_comm]

/-- A group that is open before some markup ends before the markup too, or past it. -/
theorem braceLength?_exchange (free : Text.escapes s = false) (hu : Braced u) (hm : Braced m) (depth : Nat)
    (a : Text) :
    (∃ n < s.length, braceLength? depth (s ++ (u ++ a)) = some n ∧ braceLength? depth (s ++ (m ++ a)) = some n) ∨
      (braceLength? depth (s ++ (u ++ a)) = none ∧ braceLength? depth (s ++ (m ++ a)) = none) ∨
        ∃ n, braceLength? depth (s ++ (u ++ a)) = some (s.length + u.length + n) ∧
          braceLength? depth (s ++ (m ++ a)) = some (s.length + m.length + n) := by
  cases closed : braceLength? depth s with
  | some n => exact .inl ⟨n, braceLength?_lt closed, braceLength?_append closed _, braceLength?_append closed _⟩
  | none =>
    obtain ⟨before, past⟩ := (endsPast_braceLength? closed free hu a).eq_map
    obtain ⟨after, -⟩ := (endsPast_braceLength? closed free hm a).eq_map
    rw [before, after]
    cases length : braceLength? depth (s ++ a) with
    | none => exact .inr (.inl ⟨rfl, rfl⟩)
    | some n =>
      obtain ⟨n, rfl⟩ := Nat.exists_eq_add_of_le (past n length)
      exact .inr (.inr ⟨n, congrArg some (Nat.add_right_comm ..), congrArg some (Nat.add_right_comm ..)⟩)

theorem drop_past (s u a : Text) (k : Nat) : (s ++ (u ++ a)).drop (s.length + u.length + k) = a.drop k := by
  rw [Nat.add_assoc, List.drop_length_add_append, List.drop_length_add_append]

/-- Where a group ends that opens before some markup. -/
theorem closingBrace?_before {i : Nat} (lt : i < s.length) (u : Text) :
    closingBrace? (s ++ u) i = (braceLength? 0 (s.drop (i + 1) ++ u)).map (· + (i + 1)) := by
  rw [closingBrace?, List.drop_append_of_le_length lt]

/-- Where a group ends that opens past some markup. -/
theorem closingBrace?_past (s u a : Text) (k : Nat) : closingBrace? (s ++ (u ++ a)) (s.length + u.length + k) =
    (braceLength? 0 (a.drop (k + 1))).map fun n => s.length + u.length + (n + (k + 1)) := by
  rw [closingBrace?, Nat.add_assoc _ k, drop_past]
  congr 1
  funext n
  omega

theorem Text.splice_span (t : Text) (r : Span) (m : Text) :
    t.splice t.length 0 [(r, m)] = t.take r.start ++ (m ++ t.drop r.stop) := by
  simp [splice, slice]

/-- Markup that pairs its own braces can be exchanged for other such markup. -/
theorem pairsAround_exchange (free : Text.escapes s = false) (hu : Braced u) (hm : Braced m) (a : Text) :
    (s ++ (u ++ a)).PairsAround (s ++ (m ++ a)) ⟨s.length, s.length + u.length⟩ m.length := by
  have past := Span.moved_stop_add (r := ⟨s.length, s.length + u.length⟩) (Nat.le_add_right _ _) m.length
  have before {i : Nat} (lt : i < s.length) :=
    Span.moved_of_lt (r := ⟨s.length, s.length + u.length⟩) lt m.length
  constructor
  · intro i h
    obtain lt | ⟨k, rfl⟩ := Span.lt_or_exists_add h
    · rw [before lt, List.getElem?_append_left lt, List.getElem?_append_left lt]
    · rw [past, ← List.head?_drop, ← List.head?_drop, drop_past, drop_past]
  · intro i h
    obtain lt | ⟨k, rfl⟩ := Span.lt_or_exists_add h
    · rw [before lt, List.take_append_of_le_length lt.le, List.take_append_of_le_length lt.le]
    · rw [past]
      simp only [Nat.add_assoc, List.take_length_add_append, escapes_append free, escapes_append hu.escapes,
        escapes_append hm.escapes]
  · intro i h open_
    obtain lt | ⟨k, rfl⟩ := Span.lt_or_exists_add h
    · rw [List.getElem?_append_left lt] at open_
      have free' : Text.escapes (s.drop (i + 1)) = false := by
        rwa [← escapes_append (escapes_take_succ open_ (by decide)), List.take_append_drop]
      have length : (s.drop (i + 1)).length + (i + 1) = s.length := by
        rw [List.length_drop]
        exact Nat.sub_add_cancel lt
      rw [before lt, closingBrace?_before lt, closingBrace?_before lt]
      obtain ⟨n, inside, eq, eq'⟩ | ⟨eq, eq'⟩ | ⟨n, eq, eq'⟩ := braceLength?_exchange free' hu hm 0 a
      · have lt' : n + (i + 1) < s.length := by omega
        simp [eq, eq', before lt', Span.Holds, lt']
      · simp [eq, eq']
      · have stop (l : Nat) : (s.drop (i + 1)).length + l + n + (i + 1) = s.length + l + n := by omega
        rw [eq, eq', Option.map_some, Option.map_some, stop, stop, Option.map_some]
        refine ⟨fun j closes => ?_, congrArg some (past n).symm⟩
        obtain rfl := Option.some.inj closes
        exact Span.not_holds_add
    · rw [past, closingBrace?_past, closingBrace?_past]
      refine ⟨fun j closes => ?_, ?_⟩
      · obtain ⟨n, -, rfl⟩ := Option.map_eq_some_iff.1 closes
        exact Span.not_holds_add
      · rw [Option.map_map]
        congr 1
        funext n
        exact (past _).symm

namespace Command

variable {c : Command} {names : List Text}

/-- A command pairs its braces if each of its optional arguments does, of which none opens more groups than it
closes; and then it can be exchanged for any other text that does. -/
theorem balanced_slice_iff (h : c ∈ (all t names).found) :
    Balanced c.argument ∧
      (∀ o ∈ c.optional, tally '{' o ≤ tally '}' o ∧ (Balanced o ↔ tally '{' o = tally '}' o)) ∧
      (Balanced (t.slice c.span) ↔ ∀ o ∈ c.optional, Balanced o) ∧
      ((∀ o ∈ c.optional, Balanced o) → ∀ m, Balanced m → escapes m = false →
        t.PairsAround (t.splice t.length 0 [(c.span, m)]) c.span m.length) := by
  obtain ⟨i, w, r, stands, unescaped⟩ := exists_standsAt h
  obtain ⟨options, after, used⟩ := stands.used unescaped
  have bracketed := used.groups.bracketed
  generalize t.take i = before at used unescaped
  have slice : t.slice c.span = c.written options := by
    rw [used.span, slice_eq_take, used.text, List.drop_left, List.take_left]
  have free : escapes (c.written options) = false :=
    escapes_of_getLast? (c := '}') (by simp [written, List.getLast?_cons]) (by decide)
  have optional : (∀ o ∈ c.optional, Balanced o) ↔ ∀ o ∈ c.optional, Braced o :=
    forall₂_congr fun o ho => (bracketed o ho).balanced_iff
  refine ⟨(braced_iff.1 used.argument).1, fun o ho => ⟨(bracketed o ho).tally_le, Balanced.eq, fun eq => ?_⟩, ?_, ?_⟩
  · exact (bracketed o ho).balanced_iff.2 ((bracketed o ho).braced eq)
  · rw [optional, ← used.braced_iff, slice, braced_iff, and_iff_left free]
  · intro pair m balanced ends
    have whole := used.braced_iff.2 (optional.1 pair)
    have exchanged : t.splice t.length 0 [(c.span, m)] = before ++ (m ++ after) := by
      rw [splice_span, used.span, used.text, List.take_left, ← List.drop_drop, List.drop_left, List.drop_left]
    rw [exchanged, used.span]
    have := pairsAround_exchange unescaped whole (braced_iff.2 ⟨balanced, ends⟩) after
    rwa [← used.text] at this

theorem balanced_slice_titled :
    let t : Text := "\x7b\\caption[\x7ba\x7d]\x7bx\x7d\x7d"
    ∃ c ∈ (all t ["caption"]).found, c.optional = ["\x7ba\x7d".toList] ∧ Balanced (t.slice c.span) ∧
      t.PairsAround (t.splice t.length 0 [(c.span, [])]) c.span 0 := by
  intro t
  have found : (all t ["caption"]).found =
      [⟨"caption", false, ⟨1, 17⟩, ["\x7ba\x7d".toList], "x", ⟨15, 16⟩⟩] := by decide +kernel
  refine ⟨_, found ▸ List.mem_cons_self, rfl, ?_⟩
  obtain ⟨-, optional, whole, exchanged⟩ := balanced_slice_iff (t := t) (found ▸ List.mem_cons_self)
  have pair : ∀ o ∈ ["\x7ba\x7d".toList], Balanced o :=
    fun o ho => (optional o ho).2.2 (by obtain rfl := List.mem_singleton.1 ho; decide +kernel)
  exact ⟨whole.2 pair, exchanged pair [] ⟨fun n => by simp, rfl⟩ rfl⟩

/-- A closing brace by itself in an optional argument goes unnoticed, and braces around the command pair with it. -/
theorem exists_unbalanced_slice :
    let t : Text := "\x7b\\caption[\x7d]\x7bx\x7d\x7d"
    ∃ c ∈ (all t ["caption"]).found, ¬ Balanced (t.slice c.span) ∧ (∃ o ∈ c.optional, ¬ Balanced o) ∧
      ¬ t.PairsAround (t.splice t.length 0 [(c.span, [])]) c.span 0 := by
  intro t
  have found : (all t ["caption"]).found =
      [⟨"caption", false, ⟨1, 15⟩, ["\x7d".toList], "x", ⟨13, 14⟩⟩] := by decide +kernel
  refine ⟨_, found ▸ List.mem_cons_self, fun balanced => absurd balanced.eq (by decide +kernel),
    ⟨_, List.mem_cons_self, fun balanced => absurd balanced.eq (by decide +kernel)⟩, fun around => ?_⟩
  -- The brace before the command closes inside it.
  have closes := (around.closes 0 (by decide) (by decide +kernel)).1 10 (by decide +kernel)
  exact closes (by decide)

end Command

end FloatFlattening
