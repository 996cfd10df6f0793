import FloatFlattening.Proofs.Flattening.Faithful
import FloatFlattening.Proofs.Markup.Sets
import FloatFlattening.Proofs.Pattern
/-!
Exchanging references in a plain text. The labels that it sets stay as they are.
-/

namespace FloatFlattening

open Text

namespace Reference

theorem closed_lettered {name : Text} {letter? : Option Char} (hn : ∀ c ∈ name, isInner c)
    (hl : ∀ c ∈ letter?, c.isAlpha) : Closed (lettered name letter?) [] := by
  obtain ⟨r, eq, chars, last⟩ : ∃ r, lettered name letter? = '\\' :: ("ref" ++ '{' :: (name ++ '}' :: r)) ∧
      (∀ c ∈ r, c ≠ '\\') ∧ ∀ c ∈ ('}' :: r).getLast?, awaits c = false ∧ c ≠ '\\' := by
    cases letter? with
    | none => exact ⟨[], by simp [lettered, Reference.markup], by simp, by decide⟩
    | some x =>
      refine ⟨['(', x, ')'], by simp [lettered, Reference.markup], ?_, by simp; decide⟩
      simp only [List.forall_mem_cons, List.not_mem_nil, false_imp_iff, implies_true, and_true]
      exact ⟨by decide, fun eq => absurd (eq ▸ hl x rfl) (by decide), by decide⟩
  have sets := Sets.of_command (w := "ref") (by decide) (by decide) hn chars
  rw [eq]
  refine ⟨sets, rfl, ?_⟩
  obtain ⟨c, hc⟩ : ∃ c, ('}' :: r).getLast? = some c := ⟨_, List.getLast?_eq_some_getLast (by simp)⟩
  refine ⟨c, ?_, last c hc⟩
  rw [← hc, ← List.cons_append, ← List.cons_append, ← List.append_assoc,
    List.getLast?_append_of_ne_nil _ (by simp)]

end Reference

namespace Panel

theorem isAlpha_of_letter? {position : Nat} {x : Char} (h : letter? position = some x) : x.isAlpha := by
  have letters : ∀ i < maxCount, (Char.ofNat ('a'.toNat + i)).isAlpha := by decide
  rw [letter?] at h
  split at h
  next lt => exact Option.some.inj h ▸ letters position lt
  next => cases h

end Panel

namespace Numbering

variable {n : Numbering} {l : Label}

theorem follow_mem (count : Nat) (h : l ∈ n.labels) : n.follow count l ∈ n.labels := by
  induction count generalizing l with
  | zero => exact h
  | succ count ih =>
    rw [follow]
    split
    next => exact h
    next found =>
      obtain ⟨id, -, get⟩ := Option.bind_eq_some_iff.1 found
      exact ih (mem_of_get? get).1

end Numbering

theorem Label.flattenedPanel?_eq_some {l : Label} {flattened : List Text} {figure : Text}
    {letter : Char} (h : l.flattenedPanel? flattened = some (figure, letter)) :
    figure ∈ flattened ∧ l.letter = some letter := by
  rw [flattenedPanel?] at h
  split at h
  next hl =>
    split at h
    next mem =>
      obtain ⟨rfl, rfl⟩ := Prod.mk.inj (Option.some.inj h)
      exact ⟨mem, hl⟩
    next => cases h
  next => cases h

theorem Visit.markup_cases {n : Numbering} (hn : n.Sound) (flattened : List Text) (target : Text)
    (line : Nat) (source : Text) :
    (of n flattened target line).markup source = source ∨
      ∃ name ∈ flattened, ∃ letter? : Option Char,
        (∀ x ∈ letter?, ∃ i, Panel.letter? i = some x) ∧
          (of n flattened target line).markup source = Reference.lettered name letter? := by
  cases get : n.get? target with
  | none => simp [of, get, markup]
  | some l =>
    have root : n.rootOf l ∈ n.labels := Numbering.follow_mem 8 (Numbering.mem_of_get? get).1
    rw [markup_of get, Numbering.exchanged?]
    cases panel : (n.rootOf l).flattenedPanel? flattened with
    | some named =>
      obtain ⟨name, letter⟩ := named
      obtain ⟨mem, hl⟩ := Label.flattenedPanel?_eq_some panel
      exact .inr ⟨name, mem, some letter, hl ▸ hn.letters _ root, rfl⟩
    | none =>
      by_cases further : l.aliasOf.isSome ∧ (n.rootOf l).id ∈ flattened
      · refine .inr ⟨(n.rootOf l).id, further.2, none, by simp, ?_⟩
        simp [further, Reference.lettered]
      · exact .inl (by simp [further])

namespace Flattened

variable {t : Text} {stop last : Nat} {cs : List Command} {v : Command → Text} {l : List Text}

/-- Exchanging references found in a plain text for closed markup. -/
theorem sets_splice (hp : Plain Mark.commandNames t) (hstop : stop ≤ t.length)
    (found : ∀ c ∈ cs, c ∈ (Command.all t Reference.commandNames).found)
    (sorted : cs.Pairwise fun c d => c.span.stop ≤ d.span.start)
    (inside : ∀ c ∈ cs, last ≤ c.span.start ∧ c.span.stop ≤ stop) (le : last ≤ stop)
    (free : escapes (t.take last) = false) (closed : ∀ c ∈ cs, Closed (v c) [])
    (sets : Sets (t.slice ⟨last, stop⟩) l) :
    Sets (t.splice stop last (cs.map fun c => (c.span, v c))) l ∧
      Alike (t.splice stop last (cs.map fun c => (c.span, v c))) (t.slice ⟨last, stop⟩) := by
  induction cs generalizing last l with
  | nil => exact ⟨sets, .refl _⟩
  | cons c cs ih =>
    simp only [List.forall_mem_cons] at found inside closed
    obtain ⟨hc, found⟩ := found
    obtain ⟨⟨start, stop'⟩, inside⟩ := inside
    obtain ⟨hv, closed⟩ := closed
    have lt := Command.start_lt_stop hc
    have parts : t.slice ⟨last, stop⟩ =
        t.slice ⟨last, c.span.start⟩ ++ (t.slice c.span ++ t.slice ⟨c.span.stop, stop⟩) := by
      rw [show t.slice c.span = t.slice ⟨c.span.start, c.span.stop⟩ from rfl,
        slice_append t (by omega) stop' hstop, slice_append t start (by omega) hstop]
    have here := Command.closed_of_mem_all hp hc
    have free' : escapes (t.slice ⟨last, c.span.start⟩) = false := by
      obtain ⟨n, hn⟩ := Nat.exists_eq_add_of_le start
      rw [hn, slice_eq_take, escapes_drop_take free, ← hn, Command.escapes_of_mem_all hc]
    have first {s : Text} (h : Closed s []) (u : Text) :
        Cut (t.slice ⟨last, c.span.start⟩) (s ++ u) :=
      .of_head? free' (by rw [List.head?_append_of_ne_nil _ h.ne_nil, h.begins])
    have plain := sets.plain
    rw [parts] at plain
    have before : Sets (t.slice ⟨last, c.span.start⟩) (Mark.ids (t.slice ⟨last, c.span.start⟩)) := by
      refine ⟨plain.of_append (.inr fun x hx => ?_), rfl⟩
      rw [List.head?_append_of_ne_nil _ here.ne_nil, here.begins] at hx
      exact (Option.some.inj hx).symm
    have after : Sets (t.slice ⟨c.span.stop, stop⟩) (Mark.ids (t.slice ⟨c.span.stop, stop⟩)) :=
      ⟨(plain.of_isSuffix (List.suffix_append _ _)).of_isSuffix (List.suffix_append _ _), rfl⟩
    obtain ⟨exchanged, alike⟩ := ih found sorted.of_cons
      (fun d hd => ⟨List.rel_of_pairwise_cons sorted hd, (inside d hd).2⟩) stop'
      (Command.escapes_take_stop hc) closed after
    have ids : Mark.ids (t.slice ⟨last, c.span.start⟩) ++
        ([] ++ Mark.ids (t.slice ⟨c.span.stop, stop⟩)) = l := by
      have whole := before.append (here.sets.append after (here.ends.cut _)) (first here _)
      rw [← parts] at whole
      rw [← whole.ids, sets.ids]
    rw [List.map_cons, splice, List.append_assoc, parts]
    exact ⟨ids ▸ before.append (hv.sets.append exchanged (hv.ends.cut _)) (first hv _),
      alike.exchange hv here _ free'⟩

/-- A reference becomes one to a float that is replaced, if it does not stay. -/
theorem Stretch.of_visit (P : Text → Prop) {n : Numbering} {flattened : List Text} (hn : n.Sound)
    (names : ∀ name ∈ flattened, ∀ c ∈ name, isInner c)
    (lettered : ∀ (name : Text) (letter? : Option Char), (∀ c ∈ name, isInner c) → (∀ c ∈ letter?, c.isAlpha) →
      P (Reference.lettered name letter?))
    (r : Reference) {source : Text} (h : P source) : P ((Stretch.visit n flattened r).markup source) := by
  rw [Stretch.visit]
  rcases Visit.markup_cases hn flattened r.target r.line source with eq | ⟨name, mem, letter?, hl, eq⟩
  · rwa [eq]
  · rw [eq]
    refine lettered name letter? (names name mem) fun x hx => ?_
    obtain ⟨i, hi⟩ := hl x hx
    exact Panel.isAlpha_of_letter? hi

theorem closed_visit {n : Numbering} {flattened : List Text} (hn : n.Sound)
    (names : ∀ name ∈ flattened, ∀ c ∈ name, isInner c) (r : Reference) {source : Text}
    (h : Closed source []) : Closed ((Stretch.visit n flattened r).markup source) [] :=
  Stretch.of_visit (Closed · []) hn names (fun _ _ => Reference.closed_lettered) r h

/-- A gap without directives only has its references exchanged. -/
theorem text_gap {n : Numbering} {flattened : List Text} {s : Span}
    (directives : ((Stretch.gap s).passage n flattened t).directives = 0) :
    ((Stretch.gap s).passage n flattened t).text = exchange t s (Stretch.visit n flattened)
      ((Command.inSpan t s Reference.commandNames).found.map (Reference.ofCommand t)) :=
  Directive.erase_of_count directives

theorem text_float (n : Numbering) (flattened : List Text) (t markup : Text) (line : Nat) :
    ((Stretch.float markup line).passage n flattened t).text =
      exchange markup ⟨0, markup.length⟩ (Stretch.visit n flattened)
        ((Command.inSpan markup ⟨0, markup.length⟩ Reference.commandNames).found.map
          fun c => { Reference.ofCommand markup c with line }) := by
  have references : ((Stretch.float markup line).references t).found =
      (Command.inSpan markup ⟨0, markup.length⟩ Reference.commandNames).found.map
        fun c => { Reference.ofCommand markup c with line } := by
    simp [Stretch.references, Reference.all, Command.all_eq_inSpan, Function.comp_def]
  rw [Stretch.passage, references]

theorem sets_exchange {n : Numbering} {flattened : List Text} {s : Span} (hn : n.Sound)
    (names : ∀ name ∈ flattened, ∀ c ∈ name, isInner c) (hp : Plain Mark.commandNames t)
    (le : s.start ≤ s.stop) (hstop : s.stop ≤ t.length) (free : escapes (t.take s.start) = false)
    (sets : Sets (t.slice s) l) (ref : Command → Reference) (span : ∀ c, (ref c).span = c.span) :
    Sets (exchange t s (Stretch.visit n flattened)
        ((Command.inSpan t s Reference.commandNames).found.map ref)) l ∧
      Alike (exchange t s (Stretch.visit n flattened)
        ((Command.inSpan t s Reference.commandNames).found.map ref)) (t.slice s) := by
  have found {c : Command} (hc : c ∈ (Command.inSpan t s Reference.commandNames).found) :
      c ∈ (Command.all t Reference.commandNames).found :=
    Command.mem_all_of_mem_inSpan hp (List.subset_cons_self _ _) free hc
  simp only [exchange, List.map_map, Function.comp_def, span]
  exact sets_splice hp hstop (fun c hc => found hc) Command.pairwise_found
    (fun c hc => Command.bounds_of_mem_inSpan hc) le free
    (fun c hc => closed_visit hn names (ref c) (Command.closed_of_mem_all hp (found hc))) sets

end Flattened

end FloatFlattening
