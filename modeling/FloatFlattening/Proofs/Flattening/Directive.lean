import FloatFlattening.Proofs.Flattening.Assembly
import FloatFlattening.Proofs.Flattening.Pieces
import FloatFlattening.Proofs.Markup.Removal
/-!
Directives that go, and the commands that stay. A directive is found by its characters alone, without regard to
escapes, arguments and what stands beside it; a directive that stands alone to a search for commands can go
without a trace.
-/

namespace FloatFlattening

open Text

variable {g k m s t : Text} {c : Char} {names : List Text} {P Q : Text → Prop} {p q : Pattern}

namespace Pattern

/-- What a pattern matches, by a property of the matches. -/
def Spells (p : Pattern) (P : Text → Prop) : Prop := ∀ t n, p.length? t = some n → P (t.take n)

theorem Spells.imp (h : p.Spells P) (imp : ∀ s, P s → Q s) : p.Spells Q := fun t n found => imp _ (h t n found)

theorem spells_word (w : Text) : (word w).Spells (· = w) := by
  intro t n found
  simp only [word, Option.ite_none_right_eq_some, List.isPrefixOf_iff_prefix, Option.some.injEq] at found
  obtain ⟨⟨r, rfl⟩, rfl⟩ := found
  exact List.take_left

theorem spells_oneOf (ws : List Text) : (oneOf ws).Spells (· ∈ ws) := by
  intro t n found
  obtain ⟨w, mem, ⟨r, rfl⟩, rfl⟩ := length?_oneOf found
  rwa [List.take_left]

theorem spells_many (f : Char → Bool) : (many f).Spells fun s => ∀ c ∈ s, f c := by
  intro t n found c hc
  obtain rfl := Option.some.inj found
  rw [← List.prefix_iff_eq_take.1 (List.takeWhile_prefix f)] at hc
  exact List.mem_takeWhile_imp hc

theorem Spells.opt (h : p.Spells P) : p.opt.Spells fun s => s = [] ∨ P s := by
  intro t n found
  obtain rfl := Option.some.inj found
  cases found : p.length? t with
  | none => exact .inl rfl
  | some n => exact .inr (h t n found)

theorem Spells.append (hp : p.Spells P) (hq : q.Spells Q) :
    (p ++ q).Spells fun s => ∃ a b, s = a ++ b ∧ P a ∧ Q b := by
  intro t n found
  obtain ⟨i, j, first, second, rfl⟩ := length?_append found
  exact ⟨_, _, List.take_add, hp _ _ first, hq _ _ second⟩

theorem Spells.orElse (hp : p.Spells P) (hq : q.Spells P) : (p <|> q).Spells P := by
  intro t n found
  rcases length?_orElse found with found | found
  · exact hp t n found
  · exact hq t n found

end Pattern

/-! How a directive is written. -/

/-- Characters that are no braces. -/
def Text.Flat (g : Text) : Prop := ∀ c ∈ g, c ≠ '{' ∧ c ≠ '}'

theorem Text.flat_of_isDull (h : ∀ c ∈ g, isDull c) : Flat g := by
  intro c hc
  exact (isInner_iff.1 (inner_of_isDull (h c hc))).2

/-- Two groups without braces in them, after a control word and what goes with it. -/
inductive Directive.Written : Text → Prop
  | mk (c : Char) {k g v h : Text} (word : ∀ x ∈ k, isDull x) (first : Flat g) (between : ∀ x ∈ v, isDull x)
      (second : Flat h) : Written ('\\' :: c :: (k ++ '{' :: (g ++ '}' :: (v ++ '{' :: (h ++ ['}'])))))

namespace Directive

theorem spells_blanks : Pattern.blanks.Spells fun s => ∀ c ∈ s, isDull c :=
  (Pattern.spells_many _).imp fun _ hs c hc => isDull_of_isBlank (hs c hc)

theorem spells_flatGroup : Pattern.flatGroup.Spells fun s => ∃ g, s = '{' :: (g ++ ['}']) ∧ Flat g := by
  refine (((Pattern.spells_word _).append (Pattern.spells_many _)).append (Pattern.spells_word _)).imp ?_
  rintro _ ⟨_, _, rfl, ⟨_, g, rfl, rfl, hg⟩, rfl⟩
  exact ⟨g, rfl, fun c hc => by simpa using hg c hc⟩

theorem spells_pattern : pattern.Spells Written := by
  have groups {p : Pattern} (head : p.Spells fun s => ∃ c k, s = '\\' :: c :: k ∧ ∀ x ∈ k, isDull x) :
      (p ++ .blanks ++ .flatGroup ++ .blanks ++ .flatGroup).Spells Written := by
    refine ((((head.append spells_blanks).append spells_flatGroup).append spells_blanks).append
      spells_flatGroup).imp ?_
    rintro _ ⟨_, _, rfl, ⟨_, v, rfl, ⟨_, _, rfl, ⟨_, u, rfl, ⟨c, k, rfl, hk⟩, hu⟩, g, rfl, hg⟩, hv⟩, h, rfl, hh⟩
    have written := Written.mk c (List.forall_mem_append.2 ⟨hk, hu⟩) hg hv hh
    simpa using written
  have numberWithin : numberWithin.Spells Written :=
    groups ((Pattern.spells_word _).imp fun _ hs => ⟨_, _, hs, by decide⟩)
  have counterWithin : counterWithin.Spells Written := by
    refine groups (((Pattern.spells_oneOf _).append (Pattern.spells_word _).opt).imp ?_)
    rintro _ ⟨_, _, rfl, word, star⟩
    rcases List.mem_pair.1 word with rfl | rfl <;> rcases star with rfl | rfl <;> exact ⟨_, _, rfl, by decide⟩
  have setCounter : setCounter.Spells Written := by
    refine ((((((((Pattern.spells_word _).append spells_blanks).append (Pattern.spells_word _)).append
      spells_blanks).append (Pattern.spells_oneOf _)).append spells_blanks).append (Pattern.spells_word _)).append
        spells_blanks |>.append spells_flatGroup).imp ?_
    rintro _ ⟨_, _, rfl, ⟨_, v, rfl, ⟨_, _, rfl, ⟨_, y, rfl, ⟨_, f, rfl, ⟨_, x, rfl, ⟨_, _, rfl, ⟨_, u, rfl, rfl, hu⟩,
      rfl⟩, hx⟩, hf⟩, hy⟩, rfl⟩, hv⟩, h, rfl, hh⟩
    have counter : ∀ c ∈ f, isDull c := by
      have dull : ∀ f ∈ (["figure", "table", "equation"] : List Text), ∀ c ∈ f, isDull c := by decide
      exact dull f hf
    have inner : Flat (x ++ (f ++ y)) :=
      flat_of_isDull (List.forall_mem_append.2 ⟨hx, List.forall_mem_append.2 ⟨counter, hy⟩⟩)
    have written := Written.mk 's' (k := "etcounter" ++ u) (List.forall_mem_append.2 ⟨by decide, hu⟩) inner hv hh
    simpa using written
  exact numberWithin.orElse (counterWithin.orElse setCounter)

end Directive

/-! What a directive is to a search for commands. -/

theorem Braced.of_flat (h : Flat g) (free : Text.escapes g = false) : Braced g := by
  fun_induction rests g with
  | case1 => exact .nil
  | case2 => exact absurd free (by decide)
  | case3 c t ih =>
    rw [escapes_pair] at free
    exact .pair c (ih (fun d hd => h d (by simp [hd])) free)
  | case4 c t lone pair ih =>
    have other := ne_backslash lone pair
    rw [escapes_cons other] at free
    exact .other other (h c List.mem_cons_self).1 (h c List.mem_cons_self).2
      (ih (fun d hd => h d (List.mem_cons_of_mem c hd)) free)

theorem Braced.dull_append (hk : ∀ c ∈ k, isDull c) (ht : Braced t) : Braced (k ++ t) :=
  .append (.of_inner fun c hc => inner_of_isDull (hk c hc)) ht

theorem Bracketed.dull_append (hk : ∀ c ∈ k, isDull c) (ht : Bracketed t) : Bracketed (k ++ t) := by
  induction k with
  | nil => exact ht
  | cons c k ih =>
    obtain ⟨dull, rest⟩ := List.forall_mem_cons.1 hk
    obtain ⟨inner, bracket, bracket'⟩ := isDull_iff.1 dull
    obtain ⟨slash, opening, -⟩ := isInner_iff.1 inner
    exact .other slash opening bracket bracket' (ih rest)

/-- No closing brace is escaped. -/
def Text.Closing (t : Text) : Prop := ∀ s ∈ rests t, ¬ ['\\', '}'] <+: s

instance (t : Text) : Decidable t.Closing := inferInstanceAs (Decidable (∀ s ∈ rests t, _))

/-- A closing brace stands unescaped. -/
theorem Text.Closing.escapes_eq (h : Closing (s ++ (g ++ '}' :: t))) (free : escapes s = false) :
    escapes g = false := by
  by_contra escaped
  obtain ⟨g, rfl, free'⟩ := exists_of_escapes (by simpa using escaped)
  refine h ('\\' :: '}' :: t) (mem_rests_iff.2 ⟨List.cons_ne_nil _ _, s ++ g, by simp, ?_⟩) ⟨t, rfl⟩
  rw [escapes_append free, free']

namespace Directive.Written

theorem head?_eq (h : Written m) : m.head? = some '\\' := by
  cases h
  rfl

theorem getLast?_eq (h : Written m) : m.getLast? = some '}' := by
  cases h
  simp [List.getLast?_cons]

/-- A directive pairs its braces, if it escapes none of those that close. -/
theorem pairs (h : Written m) (closing : Closing m) : Braced m ∧ Bracketed m := by
  cases h with
  | @mk c k g v h word first between second =>
    have hg : escapes g = false := by
      refine Closing.escapes_eq (s := '\\' :: c :: (k ++ ['{'])) (by simpa using closing) ?_
      exact escapes_of_getLast? (c := '{') (by simp [List.getLast?_cons]) (by decide)
    have hh : escapes h = false := by
      refine Closing.escapes_eq (s := '\\' :: c :: (k ++ '{' :: (g ++ '}' :: (v ++ ['{']))))
        (by simpa using closing) ?_
      exact escapes_of_getLast? (c := '{') (by simp [List.getLast?_cons]) (by decide)
    have first := Braced.of_flat first hg
    have second := Braced.of_flat second hh
    exact ⟨.pair c (.dull_append word (.group first (.dull_append between (.group second .nil)))),
      .pair c (.dull_append word (.braces first (.dull_append between (.braces second .nil))))⟩

end Directive.Written

namespace Directive

/-- Where a pass over a text meets a directive: what stands before it, with earlier directives gone, and after
it. -/
structure Site where
  before : Text
  directive : Text
  after : Text
  deriving DecidableEq, Repr

/-- The directives that a pass meets, with the given text before it. -/
def sites (before : Text) : Text → List Site
  | [] => []
  | c :: t =>
    match pattern.length? (c :: t) with
    | none => sites (before ++ [c]) t
    | some n => ⟨before, (c :: t).take n, t.drop (n - 1)⟩ :: sites before (t.drop (n - 1))
termination_by t => t.length
decreasing_by all_goals simp only [List.length_drop, List.length_cons]; omega

/-- A directive stands alone to a search for the listed commands: its backslash is not escaped, none of the
commands begins in it, it escapes none of its closing braces if a command is open around it, and what stands
before it and after it do not join to a command. -/
structure Site.Alone (names : List Text) (s : Site) : Prop where
  free : escapes s.before = false
  quiet : ∀ r ∈ s.directive.rests, Command.lead names (r ++ s.after) = .mentioned
  closing : Command.Open names s.before → s.directive.Closing
  apart : ¬ Command.Joins names s.before s.after

instance (names : List Text) (s : Site) : Decidable (s.Alone names) :=
  decidable_of_iff (escapes s.before = false ∧
      (∀ r ∈ s.directive.rests, Command.lead names (r ++ s.after) = .mentioned) ∧
      (Command.Open names s.before → s.directive.Closing) ∧ ¬ Command.Joins names s.before s.after)
    ⟨fun ⟨free, quiet, closing, apart⟩ => ⟨free, quiet, closing, apart⟩,
      fun ⟨free, quiet, closing, apart⟩ => ⟨free, quiet, closing, apart⟩⟩

theorem Site.Alone.removable {s : Site} (h : s.Alone names) (written : Written s.directive) :
    Command.Removable names s.before s.directive s.after where
  free := h.free
  begins := written.head?_eq
  passed := Command.scan_quiet (fun c hc => by simpa [written.getLast?_eq, eq_comm] using hc) h.quiet
  pairs open_ := written.pairs (h.closing open_)
  apart := h.apart

/-- A search finds the same commands past a pass that meets only directives that stand alone. -/
theorem matches_erase (before t : Text) (alone : ∀ s ∈ sites before t, s.Alone names) :
    (Command.all (before ++ t) names).Matches Command.SameName (Command.all (before ++ erase t) names) := by
  fun_induction sites before t with
  | case1 before =>
    rw [erase, Pattern.erase, Pattern.exchange]
    exact Command.matches_anywhere _ _ _ _
  | case2 before c t none ih =>
    have kept : erase (c :: t) = c :: erase t := Pattern.exchange_cons none
    rw [kept, List.append_cons, List.append_cons before c (erase t)]
    exact ih alone
  | case3 before c t n found ih =>
    simp only [List.forall_mem_cons] at alone
    obtain ⟨one, -⟩ := takes_pattern _ _ found
    have parts : (c :: t).take n ++ t.drop (n - 1) = c :: t := by
      obtain ⟨n, rfl⟩ := Nat.exists_eq_add_of_le' one
      exact List.take_append_drop _ _
    have gone : erase (c :: t) = erase (t.drop (n - 1)) := by
      rw [erase, Pattern.erase, Pattern.exchange]
      simp only [found]
      rfl
    have removed := Command.matches_removed (alone.1.removable (spells_pattern _ _ found)) 0 0
    dsimp only at removed
    rw [parts] at removed
    rw [gone]
    exact Command.matches_trans removed (ih alone.2)

end Directive

/-! The flattened text. -/

namespace Flattened

variable {n : Numbering} {flattened : List Text} {rs : List Reference} {blocks : List Block}
  {images : List Replacement} {f : Flattened}

theorem exchanges_eq_nil (h : ∀ r ∈ rs, (Stretch.visit n flattened r).isExchanged = false) :
    Reference.exchanges n flattened rs = [] := by
  refine List.filterMap_eq_nil_iff.2 fun r hr => ?_
  have kept := h r hr
  rw [Stretch.visit, Visit.of] at kept
  cases hl : n.get? r.target with
  | none => rfl
  | some l =>
    simp only [hl] at kept
    cases exchanged : n.exchanged? flattened l with
    | none => simp [exchanged]
    | some markup => simp [exchanged, Visit.isExchanged] at kept

/-- Where no block is replaced and no reference exchanged, a text loses its directives alone. -/
theorem text_eq_erase (h : ofText t n blocks images = .ok f) (unreplaced : f.blocksReplaced = 0)
    (unexchanged : f.referencesExchanged = 0) : f.text = Directive.erase t := by
  have text := text_of_ofText h
  obtain ⟨p, hp, h⟩ := Except.bind_eq_ok_iff.1 h
  split at h
  · obtain rfl := Except.ok.inj h
    have none : Flattened.chosen blocks images = [] := List.length_eq_zero_iff.1 unreplaced
    have fits : (Stretch.gap ⟨0, t.length⟩).Fits t := ⟨Nat.zero_le _, le_rfl⟩
    have visits : p.visits = ((Stretch.gap ⟨0, t.length⟩).references t).found.map
        (Stretch.visit n (names blocks images)) := by
      rw [none, passage, gap_eq, if_neg (Stretch.fits_gap_iff.1 fits)] at hp
      split at hp
      · obtain rfl := Except.ok.inj hp
        rw [names, none]
        rfl
      · cases hp
    have kept : ∀ r ∈ ((Stretch.gap ⟨0, t.length⟩).references t).found,
        (Stretch.visit n (names blocks images) r).isExchanged = false := by
      intro r hr
      dsimp only at unexchanged
      rw [visits, List.countP_eq_zero] at unexchanged
      simpa using unexchanged _ (List.mem_map_of_mem hr)
    have order : InOrder 0 t.length (((Stretch.gap ⟨0, t.length⟩).references t).found.map Reference.span) :=
      Reference.inOrder_inSpan fits.1
    rw [none, stretches, List.flatMap_singleton, Stretch.passage] at text
    dsimp only at text
    dsimp only
    rw [text, exchange, splice_exchanges order le_rfl, exchanges_eq_nil kept, splice, slice_self]
  · cases h

/-- Where no block is replaced and no reference exchanged, and each directive stands alone when it goes, a search
finds the same commands in the flattened text, and is stopped there if it is stopped before. -/
theorem ofText_commands (h : ofText t n blocks images = .ok f) (unreplaced : f.blocksReplaced = 0)
    (unexchanged : f.referencesExchanged = 0) (names : List Text)
    (alone : ∀ s ∈ Directive.sites [] t, s.Alone names) :
    (Command.all f.text names).found.map Command.name = (Command.all t names).found.map Command.name ∧
      ((Command.all f.text names).stopped = none ↔ (Command.all t names).stopped = none) := by
  rw [text_eq_erase h unreplaced unexchanged]
  have same := Directive.matches_erase [] t alone
  exact ⟨(map_eq_of_forall₂ same.found fun _ _ eq => eq).symm, same.stopped.symm⟩

/-- The commands that label a document, refer to its labels and bound its environments. -/
def structural : List Text := ["label", "ref", "eqref", "subref", "begin", "end"]

/-- Directives in the argument of a label, beside an escape, between other commands and at both ends. -/
def directed : Text :=
  "\\setcounter\x7bfigure\x7d\x7b3\x7d\\begin\x7bx\x7d\\label\x7ba\x7d" ++
    "\\label\x7bb\\numberwithin\x7bequation\x7d\x7bsection\x7d\x7d" ++
    "\\\\\\counterwithin*\x7bfigure\x7d \x7b\\chapter\x7d\\ref\x7ba\x7d\\end\x7bx\x7d" ++
    "\\counterwithout\x7btable\x7d\x7bpart\x7d"

theorem ofText_commands_directed : ∃ o, Outline.ofText directed = .ok o ∧ ∃ n, Numbering.ofOutline o = .ok n ∧
    ∃ f, ofText directed n [] [] = .ok f ∧ f.directivesRemoved = 4 ∧
      (Command.all f.text structural).found.map Command.name = ["begin", "label", "label", "ref", "end"] ∧
        (Command.all f.text structural).stopped = none := by
  have good : ∃ o, Outline.ofText directed = .ok o ∧ ∃ n, Numbering.ofOutline o = .ok n ∧
      ∃ f, ofText directed n [] [] = .ok f ∧ f.directivesRemoved = 4 ∧ f.blocksReplaced = 0 ∧
        f.referencesExchanged = 0 ∧ (∀ s ∈ Directive.sites [] directed, s.Alone structural) ∧
        (Command.all directed structural).found.map Command.name = ["begin", "label", "label", "ref", "end"] ∧
        (Command.all directed structural).stopped = none := by
    unfold ofText Flattened.chosen
    simp only [List.filterMap_nil, List.mergeSort_nil]
    decide +kernel
  obtain ⟨o, ho, n, hn, f, hf, removed, unreplaced, unexchanged, alone, found, whole⟩ := good
  obtain ⟨same, stopped⟩ := ofText_commands hf unreplaced unexchanged structural alone
  exact ⟨o, ho, n, hn, f, hf, removed, same.trans found, stopped.2 whole⟩

/-- A text in which some commands are found, and others once its directives are gone. -/
def Disturbed (t : Text) (before after : List Text) : Prop :=
  ∃ o, Outline.ofText t = .ok o ∧ ∃ n, Numbering.ofOutline o = .ok n ∧ ∃ f, ofText t n [] [] = .ok f ∧
    f.blocksReplaced = 0 ∧ f.referencesExchanged = 0 ∧
      (Command.all t structural).found.map Command.name = before ∧
        (Command.all f.text structural).found.map Command.name = after ∧ before ≠ after

/-- A directive goes from between a control word and its argument; with the control word that it holds itself; and
with an escaped brace from within an argument. -/
theorem exists_disturbed :
    Disturbed "\\label\\numberwithin\x7ba\x7d\x7bb\x7d\x7bx\x7d" [] ["label"] ∧
      Disturbed "\\numberwithin\x7b\\label[\x7d\x7bb\x7d]\x7bx\x7d" ["label"] [] ∧
        Disturbed "\\label\x7b\\numberwithin\x7ba\x7d\x7bb\\\x7d\x7d\\label\x7bx\x7d\x7d" ["label"]
          ["label", "label"] := by
  unfold Disturbed ofText Flattened.chosen
  simp only [List.filterMap_nil, List.mergeSort_nil]
  refine ⟨?_, ?_, ?_⟩ <;> decide +kernel

end Flattened

end FloatFlattening
