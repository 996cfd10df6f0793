import FloatFlattening.Proofs.Markup.Piece
import FloatFlattening.Proofs.Markup.Seam
import FloatFlattening.Proofs.Markup.Sequel
/-!
Markup that is taken out of a text. A search finds the same commands without it, if it holds none, what stands
before it and after it do not join to a new one, and it pairs its braces where a command is open around it.
-/

namespace FloatFlattening

variable {s t u m a b w r r' : Text} {names : List Text} {pos pos' : Nat}

namespace Text

/-- What is left of a text at each place that no backslash escapes. -/
def rests : Text → List Text
  | [] => []
  | ['\\'] => [['\\']]
  | '\\' :: c :: t => ('\\' :: c :: t) :: rests t
  | c :: t => (c :: t) :: rests t

theorem mem_rests_iff : s ∈ rests t ↔ s ≠ [] ∧ ∃ u, t = u ++ s ∧ escapes u = false := by
  have whole {t : Text} (ne : t ≠ []) (h : s = t) : s ≠ [] ∧ ∃ u, t = u ++ s ∧ escapes u = false :=
    ⟨h ▸ ne, [], h ▸ rfl, rfl⟩
  fun_induction rests t with
  | case1 => simp
  | case2 =>
    rw [List.mem_singleton]
    refine ⟨whole (List.cons_ne_nil _ _), fun ⟨ne, u, eq, free⟩ => ?_⟩
    cases u with
    | nil => exact eq.symm
    | cons x u => exact absurd (List.append_eq_nil_iff.1 (List.cons.inj eq).2.symm).2 ne
  | case3 c t ih =>
    refine List.mem_cons.trans ((or_congr_right ih).trans ?_)
    constructor
    · rintro (h | ⟨ne, u, rfl, free⟩)
      · exact whole (List.cons_ne_nil _ _) h
      · exact ⟨ne, '\\' :: c :: u, rfl, by rwa [escapes_pair]⟩
    · rintro ⟨ne, u, eq, free⟩
      match u with
      | [] => exact .inl eq.symm
      | [x] =>
        obtain rfl : '\\' = x := (List.cons.inj eq).1
        cases free
      | x :: y :: u =>
        obtain ⟨rfl, rest⟩ := List.cons.inj eq
        obtain ⟨rfl, rfl⟩ := List.cons.inj rest
        exact .inr ⟨ne, u, rfl, by rwa [escapes_pair] at free⟩
  | case4 c t lone pair ih =>
    have other := ne_backslash lone pair
    refine List.mem_cons.trans ((or_congr_right ih).trans ?_)
    constructor
    · rintro (h | ⟨ne, u, rfl, free⟩)
      · exact whole (List.cons_ne_nil _ _) h
      · exact ⟨ne, c :: u, rfl, by rwa [escapes_cons other]⟩
    · rintro ⟨ne, u, eq, free⟩
      cases u with
      | nil => exact .inl eq.symm
      | cons x u =>
        obtain ⟨rfl, rfl⟩ := List.cons.inj eq
        exact .inr ⟨ne, u, rfl, by rwa [escapes_cons other] at free⟩

theorem mem_rests_self (h : t ≠ []) : t ∈ rests t := mem_rests_iff.2 ⟨h, [], rfl, rfl⟩

theorem mem_rests_append (h : s ∈ rests t) (free : escapes u = false) : s ∈ rests (u ++ t) := by
  obtain ⟨ne, v, rfl, free'⟩ := mem_rests_iff.1 h
  exact mem_rests_iff.2 ⟨ne, u ++ v, by rw [List.append_assoc], by rw [escapes_append free, free']⟩

/-- Induction on a text by what a backslash takes with it. -/
@[elab_as_elim]
theorem lex_induction {motive : Text → Prop} (nil : motive []) (lone : motive ['\\'])
    (other : ∀ c t, c ≠ '\\' → motive t → motive (c :: t))
    (symbol : ∀ c t, c.isAlpha = false → motive t → motive ('\\' :: c :: t))
    (word : ∀ w r, Command.Word w r → (∀ s, s <:+ r → motive s) → motive ('\\' :: (w ++ r))) (t : Text) :
    motive t := by
  induction n : t.length using Nat.strong_induction_on generalizing t with
  | _ n ih =>
    subst n
    match t with
    | [] => exact nil
    | c :: t =>
      by_cases hc : c = '\\'
      · subst hc
        match t with
        | [] => exact lone
        | d :: t =>
          cases hd : d.isAlpha with
          | false => exact symbol d t hd (ih t.length (by grind) t rfl)
          | true =>
            obtain ⟨w, r, hw, e⟩ := Command.exists_word hd t
            rw [e] at ih ⊢
            refine word w r hw fun s hs => ih s.length ?_ s rfl
            have := hs.length_le
            simp only [List.length_cons, List.length_append]
            omega
      · exact other c t hc (ih t.length (by simp) t rfl)

end Text

namespace Command

/-- What follows the listed control word that begins a text, and as of a mention where none does. -/
def lead (names : List Text) : Text → Sequel
  | '\\' :: t =>
    let name := t.takeWhile Char.isAlpha
    if name ≠ [] ∧ name ∈ names then sequel (t.drop name.length) else .mentioned
  | _ => .mentioned

theorem lead_word (h : Word w r) :
    lead names ('\\' :: (w ++ r)) = if w ∈ names then sequel r else .mentioned := by
  simp [lead, h.takeWhile, h.ne_nil]

/-- At the end of a text, a listed command is open. -/
def Open (names : List Text) (t : Text) : Prop := ∃ s ∈ t.rests, lead names s = .broken

/-- Two texts together have a listed command that the first does not have by itself. -/
def Joins (names : List Text) (s t : Text) : Prop :=
  ∃ r ∈ s.rests, lead names r = .mentioned ∧ lead names (r ++ t) ≠ .mentioned

instance (names : List Text) (t : Text) : Decidable (Open names t) :=
  inferInstanceAs (Decidable (∃ s ∈ t.rests, _))

instance (names : List Text) (s t : Text) : Decidable (Joins names s t) :=
  inferInstanceAs (Decidable (∃ r ∈ s.rests, _))

theorem Open.prepend (h : Open names t) (free : Text.escapes u = false) : Open names (u ++ t) := by
  obtain ⟨s, mem, broken⟩ := h
  exact ⟨s, Text.mem_rests_append mem free, broken⟩

theorem Joins.prepend (h : Joins names s t) (free : Text.escapes u = false) : Joins names (u ++ s) t := by
  obtain ⟨r, mem, lead⟩ := h
  exact ⟨r, Text.mem_rests_append mem free, lead⟩

/-! A search at a control word, by what follows the word. -/

theorem scan_lead_mentioned (hw : Word w r) (h : lead names ('\\' :: (w ++ r)) = .mentioned) (pos : Nat) :
    scan names pos ('\\' :: (w ++ r)) = scan names (pos + 1 + w.length) r := by
  refine scan_mention hw fun mem => ?_
  rw [lead_word hw, if_pos mem] at h
  exact (sequel_eq_mentioned_iff w pos (pos + 1 + w.length)).1 h

theorem mem_of_lead_ne (hw : Word w r) (h : lead names ('\\' :: (w ++ r)) ≠ .mentioned) :
    w ∈ names ∧ lead names ('\\' :: (w ++ r)) = sequel r := by
  rw [lead_word hw] at h ⊢
  split at h
  next mem => exact ⟨mem, if_pos mem⟩
  next => exact absurd rfl h

theorem exists_scan_used (hw : Word w r) (h : lead names ('\\' :: (w ++ r)) = .used s) (pos : Nat) :
    ∃ c k, c.name = w ∧ r[k]? = some '}' ∧ s = r.drop (k + 1) ∧
      scan names pos ('\\' :: (w ++ r)) = (scan names c.span.stop s).cons c := by
  obtain ⟨mem, eq⟩ := mem_of_lead_ne hw (by rw [h]; exact Sequel.noConfusion)
  obtain ⟨c, k, ha, named, stop, close, rfl⟩ := (sequel_eq_used_iff w pos (pos + 1 + w.length)).1 (eq.symm.trans h)
  exact ⟨c, k, named, close, rfl, scan_command hw mem ha stop⟩

/-- A command that has its argument keeps it, whatever follows. -/
theorem lead_used_append (hw : Word w r) (h : lead names ('\\' :: (w ++ r)) = .used s) (more : Text) :
    r ≠ [] ∧ lead names ('\\' :: (w ++ (r ++ more))) = .used (s ++ more) := by
  obtain ⟨-, k, -, close, -, -⟩ := exists_scan_used hw h 0
  have ne : r ≠ [] := by
    rintro rfl
    cases close
  obtain ⟨mem, eq⟩ := mem_of_lead_ne hw (by rw [h]; exact Sequel.noConfusion)
  exact ⟨ne, by rw [lead_word (hw.append ne more), if_pos mem, sequel_used_append (eq.symm.trans h)]⟩

theorem exists_scan_broken (hw : Word w r) (h : lead names ('\\' :: (w ++ r)) = .broken) (pos : Nat) :
    ∃ m, scan names pos ('\\' :: (w ++ r)) = .stop m := by
  obtain ⟨mem, eq⟩ := mem_of_lead_ne hw (by rw [h]; exact Sequel.noConfusion)
  obtain ⟨m, ha⟩ := (sequel_eq_broken_iff w pos (pos + 1 + w.length)).1 (eq.symm.trans h)
  exact ⟨m, scan_stopped hw mem ha⟩

/-- Two commands of one name. -/
def SameName (c d : Command) : Prop := c.name = d.name

theorem matches_trans {x y z : Scan Command} (h : x.Matches SameName y) (k : y.Matches SameName z) :
    x.Matches SameName z :=
  ⟨(forall₂_comp h.found k.found).imp fun _ _ ⟨_, hc, hd⟩ => hc.trans hd, h.stopped.trans k.stopped⟩

/-- A control word is read alike where the same follows it and where what comes after that is searched alike. -/
theorem matches_word (hw : Word w r) (hw' : Word w r')
    (same : lead names ('\\' :: (w ++ r)) = lead names ('\\' :: (w ++ r')))
    (rest : ∀ pos pos', (scan names pos r).Matches SameName (scan names pos' r'))
    (later : ∀ s, s <:+ r → ∀ pos pos', (scan names pos s).Matches SameName (scan names pos' s)) (pos pos' : Nat) :
    (scan names pos ('\\' :: (w ++ r))).Matches SameName (scan names pos' ('\\' :: (w ++ r'))) := by
  cases h : lead names ('\\' :: (w ++ r)) with
  | mentioned =>
    rw [scan_lead_mentioned hw h, scan_lead_mentioned hw' (same.symm.trans h)]
    exact rest _ _
  | used s =>
    obtain ⟨c, k, named, -, rfl, scan⟩ := exists_scan_used hw h pos
    obtain ⟨d, -, named', -, -, scan'⟩ := exists_scan_used hw' (same.symm.trans h) pos'
    rw [scan, scan']
    exact (later _ (List.drop_suffix _ _) _ _).cons (named.trans named'.symm)
  | broken =>
    obtain ⟨m, scan⟩ := exists_scan_broken hw h pos
    obtain ⟨m', scan'⟩ := exists_scan_broken hw' (same.symm.trans h) pos'
    rw [scan, scan']
    exact .stop m m'

/-- The same is found wherever a text stands. -/
theorem matches_anywhere (names : List Text) (pos pos' : Nat) (t : Text) :
    (scan names pos t).Matches SameName (scan names pos' t) := by
  induction t using Text.lex_induction generalizing pos pos' with
  | nil => simpa using Scan.Matches.done
  | lone => simpa using Scan.Matches.done
  | other c t hc ih => simpa only [scan_other hc] using ih _ _
  | symbol c t hc ih => simpa only [scan_symbol hc] using ih _ _
  | word w r hw ih => exact matches_word hw hw rfl (ih r (List.suffix_refl r)) ih pos pos'

/-- A search goes past markup in which no listed command begins. -/
theorem scan_quiet (ends : ∀ c ∈ m.getLast?, c = '}') (quiet : ∀ s ∈ m.rests, lead names (s ++ a) = .mentioned)
    (pos : Nat) : scan names pos (m ++ a) = scan names (pos + m.length) a := by
  have last (u m : Text) (h : ∀ c ∈ (u ++ m).getLast?, c = '}') : ∀ c ∈ m.getLast?, c = '}' := by
    intro c hc
    refine h c ?_
    rwa [List.getLast?_append_of_ne_nil]
    rintro rfl
    cases hc
  induction m using Text.lex_induction generalizing pos with
  | nil => rfl
  | lone => exact absurd (ends '\\' rfl) (by decide)
  | other c t hc ih =>
    have free : Text.escapes [c] = false := by simp [Text.escapes_cons hc]
    rw [List.cons_append, scan_other hc, ih (last [c] t ends)
      fun s hs => quiet s (Text.mem_rests_append (u := [c]) hs free), List.length_cons, Nat.add_right_comm,
      Nat.add_assoc]
  | symbol c t hc ih =>
    rw [List.cons_append, List.cons_append, scan_symbol hc, ih (last ['\\', c] t ends)
      fun s hs => quiet s (Text.mem_rests_append (u := ['\\', c]) hs (by simp)), List.length_cons, List.length_cons]
    congr 1
    omega
  | word w r hw ih =>
    have longer : Word w (r ++ a) := by
      refine hw.append ?_ a
      rintro rfl
      have letter := hw.letters _ (List.getLast_mem hw.ne_nil)
      have brace := ends (w.getLast hw.ne_nil)
        (by simp [List.getLast?_cons, List.getLast?_eq_some_getLast hw.ne_nil])
      rw [brace] at letter
      exact absurd letter (by decide)
    have mentioned := quiet _ (Text.mem_rests_self (List.cons_ne_nil _ _))
    rw [List.cons_append, List.append_assoc] at mentioned
    rw [List.cons_append, List.append_assoc, scan_lead_mentioned longer mentioned,
      ih r (List.suffix_refl r) (last ('\\' :: w) r ends)
        fun s hs => quiet s (Text.mem_rests_append (u := '\\' :: w) hs hw.escapes), List.length_cons,
      List.length_append]
    congr 1
    omega

/-- Markup that can be taken out of a text between what stands before it and after it. -/
structure Removable (names : List Text) (before m after : Text) : Prop where
  free : Text.escapes before = false
  begins : m.head? = some '\\'
  passed : ∀ pos, scan names pos (m ++ after) = scan names (pos + m.length) after
  pairs : Open names before → Braced m ∧ Bracketed m
  apart : ¬ Joins names before after

theorem Removable.of_prepend (h : Removable names (u ++ b) m a) (free : Text.escapes u = false) :
    Removable names b m a where
  free := by rw [← Text.escapes_append free, h.free]
  begins := h.begins
  passed := h.passed
  pairs open_ := h.pairs (open_.prepend free)
  apart joins := h.apart (joins.prepend free)

theorem Removable.not_isAlpha (h : Removable names b m a) (t : Text) :
    ∀ c ∈ (m ++ t).head?, c.isAlpha = false := by
  obtain ⟨rest, rfl⟩ := List.head?_eq_some_iff.1 h.begins
  intro c hc
  obtain rfl : '\\' = c := by simpa using hc
  decide

/-- A mention stays one before the markup. -/
theorem Removable.lead_mentioned (h : Removable names ('\\' :: (w ++ r)) m a) (hw : Word w r)
    (mentioned : lead names ('\\' :: (w ++ r)) = .mentioned) :
    lead names ('\\' :: (w ++ (r ++ (m ++ a)))) = .mentioned := by
  have long : Word w (r ++ (m ++ a)) := hw.append_of_head (h.not_isAlpha a)
  rw [lead_word hw] at mentioned
  rw [lead_word long]
  split at mentioned
  next mem =>
    refine (if_pos mem).trans (sequel_mentioned_append mentioned fun c hc => ?_)
    obtain ⟨rest, rfl⟩ := List.head?_eq_some_iff.1 h.begins
    obtain rfl : '\\' = c := by simpa using hc
    decide
  next other => exact if_neg other

/-- What follows an open command is the same without the markup. -/
theorem Removable.lead_broken (h : Removable names ('\\' :: (w ++ r)) m a) (hw : Word w r)
    (broken : lead names ('\\' :: (w ++ r)) = .broken) :
    r ≠ [] ∧ lead names ('\\' :: (w ++ (r ++ (m ++ a)))) = lead names ('\\' :: (w ++ (r ++ a))) := by
  obtain ⟨-, eq⟩ := mem_of_lead_ne hw (by rw [broken]; exact Sequel.noConfusion)
  have ne : r ≠ [] := by
    rintro rfl
    rw [broken, sequel_nil] at eq
    cases eq
  have past := h.of_prepend (u := '\\' :: w) hw.escapes
  obtain ⟨braced, bracketed⟩ := h.pairs ⟨_, Text.mem_rests_self (List.cons_ne_nil _ _), broken⟩
  rw [lead_word (hw.append ne (m ++ a)), lead_word (hw.append ne a),
    sequel_insert (eq.symm.trans broken) past.free braced bracketed]
  exact ⟨ne, rfl⟩

/-- A mention at the end of what stands before stays one, and the search goes on past what follows. -/
theorem matches_mentioned_end (hw : Word w []) (h : Removable names ('\\' :: w) m a)
    (mentioned : lead names ('\\' :: (w ++ [])) = .mentioned) (pos pos' : Nat) :
    (scan names pos (m ++ a)).Matches SameName (scan names pos' ('\\' :: (w ++ a))) := by
  have parts : a.takeWhile Char.isAlpha ++ a.dropWhile Char.isAlpha = a := List.takeWhile_append_dropWhile
  have letters : ∀ c ∈ a.takeWhile Char.isAlpha, c.isAlpha := fun c hc => List.mem_takeWhile_imp hc
  have longer : Word (w ++ a.takeWhile Char.isAlpha) (a.dropWhile Char.isAlpha) := by
    refine ⟨by simp [hw.ne_nil], fun c hc => (List.mem_append.1 hc).elim (hw.letters c) (letters c), fun c hc => ?_⟩
    have := List.head?_dropWhile_not Char.isAlpha a
    rwa [Option.mem_def.1 hc] at this
  have still : lead names ('\\' :: (w ++ a)) = .mentioned := by
    by_contra new
    rw [List.append_nil] at mentioned
    exact h.apart ⟨_, Text.mem_rests_self (List.cons_ne_nil _ _), mentioned, new⟩
  rw [← parts, ← List.append_assoc] at still
  have after (pos : Nat) : scan names pos a =
      scan names (pos + (a.takeWhile Char.isAlpha).length) (a.dropWhile Char.isAlpha) := by
    conv_lhs => rw [← parts]
    refine scan_chars (fun c hc => ?_) _ _
    rintro rfl
    exact absurd (letters _ hc) (by decide)
  have joined : scan names pos' ('\\' :: (w ++ a)) =
      scan names (pos' + 1 + (w ++ a.takeWhile Char.isAlpha).length) (a.dropWhile Char.isAlpha) := by
    rw [← scan_lead_mentioned longer still, List.append_assoc, parts]
  rw [h.passed, after, joined]
  exact matches_anywhere names _ _ _

/-- A search finds the same commands without markup that can be taken out. -/
theorem matches_removed (h : Removable names b m a) (pos pos' : Nat) :
    (scan names pos (b ++ (m ++ a))).Matches SameName (scan names pos' (b ++ a)) := by
  induction b using Text.lex_induction generalizing pos pos' with
  | nil =>
    rw [List.nil_append, List.nil_append, h.passed]
    exact matches_anywhere names _ _ a
  | lone => exact absurd h.free (by decide)
  | other c t hc ih =>
    rw [List.cons_append, List.cons_append, scan_other hc, scan_other hc]
    exact ih (h.of_prepend (u := [c]) (by simp [Text.escapes_cons hc])) _ _
  | symbol c t hc ih =>
    rw [List.cons_append, List.cons_append, List.cons_append, List.cons_append, scan_symbol hc, scan_symbol hc]
    exact ih (h.of_prepend (u := ['\\', c]) (by simp)) _ _
  | word w r hw ih =>
    have past := h.of_prepend (u := '\\' :: w) hw.escapes
    have long : Word w (r ++ (m ++ a)) := hw.append_of_head (h.not_isAlpha a)
    simp only [List.cons_append, List.append_assoc]
    cases hl : lead names ('\\' :: (w ++ r)) with
    | mentioned =>
      rw [scan_lead_mentioned long (h.lead_mentioned hw hl)]
      by_cases ne : r = []
      · subst ne
        exact matches_mentioned_end hw (by simpa using h) hl _ _
      · have still : lead names ('\\' :: (w ++ (r ++ a))) = .mentioned := by
          by_contra new
          exact h.apart ⟨_, Text.mem_rests_self (List.cons_ne_nil _ _), hl, by simpa using new⟩
        rw [scan_lead_mentioned (hw.append ne a) still]
        exact ih _ (List.suffix_refl r) past _ _
    | used s =>
      obtain ⟨-, k, -, close, rfl, -⟩ := exists_scan_used hw hl 0
      obtain ⟨ne, used⟩ := lead_used_append hw hl (m ++ a)
      obtain ⟨-, used'⟩ := lead_used_append hw hl a
      obtain ⟨c, -, named, -, -, scan⟩ := exists_scan_used long used pos
      obtain ⟨d, -, named', -, -, scan'⟩ := exists_scan_used (hw.append ne a) used' pos'
      rw [scan, scan']
      have inner : Removable names (r.drop (k + 1)) m a :=
        Removable.of_prepend (u := r.take (k + 1)) (by rwa [List.take_append_drop])
          (Text.escapes_take_succ close (by decide))
      exact (ih _ (List.drop_suffix _ _) inner _ _).cons (named.trans named'.symm)
    | broken =>
      obtain ⟨ne, same⟩ := h.lead_broken hw hl
      exact matches_word long (hw.append ne a) same (ih r (List.suffix_refl r) past)
        (fun s _ pos pos' => matches_anywhere names pos pos' s) pos pos'

end Command

end FloatFlattening
