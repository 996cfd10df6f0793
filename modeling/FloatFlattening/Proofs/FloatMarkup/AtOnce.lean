import FloatFlattening.Proofs.FloatMarkup
/-!
Slots filled all at once, against slots filled one after the other. What the second does with a default template
is what the first does, unless the label, put between braces, makes a slot for the caption.
-/

namespace FloatFlattening

theorem Text.occursIn_iff_infix {w t : Text} : occursIn w t = true ↔ w <:+: t := by
  induction t with
  | nil => simp [occursIn]
  | cons c t ih =>
    rw [occursIn, Bool.or_eq_true, ih, List.infix_cons_iff, Option.isSome_iff_exists]
    exact or_congr_left (exists_congr fun r => after?_eq_some_iff.trans eq_comm)

namespace Pattern

variable {c : Char} {value w t : Text}

theorem length?_word (w t : Text) : (word w).length? t = if w <+: t then some w.length else none := by
  simp [word]

theorem occursIn_word_iff (hw : w ≠ []) : (word w).occursIn t = true ↔ w <:+: t := by
  induction t with
  | nil => simp [occursIn, word, hw]
  | cons c t ih =>
    rw [occursIn, Bool.or_eq_true, ih, List.infix_cons_iff, length?_word]
    refine or_congr_left ?_
    split <;> simp [*]

/-- What a word is exchanged for counts as often as the word does not. -/
theorem exists_length_exchange (hw : w ≠ []) (value t : Text) :
    ∃ n, ((word w).exchange value t).length + n * w.length = t.length + n * value.length := by
  fun_induction exchange (word w) value t with
  | case1 => exact ⟨0, by simp⟩
  | case2 c t none ih =>
    obtain ⟨n, ih⟩ := ih
    refine ⟨n, ?_⟩
    simp only [List.length_cons]
    omega
  | case3 c t k found ih =>
    obtain ⟨n, ih⟩ := ih
    obtain ⟨begins, rfl⟩ : w <+: c :: t ∧ w.length = k := by simpa [length?_word] using found
    have fits := begins.length_le
    have some := List.length_pos_iff.2 hw
    refine ⟨n + 1, ?_⟩
    simp only [List.length_append, List.length_drop, List.length_cons, Nat.add_mul, Nat.one_mul] at ih fits ⊢
    omega

theorem drop_word (hw : w ≠ []) (begins : w <+: c :: t) : w ++ t.drop (w.length - 1) = c :: t := by
  obtain ⟨r, eq⟩ := begins
  obtain ⟨d, w, rfl⟩ := List.exists_cons_of_ne_nil hw
  obtain ⟨rfl, rfl⟩ := List.cons.inj eq
  simp

theorem exchange_self (hw : w ≠ []) (t : Text) : (word w).exchange w t = t := by
  fun_induction exchange (word w) w t with
  | case1 => rfl
  | case2 c t none ih => rw [ih]
  | case3 c t k found ih =>
    obtain ⟨begins, rfl⟩ : w <+: c :: t ∧ w.length = k := by simpa [length?_word] using found
    rw [ih, drop_word hw begins]

/-- An exchange leaves a text as it is just if there is nothing to exchange, or the word is its own value. -/
theorem exchange_word_eq_self_iff (hw : w ≠ []) : (word w).exchange value t = t ↔ (w <:+: t → value = w) := by
  constructor
  · intro same occurs
    fun_induction exchange (word w) value t with
    | case1 => exact absurd (List.infix_nil.1 occurs) hw
    | case2 c t none ih =>
      have later : w <:+: t := by
        refine (List.infix_cons_iff.1 occurs).resolve_left fun begins => ?_
        simp [length?_word, begins] at none
      exact ih (List.cons.inj same).2 later
    | case3 c t k found ih =>
      obtain ⟨begins, rfl⟩ : w <+: c :: t ∧ w.length = k := by simpa [length?_word] using found
      rw [← drop_word hw begins] at same
      -- The lengths differ as often as the word occurs, by the same number each time.
      obtain ⟨n, length⟩ := exists_length_exchange hw value (t.drop (w.length - 1))
      have whole := congrArg List.length same
      simp only [List.length_append] at whole
      have equal : (n + 1) * value.length = (n + 1) * w.length := by
        rw [Nat.add_mul, Nat.add_mul]
        omega
      exact (List.append_inj same (Nat.eq_of_mul_eq_mul_left n.succ_pos equal)).1
  · intro own
    by_cases occurs : w <:+: t
    · rw [own occurs, exchange_self hw]
    · exact exchange_of_occursIn (by simpa using (occursIn_word_iff hw).not.2 occurs)

end Pattern

namespace FloatMarkup

open Pattern

variable {image before key value : Text} {caption label : Option Text} {table : List (Text × Text)} {c : Char}
  {t : Text}

/-- The slots of a table's keys exchanged for their values in one pass, in which no value is read. -/
def substitute (table : List (Text × Text)) : Text → Text
  | [] => []
  | c :: t =>
    match table.find? fun entry => (slot entry.1).isPrefixOf (c :: t) with
    | none => c :: substitute table t
    | some (key, value) => value ++ substitute table (t.drop (key.length + 1))
termination_by t => t.length
decreasing_by all_goals simp only [List.length_drop, List.length_cons]; omega

def values (image : Text) (caption label : Option Text) : List (Text × Text) :=
  [("image", image), ("caption", caption.getD []), ("label", label.getD [])]

/-- Whether a line has no slot for a caption or label that there is not. -/
def Served (caption label : Option Text) (line : Text) : Prop :=
  (slot "caption" <:+: line → caption.isSome) ∧ (slot "label" <:+: line → label.isSome)

instance : DecidablePred (Served caption label) := fun _ => inferInstanceAs (Decidable (_ ∧ _))

/-- A template without the lines that have a slot but no value for it, all slots of the others filled at once. -/
def renderAtOnce (template image : Text) (caption label : Option Text) : Text :=
  Text.joinWith "\n" <|
    (template.lines.filter (Served caption label ·)).map (substitute (values image caption label))

theorem substitute_cons (h : ∀ entry ∈ table, ¬ slot entry.1 <+: c :: t) :
    substitute table (c :: t) = c :: substitute table t := by
  have none : table.find? (fun entry => (slot entry.1).isPrefixOf (c :: t)) = none := by simpa using h
  rw [substitute, none]

theorem substitute_of_not_infix (h : ∀ entry ∈ table, ¬ slot entry.1 <:+: t) : substitute table t = t := by
  induction t with
  | nil => rw [substitute]
  | cons c t ih =>
    rw [substitute_cons fun entry mem begins => h entry mem begins.isInfix,
      ih fun entry mem occurs => h entry mem (occurs.trans (List.suffix_cons c t).isInfix)]

theorem substitute_append (hb : ∀ c ∈ before, c ≠ '{') (t : Text) :
    substitute table (before ++ t) = before ++ substitute table t := by
  induction before with
  | nil => rfl
  | cons c before ih =>
    simp only [List.forall_mem_cons] at hb
    rw [List.cons_append, substitute_cons, ih hb.2, List.cons_append]
    exact fun entry _ begins => hb.1 (List.cons_prefix_cons.1 begins).1.symm

theorem find?_slot (flat : ∀ entry ∈ table, ∀ c ∈ entry.1, isFlat c) (hk : ∀ c ∈ key, isFlat c) (t : Text) :
    table.find? (fun entry => (slot entry.1).isPrefixOf (slot key ++ t)) = table.find? (·.1 = key) := by
  induction table with
  | nil => rfl
  | cons entry table ih =>
    simp only [List.forall_mem_cons] at flat
    have same : (slot entry.1).isPrefixOf (slot key ++ t) = decide (entry.1 = key) := by
      rw [Bool.eq_iff_iff, List.isPrefixOf_iff_prefix, decide_eq_true_iff]
      exact ⟨eq_of_slot_isPrefix flat.1 hk, fun eq => eq ▸ List.prefix_append _ _⟩
    rw [List.find?_cons, List.find?_cons, same, ih flat.2]

theorem substitute_slot (flat : ∀ entry ∈ table, ∀ c ∈ entry.1, isFlat c)
    (found : table.find? (·.1 = key) = some (key, value)) (t : Text) :
    substitute table (slot key ++ t) = value ++ substitute table t := by
  have hk := flat _ (List.mem_of_find?_eq_some found)
  have first : table.find? (fun entry => (slot entry.1).isPrefixOf ('{' :: (key ++ '}' :: t))) = some (key, value) := by
    rw [← slot_append, find?_slot flat hk, found]
  rw [slot_append, substitute, first]
  simp

/-- A slot between braces of its own. -/
theorem substitute_line (key : Text) (hb : ∀ c ∈ before, c ≠ '{') (flat : ∀ entry ∈ table, ∀ c ∈ entry.1, isFlat c)
    (found : table.find? (·.1 = key) = some (key, value)) :
    substitute table (before ++ '{' :: (slot key ++ ['}'])) = before ++ '{' :: (value ++ ['}']) := by
  have last : substitute table ['}'] = ['}'] := by
    refine substitute_of_not_infix fun entry _ occurs => ?_
    have := occurs.length_le
    simp [slot] at this
  rw [substitute_append hb, substitute_cons fun entry mem => not_slot_isPrefix (flat entry mem),
    substitute_slot flat found, last]

theorem flat_values : ∀ entry ∈ values image caption label, ∀ c ∈ entry.1, isFlat c := by
  simp only [values, List.forall_mem_cons]
  exact ⟨by decide, by decide, by decide, by simp⟩

namespace Line

theorem served_iff {l : Line} (h : l.Fits) :
    Served caption label l.source ↔ (l.isCaption → caption.isSome) ∧ (l.isLabel → label.isSome) := by
  rw [Served, ← Text.occursIn_iff_infix, ← Text.occursIn_iff_infix, ← h.1, ← h.2.1]
  rfl

theorem substituted_eq {l : Line} (h : l.Fits) :
    (if Served caption label l.source then some (substitute (values image caption label) l.source) else none) =
      l.filled image caption label := by
  simp only [served_iff h]
  obtain ⟨-, -, braces⟩ := h
  cases l with
  | fixed t =>
    obtain ⟨noImage, noLabel, noCaption⟩ := braces
    have none {key : Text} (h : (word (slot key)).occursIn t = false) : ¬ slot key <:+: t := by
      rw [← occursIn_word_iff (w := slot key) (List.cons_ne_nil _ _), h]
      exact Bool.false_ne_true
    have line : substitute (values image caption label) (fixed t).source = t := by
      refine substitute_of_not_infix ?_
      simp only [values, List.forall_mem_cons]
      exact ⟨none noImage, none noCaption, none noLabel, by simp⟩
    simp [isCaption, isLabel, filled, line]
  | showing before =>
    have line : substitute (values image caption label) (showing before).source = before ++ slot image :=
      substitute_line "image" braces flat_values rfl
    simp [isCaption, isLabel, filled, line]
  | captioned before =>
    have line : substitute (values image caption label) (captioned before).source =
        before ++ '{' :: (caption.getD [] ++ ['}']) := substitute_line "caption" braces flat_values rfl
    cases caption <;> simp_all [isCaption, isLabel, filled]
  | labelled before =>
    have line : substitute (values image caption label) (labelled before).source =
        before ++ slot (label.getD []) := substitute_line "label" braces flat_values rfl
    cases label <;> simp_all [isCaption, isLabel, filled]

end Line

theorem renderAtOnce_eq {template : Text} (lines : List Line) (source : template.lines = lines.map Line.source)
    (fits : ∀ l ∈ lines, l.Fits) :
    renderAtOnce template image caption label =
      Text.joinWith "\n" (lines.filterMap (Line.filled image caption label)) := by
  rw [renderAtOnce, source, filterMap_eq fun l hl => ?_]
  simpa using Line.substituted_eq (fits l hl)

theorem infix_joinWith {sep x : Text} {xs : List Text} (h : x ∈ xs) : x <:+: Text.joinWith sep xs := by
  induction xs with
  | nil => cases h
  | cons y xs ih =>
    cases xs with
    | nil =>
      obtain rfl := List.mem_singleton.1 h
      simp [Text.joinWith, List.intercalate]
    | cons z xs =>
      rw [Text.joinWith, List.intercalate_cons_cons]
      rcases List.mem_cons.1 h with rfl | h
      · exact ((List.prefix_append x sep).trans (List.prefix_append _ _)).isInfix
      · exact (ih h).trans (List.suffix_append _ _).isInfix

theorem joinWith_inj {sep x y : Text} (xs zs : List Text) :
    Text.joinWith sep (xs ++ x :: zs) = Text.joinWith sep (xs ++ y :: zs) ↔ x = y := by
  induction xs with
  | nil =>
    cases zs with
    | nil => simp [Text.joinWith, List.intercalate]
    | cons z zs => simp [Text.joinWith, List.intercalate_cons_cons]
  | cons w xs ih =>
    obtain ⟨a, as, eq⟩ := List.exists_cons_of_ne_nil (l := xs ++ x :: zs) (by simp)
    obtain ⟨b, bs, eq'⟩ := List.exists_cons_of_ne_nil (l := xs ++ y :: zs) (by simp)
    rw [List.cons_append, List.cons_append, ← ih, eq, eq', Text.joinWith, Text.joinWith,
      List.intercalate_cons_cons, List.intercalate_cons_cons, List.append_cancel_left_eq]
    rfl

theorem Line.rendered_other {l : Line} (h : l.isLabel = false) :
    l.rendered image caption label = l.filled image caption label := by
  cases l with
  | labelled => cases h
  | fixed | showing | captioned => rfl

/-- A label between braces, in a line without others, is left as it is unless it has a slot for the caption. -/
theorem exchange_label_eq_iff {name : Text} (hb : ∀ c ∈ before, c ≠ '{') :
    (word captionSlot).exchange value (before ++ slot name) = before ++ slot name ↔
      (slot "caption" <:+: slot name → value = slot "caption") := by
  rw [show captionSlot = slot "caption" from rfl, exchange_slot_append hb, List.append_cancel_left_eq,
    exchange_word_eq_self_iff (w := slot "caption") (List.cons_ne_nil _ _)]

/-- Where one line of a template is for the label, the two ways differ just if the label, between its braces, has
a slot for the caption, and the caption is not that very slot. -/
theorem render_eq_renderAtOnce_iff {template : Text} (above below : List Line)
    (source : template.lines = (above ++ .labelled before :: below).map Line.source)
    (fits : ∀ l ∈ above ++ .labelled before :: below, l.Fits)
    (others : ∀ l ∈ above ++ below, l.isLabel = false) (shows : Shows image) :
    render template image caption label = renderAtOnce template image caption label ↔
      ∀ name ∈ label, slot "caption" <:+: slot name → caption = some (slot "caption") := by
  have same {lines : List Line} (h : ∀ l ∈ lines, l.isLabel = false) :
      lines.filterMap (Line.rendered image caption label) = lines.filterMap (Line.filled image caption label) :=
    List.filterMap_congr fun l hl => Line.rendered_other (h l hl)
  have above_same := same fun l hl => others l (List.mem_append_left _ hl)
  have below_same := same fun l hl => others l (List.mem_append_right _ hl)
  rw [render_eq_rendered _ source fits shows, renderAtOnce_eq _ source fits, List.filterMap_append,
    List.filterMap_append, List.filterMap_cons, List.filterMap_cons, above_same, below_same]
  cases label with
  | none => simp [Line.rendered, Line.filled]
  | some name =>
    have braces : ∀ c ∈ before, c ≠ '{' := (fits (.labelled before) (by simp)).2.2
    have own : caption.getD [] = slot "caption" ↔ caption = some (slot "caption") := by
      cases caption <;> simp [slot]
    simp only [Line.rendered, Line.filled, Option.map_some]
    rw [joinWith_inj, exchange_label_eq_iff braces, own]
    simp

/-- The lines of a default template: one for the label, and one for the caption above it. -/
theorem exists_lines {template : Text} (builtIn : template ∈ [defaultFigure, defaultTable]) :
    ∃ above below, template.lines = (above ++ .labelled "    \\label" :: below).map Line.source ∧
      (∀ l ∈ above ++ .labelled "    \\label" :: below, l.Fits) ∧ (∀ l ∈ above ++ below, l.isLabel = false) ∧
        .captioned "    \\caption" ∈ above := by
  simp only [List.mem_cons, List.not_mem_nil, or_false] at builtIn
  rcases builtIn with rfl | rfl
  · exact ⟨figureLines.take 4, figureLines.drop 5, source_figureLines, fits_figureLines, by decide,
      by simp [figureLines]⟩
  · exact ⟨tableLines.take 3, tableLines.drop 4, source_tableLines, fits_tableLines, by decide,
      by simp [tableLines]⟩

theorem shows_of_endsWith (png : Text.endsWith image ".png") (flat : ∀ c ∈ image, c ≠ '{' ∧ c ≠ '}') : Shows image where
  flat := by simpa [isFlat] using flat
  notLabel := by
    rintro rfl
    exact absurd png (by decide)
  notCaption := by
    rintro rfl
    exact absurd png (by decide)

theorem infix_render {template line : Text} {lines : List Line} {l : Line}
    (source : template.lines = lines.map Line.source) (fits : ∀ l ∈ lines, l.Fits) (shows : Shows image)
    (mem : l ∈ lines) (filled : l.rendered image caption label = some line) :
    line <:+: render template image caption label := by
  rw [render_eq_rendered lines source fits shows]
  exact infix_joinWith (List.mem_filterMap.2 ⟨l, mem, filled⟩)

/-- A default template filled slot by slot is filled as at once, unless the label has a slot for the caption between
its braces. The caption stands in its group in any case, and so does a label without such a slot. -/
theorem render_default {template : Text} (builtIn : template ∈ [defaultFigure, defaultTable])
    (png : Text.endsWith image ".png") (flat : ∀ c ∈ image, c ≠ '{' ∧ c ≠ '}') :
    (render template image caption label = renderAtOnce template image caption label ↔
      ∀ name ∈ label, slot "caption" <:+: slot name → caption = some (slot "caption")) ∧
    (∀ value ∈ caption, ("\\caption" ++ slot value : Text) <:+: render template image caption label) ∧
    ∀ name ∈ label, ¬ slot "caption" <:+: slot name →
      ("\\label" ++ slot name : Text) <:+: render template image caption label := by
  have shows := shows_of_endsWith png flat
  obtain ⟨above, below, source, fits, others, captioned⟩ := exists_lines builtIn
  refine ⟨render_eq_renderAtOnce_iff above below source fits others shows, ?_, ?_⟩
  · rintro value rfl
    have line : ("    \\caption" ++ slot value : Text) <:+: render template image (some value) label :=
      infix_render source fits shows (List.mem_append_left _ captioned) rfl
    exact List.IsInfix.trans (List.IsSuffix.isInfix ⟨"    ", rfl⟩) line
  · rintro name rfl free
    have own : (word captionSlot).exchange (caption.getD []) ("    \\label" ++ slot name) =
        "    \\label" ++ slot name := (exchange_label_eq_iff (by decide)).2 fun occurs => absurd occurs free
    have line : ("    \\label" ++ slot name : Text) <:+: render template image caption (some name) :=
      infix_render source fits shows (List.mem_append_right _ List.mem_cons_self) (congrArg some own)
    exact List.IsInfix.trans (List.IsSuffix.isInfix ⟨"    ", rfl⟩) line

/-- A caption that speaks of the other slots. -/
def telling : Text := "Both \x7blabel\x7d and \x7bimage\x7d"

theorem render_default_telling :
    render defaultTable "p.png" (some telling) (some "tab:p") =
        renderAtOnce defaultTable "p.png" (some telling) (some "tab:p") ∧
      ("\\caption" ++ slot telling : Text) <:+: render defaultTable "p.png" (some telling) (some "tab:p") := by
  constructor
  · exact (render_default (by simp) (by decide) (by decide)).1.2 (by decide)
  · exact (render_default (by simp) (by decide) (by decide)).2.1 telling rfl

/-- A label that is the name of the caption's slot: the caption takes the place of its group. -/
theorem render_default_label_taken :
    render defaultFigure "p.png" (some "Both") (some "caption") ≠
        renderAtOnce defaultFigure "p.png" (some "Both") (some "caption") ∧
      ¬ ("\\label" ++ slot "caption" : Text) <:+: render defaultFigure "p.png" (some "Both") (some "caption") := by
  decide +kernel

end FloatMarkup

end FloatFlattening
