import FloatFlattening.Proofs.FloatMarkup
import FloatFlattening.Proofs.Outline.Matches
/-!
What a search finds in the float of the default template: one figure, which shows one image, has no
panels and sets one label. The same is found where the float stands with its references exchanged.
-/

namespace FloatFlattening

open Text

theorem Text.occursIn_of_cons {pat t : Text} {c : Char} (h : occursIn pat (c :: t) = false) :
    occursIn pat t = false := by
  simp only [occursIn, Bool.or_eq_false_iff] at h
  exact h.2

theorem Text.occursIn_of_drop {pat t : Text} (h : occursIn pat t = false) (n : Nat) :
    occursIn pat (t.drop n) = false := by
  induction n generalizing t with
  | zero => exact h
  | succ n ih =>
    cases t with
    | nil => exact h
    | cons c t => exact ih (occursIn_of_cons h)

theorem Text.occursIn_append_right (pat t : Text) (h : pat ≠ []) : occursIn pat (pat ++ t) := by
  obtain ⟨c, pat, rfl⟩ := List.exists_cons_of_ne_nil h
  have here : after? (c :: pat) (c :: (pat ++ t)) = some t := after?_eq_some_iff.2 rfl
  simp [occursIn, here]

theorem Text.isSome_after?_delimited {pat : Text} {z : Char} (hz : z ∉ pat) (s t : Text) :
    (after? pat (s ++ z :: t)).isSome = (after? pat s).isSome := by
  induction pat generalizing s with
  | nil => rfl
  | cons p pat ih =>
    simp only [List.mem_cons, not_or] at hz
    cases s with
    | nil => simp [after?, Ne.symm hz.1]
    | cons c s => by_cases h : p = c <;> simp [after?, h, ih hz.2]

/-- What holds no delimiter occurs before it or after it. -/
theorem Text.occursIn_delimited {pat : Text} {z : Char} (ne : pat ≠ []) (hz : z ∉ pat) (s t : Text) :
    occursIn pat (s ++ z :: t) = (occursIn pat s || occursIn pat t) := by
  induction s with
  | nil =>
    obtain ⟨p, pat, rfl⟩ := List.exists_cons_of_ne_nil ne
    simp only [List.mem_cons, not_or] at hz
    simp [occursIn, after?, Ne.symm hz.1]
  | cons c s ih =>
    have here := isSome_after?_delimited hz (c :: s) t
    rw [List.cons_append] at here ⊢
    rw [occursIn, here, ih, occursIn, Bool.or_assoc]

namespace Command

variable {names : List Text} {pos : Nat} {w a o r s t : Text}

/-- A search finds nothing in a text, wherever it begins. -/
def Quiet (names : List Text) (t : Text) : Prop := ∀ pos, scan names pos t = .done

theorem quiet_of_occursIn (h : ∀ w ∈ names, occursIn ('\\' :: w) t = false) : Quiet names t := by
  intro pos
  induction pos, t using scan_induction names with
  | nil | lone => simp
  | other pos c t hc ih =>
    rw [scan_other hc, ih fun w hw => occursIn_of_cons (h w hw)]
  | symbol pos c t hc ih =>
    rw [scan_symbol hc, ih fun w hw => occursIn_of_cons (occursIn_of_cons (h w hw))]
  | mention pos w r hw hn ih =>
    rw [scan_mention hw hn, ih fun v hv => ?_]
    have := occursIn_of_drop (occursIn_of_cons (h v hv)) w.length
    rwa [List.drop_left] at this
  | stopped pos w r m hw hn | command pos w r c k hw hn =>
    have here := occursIn_append_right ('\\' :: w) r (List.cons_ne_nil _ _)
    rw [List.cons_append, h w hn] at here
    cases here

theorem scan_quiet_append (hs : Quiet names s) (seam : Seam s t) :
    scan names pos (s ++ t) = scan names (pos + s.length) t := by
  rw [scan_append (by rw [hs]; rfl) seam, hs, Scan.done_append]

/-- A command with a plain argument and no bracket group is found. -/
theorem exists_scan_group (names : List Text) (w : Text) (mem : w ∈ names) (ne : w ≠ []) (letters : ∀ c ∈ w, c.isAlpha)
    (inner : ∀ c ∈ a, isInner c) (pos : Nat) (t : Text) :
    ∃ c, scan names pos ('\\' :: (w ++ '{' :: (a ++ '}' :: t))) =
        (scan names (pos + (w.length + a.length + 3)) t).cons c ∧
      c.name = w ∧ c.argument = a ∧ c.span = ⟨pos, pos + (w.length + a.length + 3)⟩ := by
  have word : Word w ('{' :: (a ++ '}' :: t)) := ⟨ne, letters, by rintro _ ⟨⟩; rfl⟩
  have opens : Arguments.Opens ('\\' :: w)
      (Cursor.skipStar ⟨pos + 1 + w.length, '{' :: (a ++ '}' :: t)⟩) []
      ⟨pos + 1 + w.length, '{' :: (a ++ '}' :: t)⟩ (a ++ '}' :: t) a.length := by
    have star : Cursor.skipStar ⟨pos + 1 + w.length, '{' :: (a ++ '}' :: t)⟩ =
        ⟨pos + 1 + w.length, '{' :: (a ++ '}' :: t)⟩ := by simp [Cursor.skipStar]
    have blanks : Cursor.skipBlanks ⟨pos + 1 + w.length, '{' :: (a ++ '}' :: t)⟩ =
        ⟨pos + 1 + w.length, '{' :: (a ++ '}' :: t)⟩ := by simp [Cursor.skipBlanks, isAsciiBlank]
    exact ⟨⟨_, Arguments.brackets_of_head?_ne (by simp [star, blanks]) _, by rw [star, blanks, blanks]⟩, rfl,
      braceLength?_inner inner t⟩
  have stop : (pos + 1 + w.length) + (a.length + 2) = pos + (w.length + a.length + 3) := by omega
  have rest : ('{' :: (a ++ '}' :: t)).drop (a.length + 2) = t := by
    rw [List.drop_succ_cons, ← List.drop_drop, List.drop_left, List.drop_succ_cons, List.drop_zero]
  refine ⟨ofGroup w pos ⟨pos + 1 + w.length, '{' :: (a ++ '}' :: t)⟩ []
    ⟨pos + 1 + w.length, '{' :: (a ++ '}' :: t)⟩ (a ++ '}' :: t) a.length, ?_, rfl, ?_, ?_⟩
  · rw [scan_command word mem (afterName?_of_opens opens pos) (k := a.length + 2) rfl, rest, ← stop]
    rfl
  · simp [ofGroup]
  · rw [ofGroup, ← stop]

/-- A command is found once at most where none comes after it. -/
theorem length_found_le_one (word : Word w r) (none : ∀ v ∈ names, occursIn ('\\' :: v) r = false) (pos : Nat) :
    (scan names pos ('\\' :: (w ++ r))).found.length ≤ 1 := by
  have quiet (n : Nat) : Quiet names (r.drop n) :=
    quiet_of_occursIn fun v hv => occursIn_of_drop (none v hv) n
  by_cases mem : w ∈ names
  · cases read : afterName? w pos ⟨pos + 1 + w.length, r⟩ with
    | error m =>
      rw [scan_stopped word mem read]
      simp [Scan.stop]
    | ok c? =>
      cases c? with
      | none =>
        rw [scan_mention word fun _ => read, ← List.drop_zero (l := r), quiet]
        simp [Scan.done]
      | some c =>
        obtain ⟨-, -, k, stop, -⟩ := span_of_afterName? read
        rw [scan_command word mem read stop, quiet]
        simp [Scan.done]
  · rw [scan_mention word fun yes => (mem yes).elim, ← List.drop_zero (l := r), quiet]
    simp [Scan.done]

end Command

open Command Piece

/-- A part of a text that is a figure with one image at most, without panels, and with one label. -/
structure Figure.Lone (t : Text) (s : Span) (id : Text) (b f m : Command) : Prop where
  delimiters : inSpan t s ["begin", "end"] = ⟨[b, f], none⟩
  begins : b.name = "begin" ∧ b.argument.trim = "figure"
  ends : f.name = "end" ∧ f.argument.trim = "figure"
  start : b.span.start = s.start
  stop : f.span.stop = s.stop
  labels : inSpan t s ["label"] = ⟨[m], none⟩
  id : m.argument.trim = id
  label : inSpan t ⟨b.span.stop, f.span.start⟩ ["label"] = ⟨[m], none⟩
  panels : inSpan t ⟨b.span.stop, f.span.start⟩ ["subfloat", "subfigure"] = .done
  inner : inSpan t ⟨b.span.stop, f.span.start⟩ ["begin", "end"] = .done
  images : (inSpan t ⟨b.span.stop, f.span.start⟩ ["includegraphics"]).found.length ≤ 1

namespace Figure.Lone

variable {t t' : Text} {s s' : Span} {id : Text} {b f m : Command} {ps : List Piece} {names : List Text}
  {e : Environment} {g : Figure}

theorem mem_begin (h : Lone t s id b f m) : b ∈ (inSpan t s ["begin", "end"]).found := by
  rw [h.delimiters]
  exact List.mem_cons_self

theorem mem_end (h : Lone t s id b f m) : f ∈ (inSpan t s ["begin", "end"]).found := by
  rw [h.delimiters]
  exact List.mem_cons_of_mem b (List.mem_singleton_self f)

theorem sorted (h : Lone t s id b f m) :
    b.span.start < b.span.stop ∧ b.span.stop ≤ f.span.start ∧ f.span.start < f.span.stop := by
  have apart : (inSpan t s ["begin", "end"]).found.Pairwise _ := pairwise_found
  rw [h.delimiters] at apart
  have := Command.start_lt_stop h.mem_begin
  have := Command.start_lt_stop h.mem_end
  have := List.rel_of_pairwise_cons apart (List.mem_singleton_self f)
  omega

theorem start_lt_stop (h : Lone t s id b f m) : s.start < s.stop := by
  have := h.sorted
  rw [← h.start, ← h.stop]
  omega

/-- A figure stays one where it stands with its references exchanged. -/
theorem exists_of_spell (h : Lone t s id b f m) (spell : Spell t t' s s' ps) (slash : '\\' ∉ id) :
    ∃ b' f' m', Lone t' s' id b' f' m' := by
  have aligned := spell.exchanged.solid.aligned s.start s'.start
  have delimiters := spell.matches_inSpan ["begin", "end"] (by decide)
  have labels := spell.matches_inSpan ["label"] (by decide)
  rw [h.delimiters] at delimiters
  rw [h.labels] at labels
  obtain ⟨_, delimiters', _ | @⟨_, b', _, _, hb, _ | @⟨_, f', _, _, hf, _ | _⟩⟩⟩ := delimiters.exists_eq
  obtain ⟨_, labels', _ | @⟨_, m', _, _, hm, _ | _⟩⟩ := labels.exists_eq
  obtain ⟨mid, body, sub⟩ := spell.exists_between hb.stop hf.start h.sorted.2.1
  have label := body.matches_inSpan ["label"] (by decide)
  have panels := body.matches_inSpan ["subfloat", "subfigure"] (by decide)
  have inner := body.matches_inSpan ["begin", "end"] (by decide)
  have images := body.matches_inSpan ["includegraphics"] (by decide)
  rw [h.label] at label
  rw [h.panels] at panels
  rw [h.inner] at inner
  obtain ⟨_, label', _ | @⟨_, n, _, _, hn, _ | _⟩⟩ := label.exists_eq
  obtain ⟨_, panels', _ | _⟩ := panels.exists_eq
  obtain ⟨_, inner', _ | _⟩ := inner.exists_eq
  obtain rfl : n = m' := eq_of_mem_inSpan (by rw [label']; simp) (by rw [labels']; simp)
    ((aligned.eq_iff (sub _ _ hn.start) hm.start).1 rfl)
  refine ⟨b', f', n, delimiters', ?_, ?_, ?_, ?_, labels', (hm.trim_eq_iff slash).1 h.id, label', panels', inner', ?_⟩
  · exact ⟨hb.name ▸ h.begins.1, (hb.trim_eq_iff (by decide)).1 h.begins.2⟩
  · exact ⟨hf.name ▸ h.ends.1, (hf.trim_eq_iff (by decide)).1 h.ends.2⟩
  · exact (aligned.eq_iff hb.start (.start ps _ _)).1 h.start
  · have stop := Piece.At.stop ps s.start s'.start
    rw [← spell.stop, ← spell.stop'] at stop
    exact (aligned.eq_iff hf.stop stop).1 h.stop
  · rw [← images.found.length_eq]
    exact h.images

/-- The environment of the figure. -/
theorem environments_eq (h : Lone t s id b f m) (mem : ("figure" : Text) ∈ names) :
    Environment.inSpan t s names = ⟨[⟨"figure", s, ⟨b.span.stop, f.span.start⟩⟩], none⟩ := by
  have begins : b.name = "begin" ∧ b.argument.trim ∈ names := ⟨h.begins.1, h.begins.2 ▸ mem⟩
  have ends : f.name ≠ "begin" := by
    rw [h.ends.1]
    decide
  have closed : Environment.ending? "figure" 0 [f] = some (f, []) := Environment.ending?_last h.ends.2 ends
  rw [← h.begins.2] at closed
  rw [Environment.inSpan, Environment.ofCommands, h.delimiters, Environment.pair_closed begins closed,
    Environment.pair_nil, h.begins.2, h.start, h.stop]
  rfl

theorem environments_eq_nil (h : Lone t s id b f m) (mem : ("figure" : Text) ∉ names) :
    Environment.inSpan t s names = ⟨[], none⟩ := by
  have other (c : Command) (hc : c.argument.trim = "figure") : ¬ (c.name = "begin" ∧ c.argument.trim ∈ names) :=
    fun both => mem (hc ▸ both.2)
  rw [Environment.inSpan, Environment.ofCommands, h.delimiters, Environment.pair_other (other b h.begins.2),
    Environment.pair_other (other f h.ends.2), Environment.pair_nil]

theorem figure (h : Lone t s id b f m) (body : e.body = ⟨b.span.stop, f.span.start⟩)
    (hg : ofEnvironment t e = .ok g) :
    g.panels = [] ∧ g.marks = [Mark.ofCommand t m] ∧ g.name = .labelled id := by
  have name := (reads_of_ofEnvironment hg).2
  have marks : (Mark.inSpan t e.body).found = [Mark.ofCommand t m] := by
    rw [body, Mark.inSpan, h.label]
    rfl
  have written {ps : List Panel} (hp : Panel.written t e.body = .ok ps) : ps = [] := by
    simp only [Panel.written, body, Environment.inSpan, Environment.ofCommands, h.panels, h.inner,
      Except.bind_eq_ok_iff, Scan.traverse_eq_ok_iff, Scan.done, Environment.pair_nil] at hp
    obtain ⟨_, ⟨-, _ | _⟩, _, ⟨-, _ | _⟩, hp⟩ := hp
    rw [← Except.ok.inj hp, List.append_nil, List.mergeSort_nil, Panel.outermost]
  have panels : g.panels = [] := by
    simp only [ofEnvironment, Except.bind_eq_ok_iff, Scan.complete_eq_ok_iff] at hg
    obtain ⟨_, ⟨-, rfl⟩, _, ⟨-, rfl⟩, _, ⟨-, rfl⟩, _, hp, hg⟩ := hg
    obtain rfl := written hp
    obtain rfl := Except.ok.inj hg
    have images : (Graphic.inSpan t e.body).found.length ≤ 1 := by
      rw [body, Graphic.inSpan, Scan.found_map, List.length_map]
      exact h.images
    dsimp only
    rw [if_neg fun both => by omega]
    rfl
  have all : g.marks = [Mark.ofCommand t m] := by
    rw [(reads_of_ofEnvironment hg).1.marks, marks, panels]
    simp [InPanel]
  refine ⟨panels, all, ?_⟩
  rw [name, all]
  exact congrArg FloatName.labelled h.id

end Figure.Lone

namespace FloatMarkup

variable {image p before value after w : Text} {caption : Option Text}

def group (before value after : Text) : Text := before ++ '{' :: (value ++ '}' :: after)

theorem occursIn_group (braces : '{' ∉ w ∧ '}' ∉ w) (hb : occursIn ('\\' :: w) before = false)
    (hv : occursIn ('\\' :: w) value = false) (ha : occursIn ('\\' :: w) after = false) :
    occursIn ('\\' :: w) (group before value after) = false := by
  rw [group, occursIn_delimited (List.cons_ne_nil _ _) (by simpa using braces.1), hb,
    occursIn_delimited (List.cons_ne_nil _ _) (by simpa using braces.2), hv, ha]
  rfl

theorem occursIn_inner (h : ∀ c ∈ value, isInner c) : occursIn ('\\' :: w) value = false := by
  induction value with
  | nil => rfl
  | cons c value ih =>
    simp only [List.forall_mem_cons] at h
    have slash : '\\' ≠ c := (ne_slash_of_isInner h.1).symm
    simp [occursIn, after?, slash, ih h.2]

def captioned : Option Text → Text → Text
  | none, after => after
  | some x, after => group "\n    \\caption" x after

/-- The body of a float, up to what comes after its image and caption. -/
def body (image : Text) (caption : Option Text) (after : Text) : Text :=
  group "[htbp]\n    \\centering\n    \\includegraphics[width=\\linewidth]" image (captioned caption after)

theorem captioned_append (caption : Option Text) (s t : Text) :
    captioned caption (s ++ t) = captioned caption s ++ t := by
  cases caption <;> simp [captioned, group]

theorem body_append (image : Text) (caption : Option Text) (s t : Text) :
    body image caption (s ++ t) = body image caption s ++ t := by
  simp [body, captioned_append, group]

/-- The line of a float that sets its label. -/
def labelling (p after : Text) : Text := group "\n    \\label" p after

theorem render_eq_body (h : Fills image (some p)) : render defaultFigure image caption (some p) =
    "\\begin\x7bfigure\x7d" ++ (body image caption (labelling p "\n") ++ "\\end\x7bfigure\x7d") := by
  rw [render_defaultFigure h]
  cases caption <;> simp [body, captioned, labelling, group, optional]

/-- The words that a search of a float is for. -/
def words : List Text :=
  ["label", "includegraphics", "subfloat", "subfigure", "caption", "begin", "end"]

/-- A caption without any of these words. -/
def Silent (caption : Option Text) : Prop := ∀ x ∈ caption, ∀ w ∈ words, occursIn ('\\' :: w) x = false

variable {names : List Text} {s t : Text}

theorem not_mem_words : ∀ w ∈ words, '{' ∉ w ∧ '}' ∉ w := by decide

theorem occursIn_captioned (silent : Silent caption) (hw : w ∈ words)
    (hl : occursIn ('\\' :: w) "\n    \\caption" = false) (ha : occursIn ('\\' :: w) after = false) :
    occursIn ('\\' :: w) (captioned caption after) = false := by
  cases caption with
  | none => exact ha
  | some x => exact occursIn_group (not_mem_words w hw) hl (silent x rfl w hw) ha

theorem quiet_body (silent : Silent caption) (inner : ∀ c ∈ image, isInner c) (sub : names ⊆ words)
    (fixed : ∀ w ∈ names, occursIn ('\\' :: w)
        "[htbp]\n    \\centering\n    \\includegraphics[width=\\linewidth]" = false ∧
      occursIn ('\\' :: w) "\n    \\caption" = false)
    (ha : ∀ w ∈ names, occursIn ('\\' :: w) after = false) : Quiet names (body image caption after) := by
  refine quiet_of_occursIn fun w hw => ?_
  exact occursIn_group (not_mem_words w (sub hw)) (fixed w hw).1 (occursIn_inner inner)
    (occursIn_captioned silent (sub hw) (fixed w hw).2 (ha w hw))

theorem escapes_body {c : Char} (hc : c ≠ '\\') (image : Text) (caption : Option Text) (after : Text) :
    escapes (body image caption (after ++ [c])) = false := by
  simp [body_append, hc]

/-- The two ends of a figure around a text. -/
theorem exists_delimiters (quiet : Quiet ["begin", "end"] t) (free : escapes t = false) :
    ∃ b f, scan ["begin", "end"] 0 ("\\begin\x7bfigure\x7d" ++ (t ++ "\\end\x7bfigure\x7d")) = ⟨[b, f], none⟩ ∧
      (b.name = "begin" ∧ b.argument.trim = "figure") ∧ (f.name = "end" ∧ f.argument.trim = "figure") ∧
        b.span = ⟨0, 14⟩ ∧ f.span = ⟨14 + t.length, 14 + t.length + 12⟩ := by
  have figure : Text.trim "figure" = "figure" := by decide
  obtain ⟨b, hb, bName, bArgument, bSpan⟩ := exists_scan_group ["begin", "end"] "begin"
    (a := "figure") (by decide) (by decide) (by decide) (by decide) 0 (t ++ "\\end\x7bfigure\x7d")
  obtain ⟨f, hf, fName, fArgument, fSpan⟩ := exists_scan_group ["begin", "end"] "end"
    (a := "figure") (by decide) (by decide) (by decide) (by decide) (14 + t.length) []
  refine ⟨b, f, ?_, ⟨bName, by rw [bArgument, figure]⟩, ⟨fName, by rw [fArgument, figure]⟩, bSpan, fSpan⟩
  have last : scan ["begin", "end"] 14 (t ++ "\\end\x7bfigure\x7d") = ⟨[f], none⟩ := by
    rw [scan_quiet_append quiet (.of_head free (by decide))]
    rw [scan_nil] at hf
    exact hf
  have := hb.trans (congrArg (Scan.cons b) last)
  exact this

/-- What a search finds in a figure is what it finds in its body, if nothing in the two ends. -/
theorem scan_figure (begins : Quiet names "\\begin\x7bfigure\x7d") (ends : Quiet names "\\end\x7bfigure\x7d")
    (free : escapes t = false) (whole : (scan names 14 t).stopped = none) :
    scan names 0 ("\\begin\x7bfigure\x7d" ++ (t ++ "\\end\x7bfigure\x7d")) = scan names 14 t := by
  rw [scan_quiet_append begins (.of_getLast? (x := '}') (by decide) (by decide) (by decide))]
  change scan names 14 (t ++ "\\end\x7bfigure\x7d") = _
  rw [scan_append whole (.of_head free (by decide)), ends, Scan.append_eq whole rfl, Scan.done, List.append_nil, ← whole]

/-- A figure around a text in which one label is found, and neither panels nor environments. -/
theorem exists_lone {m : Command} (free : escapes t = false) (inner : Quiet ["begin", "end"] t)
    (panels : Quiet ["subfloat", "subfigure"] t) (label : scan ["label"] 14 t = ⟨[m], none⟩)
    (images : (scan ["includegraphics"] 14 t).found.length ≤ 1) :
    ∃ b f, Figure.Lone ("\\begin\x7bfigure\x7d" ++ (t ++ "\\end\x7bfigure\x7d"))
      ⟨0, ("\\begin\x7bfigure\x7d" ++ (t ++ "\\end\x7bfigure\x7d")).length⟩ m.argument.trim b f m := by
  obtain ⟨b, f, delimiters, begins, ends, bSpan, fSpan⟩ := exists_delimiters inner free
  have labels : scan ["label"] 0 ("\\begin\x7bfigure\x7d" ++ (t ++ "\\end\x7bfigure\x7d")) = scan ["label"] 14 t :=
    scan_figure (quiet_of_occursIn (by decide)) (quiet_of_occursIn (by decide)) free (by rw [label])
  have length : ("\\begin\x7bfigure\x7d" ++ (t ++ "\\end\x7bfigure\x7d")).length = 14 + t.length + 12 := by
    simp
    omega
  generalize hu : "\\begin\x7bfigure\x7d" ++ (t ++ "\\end\x7bfigure\x7d") = u at *
  obtain ⟨-, middle, -⟩ := slices_of_drop (a := 0) (show u.drop 0 = _ from hu.symm)
  change Text.slice u ⟨14, 14 + t.length⟩ = t at middle
  refine ⟨b, f, ?_, begins, ends, by rw [bSpan], by rw [fSpan, length], ?_, rfl, ?_, ?_, ?_, ?_⟩
  · rw [inSpan, slice_self, delimiters]
  · rw [inSpan, slice_self, labels, label]
  all_goals rw [bSpan, fSpan, inSpan, middle]
  · exact label
  · exact panels 14
  · exact inner 14
  · exact images

theorem length_images_le_one (silent : Silent caption) (inner : ∀ c ∈ image, isInner c)
    (ha : occursIn ('\\' :: "includegraphics") after = false) (pos : Nat) :
    (scan ["includegraphics"] pos (body image caption after)).found.length ≤ 1 := by
  have word : Word "includegraphics" (group "[width=\\linewidth]" image (captioned caption after)) :=
    ⟨by decide, by decide, by rintro _ ⟨⟩; rfl⟩
  have parts : body image caption after = "[htbp]\n    \\centering\n    " ++
      '\\' :: ("includegraphics" ++ group "[width=\\linewidth]" image (captioned caption after)) := by
    simp [body, group]
  rw [parts, scan_quiet_append (quiet_of_occursIn (by decide)) (.of_head (by decide) (by simp [goesOn, isAsciiBlank]))]
  refine length_found_le_one word (fun w hw => ?_) _
  obtain rfl := List.mem_singleton.1 hw
  exact occursIn_group (by decide) (by decide) (occursIn_inner inner)
    (occursIn_captioned silent (by decide) (by decide) ha)

theorem occursIn_labelling (hp : ∀ c ∈ p, isInner c) (hw : w ∈ words)
    (label : occursIn ('\\' :: w) "\n    \\label" = false) (last : occursIn ('\\' :: w) "\n" = false) :
    occursIn ('\\' :: w) (labelling p "\n") = false :=
  occursIn_group (not_mem_words w hw) label (occursIn_inner hp) last

/-- The one label of a body. -/
theorem exists_label (silent : Silent caption) (inner : ∀ c ∈ image, isInner c) (hp : ∀ c ∈ p, isInner c) (pos : Nat) :
    ∃ m, scan ["label"] pos (body image caption (labelling p "\n")) = ⟨[m], none⟩ ∧ m.argument = p := by
  have lead : Quiet ["label"] (body image caption "\n    ") :=
    quiet_body silent inner (by decide) (by decide) (by decide)
  have free : escapes (body image caption "\n    ") = false := escapes_body (c := ' ') (by decide) image caption "\n   "
  have parts : body image caption (labelling p "\n") =
      body image caption "\n    " ++ '\\' :: ("label" ++ '{' :: (p ++ '}' :: "\n")) := by
    rw [← body_append]
    rfl
  obtain ⟨m, hm, -, argument, -⟩ := exists_scan_group ["label"] "label" (a := p)
    (by decide) (by decide) (by decide) hp (pos + (body image caption "\n    ").length) "\n"
  refine ⟨m, ?_, argument⟩
  rw [parts, scan_quiet_append lead (.of_head free (by simp [goesOn, isAsciiBlank])), hm,
    quiet_of_occursIn (t := "\n") (by decide)]
  rfl

theorem exists_lone_defaultFigure (fills : Fills image (some p)) (trim : p.trim = p) (silent : Silent caption) :
    ∃ b f m, Figure.Lone (render defaultFigure image caption (some p))
      ⟨0, (render defaultFigure image caption (some p)).length⟩ p b f m := by
  have name := (fills.name p rfl).1
  have quiet {names : List Text} (sub : names ⊆ words)
      (fixed : ∀ w ∈ names, (occursIn ('\\' :: w)
          "[htbp]\n    \\centering\n    \\includegraphics[width=\\linewidth]" = false ∧
        occursIn ('\\' :: w) "\n    \\caption" = false) ∧
          occursIn ('\\' :: w) "\n    \\label" = false ∧ occursIn ('\\' :: w) "\n" = false) :
      Quiet names (body image caption (labelling p "\n")) :=
    quiet_body silent fills.inner sub (fun w hw => (fixed w hw).1) fun w hw =>
      occursIn_labelling name (sub hw) (fixed w hw).2.1 (fixed w hw).2.2
  have free : escapes (body image caption (labelling p "\n")) = false := by
    have := escapes_body (c := '\n') (by decide) image caption (labelling p [])
    simpa [labelling, group] using this
  obtain ⟨m, label, argument⟩ := exists_label silent fills.inner name 14
  obtain ⟨b, f, lone⟩ := exists_lone free (quiet (by decide) (by decide)) (quiet (by decide) (by decide)) label
    (length_images_le_one silent fills.inner (occursIn_labelling name (by decide) (by decide) (by decide)) 14)
  rw [render_eq_body fills]
  rw [argument, trim] at lone
  exact ⟨b, f, m, lone⟩

end FloatMarkup

end FloatFlattening
