import FloatFlattening.FloatMarkup
import FloatFlattening.Proofs.Markup.Sets
import FloatFlattening.Proofs.Pattern
/-!
The floats of the default templates: what they are with their slots filled, and the labels that
they set.
-/

namespace FloatFlattening

namespace FloatMarkup

open Text Pattern

variable {key value image x before t : Text} {caption label : Option Text}

/-- Where a template takes a value. -/
def slot (key : Text) : Text := '{' :: (key ++ ['}'])

theorem slot_append (key t : Text) : slot key ++ t = '{' :: (key ++ '}' :: t) := by simp [slot]

theorem length?_slot_eq_none (h : ¬ slot key <+: t) : (word (slot key)).length? t = none := by
  simpa [word] using h

theorem exchange_slot_append (h : ∀ c ∈ before, c ≠ '{') :
    (word (slot key)).exchange value (before ++ t) = before ++ (word (slot key)).exchange value t := by
  induction before with
  | nil => rfl
  | cons c before ih =>
    simp only [List.forall_mem_cons] at h
    rw [List.cons_append, exchange_cons, ih h.2, List.cons_append]
    refine length?_slot_eq_none fun starts => h.1 ?_
    exact (List.cons_prefix_cons.1 starts).1.symm

/-- A character that neither opens nor closes a slot. -/
def isFlat (c : Char) : Bool := c ≠ '{' && c ≠ '}'

theorem isFlat_of_isInner {c : Char} (h : isInner c) : isFlat c := by
  simp only [isInner, Bool.and_eq_true] at h
  simp [isFlat, h.1.2, h.2]

theorem flat_ne {c d : Char} (hc : isFlat c) (hd : isFlat d = false) : c ≠ d := by
  rintro rfl
  simp [hc] at hd

theorem eq_of_slot_isPrefix (hk : ∀ c ∈ key, isFlat c) (hx : ∀ c ∈ x, isFlat c)
    (h : slot key <+: slot x ++ t) : key = x := by
  obtain ⟨u, hu⟩ := h
  rw [slot_append, slot_append] at hu
  have eq : key ++ '}' :: u = x ++ '}' :: t := (List.cons.inj hu).2
  have whole {a : Text} (ha : ∀ c ∈ a, isFlat c) (v : Text) : (a ++ '}' :: v).takeWhile isFlat = a := by
    rw [List.takeWhile_append_of_pos ha, List.takeWhile_cons_of_neg (by decide), List.append_nil]
  rw [← whole hk u, eq, whole hx t]

theorem exchange_slot_slot (hk : ∀ c ∈ key, isFlat c) (hx : ∀ c ∈ x, isFlat c) :
    (word (slot key)).exchange value (slot x ++ t) =
      (if x = key then value else slot x) ++ (word (slot key)).exchange value t := by
  split
  next eq => rw [eq, exchange_word (w := slot key) (List.cons_ne_nil _ _)]
  next ne =>
    have none := length?_slot_eq_none fun starts => ne (eq_of_slot_isPrefix (t := t) hk hx starts).symm
    have apart : ∀ c ∈ x ++ ['}'], c ≠ '{' := by
      intro c hc
      rcases List.mem_append.1 hc with hc | hc
      · exact flat_ne (hx c hc) rfl
      · rw [List.mem_singleton.1 hc]
        decide
    calc
      _ = '{' :: (word (slot key)).exchange value (x ++ ['}'] ++ t) := exchange_cons none
      _ = '{' :: (x ++ ['}'] ++ (word (slot key)).exchange value t) := by
        rw [exchange_slot_append apart]
      _ = slot x ++ (word (slot key)).exchange value t := rfl

/-- No slot begins with two braces. -/
theorem not_slot_isPrefix (hk : ∀ c ∈ key, isFlat c) : ¬ slot key <+: '{' :: (slot x ++ t) := by
  intro starts
  have starts : key ++ ['}'] <+: slot x ++ t := (List.cons_prefix_cons.1 starts).2
  rw [slot_append] at starts
  cases key with
  | nil => exact absurd (List.cons_prefix_cons.1 starts).1 (by decide)
  | cons c key => exact flat_ne (hk c (by simp)) rfl (List.cons_prefix_cons.1 starts).1

/-- A slot between braces of its own. -/
theorem exchange_slot_line (hb : ∀ c ∈ before, c ≠ '{') (hk : ∀ c ∈ key, isFlat c)
    (hx : ∀ c ∈ x, isFlat c) :
    (word (slot key)).exchange value (before ++ '{' :: (slot x ++ ['}'])) =
      before ++ '{' :: ((if x = key then value else slot x) ++ ['}']) := by
  have last : (word (slot key)).exchange value ['}'] = ['}'] :=
    exchange_of_occursIn (by simp [Pattern.occursIn, word, slot])
  rw [exchange_slot_append hb, exchange_cons (length?_slot_eq_none (not_slot_isPrefix hk)),
    exchange_slot_slot hk hx, last]

theorem exchange_filled (hb : ∀ c ∈ before, c ≠ '{') (hk : ∀ c ∈ key, isFlat c)
    (hx : ∀ c ∈ x, isFlat c) (ne : x ≠ key) :
    (word (slot key)).exchange value (before ++ slot x) = before ++ slot x := by
  have step : (word (slot key)).exchange value (slot x ++ []) = _ := exchange_slot_slot hk hx
  rw [if_neg ne, List.append_nil, exchange, List.append_nil] at step
  rw [exchange_slot_append hb, step]

/-- An image path that makes no slot of its own. -/
structure Shows (image : Text) : Prop where
  flat : ∀ c ∈ image, isFlat c
  notLabel : image ≠ "label"
  notCaption : image ≠ "caption"

/-- Values that make no slots of their own. -/
structure Fills (image : Text) (label : Option Text) : Prop where
  inner : ∀ c ∈ image, isInner c
  notLabel : image ≠ "label"
  notCaption : image ≠ "caption"
  name : ∀ l ∈ label, (∀ c ∈ l, isInner c) ∧ l ≠ "caption"

theorem Fills.shows (h : Fills image label) : Shows image :=
  ⟨fun c hc => isFlat_of_isInner (h.inner c hc), h.notLabel, h.notCaption⟩

theorem fillLine_of_occursIn {line : Text} (hi : (word imageSlot).occursIn line = false)
    (hl : (word labelSlot).occursIn line = false) (hc : (word captionSlot).occursIn line = false) :
    fillLine image caption label line = line := by
  rw [fillLine, exchange_of_occursIn hi, exchange_of_occursIn hl, exchange_of_occursIn hc]

theorem fillLine_image (h : Shows image) (hb : ∀ c ∈ before, c ≠ '{') :
    fillLine image caption label (before ++ '{' :: (imageSlot ++ ['}'])) = before ++ slot image := by
  calc
    _ = (word captionSlot).exchange (caption.getD [])
          ((word labelSlot).exchange (label.getD []) (before ++ slot image)) := by
      rw [fillLine, show imageSlot = slot "image" from rfl, exchange_slot_line hb (by decide) (by decide),
        if_pos rfl, slot]
    _ = (word captionSlot).exchange (caption.getD []) (before ++ slot image) := by
      rw [show labelSlot = slot "label" from rfl, exchange_filled hb (by decide) h.flat h.notLabel]
    _ = before ++ slot image := exchange_filled hb (by decide) h.flat h.notCaption

/-- A label that has been put in is read once more for the caption's slot. -/
theorem fillLine_label (hb : ∀ c ∈ before, c ≠ '{') :
    fillLine image caption label (before ++ '{' :: (labelSlot ++ ['}'])) =
      (word captionSlot).exchange (caption.getD []) (before ++ slot (label.getD [])) := by
  rw [fillLine, show imageSlot = slot "image" from rfl, show labelSlot = slot "label" from rfl,
    exchange_slot_line (x := "label") hb (by decide) (by decide), if_neg (by decide),
    exchange_slot_line hb (by decide) (by decide), if_pos rfl]
  rfl

theorem fillLine_caption (hb : ∀ c ∈ before, c ≠ '{') :
    fillLine image caption label (before ++ '{' :: (captionSlot ++ ['}'])) =
      before ++ '{' :: (caption.getD [] ++ ['}']) := by
  have keep {key value : Text} (hk : ∀ c ∈ key, isFlat c) (ne : "caption" ≠ key) :
      (word (slot key)).exchange value (before ++ '{' :: (slot "caption" ++ ['}'])) =
        before ++ '{' :: (slot "caption" ++ ['}']) := by
    rw [exchange_slot_line hb hk (by decide), if_neg ne]
  rw [fillLine, show imageSlot = slot "image" from rfl, show labelSlot = slot "label" from rfl,
    show captionSlot = slot "caption" from rfl, keep (by decide) (by decide), keep (by decide) (by decide),
    exchange_slot_line hb (by decide) (by decide), if_pos rfl]

/-- A line of a template, with the slot that it ends in. -/
inductive Line
  | fixed (t : Text)
  | showing (before : Text)
  | captioned (before : Text)
  | labelled (before : Text)

namespace Line

def source : Line → Text
  | fixed t => t
  | showing before => before ++ '{' :: (imageSlot ++ ['}'])
  | captioned before => before ++ '{' :: (captionSlot ++ ['}'])
  | labelled before => before ++ '{' :: (labelSlot ++ ['}'])

def isCaption : Line → Bool
  | captioned _ => true
  | _ => false

def isLabel : Line → Bool
  | labelled _ => true
  | _ => false

/-- The line has no other slot. -/
def Fits (l : Line) : Prop :=
  Text.occursIn captionSlot l.source = l.isCaption ∧ Text.occursIn labelSlot l.source = l.isLabel ∧
    match l with
    | fixed t => (word imageSlot).occursIn t = false ∧ (word labelSlot).occursIn t = false ∧
        (word captionSlot).occursIn t = false
    | showing before | captioned before | labelled before => ∀ c ∈ before, c ≠ '{'

instance : DecidablePred Fits := fun l => by
  unfold Fits
  cases l <;> infer_instance

/-- The line with its slot filled, if there is a value for it. -/
def filled (image : Text) (caption label : Option Text) : Line → Option Text
  | fixed t => some t
  | showing before => some (before ++ slot image)
  | captioned before => caption.map fun value => before ++ '{' :: (value ++ ['}'])
  | labelled before => label.map fun value => before ++ slot value

/-- The line with one slot filled after the other. -/
def rendered (image : Text) (caption label : Option Text) : Line → Option Text
  | labelled before =>
    label.map fun value => (word captionSlot).exchange (caption.getD []) (before ++ slot value)
  | l => l.filled image caption label

theorem rendered_eq {l : Line} (h : l.Fits) (shows : Shows image) :
    (if isKept caption label l.source then some (fillLine image caption label l.source) else none) =
      l.rendered image caption label := by
  obtain ⟨captions, labels, braces⟩ := h
  rw [isKept, captions, labels]
  cases l with
  | fixed t =>
    simp [isCaption, isLabel, rendered, filled, source, fillLine_of_occursIn braces.1 braces.2.1 braces.2.2]
  | showing before => simp [isCaption, isLabel, rendered, filled, source, fillLine_image shows braces]
  | captioned before =>
    cases caption <;> simp [isCaption, isLabel, rendered, filled, source, fillLine_caption braces]
  | labelled before =>
    cases label <;> simp [isCaption, isLabel, rendered, source, fillLine_label braces]

theorem rendered_eq_filled {l : Line} (h : l.Fits) (fills : Fills image label) :
    l.rendered image caption label = l.filled image caption label := by
  cases l with
  | labelled before =>
    cases label with
    | none => rfl
    | some name =>
      obtain ⟨inner, ne⟩ := fills.name name rfl
      simp only [rendered, filled, Option.map_some]
      rw [show captionSlot = slot "caption" from rfl,
        exchange_filled h.2.2 (by decide) (fun c hc => isFlat_of_isInner (inner c hc)) ne]
  | fixed | showing | captioned => rfl

end Line

theorem filterMap_eq {keep : Text → Bool} {fill : Text → Text} {put : Line → Option Text} {lines : List Line}
    (h : ∀ l ∈ lines, (if keep l.source then some (fill l.source) else none) = put l) :
    ((lines.map Line.source).filter keep).map fill = lines.filterMap put := by
  induction lines with
  | nil => rfl
  | cons l lines ih =>
    simp only [List.forall_mem_cons] at h
    rw [List.map_cons, List.filterMap_cons, ← h.1, ← ih h.2]
    by_cases kept : keep l.source <;> simp [kept]

theorem render_eq_rendered {template : Text} (lines : List Line)
    (source : template.lines = lines.map Line.source) (fits : ∀ l ∈ lines, l.Fits) (shows : Shows image) :
    render template image caption label =
      joinWith "\n" (lines.filterMap (Line.rendered image caption label)) := by
  rw [render, source, filterMap_eq fun l hl => Line.rendered_eq (fits l hl) shows]

theorem render_eq {template : Text} (lines : List Line) (source : template.lines = lines.map Line.source)
    (fits : ∀ l ∈ lines, l.Fits) (fills : Fills image label) :
    render template image caption label =
      joinWith "\n" (lines.filterMap (Line.filled image caption label)) := by
  rw [render_eq_rendered lines source fits fills.shows,
    List.filterMap_congr fun l hl => Line.rendered_eq_filled (fits l hl) fills]

def figureLines : List Line :=
  [.fixed "\\begin\x7bfigure\x7d[htbp]", .fixed "    \\centering",
    .showing "    \\includegraphics[width=\\linewidth]", .captioned "    \\caption", .labelled "    \\label",
    .fixed "\\end\x7bfigure\x7d"]

def tableLines : List Line :=
  [.fixed "\\begin\x7btable\x7d[htbp]", .fixed "    \\centering", .captioned "    \\caption",
    .labelled "    \\label", .fixed "    \\begin\x7btabular\x7d\x7bl\x7d",
    .showing "    \\includegraphics[width=\\linewidth]", .fixed "    \\end\x7btabular\x7d",
    .fixed "\\end\x7btable\x7d"]

theorem source_figureLines : defaultFigure.lines = figureLines.map Line.source := by decide +kernel

theorem fits_figureLines : ∀ l ∈ figureLines, l.Fits := by decide +kernel

theorem source_tableLines : defaultTable.lines = tableLines.map Line.source := by decide +kernel

theorem fits_tableLines : ∀ l ∈ tableLines, l.Fits := by decide +kernel

/-- What is there if there is a value for it. -/
def optional (before after : Text) : Option Text → Text
  | none => []
  | some value => before ++ (value ++ after)

theorem render_defaultFigure (h : Fills image label) : render defaultFigure image caption label =
    "\\begin\x7bfigure\x7d[htbp]\n    \\centering\n    \\includegraphics[width=\\linewidth]\x7b" ++
      (image ++ ("\x7d" ++ (optional "\n    \\caption\x7b" "\x7d" caption ++
        (optional "\n    \\label\x7b" "\x7d" label ++ "\n\\end\x7bfigure\x7d")))) := by
  rw [render_eq figureLines source_figureLines fits_figureLines h]
  cases caption <;> cases label <;>
    simp [figureLines, List.filterMap_cons, Line.filled, joinWith, List.intercalate, List.intersperse, slot, optional]

theorem render_defaultTable (h : Fills image label) : render defaultTable image caption label =
    "\\begin\x7btable\x7d[htbp]\n    \\centering\n    " ++
      (optional "\\caption\x7b" "\x7d\n    " caption ++ (optional "\\label\x7b" "\x7d\n    " label ++
        ("\\begin\x7btabular\x7d\x7bl\x7d\n    \\includegraphics[width=\\linewidth]\x7b" ++
          (image ++ "\x7d\n    \\end\x7btabular\x7d\n\\end\x7btable\x7d")))) := by
  rw [render_eq tableLines source_tableLines fits_tableLines h]
  cases caption <;> cases label <;>
    simp [tableLines, List.filterMap_cons, Line.filled, joinWith, List.intercalate, List.intersperse, slot, optional]

variable {p q r : Text} {l : List Text}

theorem head?_optional (hb : p.head? = some '\\') (hr : r.head? = some '\\')
    (value : Option Text) : (optional p q value ++ r).head? = some '\\' := by
  cases value with
  | none => exact hr
  | some value => rw [optional, List.append_assoc, List.head?_append_of_ne_nil _ (by rintro rfl; cases hb), hb]

theorem sets_optional_caption (hb : Sets p []) (ends : Ends p)
    (ha : ∀ c ∈ q, c ≠ '\\') (head : q.head? = some '}') (cut : Cut q r)
    (hr : Sets r l) (hc : ∀ x ∈ caption, Plain Mark.commandNames x ∧ escapes x = false) :
    Sets (optional p q caption ++ r) (Mark.ids (caption.getD []) ++ l) := by
  cases caption with
  | none => simpa [optional] using hr
  | some x =>
    obtain ⟨plain, free⟩ := hc x rfl
    have close : Cut x (q ++ r) := ⟨free, .inr fun c hc => by
      rw [List.head?_append_of_ne_nil _ (by rintro rfl; cases head), head] at hc
      exact Option.some.inj hc ▸ rfl⟩
    have whole := hb.append ((Sets.mk plain rfl).append ((Sets.of_forall_ne ha).append hr cut) close)
      (ends.cut _)
    simpa [optional] using whole

theorem sets_optional_label (hb : ∀ c ∈ p, c ≠ '\\') (ha : ∀ c ∈ q, c ≠ '\\')
    (cut : Cut ('}' :: q) r) (hr : Sets r l)
    (hl : ∀ x ∈ label, (∀ c ∈ x, isInner c) ∧ x.trim = x) :
    Sets (optional (p ++ "\\label\x7b") ('}' :: q) label ++ r) (label.toList ++ l) := by
  cases label with
  | none => exact hr
  | some x =>
    obtain ⟨inner, trim⟩ := hl x rfl
    have command := Sets.of_command (w := "label") (r := q) (by decide) (by decide) inner ha
    rw [if_pos rfl, trim] at command
    have open_ : escapes ("\\label\x7b" ++ x) = false := by
      rw [escapes_append (by decide), escapes_of_forall fun c hc => ne_slash_of_isInner (inner c hc)]
    have close : Cut ('\\' :: ("label" ++ '{' :: (x ++ '}' :: q))) r := by
      simpa using cut.prepend open_
    have whole := (Sets.of_forall_ne hb).append (command.append hr close)
      (.of_head? (escapes_of_forall hb) rfl)
    simpa [optional] using whole

theorem closed_defaultFigure (h : Fills image label) (hl : ∀ x ∈ label, x.trim = x)
    (hc : ∀ x ∈ caption, Plain Mark.commandNames x ∧ escapes x = false) :
    Closed (render defaultFigure image caption label) (Mark.ids (caption.getD []) ++ label.toList) := by
  rw [render_defaultFigure h]
  have foot : Sets "\n\\end\x7bfigure\x7d" [] := ⟨by decide +kernel, by decide +kernel⟩
  have named := sets_optional_label (p := "\n    ") (q := []) (by decide) (by simp)
    (Ends.cut (by decide) _) foot fun x hx => ⟨(h.name x hx).1, hl x hx⟩
  have captioned := sets_optional_caption (p := "\n    \\caption\x7b") (q := "\x7d")
    ⟨by decide +kernel, by decide +kernel⟩ (by decide) (by decide) rfl (Ends.cut (by decide) _) named hc
  have shown := (Sets.of_forall_ne (t := image ++ "\x7d") (by
    intro c hc
    rcases List.mem_append.1 hc with hc | hc
    · exact ne_slash_of_isInner (h.inner c hc)
    · rw [List.mem_singleton.1 hc]
      decide)).append captioned (Ends.cut (Ends.append (by decide) image) _)
  have head : Sets "\\begin\x7bfigure\x7d[htbp]\n    \\centering\n    \\includegraphics[width=\\linewidth]\x7b"
      [] := ⟨by decide +kernel, by decide +kernel⟩
  have whole := head.append shown (Ends.cut (by decide) _)
  refine ⟨by simpa using whole, rfl, ?_⟩
  have ends : Ends "\n\\end\x7bfigure\x7d" := by decide
  exact ((((ends.append _).append _).append _).append _).append _

theorem closed_defaultTable (h : Fills image label) (hl : ∀ x ∈ label, x.trim = x)
    (hc : ∀ x ∈ caption, Plain Mark.commandNames x ∧ escapes x = false) :
    Closed (render defaultTable image caption label) (Mark.ids (caption.getD []) ++ label.toList) := by
  rw [render_defaultTable h]
  have foot : Sets "\x7d\n    \\end\x7btabular\x7d\n\\end\x7btable\x7d" [] :=
    ⟨by decide +kernel, by decide +kernel⟩
  have shown := (Sets.of_forall_ne fun c hc => ne_slash_of_isInner (h.inner c hc)).append foot
    ⟨escapes_of_forall fun c hc => ne_slash_of_isInner (h.inner c hc), .inr (by decide)⟩
  have body : Sets "\\begin\x7btabular\x7d\x7bl\x7d\n    \\includegraphics[width=\\linewidth]\x7b" [] :=
    ⟨by decide +kernel, by decide +kernel⟩
  have body := body.append shown (Ends.cut (by decide) _)
  have named := sets_optional_label (p := []) (q := "\n    ") (by simp) (by decide)
    (.of_head? (by decide) rfl) body fun x hx => ⟨(h.name x hx).1, hl x hx⟩
  have begins := head?_optional (p := "\\label\x7b") (q := "\x7d\n    ") rfl
    (r := "\\begin\x7btabular\x7d\x7bl\x7d\n    \\includegraphics[width=\\linewidth]\x7b" ++
      (image ++ "\x7d\n    \\end\x7btabular\x7d\n\\end\x7btable\x7d")) rfl label
  have captioned := sets_optional_caption (p := "\\caption\x7b") (q := "\x7d\n    ")
    ⟨by decide +kernel, by decide +kernel⟩ (by decide) (by decide) rfl (.of_head? (by decide) begins)
    named hc
  have head : Sets "\\begin\x7btable\x7d[htbp]\n    \\centering\n    " [] :=
    ⟨by decide +kernel, by decide +kernel⟩
  have whole := head.append captioned (.of_head? (by decide) (head?_optional rfl begins caption))
  refine ⟨by simpa using whole, rfl, ?_⟩
  have ends : Ends "\x7d\n    \\end\x7btabular\x7d\n\\end\x7btable\x7d" := by decide
  exact ((((ends.append _).append _).append _).append _).append _

end FloatMarkup

end FloatFlattening
