import FloatFlattening.Proofs.Numbering.Step
/-!
What the sites of a document register: a figure its own label and those of its panels, a mark its
label unless it was registered with a figure.
-/

namespace FloatFlattening

/-- What the panel at a position of a figure registers. -/
def Panel.entries (figure : Text) (position : Nat) (p : Panel) : List Label.Entry :=
  match p.marks with
  | [] => []
  | own :: further =>
    .own own.id .panel figure (letter? position) :: further.map fun m => .further m.id own.id

/-- What the panels of a figure from a position on register. -/
def Panel.entriesFrom (figure : Text) (position : Nat) (ps : List Panel) : List Label.Entry :=
  (ps.zipIdx position).flatMap fun (p, i) => p.entries figure i

@[simp] theorem Panel.entriesFrom_nil (figure : Text) (position : Nat) :
    entriesFrom figure position [] = [] := rfl

@[simp] theorem Panel.entriesFrom_cons (figure : Text) (position : Nat) (p : Panel)
    (ps : List Panel) : entriesFrom figure position (p :: ps) =
      p.entries figure position ++ entriesFrom figure (position + 1) ps := rfl

def Figure.entries (f : Figure) : List Label.Entry :=
  match f.name.id? with
  | none => []
  | some id => .own id .figure none none :: Panel.entriesFrom id 0 f.panels

def Figure.seats (f : Figure) : List Text :=
  match f.name.id? with
  | none => []
  | some id => List.replicate f.panels.length id

def Figure.Overfull (f : Figure) : Prop := f.name.id? ≠ none ∧ Panel.maxCount < f.panels.length

open Numbering in
def Outline.entriesOfMark (o : Outline) (m : Mark) : List Label.Entry :=
  match o.figureAt? m.span.start with
  | some f =>
    if IsVisitedWith f m then []
    else
      match f.name.id? with
      | some id => [.further m.id id]
      | none => [.own m.id .figure none none]
  | none =>
    match o.tableAt? m.span.start with
    | some table =>
      match table.marks.head?.filter (·.span ≠ m.span) with
      | some first => [.further m.id first.id]
      | none => [.own m.id .table none none]
    | none =>
      [.own m.id (if o.inEquation m.span.start then .equation else .heading) none none]

namespace Site

def entries (o : Outline) : Site → List Label.Entry
  | figure f => f.entries
  | mark m => o.entriesOfMark m

def seats : Site → List Text
  | figure f => f.seats
  | mark _ => []

def Overfull : Site → Prop
  | figure f => f.Overfull
  | mark _ => False

/-- The label that a mark is a further name for is not among those there. -/
def Lost (o : Outline) (ids : List Text) : Site → Prop
  | figure _ => False
  | mark m => ∃ id target, .further id target ∈ o.entriesOfMark m ∧ target ∉ ids

end Site

namespace Numbering

variable {n n' : Numbering} {figure target : Text} {position : Nat} {o : Outline}

theorem outcome_pure {α : Type} (a : α) : Outcome n [] [] False False ((pure a : Change α).run n) :=
  .grown ⟨by simp, by simp, id⟩ not_false

theorem outcome_aliases (hn : n.Sound) (h : target ∈ n.ids) (ms : List Mark) :
    Outcome n (ms.map fun m => .further m.id target) [] False False
      ((ms.forM fun m => discard <| registerAlias m.id target m.line).run n) := by
  induction ms generalizing n with
  | nil => exact outcome_pure _
  | cons m ms ih =>
    have first : Outcome n [.further m.id target] [] False (target ∉ n.ids)
        ((discard <| registerAlias m.id target m.line).run n) := outcome_registerAlias.discard
    have both := first.bind hn fun _ n' hn' grows =>
      ih hn' (by rw [grows.ids]; exact List.mem_append_left _ h)
    exact both.imp (by simp) (by simpa using h)

theorem AtFigure.outcome_visitPanel (h : AtFigure n figure position) (t : Text) (p : Panel) :
    Outcome n (p.entries figure position) [figure] (Panel.maxCount ≤ position) False
      ((visitPanel t figure p).run n) := by
  rw [visitPanel, Panel.entries]
  cases p.marks with
  | nil => exact h.outcome_reserve.discard
  | cons own further =>
    have first : Outcome n [.own own.id .panel figure (Panel.letter? position)] [figure]
        (Panel.maxCount ≤ position) False
        ((discard <| register own.id .panel figure own.line).run n) :=
      h.outcome_registerPanel.discard
    have both := first.bind h.sound fun _ n' hn' grows =>
      outcome_aliases hn' (show own.id ∈ n'.ids by rw [grows.ids]; simp) further
    exact both.imp (by simp) (by simp)

theorem AtFigure.outcome_visitPanels (h : AtFigure n figure position) (t : Text)
    (ps : List Panel) :
    Outcome n (Panel.entriesFrom figure position ps) (List.replicate ps.length figure)
      (ps ≠ [] ∧ Panel.maxCount < position + ps.length) False
      ((ps.forM (visitPanel t figure)).run n) := by
  induction ps generalizing n position with
  | nil => exact (outcome_pure _).imp (by simp) id
  | cons p ps ih =>
    have both := (h.outcome_visitPanel t p).bind h.sound fun _ n' hn' grows =>
      ih (by simpa using h.grows grows)
    refine both.imp ?_ (by simp)
    cases ps <;> simp <;> omega

theorem outcome_visitFigure (hn : n.Sound) (t : Text) (f : Figure) :
    Outcome n f.entries f.seats f.Overfull False ((visitFigure t f).run n) := by
  rw [visitFigure, Figure.entries, Figure.seats]
  cases hid : f.name.id? with
  | none => exact (outcome_pure _).imp (by simp [Figure.Overfull, hid]) id
  | some figure =>
    have first : Outcome n [.own figure .figure none none] [] False False
        ((discard <| register figure .figure none
          ((f.mainMark?.map Mark.line).getD (t.lineOf f.span.start))).run n) :=
      (outcome_register (by decide)).discard
    have start {n' : Numbering} (hn' : n'.Sound)
        (grows : Grows n [.own figure .figure none none] [] n') : AtFigure n' figure 0 := by
      refine ⟨hn', by rw [grows.entries]; simp, List.count_eq_zero.2 fun seat => ?_⟩
      -- The label is new, and seats are taken only at labels that are there.
      rw [grows.seats, List.append_nil] at seat
      have nodup := hn'.nodup
      rw [grows.ids, List.nodup_append] at nodup
      exact nodup.2.2 figure (hn.seats seat) figure (by simp) rfl
    have both := first.bind hn fun _ n' hn' grows =>
      (start hn' grows).outcome_visitPanels t f.panels
    have nonempty : Panel.maxCount < f.panels.length → f.panels ≠ [] := by
      rintro more none
      simp [none] at more
    exact both.imp (by simpa [Figure.Overfull, hid] using nonempty) (by simp)

theorem outcome_visitMark (o : Outline) (m : Mark) :
    Outcome n (o.entriesOfMark m) [] False (Site.Lost o n.ids (.mark m)) ((visitMark o m).run n) := by
  rw [visitMark, Site.Lost, Outline.entriesOfMark]
  cases o.figureAt? m.span.start with
  | some f =>
    dsimp only
    split
    · exact (outcome_pure _).imp Iff.rfl False.elim
    · cases f.name.id? with
      | some id => exact outcome_registerAlias.discard.imp Iff.rfl (by simp)
      | none => exact (outcome_register (by decide)).discard.imp Iff.rfl False.elim
  | none =>
    cases o.tableAt? m.span.start with
    | some table =>
      dsimp only
      cases table.marks.head?.filter (·.span ≠ m.span) with
      | some first => exact outcome_registerAlias.discard.imp Iff.rfl (by simp)
      | none => exact (outcome_register (by decide)).discard.imp Iff.rfl False.elim
    | none =>
      exact (outcome_register (by split <;> decide)).discard.imp Iff.rfl False.elim

theorem outcome_visit (hn : n.Sound) (o : Outline) (s : Site) :
    Outcome n (s.entries o) s.seats s.Overfull (s.Lost o n.ids) ((visit o s).run n) := by
  cases s with
  | figure f => exact outcome_visitFigure hn o.text f
  | mark m => exact outcome_visitMark o m

end Numbering

end FloatFlattening
