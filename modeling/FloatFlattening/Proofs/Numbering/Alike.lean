import FloatFlattening.Proofs.Numbering.Request
/-!
Numberings that answer alike, whatever is asked of them from then on. A request that is refused may take
a seat, but only at a figure that has no letter left, where one seat more makes no difference.
-/

namespace FloatFlattening

theorem Panel.letter?_congr {i j : Nat} (h : min i maxCount = min j maxCount) : letter? i = letter? j := by
  by_cases full : maxCount ≤ i
  · rw [letter?_eq_none_iff.2 full, letter?_eq_none_iff.2 (by omega)]
  · rw [show i = j by omega]

namespace Numbering

/-- What can be asked of a numbering. -/
inductive Call
  | request (r : Request)
  | get (id : Text)
  | resolve (id : Text)
  | children (figure : Text)
  | labels
  | size
  deriving DecidableEq, Repr

inductive Answer
  | refused (f : Fault)
  | given (tag : Tag)
  | passed (letter : Char)
  | found (label : Option Label)
  | resolved (tag : Option Tag)
  | listed (labels : List Label)
  | counted (size : Nat)
  deriving DecidableEq, Repr

/-- A request that is granted is answered with the tag of its label or with the letter passed over. -/
def Request.granted : Request → Change Answer
  | register id kind parent line => .given <$> Numbering.register id kind parent line
  | reserve figure line => .passed <$> Numbering.reserve figure line
  | registerAlias id target line => .given <$> Numbering.registerAlias id target line

/-- The answer to a call, and the numbering after it. -/
def ask (n : Numbering) : Call → Answer × Numbering
  | .request r =>
    match r.granted.run n with
    | .ok a n' => (a, n')
    | .error f n' => (.refused f, n')
  | .get id => (.found (n.get? id), n)
  | .resolve id => (.resolved (n.resolve? id), n)
  | .children figure => (.listed (n.children figure), n)
  | .labels => (.listed n.labels, n)
  | .size => (.counted n.labels.length, n)

/-- The answers to calls made one after the other. -/
def answers (n : Numbering) : List Call → List Answer
  | [] => []
  | c :: cs => (n.ask c).1 :: (n.ask c).2.answers cs

/-- The same labels, and as many seats taken at each figure or at least no letter left in both. -/
structure Alike (n n' : Numbering) : Prop where
  labels : n.labels = n'.labels
  seats : ∀ figure, min (n.seats.count figure) Panel.maxCount = min (n'.seats.count figure) Panel.maxCount

/-- Both granted, with values that correspond, or both refused for the same fault. -/
inductive AlikeResults {α : Type} (R : α → α → Prop) :
    EStateM.Result Fault Numbering α → EStateM.Result Fault Numbering α → Prop
  | granted {a a' : α} {n n' : Numbering} (values : R a a') (alike : Alike n n') :
      AlikeResults R (.ok a n) (.ok a' n')
  | refused (f : Fault) {n n' : Numbering} (alike : Alike n n') : AlikeResults R (.error f n) (.error f n')

variable {n n' : Numbering} {id figure target : Text} {kind : Label.Kind} {line : Nat} {l : Label}
  {α β : Type} {R : α → α → Prop} {S : β → β → Prop}

namespace Alike

theorem refl (n : Numbering) : Alike n n := ⟨rfl, fun _ => rfl⟩

theorem get? (h : Alike n n') (id : Text) : n.get? id = n'.get? id := by
  rw [Numbering.get?, Numbering.get?, h.labels]

theorem resolve? (h : Alike n n') (id : Text) : n.resolve? id = n'.resolve? id := by
  rw [Numbering.resolve?, Numbering.resolve?, h.get?]

theorem children (h : Alike n n') (figure : Text) : n.children figure = n'.children figure := by
  rw [Numbering.children, Numbering.children, h.labels]

theorem nextIndex (h : Alike n n') (kind : Label.Kind) : n.nextIndex kind = n'.nextIndex kind := by
  rw [Numbering.nextIndex, Numbering.nextIndex, h.labels]

theorem add (h : Alike n n') (l : Label) :
    Alike { n with labels := n.labels ++ [l] } { n' with labels := n'.labels ++ [l] } :=
  ⟨congrArg (· ++ [l]) h.labels, h.seats⟩

theorem seat (h : Alike n n') (figure : Text) :
    Alike { n with seats := n.seats ++ [figure] } { n' with seats := n'.seats ++ [figure] } := by
  refine ⟨h.labels, fun other => ?_⟩
  have before := h.seats other
  rw [List.count_append, List.count_append]
  omega

/-- Where no letter is left, a seat more makes no difference. -/
theorem of_full (full : Panel.maxCount ≤ n.seats.count figure) :
    Alike { n with seats := n.seats ++ [figure] } n := by
  refine ⟨rfl, fun other => ?_⟩
  rw [List.count_append, List.count_singleton]
  by_cases here : figure = other
  · subst here
    omega
  · rw [if_neg (by simpa using here), Nat.add_zero]

end Alike

theorem AlikeResults.bind {x x' : Change α} {g g' : α → Change β} (h : AlikeResults R (x.run n) (x'.run n'))
    (k : ∀ a a' m m', R a a' → Alike m m' → AlikeResults S ((g a).run m) ((g' a').run m')) :
    AlikeResults S ((x >>= g).run n) ((x' >>= g').run n') := by
  rw [EStateM.run_bind, EStateM.run_bind]
  generalize x.run n = r at h
  generalize x'.run n' = r' at h
  cases h with
  | granted values alike => exact k _ _ _ _ values alike
  | refused f alike => exact .refused f alike

theorem AlikeResults.map {x x' : Change α} (h : AlikeResults Eq (x.run n) (x'.run n')) (f : α → β) :
    AlikeResults Eq ((f <$> x).run n) ((f <$> x').run n') := by
  rw [map_eq_pure_bind, map_eq_pure_bind]
  exact h.bind fun _ _ _ _ values alike => .granted (congrArg f values) alike

namespace Alike

variable (h : Alike n n')
include h

theorem requireNew {k k' : Unit → Change α} (next : AlikeResults R ((k ()).run n) ((k' ()).run n')) :
    AlikeResults R ((Numbering.requireNew id line >>= k).run n) ((Numbering.requireNew id line >>= k').run n') := by
  cases found : n.get? id with
  | some first =>
    have found' := (h.get? id).symm.trans found
    have run : (Numbering.requireNew id line >>= k).run n = .error (.duplicateLabel id first.line line) n := by
      simp [Numbering.requireNew, found]
    have run' : (Numbering.requireNew id line >>= k').run n' = .error (.duplicateLabel id first.line line) n' := by
      simp [Numbering.requireNew, found']
    rw [run, run']
    exact .refused _ h
  | none =>
    have found' := (h.get? id).symm.trans found
    have run : (Numbering.requireNew id line >>= k).run n = (k ()).run n := by simp [Numbering.requireNew, found]
    have run' : (Numbering.requireNew id line >>= k').run n' = (k' ()).run n' := by
      simp [Numbering.requireNew, found']
    rwa [run, run']

theorem refuse (detail : Text) :
    AlikeResults R ((Numbering.refuse line detail).run n) ((Numbering.refuse line detail).run n') :=
  .refused _ h

theorem run_add (l : Label) : AlikeResults Eq ((Numbering.add l).run n) ((Numbering.add l).run n') :=
  .granted rfl (h.add l)

/-- The two positions give the same letter. -/
theorem takeSeat (figure : Text) (line : Nat) : AlikeResults
    (fun a a' => a.1 = a'.1 ∧ min a.2 Panel.maxCount = min a'.2 Panel.maxCount)
    ((Numbering.takeSeat figure line).run n) ((Numbering.takeSeat figure line).run n') := by
  simp only [Numbering.takeSeat, EStateM.run_bind, EStateM.run_get, h.get? figure]
  cases (n'.get? figure).filter (·.kind = .figure) with
  | none => exact .refused _ h
  | some l => exact .granted ⟨rfl, h.seats figure⟩ (h.seat figure)

theorem letterAt {position position' : Nat} (figure : Text)
    (same : min position Panel.maxCount = min position' Panel.maxCount) : AlikeResults Eq
      ((Numbering.letterAt figure position line).run n) ((Numbering.letterAt figure position' line).run n') := by
  rw [Numbering.letterAt, Numbering.letterAt, Panel.letter?_congr same]
  cases Panel.letter? position' with
  | none => exact .refused _ h
  | some x => exact .granted rfl h

theorem register (id : Text) (kind : Label.Kind) (parent : Option Text) (line : Nat) : AlikeResults Eq
    ((Numbering.register id kind parent line).run n) ((Numbering.register id kind parent line).run n') := by
  rw [Numbering.register]
  split
  · cases parent with
    | none =>
      rw [registerPanel]
      exact h.requireNew (h.refuse _)
    | some figure =>
      rw [registerPanel]
      refine h.requireNew ?_
      -- The positions may differ, but only where neither has a letter.
      refine (h.takeSeat figure line).bind fun a a' m m' values seated => ?_
      refine (seated.letterAt figure values.2).bind fun x x' m m' letters alike => ?_
      rw [values.1, letters]
      exact alike.run_add _
  · refine h.requireNew ?_
    simp only [EStateM.run_bind, EStateM.run_get, h.nextIndex kind]
    exact h.run_add _

theorem reserve (figure : Text) (line : Nat) :
    AlikeResults Eq ((Numbering.reserve figure line).run n) ((Numbering.reserve figure line).run n') :=
  (h.takeSeat figure line).bind fun _ _ _ _ values seated => seated.letterAt figure values.2

theorem registerAlias (id target : Text) (line : Nat) : AlikeResults Eq
    ((Numbering.registerAlias id target line).run n) ((Numbering.registerAlias id target line).run n') := by
  rw [Numbering.registerAlias]
  refine h.requireNew ?_
  simp only [EStateM.run_bind, EStateM.run_get, h.get? target]
  cases n'.get? target with
  | none => exact h.refuse _
  | some l => exact h.run_add _

theorem granted (r : Request) : AlikeResults Eq (r.granted.run n) (r.granted.run n') := by
  cases r with
  | register id kind parent line => exact (h.register id kind parent line).map Answer.given
  | reserve figure line => exact (h.reserve figure line).map Answer.passed
  | registerAlias id target line => exact (h.registerAlias id target line).map Answer.given

/-- What one call preserves. -/
theorem ask (c : Call) : (n.ask c).1 = (n'.ask c).1 ∧ Alike (n.ask c).2 (n'.ask c).2 := by
  cases c with
  | request r =>
    have results := h.granted r
    rw [Numbering.ask, Numbering.ask]
    generalize r.granted.run n = x at results
    generalize r.granted.run n' = x' at results
    cases results with
    | granted values alike => exact ⟨values, alike⟩
    | refused f alike => exact ⟨rfl, alike⟩
  | get id => exact ⟨congrArg Answer.found (h.get? id), h⟩
  | resolve id => exact ⟨congrArg Answer.resolved (h.resolve? id), h⟩
  | children figure => exact ⟨congrArg Answer.listed (h.children figure), h⟩
  | labels => exact ⟨congrArg Answer.listed h.labels, h⟩
  | size => exact ⟨congrArg (fun ls : List Label => Answer.counted ls.length) h.labels, h⟩

theorem answers (cs : List Call) : n.answers cs = n'.answers cs := by
  induction cs generalizing n n' with
  | nil => rfl
  | cons c cs ih =>
    rw [Numbering.answers, Numbering.answers, (h.ask c).1, ih (h.ask c).2]

end Alike

/-- If a change is refused, the numbering is as good as it was. -/
def Restores (n : Numbering) (x : Change α) : Prop := ∀ f n', x.run n = .error f n' → Alike n' n

theorem restores_refuse (detail : Text) : Restores n (refuse line detail : Change α) := by
  rintro f n' run
  cases run
  exact .refl n

theorem restores_add (l : Label) : Restores n (add l) := by
  rintro f n' run
  cases run

theorem restores_requireNew {k : Unit → Change α} (next : Restores n (k ())) :
    Restores n (requireNew id line >>= k) := by
  intro f n' run
  cases found : n.get? id with
  | some first =>
    have refused : (requireNew id line >>= k).run n = .error (.duplicateLabel id first.line line) n := by
      simp [requireNew, found]
    rw [refused] at run
    cases run
    exact .refl n
  | none =>
    have same : (requireNew id line >>= k).run n = (k ()).run n := by simp [requireNew, found]
    rw [same] at run
    exact next f n' run

theorem Restores.map {x : Change α} (h : Restores n x) (g : α → β) : Restores n (g <$> x) := by
  intro f n' run
  have run : (x >>= fun a => pure (g a)).run n = .error f n' := run
  rw [EStateM.run_bind] at run
  split at run
  · cases run
  next run' =>
    cases run
    exact h f n' run'

/-- A seat is taken in vain only where no letter is left. -/
theorem restores_seat {k : Nat × Nat → Char → Change α} (grants : ∀ a x m f m', (k a x).run m ≠ .error f m') :
    Restores n (takeSeat figure line >>= fun a => letterAt figure a.2 line >>= k a) := by
  intro f n' run
  rcases run_takeSeat figure line n with ⟨g, refused⟩ | ⟨l, -, -, seated⟩
  · rw [EStateM.run_bind, refused] at run
    cases run
    exact .refl n
  · simp only [EStateM.run_bind, seated, letterAt] at run
    cases letter : Panel.letter? (n.seats.count figure) with
    | none =>
      -- The seat stays taken, so the numbering is not the one before.
      simp only [letter] at run
      cases run
      exact .of_full (Panel.letter?_eq_none_iff.1 letter)
    | some x =>
      simp only [letter] at run
      exact absurd run (grants _ _ _ _ _)

theorem restores_register (id : Text) (kind : Label.Kind) (parent : Option Text) (line : Nat) :
    Restores n (register id kind parent line) := by
  rw [register]
  split
  · cases parent with
    | none =>
      rw [registerPanel]
      exact restores_requireNew (restores_refuse _)
    | some figure =>
      rw [registerPanel]
      refine restores_requireNew (restores_seat ?_)
      rintro _ _ _ _ _ ⟨⟩
  · exact restores_requireNew (restores_add _)

theorem restores_reserve (figure : Text) (line : Nat) : Restores n (reserve figure line) := by
  have seat : Restores n (takeSeat figure line >>= fun a => letterAt figure a.2 line >>= pure) :=
    restores_seat (k := fun _ => pure) (by rintro _ _ _ _ _ ⟨⟩)
  simp only [bind_pure] at seat
  exact seat

theorem restores_registerAlias (id target : Text) (line : Nat) : Restores n (registerAlias id target line) := by
  rw [registerAlias]
  refine restores_requireNew fun f n' run => ?_
  simp only [EStateM.run_bind, EStateM.run_get] at run
  cases found : n.get? target with
  | none =>
    simp only [found] at run
    exact restores_refuse _ f n' run
  | some l =>
    simp only [found] at run
    exact restores_add _ f n' run

theorem Request.restores (r : Request) (n : Numbering) : Restores n r.granted := by
  cases r with
  | register id kind parent line => exact (restores_register id kind parent line).map Answer.given
  | reserve figure line => exact (restores_reserve figure line).map Answer.passed
  | registerAlias id target line => exact (restores_registerAlias id target line).map Answer.given

theorem Request.not_refused {r : Request} {f : Fault} : r.granted.run n ≠ .ok (.refused f) n' := by
  have answers {γ : Type} {x : Change γ} {g : γ → Answer} (other : ∀ a, g a ≠ .refused f) :
      (g <$> x).run n ≠ .ok (.refused f) n' := by
    intro run
    have run : (x >>= fun a => pure (g a)).run n = .ok (.refused f) n' := run
    rw [EStateM.run_bind] at run
    split at run
    · exact other _ (EStateM.Result.ok.inj run).1
    · cases run
  cases r <;> exact answers fun _ => Answer.noConfusion

/-- A request that is refused leaves no trace: whatever is asked later is answered as if it had not been
made. -/
theorem answers_of_refused {r : Request} {f : Fault} (refused : (n.ask (.request r)).1 = .refused f)
    (later : List Call) : n.answers (.request r :: later) = .refused f :: n.answers later := by
  rw [answers, refused]
  rw [ask] at refused ⊢
  cases run : r.granted.run n with
  | ok a n' =>
    simp only [run] at refused
    exact absurd (refused ▸ run) Request.not_refused
  | error g n' => exact congrArg _ ((r.restores n g n' run).answers later)

/-- A figure with a panel at its last letter. -/
def filled : Numbering :=
  empty.afterAll (.register ['f'] .figure none 1 :: List.replicate 25 (.reserve ['f'] 2) ++
    [.register ['z'] .panel (some ['f']) 3])

/-- A panel that is refused takes a seat, which no later answer shows. -/
theorem answers_of_refused_filled :
    let r : Request := .register ['x'] .panel (some ['f']) 4
    let later : List Call := [.request (.reserve ['f'] 5), .request (.register ['x'] .table none 6),
      .request (.registerAlias ['y'] ['z'] 7), .get ['x'], .resolve ['y'], .children ['f'], .labels, .size]
    (filled.ask (.request r)).2 ≠ filled ∧ ∃ f, (filled.ask (.request r)).1 = .refused f ∧
      filled.answers (.request r :: later) = .refused f :: filled.answers later := by
  intro r later
  have taken : (filled.ask (.request r)).2 ≠ filled := by decide +kernel
  have refused : (filled.ask (.request r)).1 = .refused (.malformed "\\label" 4 "figure 'f' has more than 26 panels") := by
    decide +kernel
  exact ⟨taken, _, refused, answers_of_refused refused later⟩

end Numbering

end FloatFlattening
