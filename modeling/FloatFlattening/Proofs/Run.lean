import FloatFlattening.Run
/-!
Runs taken apart: what succeeds, and what comes of a run in either case.
-/

namespace FloatFlattening.Run

variable {α β : Type} {x : Run α} {f : α → Run β} {w w' : World} {a : α} {b : β} {d : Disk}

theorem bind_eq_ok_iff : (x >>= f).run w = .ok b w' ↔
    ∃ a w₁, x.run w = .ok a w₁ ∧ (f a).run w₁ = .ok b w' := by
  rw [EStateM.run_bind]
  cases x.run w with
  | ok a w₁ =>
    constructor
    · exact fun h => ⟨a, w₁, rfl, h⟩
    · rintro ⟨_, _, ⟨⟩, h⟩
      exact h
  | error => simp

theorem exists_run_of_outcome (h : (x.outcome w).1 = .ok a) : ∃ w', x.run w = .ok a w' := by
  rw [outcome] at h
  cases there : x.run w with
  | ok a' w' =>
    rw [there] at h
    obtain rfl := Except.ok.inj h
    exact ⟨w', rfl⟩
  | error =>
    rw [there] at h
    cases h

theorem outcome_of_run (h : x.run w = .ok a w') : (x.outcome w).1 = .ok a := by
  rw [outcome, h]

theorem outcome_snd_of_run (h : x.run w = .ok a w') : (x.outcome w).2 = w' := by
  rw [outcome, h]

theorem fail_ne_ok {e : Fault} : (fail e : Run α).run w ≠ .ok a w' := by
  rintro ⟨⟩

theorem fail_bind_ne_ok {e : Fault} : ((fail e : Run α) >>= f).run w ≠ .ok b w' := by
  rintro ⟨⟩

theorem change_eq_ok_iff {fault : Text → Fault} {g : Disk → Except Disk.Obstacle Disk} {u : Unit} :
    (change fault g).run w = .ok u w' ↔ ∃ d, g w.disk = .ok d ∧ { w with disk := d } = w' := by
  rw [change, bind_eq_ok_iff]
  constructor
  · rintro ⟨_, _, ⟨⟩, h⟩
    cases made : g w.disk with
    | ok d =>
      rw [made] at h
      cases h
      exact ⟨d, rfl, rfl⟩
    | error o =>
      rw [made] at h
      exact absurd h fail_ne_ok
  · rintro ⟨d, made, rfl⟩
    exact ⟨_, _, rfl, by rw [made]; rfl⟩

theorem makeDirectories_eq_ok_iff {fault : Text → Fault} {p : Text} {u : Unit} :
    (makeDirectories fault p).run w = .ok u w' ↔
      ∃ d, w.disk.makeDirectories p = .ok d ∧ { w with disk := d } = w' := by
  rw [makeDirectories, bind_eq_ok_iff]
  constructor
  · rintro ⟨_, _, ⟨⟩, h⟩
    cases made : w.disk.makeDirectories p with
    | ok d =>
      rw [made] at h
      cases h
      exact ⟨d, rfl, rfl⟩
    | error o =>
      rw [made] at h
      cases h
  · rintro ⟨d, made, rfl⟩
    exact ⟨_, _, rfl, by rw [made]; rfl⟩

theorem lift_eq_ok_iff {r : Except Fault α} :
    (liftM r : Run α).run w = .ok a w' ↔ r = .ok a ∧ w = w' := by
  cases r with
  | ok a' =>
    constructor
    · rintro ⟨⟩
      exact ⟨rfl, rfl⟩
    · rintro ⟨⟨⟩, rfl⟩
      rfl
  | error e =>
    constructor
    · rintro ⟨⟩
    · rintro ⟨⟨⟩, -⟩

/-- A failure that only leads to another does not end well. -/
theorem of_tryCatch {handle : Failure → Run α} (h : (tryCatch x handle).run w = .ok a w')
    (fails : ∀ e w₁, (handle e).run w₁ ≠ .ok a w') : x.run w = .ok a w' := by
  change EStateM.tryCatch x handle w = _ at h
  delta EStateM.tryCatch at h
  change x w = _
  cases there : x w with
  | ok => rwa [there] at h
  | error =>
    rw [there] at h
    exact absurd h (fails _ _)

theorem of_tryFinally {y : Run β} (h : (tryFinally x y).run w = .ok a w') :
    ∃ w₁, x.run w = .ok a w₁ := by
  simp only [tryFinally, tryFinally', Functor.map, EStateM.map, EStateM.run] at h ⊢
  cases there : x w with
  | ok a' w₁ =>
    simp only [there] at h
    cases after : y w₁ with
    | ok b w₂ =>
      simp only [after] at h
      cases h
      exact ⟨w₁, rfl⟩
    | error e w₂ =>
      simp only [after] at h
      cases h
  | error e w₁ =>
    simp only [there] at h
    cases after : y w₁ <;> simp only [after] at h <;> cases h

/-- From a world, a run succeeds with `Q` or fails with `E`. -/
def Ensures (x : Run α) (w : World) (Q : α → World → Prop) (E : Failure → World → Prop) : Prop :=
  match x.run w with
  | .ok a w' => Q a w'
  | .error e w' => E e w'

variable {Q Q' : α → World → Prop} {P : β → World → Prop} {E E' : Failure → World → Prop}

theorem ensures_iff : x.Ensures w Q E ↔
    (∀ a w', x.run w = .ok a w' → Q a w') ∧ ∀ e w', x.run w = .error e w' → E e w' := by
  rw [Ensures]
  cases x.run w with
  | ok a w' =>
    refine ⟨fun h => ⟨?_, ?_⟩, fun h => h.1 a w' rfl⟩
    · rintro _ _ ⟨⟩
      exact h
    · rintro _ _ ⟨⟩
  | error e w' =>
    refine ⟨fun h => ⟨?_, ?_⟩, fun h => h.2 e w' rfl⟩
    · rintro _ _ ⟨⟩
    · rintro _ _ ⟨⟩
      exact h

theorem Ensures.mono (h : x.Ensures w Q E) (ok : ∀ a w', x.run w = .ok a w' → Q a w' → Q' a w')
    (error : ∀ e w', x.run w = .error e w' → E e w' → E' e w') : x.Ensures w Q' E' :=
  ensures_iff.2 ⟨fun a w' run => ok a w' run ((ensures_iff.1 h).1 a w' run),
    fun e w' run => error e w' run ((ensures_iff.1 h).2 e w' run)⟩

theorem Ensures.outcome (h : x.Ensures w Q E) :
    (∃ a, (x.outcome w).1 = .ok a ∧ Q a (x.outcome w).2) ∨
      ∃ e, (x.outcome w).1 = .error e ∧ E e (x.outcome w).2 := by
  rw [Ensures] at h
  rw [Run.outcome]
  cases run : x.run w with
  | ok a w' =>
    rw [run] at h
    exact .inl ⟨a, rfl, h⟩
  | error e w' =>
    rw [run] at h
    exact .inr ⟨e, rfl, h⟩

theorem ensures_bind :
    (x >>= f).Ensures w P E ↔ x.Ensures w (fun a w' => (f a).Ensures w' P E) E := by
  rw [Ensures, Ensures, EStateM.run_bind]
  cases x.run w <;> rfl

theorem Ensures.bind (h : x.Ensures w Q E)
    (ok : ∀ a w', x.run w = .ok a w' → Q a w' → (f a).Ensures w' P E) : (x >>= f).Ensures w P E :=
  ensures_bind.2 (h.mono ok fun _ _ _ => id)

theorem ensures_pure : Ensures (pure a) w Q E ↔ Q a w := Iff.rfl

theorem ensures_fail {e : Fault} : Ensures (fail e) w Q E ↔ E (.fault e) w := Iff.rfl

theorem ensures_disk {Q : Disk → World → Prop} : disk.Ensures w Q E ↔ Q w.disk w := Iff.rfl

theorem ensures_get {Q : World → World → Prop} : Ensures get w Q E ↔ Q w w := Iff.rfl

theorem ensures_tell {e : Event} {Q : Unit → World → Prop} :
    (tell e).Ensures w Q E ↔ Q () { w with events := w.events ++ [e] } := Iff.rfl

theorem ensures_lift {r : Except Fault α} : Ensures (liftM r) w Q E ↔
    (∀ a, r = .ok a → Q a w) ∧ ∀ e, r = .error e → E (.fault e) w := by
  cases r with
  | ok a =>
    change Q a w ↔ _
    simp
  | error e =>
    change E (.fault e) w ↔ _
    simp

theorem ensures_lift_failure {r : Except Failure α} : Ensures (liftM r) w Q E ↔
    (∀ a, r = .ok a → Q a w) ∧ ∀ e, r = .error e → E e w := by
  cases r with
  | ok a =>
    change Q a w ↔ _
    simp
  | error e =>
    change E e w ↔ _
    simp

/-- The world when a call has been answered. -/
def answered (w : World) (i : Invocation) (answer : Response × Disk) : World :=
  { w with disk := answer.2, calls := w.calls ++ [i], answers := w.answers ++ [answer] }

theorem ensures_call {tools : Toolchain} {task : Task} {subject : Text} {i : Invocation}
    {Q : Output → World → Prop} : (call tools task subject i).Ensures w Q E ↔
      (∀ o, (tools.respond w.calls i w.disk).1.check task i subject = .ok o →
        Q o (answered w i (tools.respond w.calls i w.disk))) ∧
        ∀ e, (tools.respond w.calls i w.disk).1.check task i subject = .error e →
          E (.fault e) (answered w i (tools.respond w.calls i w.disk)) := by
  change Ensures (liftM ((tools.respond w.calls i w.disk).1.check task i subject)) (answered w i _) Q E ↔ _
  exact ensures_lift

theorem ensures_change {fault : Text → Fault} {g : Disk → Except Disk.Obstacle Disk}
    {Q : Unit → World → Prop} : (change fault g).Ensures w Q E ↔
      (∀ d, g w.disk = .ok d → Q () { w with disk := d }) ∧
        ∀ o, g w.disk = .error o → E (.fault (fault o.describe)) w := by
  rw [change, ensures_bind, ensures_disk]
  cases g w.disk with
  | ok d =>
    change Q () { w with disk := d } ↔ _
    simp
  | error o =>
    change E (.fault (fault o.describe)) w ↔ _
    simp

theorem ensures_makeDirectories {fault : Text → Fault} {p : Text} {Q : Unit → World → Prop} :
    (makeDirectories fault p).Ensures w Q E ↔
      (∀ d, w.disk.makeDirectories p = .ok d → Q () { w with disk := d }) ∧
        ∀ o, w.disk.makeDirectories p = .error o →
          E (.fault (fault o.describe)) { w with disk := w.disk.failedDirectories p } := by
  rw [makeDirectories, ensures_bind, ensures_disk]
  cases w.disk.makeDirectories p with
  | ok d =>
    change Q () { w with disk := d } ↔ _
    simp
  | error o =>
    change E (.fault (fault o.describe)) { w with disk := w.disk.failedDirectories p } ↔ _
    simp

theorem ensures_discard {Q : PUnit → World → Prop} :
    (discard x).Ensures w Q E ↔ x.Ensures w (fun _ => Q ⟨⟩) E := by
  simp only [Ensures, discard, Functor.mapConst, Function.comp, EStateM.map, EStateM.run]
  cases x w <;> rfl

theorem ensures_tryCatch {handle : Failure → Run α} : (tryCatch x handle).Ensures w Q E ↔
    x.Ensures w Q fun e w' => (handle e).Ensures w' Q E := by
  have run : (tryCatch x handle).run w = EStateM.tryCatch x handle w := rfl
  rw [Ensures, Ensures, run]
  delta EStateM.tryCatch EStateM.run
  cases x w <;> rfl

theorem ensures_tryFinally {y : Run β} : Ensures (tryFinally x y) w Q E ↔
    x.Ensures w (fun a w' => y.Ensures w' (fun _ => Q a) E)
      fun e w' => y.Ensures w' (fun _ => E e) E := by
  simp only [Ensures, tryFinally, tryFinally', Functor.map, EStateM.map, EStateM.run]
  cases x w with
  | ok a w' =>
    simp only
    cases y w' <;> rfl
  | error e w' =>
    simp only
    cases y w' <;> rfl

/-! Invariants of a run: they hold afterwards also when it fails. -/

/-- A run that starts in a world with `I` ends in one. -/
def Keeps (I : World → Prop) (x : Run α) : Prop :=
  ∀ w, I w → x.Ensures w (fun _ => I) fun _ => I

variable {I : World → Prop}

theorem keeps_pure : Keeps I (pure a) := fun _ => id

theorem keeps_fail {e : Fault} : Keeps I (fail e : Run α) := fun _ => id

theorem keeps_get : Keeps I (get : Run World) := fun _ => id

theorem keeps_disk : Keeps I disk := fun _ => id

theorem Keeps.bind (hx : Keeps I x) (hf : ∀ a, Keeps I (f a)) : Keeps I (x >>= f) := fun w h =>
  (hx w h).bind fun a w' _ => hf a w'

theorem Keeps.tryCatch {handle : Failure → Run α} (hx : Keeps I x)
    (hh : ∀ e, Keeps I (handle e)) : Keeps I (tryCatch x handle) := fun w h =>
  ensures_tryCatch.2 ((hx w h).mono (fun _ _ _ => id) fun e w' _ => hh e w')

theorem Keeps.discard (h : Keeps I x) : Keeps I (discard x) := fun w hw => ensures_discard.2 (h w hw)

theorem Keeps.mapM {as : List α} (h : ∀ a ∈ as, Keeps I (f a)) : Keeps I (as.mapM f) := by
  induction as with
  | nil => exact keeps_pure
  | cons a as ih =>
    rw [List.mapM_cons]
    refine (h a List.mem_cons_self).bind fun b => Keeps.bind (ih fun a mem => ?_) fun _ => keeps_pure
    exact h a (List.mem_cons_of_mem _ mem)

end FloatFlattening.Run
