import FloatFlattening.Proofs.Numbering.Consistent
/-!
Numberings that come about by any requests in any order, those that are refused among them.
-/

namespace FloatFlattening

namespace Numbering

inductive Request
  | register (id : Text) (kind : Label.Kind) (parent : Option Text) (line : Nat)
  | reserve (figure : Text) (line : Nat)
  | registerAlias (id target : Text) (line : Nat)
  deriving DecidableEq, Repr

namespace Request

/-- The label that a request is for. -/
def id? : Request → Option Text
  | register id _ _ _ | registerAlias id _ _ => some id
  | reserve _ _ => none

/-- A request is answered with the tag of the label it is for. -/
def change : Request → Change (Option Tag)
  | register id kind parent line => some <$> Numbering.register id kind parent line
  | reserve figure line => do
    discard <| Numbering.reserve figure line
    return none
  | registerAlias id target line => some <$> Numbering.registerAlias id target line

end Request

/-- The numbering after some requests. What a request has changed before it was refused stays. -/
def afterAll (n : Numbering) (rs : List Request) : Numbering :=
  rs.foldl (fun n r => r.change.after n) n

variable {n n' : Numbering} {id figure : Text} {kind : Label.Kind} {line : Nat} {α β : Type}

open Change

theorem steps_map {x : Change α} (f : α → β) (h : Steps n (x.after n)) :
    Steps n ((f <$> x).after n) :=
  steps_bind (g := fun a => pure (f a)) h fun _ _ _ => steps_pure _ _

theorem Request.steps (r : Request) (n : Numbering) : Steps n (r.change.after n) := by
  cases r with
  | register id kind parent line => exact steps_map some (steps_register id kind parent line n)
  | reserve figure line =>
    apply steps_bind (steps_discard (steps_reserve figure line n))
    intro _ _ _
    exact steps_pure _ _
  | registerAlias id target line => exact steps_map some (steps_registerAlias id target line n)

theorem steps_afterAll (n : Numbering) (rs : List Request) : Steps n (n.afterAll rs) := by
  induction rs generalizing n with
  | nil => exact .refl
  | cons r rs ih => exact (r.steps n).trans (ih _)

/-- What a change returns is the tag that `id` has from then on. -/
def Names (id : Text) (n : Numbering) (x : Change Tag) : Prop :=
  ∀ tag n', x.run n = .ok tag n' → n'.resolve? id = some tag

theorem names_add {l : Label} (new : l.id ∉ n.ids) : Names l.id n (add l) := by
  rintro tag n' run
  cases run
  rw [resolve?, get?, List.find?_append]
  have absent : n.labels.find? (·.id = l.id) = none := get?_eq_none_iff.2 new
  rw [absent]
  simp

theorem names_bind {x : Change α} {g : α → Change Tag}
    (h : ∀ a n', x.run n = .ok a n' → Names id n' (g a)) : Names id n (x >>= g) := by
  intro tag n'' run
  rw [EStateM.run_bind] at run
  split at run
  next a n' run' => exact h a n' run' tag n'' run
  · cases run

theorem names_refuse (detail : Text) : Names id n (refuse line detail) := by
  rintro tag n' run
  cases run

theorem names_requireNew {k : Unit → Change Tag} (h : id ∉ n.ids → Names id n (k ())) :
    Names id n (requireNew id line >>= k) := by
  intro tag n' run
  cases found : n.get? id with
  | some first => simp [requireNew, found] at run
  | none =>
    have same : (requireNew id line >>= k).run n = (k ()).run n := by simp [requireNew, found]
    rw [same] at run
    exact h (get?_eq_none_iff.1 found) tag n' run

theorem ids_of_takeSeat {a : Nat × Nat} (run : (takeSeat figure line).run n = .ok a n') :
    n'.ids = n.ids := by
  rcases run_takeSeat figure line n with ⟨f, fails⟩ | ⟨l, -, -, seats⟩
  · rw [fails] at run
    cases run
  · rw [seats] at run
    cases run
    rfl

theorem eq_of_letterAt {position : Nat} {x : Char}
    (run : (letterAt figure position line).run n = .ok x n') : n' = n := by
  rw [letterAt] at run
  split at run <;> cases run
  rfl

theorem names_register (id : Text) (kind : Label.Kind) (parent : Option Text) (line : Nat)
    (n : Numbering) : Names id n (register id kind parent line) := by
  rw [register]
  split
  · cases parent with
    | none =>
      rw [registerPanel]
      exact names_requireNew fun _ => names_refuse _
    | some figure =>
      rw [registerPanel]
      apply names_requireNew
      intro new
      apply names_bind
      intro a n' seat
      apply names_bind
      intro x n'' letter
      obtain rfl := eq_of_letterAt letter
      apply names_add
      rwa [ids_of_takeSeat seat]
  · exact names_requireNew fun new => names_add new

theorem names_registerAlias (id target : Text) (line : Nat) (n : Numbering) :
    Names id n (registerAlias id target line) := by
  rw [registerAlias]
  apply names_requireNew
  intro new
  apply names_bind
  rintro a n' run
  cases run
  split
  · exact names_refuse _
  · exact names_add new

theorem Request.names (r : Request) {tag : Tag} (hid : r.id? = some id)
    (run : r.change.run n = .ok (some tag) n') : n'.resolve? id = some tag := by
  have answered {x : Change Tag} (h : Names id n x) (run : (some <$> x).run n = .ok (some tag) n') :
      n'.resolve? id = some tag := by
    change (x >>= fun a => pure (some a)).run n = _ at run
    rw [EStateM.run_bind] at run
    split at run
    next a n'' run' =>
      cases run
      exact h tag n' run'
    · cases run
  cases r with
  | register id kind parent line =>
    obtain rfl := Option.some.inj hid
    exact answered (names_register id kind parent line n) run
  | reserve figure line => cases hid
  | registerAlias id target line =>
    obtain rfl := Option.some.inj hid
    exact answered (names_registerAlias id target line n) run

theorem Steps.resolve? {tag : Tag} (h : Steps n n') (found : n.resolve? id = some tag) :
    n'.resolve? id = some tag := by
  obtain ⟨l, hl, rfl⟩ := Option.map_eq_some_iff.1 found
  rw [Numbering.resolve?, h.get? hl]
  rfl

/-- A panel that finds no letter left has taken its seat all the same. -/
example : ((empty.afterAll [.register ['f'] .figure none 1]).afterAll
    (List.replicate 27 (.reserve ['f'] 2))).seats.length = 27 := by decide +kernel

end Numbering

end FloatFlattening
