import FloatFlattening.Production
import FloatFlattening.Proofs.Block
import FloatFlattening.Proofs.Flattening.Dangling
import FloatFlattening.Proofs.Flattening.Unique
import FloatFlattening.Proofs.WorkingCopy
/-!
The calls of a production: for each block a page and a picture, then the document. They come in this
order, and none comes after one that did not succeed.
-/

namespace FloatFlattening

/-- The program ran and succeeded. -/
def Response.success : Response → Bool
  | finished o => o.success
  | _ => false

theorem Response.success_of_check {task : Task} {i : Invocation} {subject : Text} {r : Response}
    {o : Output} (h : check task i subject r = .ok o) : r.success = true := by
  cases r with
  | notFound | notStarted => cases h
  | finished o' =>
    rw [check] at h
    split at h
    next success => exact success
    · cases h

namespace World

/-- Between two worlds, these calls are made and answered. -/
structure Talks (w w' : World) (made : List Invocation) (heard : List (Response × Disk)) : Prop where
  calls : w'.calls = w.calls ++ made
  answers : w'.answers = w.answers ++ heard
  length : heard.length = made.length

/-- Between two worlds, no calls are made. -/
structure Silent (w w' : World) : Prop where
  calls : w'.calls = w.calls
  answers : w'.answers = w.answers

/-- Between two worlds, the calls of a plan are made, and all succeed. -/
def Completes (plan : List Invocation) (w w' : World) : Prop :=
  ∃ heard, w.Talks w' plan heard ∧ ∀ a ∈ heard, a.1.success = true

/-- Between two worlds, calls of a plan are made in order, and all but the last succeed. -/
def Pursues (plan : List Invocation) (w w' : World) : Prop :=
  ∃ made heard, w.Talks w' made heard ∧ made <+: plan ∧ ∀ a ∈ heard.dropLast, a.1.success = true

variable {v v' w w' w'' : World} {plan plan' made made' : List Invocation}
  {heard heard' : List (Response × Disk)}

theorem Silent.refl (w : World) : w.Silent w := ⟨rfl, rfl⟩

theorem Silent.trans (h : w.Silent w') (h' : w'.Silent w'') : w.Silent w'' :=
  ⟨h'.calls.trans h.calls, h'.answers.trans h.answers⟩

theorem Talks.refl (w : World) : w.Talks w [] [] := by
  constructor <;> simp

theorem Talks.trans (h : w.Talks w' made heard) (h' : w'.Talks w'' made' heard') :
    w.Talks w'' (made ++ made') (heard ++ heard') := by
  constructor
  · rw [h'.calls, h.calls, List.append_assoc]
  · rw [h'.answers, h.answers, List.append_assoc]
  · rw [List.length_append, List.length_append, h.length, h'.length]

theorem Silent.talks (h : w.Silent w') : w.Talks w' [] [] :=
  ⟨by simp [h.calls], by simp [h.answers], rfl⟩

theorem Silent.completes (h : w.Silent w') : w.Completes [] w' := ⟨[], h.talks, by simp⟩

theorem Completes.pursues (h : w.Completes plan w') : w.Pursues plan w' := by
  obtain ⟨heard, talks, success⟩ := h
  exact ⟨plan, heard, talks, List.prefix_refl plan,
    fun a ha => success a (List.mem_of_mem_dropLast ha)⟩

theorem Completes.trans (h : w.Completes plan w') (h' : w'.Completes plan' w'') :
    w.Completes (plan ++ plan') w'' := by
  obtain ⟨heard, talks, success⟩ := h
  obtain ⟨heard', talks', success'⟩ := h'
  exact ⟨_, talks.trans talks', List.forall_mem_append.2 ⟨success, success'⟩⟩

theorem Completes.then (h : w.Completes plan w') (h' : w'.Pursues plan' w'') :
    w.Pursues (plan ++ plan') w'' := by
  obtain ⟨heard, talks, success⟩ := h
  obtain ⟨made, heard', talks', isPrefix, success'⟩ := h'
  refine ⟨_, _, talks.trans talks', List.prefix_append_right_inj plan |>.2 isPrefix, fun a ha => ?_⟩
  by_cases last : heard' = []
  · rw [last, List.append_nil] at ha
    exact success a (List.mem_of_mem_dropLast ha)
  · rw [List.dropLast_append_of_ne_nil last] at ha
    rcases List.mem_append.1 ha with ha | ha
    · exact success a ha
    · exact success' a ha

theorem Silent.completes_of (h : v.Silent w) (done : w.Completes plan w') (h' : w'.Silent v') :
    v.Completes plan v' := by
  obtain ⟨heard, talks, success⟩ := done
  refine ⟨heard, ⟨?_, ?_, talks.length⟩, success⟩
  · rw [h'.calls, talks.calls, h.calls]
  · rw [h'.answers, talks.answers, h.answers]

theorem Silent.pursues_of (h : v.Silent w) (partly : w.Pursues plan w') (h' : w'.Silent v') :
    v.Pursues plan v' := by
  obtain ⟨made, heard, talks, isPrefix, success⟩ := partly
  refine ⟨made, heard, ⟨?_, ?_, talks.length⟩, isPrefix, success⟩
  · rw [h'.calls, talks.calls, h.calls]
  · rw [h'.answers, talks.answers, h.answers]

theorem Pursues.append (h : w.Pursues plan w') (plan' : List Invocation) :
    w.Pursues (plan ++ plan') w' := by
  obtain ⟨made, heard, talks, isPrefix, success⟩ := h
  exact ⟨made, heard, talks, isPrefix.trans (List.prefix_append plan plan'), success⟩

end World

namespace Run

variable {α β γ : Type} {x : Run α} {f : α → Run β} {plan plan' : List Invocation} {P : α → Prop}
  {R : β → Prop}

/-- A run that makes no calls. -/
def Quiet (x : Run α) : Prop :=
  ∀ calls answers, x.Keeps fun w => w.calls = calls ∧ w.answers = answers

/-- A run that makes the calls of a plan, until one does not succeed. -/
def Follows (plan : List Invocation) (x : Run α) : Prop :=
  ∀ w, x.Ensures w (fun _ => w.Completes plan) fun _ => w.Pursues plan

theorem Quiet.bind (hx : Quiet x) (hf : ∀ a, Quiet (f a)) : Quiet (x >>= f) :=
  fun calls answers => (hx calls answers).bind fun a => hf a calls answers

theorem quiet_pure {a : α} : Quiet (pure a) := fun _ _ => keeps_pure

theorem quiet_throw {e : Failure} : Quiet (throw e : Run α) := fun _ _ _ => id

theorem quiet_get : Quiet (get : Run World) := fun _ _ => keeps_get

theorem quiet_disk : Quiet disk := fun _ _ => keeps_disk

theorem quiet_tell {e : Event} : Quiet (tell e) := fun _ _ _ => id

theorem quiet_modify {d : World → Disk} :
    Quiet (modify fun w : World => { w with disk := d w } : Run PUnit) := fun _ _ _ => id

theorem quiet_change {fault : Text → Fault} {g : Disk → Except Disk.Obstacle Disk} :
    Quiet (change fault g) := fun _ _ _ h => ensures_change.2 ⟨fun _ _ => h, fun _ _ => h⟩

theorem quiet_makeDirectories {fault : Text → Fault} {p : Text} : Quiet (makeDirectories fault p) :=
  fun _ _ _ h => ensures_makeDirectories.2 ⟨fun _ _ => h, fun _ _ => h⟩

theorem Quiet.tryCatch {handle : Failure → Run α} (hx : Quiet x) (hh : ∀ e, Quiet (handle e)) :
    Quiet (tryCatch x handle) :=
  fun calls answers => (hx calls answers).tryCatch fun e => hh e calls answers

theorem Quiet.ensures (h : Quiet x) (w : World) :
    x.Ensures w (fun _ => w.Silent) fun _ => w.Silent :=
  (h _ _ w ⟨rfl, rfl⟩).mono (fun _ _ _ same => ⟨same.1, same.2⟩) fun _ _ _ same => ⟨same.1, same.2⟩

theorem Quiet.follows (h : Quiet x) : Follows [] x := fun w =>
  (h.ensures w).mono (fun _ _ _ silent => silent.completes) fun _ _ _ silent =>
    silent.completes.pursues

theorem Follows.bind (hx : Follows plan x) (hf : ∀ a, Follows plan' (f a)) :
    Follows (plan ++ plan') (x >>= f) := fun w =>
  ensures_bind.2 <| (hx w).mono
    (fun a w' _ done => (hf a w').mono (fun _ _ _ => done.trans) fun _ _ _ => done.then)
    fun _ _ _ partly => partly.append plan'

theorem Follows.discard (h : Follows plan x) : Follows plan (discard x) := fun w =>
  ensures_discard.2 (h w)

theorem follows_fail {e : Fault} : Follows plan (fail e : Run α) := fun w =>
  ensures_fail.2 ⟨[], [], World.Talks.refl w, List.nil_prefix, by simp⟩

theorem follows_call {tools : Toolchain} {task : Task} {subject : Text} {i : Invocation} :
    Follows [i] (call tools task subject i) := by
  intro w
  refine ensures_call.2 ⟨fun o ok => ⟨_, ⟨rfl, rfl, rfl⟩, ?_⟩,
    fun _ _ => ⟨_, _, ⟨rfl, rfl, rfl⟩, List.prefix_refl _, ?_⟩⟩
  · rintro _ ha
    rw [List.mem_singleton.1 ha]
    exact Response.success_of_check ok
  · simp

theorem Follows.mapM {p : α → List Invocation} (h : ∀ a, Follows (p a) (f a)) (as : List α) :
    Follows (as.flatMap p) (as.mapM f) := by
  induction as with
  | nil => exact quiet_pure.follows
  | cons a as ih =>
    rw [List.mapM_cons, List.flatMap_cons]
    refine (h a).bind fun b => ?_
    rw [← List.append_nil (as.flatMap p)]
    exact ih.bind fun bs => quiet_pure.follows

/-- A run that only returns what has `P`. -/
def Returns (P : α → Prop) (x : Run α) : Prop := ∀ w, x.Ensures w (fun a _ => P a) fun _ _ => True

theorem returns_pure {a : α} (h : P a) : Returns P (pure a) := fun _ => h

theorem returns_fail {e : Fault} : Returns P (fail e) := fun _ => trivial

theorem returns_fail_bind {e : Fault} : Returns R (fail e >>= f) := fun _ => trivial

theorem Returns.bind (hx : Returns P x) (hf : ∀ a, P a → Returns R (f a)) : Returns R (x >>= f) :=
  fun w => (hx w).bind fun a w' _ h => hf a h w'

theorem returns_bind (h : ∀ a, Returns R (f a)) : Returns R (x >>= f) := fun _ =>
  ensures_bind.2 (ensures_iff.2 ⟨fun a _ _ => h a _, fun _ _ _ => trivial⟩)

theorem Returns.mapM {g : β → γ} {k : α → γ} (h : ∀ a, Returns (fun b => g b = k a) (f a)) (as : List α) :
    Returns (fun bs => bs.map g = as.map k) (as.mapM f) := by
  induction as with
  | nil => exact returns_pure rfl
  | cons a as ih =>
    rw [List.mapM_cons]
    refine (h a).bind fun b hb => ih.bind fun bs hbs => returns_pure ?_
    rw [List.map_cons, List.map_cons, hb, hbs]

end Run

open Run

namespace Typesetting

variable {tools : Toolchain} {s : Settings} {o : Outline} {directory : Text}

/-- The calls that typeset a block. -/
def calls (s : Settings) (directory : Text) (b : Block) : List Invocation :=
  [pageCall s directory b, pictureCall s directory b]

theorem follows_block (total number : Nat) (b : Block) :
    Follows (calls s directory b) (block tools s o directory total number b) := by
  refine quiet_tell.follows.bind fun _ => quiet_change.follows.bind fun _ =>
    follows_call.discard.bind fun _ => quiet_disk.follows.bind fun d => ?_
  split
  · exact follows_fail
  · refine follows_call.discard.bind fun _ => quiet_disk.follows.bind fun d => ?_
    split
    · exact follows_fail
    · exact (quiet_tell.bind fun _ => quiet_pure).follows

theorem follows_blocks (bs : List Block) :
    Follows (bs.flatMap (calls s directory)) (blocks tools s o directory bs) := by
  have plan : bs.zipIdx.flatMap (fun a => calls s directory a.1) = bs.flatMap (calls s directory) := by
    rw [← List.flatMap_map, List.zipIdx_map_fst]
  rw [← plan]
  refine Follows.mapM ?_ bs.zipIdx
  rintro ⟨b, number⟩
  exact follows_block bs.length number b

theorem returns_block {total number : Nat} {b : Block} :
    Returns (fun p : Picture => p.replacement = ⟨number, s.markup b⟩)
      (block tools s o directory total number b) := by
  refine returns_bind fun _ => returns_bind fun _ => returns_bind fun _ => returns_bind fun d => ?_
  split
  · exact returns_fail_bind
  · refine returns_bind fun _ => returns_bind fun d => ?_
    split
    · exact returns_fail
    · exact returns_bind fun _ => returns_pure rfl

theorem returns_blocks (bs : List Block) :
    Returns (fun ps => ps.map Picture.replacement = Flattened.drawn s bs) (blocks tools s o directory bs) := by
  refine Returns.mapM ?_ bs.zipIdx
  rintro ⟨b, number⟩
  exact returns_block

end Typesetting

namespace WorkingCopy

variable {s : Settings} {w : WorkingCopy} {parent : Text}

theorem quiet_discard : Quiet w.discard := by
  rw [discard]
  split
  · refine quiet_disk.bind fun d => ?_
    split
    · exact quiet_modify
    · exact quiet_pure
  · exact quiet_pure

theorem quiet_fill {parent : Text} : Quiet (w.fill s parent) := by
  intro calls answers world same
  refine ensures_fill.mono ?_ ?_
  · rintro _ _ - ⟨d, rfl, -⟩
    exact same
  · rintro _ _ - ⟨d, rfl, -⟩
    exact same

theorem quiet_prepare : Quiet (prepare s) := by
  refine quiet_get.bind fun _ => quiet_makeDirectories.bind fun _ => quiet_disk.bind fun _ =>
    quiet_change.bind fun _ => Quiet.bind ?_ fun _ => quiet_pure
  exact quiet_fill.tryCatch fun e => quiet_discard.bind fun _ => quiet_throw

end WorkingCopy

end FloatFlattening
