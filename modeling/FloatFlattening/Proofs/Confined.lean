import FloatFlattening.Proofs.Placement
import FloatFlattening.Proofs.WorkingCopy
/-!
Programs that write only where they are called, and to the file that they are called for. With such
programs a production changes nothing but its scratch directory until the document is placed.
-/

namespace FloatFlattening

open Disk Run

/-- The file after the first `-o`. -/
def Invocation.product? (i : Invocation) : Option Text :=
  ((i.arguments.dropWhile (· ≠ ("-o" : Text))).drop 1).head?

/-- What programs change is below the directory of the call or is the file after `-o`. They write files and
make directories, and leave no links, through which others would write elsewhere. -/
structure Toolchain.Confined (tools : Toolchain) : Prop where
  here : ∀ earlier i d, (tools.respond earlier i d).2.here = d.here
  within : ∀ earlier i d l, Disk.entry? (tools.respond earlier i d).2 l ≠ d.entry? l →
    (∃ top, d.locate true i.directory = .ok top ∧ top <+: l ∧ l ≠ top) ∨
      ∃ x ∈ i.product?, d.locate true (Path.join i.directory x) = .ok l
  links : ∀ earlier i d l t, Disk.entry? (tools.respond earlier i d).2 l = some (.link t) →
    d.entry? l = some (.link t)

variable {tools : Toolchain} {c : Scratch} {d d' : Disk} {s : Settings} {w : WorkingCopy} {i : Invocation}
  {x : Text} {ns : List Text} {earlier : List Invocation}

theorem Invocation.product?_eq_none (before : List Text) (last : Text) (eq : i.arguments = before ++ [last])
    (absent : "-o".toList ∉ before) : i.product? = none := by
  have all : ∀ a ∈ before, decide (a ≠ "-o".toList) = true := fun a mem =>
    decide_eq_true fun same => absent (same ▸ mem)
  rw [product?, eq, List.dropWhile_append_of_pos all]
  by_cases same : last = "-o".toList
  · rw [List.dropWhile_cons_of_neg (by simpa using same)]
    rfl
  · rw [List.dropWhile_cons_of_pos (by simpa using same)]
    rfl

theorem Invocation.product?_eq_some {name : Text} {rest : List Text}
    (eq : i.arguments = name :: "-o".toList :: x :: rest) (ne : name ≠ "-o".toList) : i.product? = some x := by
  rw [product?, eq, List.dropWhile_cons_of_pos (by simpa using ne), List.dropWhile_cons_of_neg (by simp)]
  rfl

namespace Scratch

/-- Programs that are called in the scratch directory, for a file in it, change nothing outside. -/
theorem Holds.respond (h : c.Holds d) (confined : tools.Confined)
    (directory : Path.Under c.root i.directory ns)
    (product : ∀ x ∈ i.product?, ∃ ms, ms ≠ [] ∧ Path.Under c.root (Path.join i.directory x) ms) :
    c.Holds (tools.respond earlier i d).2 := by
  refine h.change (confined.here _ _ _) (fun l out => ?_) (confined.links earlier i d)
  by_contra changed
  refine out ?_
  rcases confined.within _ _ _ _ changed with ⟨top, located, ⟨rest, rfl⟩, below⟩ | ⟨x, called, located⟩
  · rw [h.locate_eq directory located] at below ⊢
    rw [List.append_assoc]
    refine ⟨List.prefix_append _ _, fun same => below ?_⟩
    obtain ⟨-, rfl⟩ := List.append_eq_nil_iff.1 (List.append_right_eq_self.1 same)
    exact List.append_nil _
  · obtain ⟨ms, ne, under⟩ := product x called
    rw [h.locate_eq under located]
    exact ⟨List.prefix_append _ _, fun same => ne (List.append_right_eq_self.1 same)⟩

/-- A world whose disk is as before outside the scratch directory. -/
def Spared (c : Scratch) (world : World) : Prop := c.Holds world.disk

theorem keeps_tell {e : Event} : Keeps c.Spared (tell e) := fun _ h => h

theorem keeps_change {fault : Text → Fault} {f : Disk → Except Obstacle Disk}
    (h : ∀ d d', c.Holds d → f d = .ok d' → c.Holds d') : Keeps c.Spared (Run.change fault f) := fun _ spared =>
  ensures_change.2 ⟨fun d' made => h _ d' spared made, fun _ _ => spared⟩

theorem keeps_call {task : Task} {subject : Text} (confined : tools.Confined)
    (directory : Path.Under c.root i.directory ns)
    (product : ∀ x ∈ i.product?, ∃ ms, ms ≠ [] ∧ Path.Under c.root (Path.join i.directory x) ms) :
    Keeps c.Spared (call tools task subject i) := by
  intro world spared
  have after : c.Holds (tools.respond world.calls i world.disk).2 := spared.respond confined directory product
  exact ensures_call.2 ⟨fun _ _ => after, fun _ _ => after⟩

end Scratch

open Scratch

namespace Typesetting

variable {o : Outline} {directory : Text} {b : Block} {extension : Text}

theorem option_ne (long : 2 < extension.length) : "-o".toList ≠ b.stem ++ extension := by
  intro same
  have length := congrArg List.length same
  have short : "-o".toList.length = 2 := by decide
  rw [short, List.length_append] at length
  omega

theorem option_ne_ofNat (n : Nat) : "-o".toList ≠ Text.ofNat n := by
  intro same
  have mem : '-' ∈ Text.ofNat n := same ▸ List.mem_cons_self
  have digit := Nat.isDigit_of_mem_toDigits (b := 10) (by decide) (by decide) mem
  exact absurd digit (by decide)

theorem slash_of_safe (safe : ∀ ch ∈ b.stem, Stem.isSafe ch) : '/' ∉ b.stem := fun mem =>
  absurd (safe _ mem) (by decide)

theorem keeps_block {total number : Nat} (confined : tools.Confined)
    (under : Path.Under c.root directory ns) (safe : ∀ ch ∈ b.stem, Stem.isSafe ch) :
    Keeps c.Spared (block tools s o directory total number b) := by
  have page : (pageCall s directory b).product? = none :=
    Invocation.product?_eq_none ["-interaction=nonstopmode", "-halt-on-error"] _ rfl (by decide)
  have picture : (pictureCall s directory b).product? = none := by
    refine Invocation.product?_eq_none
      ["-png", "-singlefile", "-r", Text.ofNat s.resolution, b.stem ++ ".pdf"] _ rfl ?_
    have resolution := option_ne_ofNat s.resolution
    have file : "-o".toList ≠ b.stem ++ ".pdf".toList := option_ne (by decide)
    simp only [List.mem_cons, List.not_mem_nil, or_false, not_or]
    exact ⟨by decide, by decide, by decide, resolution, file⟩
  refine keeps_tell.bind fun _ => Keeps.bind (keeps_change fun _ _ spared written => ?_) fun _ => Keeps.bind ?_ fun _ =>
    keeps_disk.bind fun d => ?_
  · exact spared.write (under.file (slash_of_safe safe) (by decide) (by decide)) written
  · exact (keeps_call confined under (by simp [page])).discard
  · split
    · exact keeps_fail
    · refine Keeps.bind (keeps_call confined under (by simp [picture])).discard fun _ => keeps_disk.bind fun d => ?_
      split
      · exact keeps_fail
      · exact keeps_tell.bind fun _ => keeps_pure

theorem keeps_blocks {bs : List Block} (confined : tools.Confined) (under : Path.Under c.root directory ns)
    (safe : ∀ b ∈ bs, ∀ ch ∈ b.stem, Stem.isSafe ch) : Keeps c.Spared (blocks tools s o directory bs) := by
  refine Keeps.mapM ?_
  rintro ⟨b, number⟩ mem
  exact keeps_block confined under (safe b (List.fst_mem_of_mem_zipIdx mem))

end Typesetting

theorem Settings.plain_of_isSingleName {name : Text} (h : isSingleName name = true) :
    '/' ∉ name ∧ ¬ (name = [] ∨ name = ".") ∧ name ≠ ".." := by
  simp only [isSingleName, Bool.and_eq_true, Bool.not_eq_true', decide_eq_true_eq, List.isEmpty_eq_false_iff,
    ne_eq] at h
  obtain ⟨⟨⟨⟨filled, plain⟩, -⟩, dot⟩, inside⟩ := h
  exact ⟨by simpa using plain, not_or.2 ⟨filled, dot⟩, inside⟩

theorem Settings.isSingleName_of_check (checked : s.check = .ok ()) :
    isSingleName s.figureDirectory = true := by
  obtain ⟨_, -, h⟩ := Except.bind_eq_ok_iff.1 checked
  obtain ⟨_, -, h⟩ := Except.bind_eq_ok_iff.1 h
  obtain ⟨_, single, -⟩ := Except.bind_eq_ok_iff.1 h
  cases named : isSingleName s.figureDirectory with
  | true => rfl
  | false =>
    rw [named] at single
    cases single

namespace WorkingCopy

/-- Where the paths of a working copy are in its scratch directory. -/
structure Sits (c : Scratch) (s : Settings) (w : WorkingCopy) : Prop where
  root : c.root = w.root
  absolute : Path.isAbsolute w.root = true
  directory : Path.Under c.root w.directory ["work"]
  figures : Path.Under c.root w.figures ["work", s.figureDirectory]
  kept : w.kept = s.keepScratch

/-- The disk when the scratch directory is discarded, unless it is kept. -/
def discarded (w : WorkingCopy) (d : Disk) : Disk :=
  if w.kept then d
  else
    match d.locate true w.root with
    | .ok l => d.eraseTree l
    | .error _ => d

theorem ensures_discarded {world : World} {Q : PUnit → World → Prop} {E : Failure → World → Prop} :
    Ensures w.discard world Q E ↔ Q ⟨⟩ { world with disk := w.discarded world.disk } := by
  rw [discard, discarded]
  cases w.kept with
  | true => rfl
  | false =>
    simp only [Bool.not_false, if_true, Bool.false_eq_true, if_false]
    rw [ensures_bind, ensures_disk]
    cases world.disk.locate true w.root <;> rfl

variable {l : Location} {e : Entry}

theorem here_discarded : (w.discarded d).here = d.here := by
  rw [discarded]
  split
  · rfl
  · split <;> rfl

theorem of_entry?_discarded (there : Disk.entry? (w.discarded d) l = some e) : d.entry? l = some e := by
  rw [discarded] at there
  split at there
  · exact there
  · split at there
    · rw [entry?_eraseTree] at there
      split at there
      · cases there
      · exact there
    · exact there

/-- Only the scratch directory is discarded, wherever its path leads. -/
theorem entry?_discarded (root : ∀ q, d.locate true w.root = .ok q → q = c.place) (out : ¬ c.place <+: l) :
    Disk.entry? (w.discarded d) l = d.entry? l := by
  rw [discarded]
  split
  · rfl
  · split
    next q located =>
      rw [root q located, entry?_eraseTree, if_neg fun within => out within.1]
    · rfl

theorem entry?_discarded_eq_none (notKept : w.kept = false) (located : d.locate true w.root = .ok c.place)
    (below : Location) : Disk.entry? (w.discarded d) (c.place ++ below) = none := by
  rw [discarded, notKept]
  simp only [Bool.false_eq_true, if_false, located]
  rw [entry?_eraseTree, if_pos]
  exact ⟨List.prefix_append _ _, List.append_ne_nil_of_left_ne_nil c.place_ne_nil _⟩

/-- Copying to the place of the working copy changes only what is in the scratch directory. -/
theorem Copied.holds (copied : w.Copied d d') (h : c.Holds d) (directory : Path.Under c.root w.directory ["work"]) :
    c.Holds d' := by
  have place {target : Location} (located : d.locate true w.directory = .ok target) :
      c.place <+: target ∧ target ≠ c.place := by
    rw [h.locate_eq directory located]
    exact ⟨List.prefix_append _ _, by simp⟩
  cases copied with
  | tree source target excluded located => exact h.copyTree (place located).1 (place located).2
  | linked source target excluded located copied =>
    have whole : c.Holds (d.copyTree source excluded target) := h.copyTree (place located).1 (place located).2
    have erased {d : Disk} (names : List Text) (h : c.Holds d) :
        c.Holds (names.foldl (fun d name => d.erase (target ++ [name])) d) := by
      induction names generalizing d with
      | nil => exact h
      | cons name names ih =>
        refine ih (h.erase ((place located).1.trans (List.prefix_append _ _)) fun same => ?_)
        have shorter := (place located).1.length_le
        rw [← same, List.length_append, List.length_singleton] at shorter
        omega
    rcases copyLinked_eq_ok copied with rfl | ⟨names, -, rfl⟩
    · exact h
    · exact erased names whole

theorem Sits.filled (sits : w.Sits c s) (h : c.Holds d) (filled : w.Filled d d') : c.Holds d' := by
  cases filled with
  | not => exact h
  | copied copied => exact copied.holds h sits.directory
  | figures copied made => exact (copied.holds h sits.directory).paves sits.figures (paves_makeChain made)
  | obstructed copied => exact (copied.holds h sits.directory).paves sits.figures (paves_failedChain _ _)

/-- A working copy is prepared in a scratch directory, or none is left of it. -/
theorem ensures_prepare {world : World} (sound : world.disk.Sound)
    (figures : Settings.isSingleName s.figureDirectory = true) :
    let parent := s.scratchParent.getD world.temporary
    (prepare s).Ensures world
      (fun w world' => ∃ c : Scratch, Paves (parent :: Path.parents parent) world.disk c.before ∧
        w.Sits c s ∧ c.Holds world'.disk)
      fun _ world' => Paves (parent :: Path.parents parent) world.disk world'.disk ∨
        ∃ (c : Scratch) (w : WorkingCopy) (d : Disk),
          Paves (parent :: Path.parents parent) world.disk c.before ∧ w.Sits c s ∧ c.Holds d ∧
            world'.disk = w.discarded d := by
  intro parent
  rw [prepare, ensures_bind, ensures_get, ensures_bind, ensures_makeDirectories]
  refine ⟨fun d made => ?_, fun _ _ => .inl (paves_failedChain _ _)⟩
  have paved := paves_makeChain made
  rw [ensures_bind, ensures_disk, ensures_bind, ensures_change]
  refine ⟨fun d' new => ?_, fun _ _ => .inl paved⟩
  dsimp only at new
  obtain ⟨k, root⟩ := exists_freshScratch new
  have trimmed : trimSlashes (d.freshScratch (if Path.isAbsolute parent then parent else Path.join d.here.path parent)) =
      d.freshScratch (if Path.isAbsolute parent then parent else Path.join d.here.path parent) := by
    rw [root]
    exact trimSlashes_join_scratchName _ k
  obtain ⟨c, rfl, rooted, holds⟩ := Scratch.exists_of_makeDirectory (paved.deepens.2 sound) trimmed new
  generalize c.before.freshScratch _ = root at *
  subst rooted
  have top := Path.Under.refl c.root
  have directory : Path.Under c.root (Path.join c.root "work") ["work"] :=
    top.join (by decide) (by decide) (by decide)
  obtain ⟨plain, proper, inside⟩ := Settings.plain_of_isSingleName figures
  have absolute : Path.isAbsolute c.root = true := by
    rw [root, Path.isAbsolute_join (Path.isAbsolute_of_not_mem (not_mem_scratchName k))]
    split
    next absolute => exact absolute
    next relative => exact Path.isAbsolute_join (eq_false_of_ne_true relative)
  have sits (input : Text) : Sits c s ⟨c.root, Path.join c.root "work", input,
      Path.join (Path.join c.root "work") s.figureDirectory, s.keepScratch⟩ :=
    ⟨rfl, absolute, directory, directory.join plain proper inside, rfl⟩
  dsimp only
  rw [ensures_bind, ensures_tryCatch]
  refine ensures_fill.mono (fun _ _ _ filled => ?_) fun _ _ _ filled => ?_
  · obtain ⟨d, rfl, filled⟩ := filled
    exact ⟨c, paved, sits _, (sits _).filled holds filled⟩
  · obtain ⟨d, rfl, filled⟩ := filled
    rw [ensures_bind, ensures_discarded]
    exact .inr ⟨c, _, d, paved, sits _, (sits _).filled holds filled, rfl⟩

end WorkingCopy

end FloatFlattening
