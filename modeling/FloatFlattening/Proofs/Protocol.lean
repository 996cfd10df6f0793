import FloatFlattening.Proofs.Conversation
import FloatFlattening.Proofs.Production
/-!
The protocol of a production: what has to be there before the first call, the order of the calls, and
what has to succeed before the document is asked for.
-/

namespace FloatFlattening

open Run

variable {tools : Toolchain} {s : Settings} {w : WorkingCopy} {world world' : World}

/-- What has been looked for has a file at one of its places. -/
theorem ImageFile.exists_of_check {o : Outline} {blocks : List Block} {d : Disk} {directory : Text}
    (h : check d directory o blocks = .ok ()) {path subject : Text}
    (mem : (path, subject) ∈ needed o blocks) :
    ∃ p ∈ candidates directory o.graphicsPaths path, d.isFile p = true := by
  rw [check] at h
  split at h
  next none =>
    have found := List.find?_eq_none.1 none _ mem
    obtain ⟨p, found⟩ := Option.ne_none_iff_exists'.1 (by simpa using found)
    exact ⟨p, List.mem_of_find?_eq_some found, List.find?_some found⟩
  · cases h

namespace Production

variable {m : Manuscript} {o : Outline} {n : Numbering} {blocks : List Block} {d : Disk}

theorem isFile_of_checkAssets (h : checkAssets s d = .ok ()) {asset : Asset} {path : Text}
    (mem : (asset, some path) ∈ assets s) : d.isFile path = true := by
  have ok := Except.forM_eq_ok_iff.1 h _ mem
  cases file : d.isFile path with
  | true => rfl
  | false =>
    simp only [Option.filter_some, file, Bool.not_false, if_true] at ok
    cases ok

/-- The images that need files: those of figures, and those of tables that are to be pictures. -/
inductive Needs (s : Settings) (o : Outline) (g : Graphic) : Prop
  | figure (f : Figure) (mem : f ∈ o.figures) (shown : g ∈ (Graphic.inSpan o.text f.body).found)
  | table (flat : s.flattenTables = true) (table : Table) (mem : table ∈ o.tables)
    (shown : g ∈ (Graphic.inSpan o.text table.body).found)

theorem exists_file_of_needs (outline : Outline.ofText m.text = .ok o)
    (collected : s.blocks o = .ok blocks) {directory : Text}
    (check : ImageFile.check d directory o blocks = .ok ()) {g : Graphic} (needs : Needs s o g) :
    ∃ p ∈ ImageFile.candidates directory o.graphicsPaths g.path, d.isFile p = true := by
  obtain ⟨subject, mem⟩ : ∃ subject, (g.path, subject) ∈ ImageFile.needed o blocks := by
    cases needs with
    | figure f mem shown =>
      rw [(Outline.reads_of_ofText outline).text, ← Outline.graphics_eq outline mem] at shown
      exact ⟨_, List.mem_append_left _ (List.mem_flatMap.2 ⟨f, mem, List.mem_map_of_mem shown⟩)⟩
    | table flat table mem shown =>
      rw [Settings.blocks, flat] at collected
      obtain ⟨b, hb, kind, images⟩ := Block.exists_block_of_table collected mem
      have path : g.path ∈ b.images.map Block.Image.path := images ▸ List.mem_map_of_mem shown
      obtain ⟨i, hi, eq⟩ := List.mem_map.1 path
      refine ⟨b.subject, List.mem_append_right _ (List.mem_flatMap.2 ⟨b, ?_, ?_⟩)⟩
      · exact List.mem_filter.2 ⟨hb, by simpa using kind⟩
      · exact List.mem_map.2 ⟨i, hi, by rw [eq]⟩
  exact ImageFile.exists_of_check check mem

/-- What holds of the settings, and where the copy is made, before work in it begins. -/
structure Begins (s : Settings) (world : World) (w : WorkingCopy) (copied : World) : Prop where
  assets : ∀ asset path, (asset, some path) ∈ assets s → world.disk.isFile path = true
  prepared : (WorkingCopy.prepare s).run { world with events := world.events ++ [.stage .preparing] } =
    .ok w copied

/-- What is found in a working copy before anything is called. -/
structure Finds (s : Settings) (w : WorkingCopy) (d : Disk) (m : Manuscript) (o : Outline)
    (n : Numbering) (blocks : List Block) : Prop where
  manuscript : Manuscript.ofPath d w.input = .ok m
  outline : Outline.ofText m.text = .ok o
  numbering : Numbering.ofOutline o = .ok n
  collected : s.blocks o = .ok blocks
  images : ∀ g, Needs s o g →
    ∃ p ∈ ImageFile.candidates w.directory o.graphicsPaths g.path, d.isFile p = true

/-- The call for the document; the paths of the settings begin in `here`. -/
def documentCall (s : Settings) (here : Text) (w : WorkingCopy) (o : Outline) : Invocation :=
  WordExport.call s here w.directory (s.inputStem ++ "_modified.tex")
    (Path.join w.root (s.inputStem ++ ".docx")) o.graphicsPaths

def blockCalls (s : Settings) (w : WorkingCopy) (blocks : List Block) : List Invocation :=
  blocks.flatMap (Typesetting.calls s w.figures)

/-- The calls of a production that comes to its end. -/
def calls (s : Settings) (here : Text) (w : WorkingCopy) (o : Outline) (blocks : List Block) :
    List Invocation :=
  blockCalls s w blocks ++ [documentCall s here w o]

/-- What a production in a working copy has called when it comes to its end. -/
inductive Ended (s : Settings) (w : WorkingCopy) (d : Disk) (world world' : World) : Prop
  | mk {m : Manuscript} {o : Outline} {n : Numbering} {blocks : List Block} {f : Flattened} {here : Text}
    (finds : Finds s w d m o n blocks)
    (flattened : Flattened.ofText m.text n blocks (Flattened.drawn s blocks) = .ok f)
    (done : world.Completes (calls s here w o blocks) world')

/-- What a production in a working copy has called when it fails. -/
inductive Stopped (s : Settings) (w : WorkingCopy) (d : Disk) (world world' : World) : Prop
  | reading (silent : world.Silent world')
  | typesetting {m : Manuscript} {o : Outline} {n : Numbering} {blocks : List Block}
    (finds : Finds s w d m o n blocks) (partly : world.Pursues (blockCalls s w blocks) world')
  | writing {m : Manuscript} {o : Outline} {n : Numbering} {blocks : List Block} {f : Flattened}
    {here : Text} (finds : Finds s w d m o n blocks)
    (flattened : Flattened.ofText m.text n blocks (Flattened.drawn s blocks) = .ok f)
    (partly : world.Pursues (calls s here w o blocks) world')

theorem Ended.stopped (h : Ended s w d world world') : Stopped s w d world world' := by
  obtain ⟨finds, flattened, done⟩ := h
  exact .writing finds flattened done.pursues

theorem Ended.extend {v v' : World} (before : v.Silent world) (h : Ended s w d world world')
    (after : world'.Silent v') : Ended s w d v v' := by
  obtain ⟨finds, flattened, done⟩ := h
  exact ⟨finds, flattened, before.completes_of done after⟩

theorem Stopped.extend {v v' : World} (before : v.Silent world) (h : Stopped s w d world world')
    (after : world'.Silent v') : Stopped s w d v v' := by
  cases h with
  | reading silent => exact .reading ((before.trans silent).trans after)
  | typesetting finds partly => exact .typesetting finds (before.pursues_of partly after)
  | writing finds flattened partly => exact .writing finds flattened (before.pursues_of partly after)

theorem quiet_place {produced output : Text} : Quiet (place produced output) := by
  have rest {fault : Text → Fault} {beside : Text} : Quiet (do
      Run.change fault (·.copy produced beside)
      try Run.change fault (·.rename beside output)
      catch e =>
        modify fun w : World => { w with disk := (w.disk.remove beside).toOption.getD w.disk }
        throw e) :=
    quiet_change.bind fun _ => quiet_change.tryCatch fun _ => quiet_modify.bind fun _ => quiet_throw
  rw [place]
  dsimp only
  split
  · exact quiet_makeDirectories.bind fun _ => rest
  · exact rest

theorem ensures_writeDocument (world : World) {graphicsPaths : List Text} {name : Text} :
    let i := WordExport.call s world.disk.here.path w.directory name
      (Path.join w.root (s.inputStem ++ ".docx")) graphicsPaths
    (writeDocument tools s w graphicsPaths name).Ensures world (fun _ => world.Completes [i])
      fun _ => world.Pursues [i] := by
  rw [writeDocument, ensures_bind, ensures_disk, ensures_bind]
  refine (follows_call.discard world).mono (fun _ world' _ done => ?_) fun _ _ _ => id
  rw [ensures_bind, ensures_disk]
  split
  · exact done.pursues
  · exact done

theorem ensures_inCopy : (inCopy tools s w).Ensures world (fun _ => Ended s w world.disk world)
    fun _ => Stopped s w world.disk world := by
  have silent {e : List Event} : world.Silent { world with events := e } := ⟨rfl, rfl⟩
  rw [inCopy, ensures_bind, ensures_tell, ensures_bind, ensures_disk, ensures_bind, ensures_lift]
  refine ⟨fun m manuscript => ?_, fun _ _ => .reading silent⟩
  rw [ensures_bind, ensures_lift]
  refine ⟨fun o outline => ?_, fun _ _ => .reading silent⟩
  rw [ensures_bind, ensures_lift]
  refine ⟨fun n numbering => ?_, fun _ _ => .reading silent⟩
  rw [ensures_bind, ensures_tell, ensures_bind, ensures_lift]
  refine ⟨fun blocks collected => ?_, fun _ _ => .reading silent⟩
  rw [ensures_bind, ensures_disk, ensures_bind, ensures_lift]
  refine ⟨fun _ check => ?_, fun _ _ => .reading silent⟩
  have finds : Finds s w world.disk m o n blocks :=
    ⟨manuscript, outline, numbering, collected, fun _ => exists_file_of_needs outline collected check⟩
  rw [ensures_bind, ensures_tell, ensures_bind]
  refine (Typesetting.follows_blocks blocks _).mono (fun ps world₁ run done => ?_)
    fun _ _ _ partly => .typesetting finds (silent.pursues_of partly (.refl _))
  have drawn := (ensures_iff.1 (Typesetting.returns_blocks blocks _)).1 ps world₁ run
  have typeset {d : Disk} {e : List Event} : world.Completes (blockCalls s w blocks)
      { world₁ with disk := d, events := e } := silent.completes_of done ⟨rfl, rfl⟩
  rw [ensures_bind, ensures_tell, drawn, ensures_bind, ensures_lift_failure]
  refine ⟨fun f flattened => ?_, fun _ _ => .typesetting finds typeset.pursues⟩
  rw [ensures_bind, ensures_change]
  refine ⟨fun d _ => ?_, fun _ _ => .typesetting finds typeset.pursues⟩
  rw [ensures_bind, ensures_tell, ensures_bind]
  refine (ensures_writeDocument _).mono (fun document world₂ _ wrote => ?_)
    fun _ _ _ partly => .writing finds flattened (typeset.then partly)
  have ended : Ended s w world.disk world world₂ := ⟨finds, flattened, typeset.trans wrote⟩
  rw [ensures_bind]
  refine (quiet_place.ensures world₂).mono (fun _ world₃ _ silent => ?_)
    fun _ _ _ silent => ended.stopped.extend (.refl _) silent
  exact ended.extend (.refl _) ⟨silent.calls, silent.answers⟩

theorem ensures_run : (run tools s).Ensures world
    (fun _ world' => ∃ w copied, Begins s world w copied ∧ Ended s w copied.disk world world')
    fun _ world' => world.Silent world' ∨
      ∃ w copied, Begins s world w copied ∧ Stopped s w copied.disk world world' := by
  rw [run, ensures_bind, ensures_disk, ensures_bind, ensures_lift]
  refine ⟨fun _ checked => ?_, fun _ _ => .inl (.refl _)⟩
  rw [ensures_bind, ensures_tell, ensures_bind]
  refine (WorkingCopy.quiet_prepare.ensures _).mono (fun w copied prepared silent => ?_)
    fun _ _ _ silent => .inl ⟨silent.calls, silent.answers⟩
  have begins : Begins s world w copied := ⟨fun _ _ => isFile_of_checkAssets checked, prepared⟩
  have silent : world.Silent copied := ⟨silent.calls, silent.answers⟩
  rw [ensures_tryFinally]
  refine ensures_inCopy.mono (fun _ world₂ _ ended => ?_) fun _ world₂ _ stopped => ?_
  · exact (WorkingCopy.quiet_discard.ensures world₂).mono
      (fun _ _ _ after => ⟨w, copied, begins, ended.extend silent after⟩)
      fun _ _ _ after => .inr ⟨w, copied, begins, ended.stopped.extend silent after⟩
  · exact (WorkingCopy.quiet_discard.ensures world₂).mono
      (fun _ _ _ after => .inr ⟨w, copied, begins, stopped.extend silent after⟩)
      fun _ _ _ after => .inr ⟨w, copied, begins, stopped.extend silent after⟩

/-- A path that leads into a directory. -/
def Inside (d : Disk) (directory path : Text) : Prop :=
  ∃ top, d.canonical directory = .ok top ∧ ∃ l, d.locate true path = .ok l ∧ top <+: l

instance (d : Disk) (directory path : Text) : Decidable (Inside d directory path) :=
  inferInstanceAs (Decidable (∃ _, _ = _ ∧ _))

/-- An image of a figure has no file in a directory from which it is looked for. -/
def Strays (d : Disk) (directory : Text) (o : Outline) : Prop :=
  ∃ f ∈ o.figures, ∃ g ∈ f.graphics,
    ∀ p ∈ ImageFile.candidates directory o.graphicsPaths g.path, d.isFile p = true → ¬ Inside d directory p

instance (d : Disk) (directory : Text) (o : Outline) : Decidable (Strays d directory o) :=
  inferInstanceAs (Decidable (∃ _ ∈ _, _))

/-- The image is in the directory for scratch work, outside the copy. -/
def straying : World :=
  worldOf [(["d", "main.tex"], texFile
      "\\begin\x7bfigure\x7d\\includegraphics\x7b../../a.png\x7d\\end\x7bfigure\x7d"),
    (["t", "a.png"], texFile "x")]

end Production

end FloatFlattening
