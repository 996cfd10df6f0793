import FloatFlattening.Proofs.Confined
/-!
What a production leaves, stage by stage: the document is written in the scratch directory, and either comes
to its place from there or does not. In both cases the scratch directory is discarded.
-/

namespace FloatFlattening

open Disk Run

variable {tools : Toolchain} {s : Settings} {w : WorkingCopy} {c : Scratch} {world world' : World} {d d' : Disk}

theorem Settings.not_mem_inputStem (s : Settings) : '/' ∉ s.inputStem := by
  rw [inputStem, Path.stem?]
  cases named : Path.fileName? s.input with
  | none => decide
  | some name =>
    obtain ⟨rfl, -⟩ := Path.fileName?_eq_some named
    have plain := Path.not_mem_last (Path.trimEnd s.input)
    rw [Option.map_some, Option.getD_some, Path.splitName]
    split
    · exact fun mem => plain (List.mem_of_mem_take mem)
    · exact plain

namespace Production

/-- Where the document is written before it is placed. -/
def document (s : Settings) (w : WorkingCopy) : Text := Path.join w.root (s.inputStem ++ ".docx")

theorem under_document (sits : w.Sits c s) :
    Path.Under c.root (document s w) [s.inputStem ++ ".docx"] := by
  rw [document, ← sits.root]
  exact (Path.Under.refl c.root).file s.not_mem_inputStem (by decide) (by decide)

/-- The call for the document is for a file in the scratch directory. -/
theorem under_product (sits : w.Sits c s) {here : Text} {graphicsPaths : List Text} :
    let i := WordExport.call s here w.directory (s.inputStem ++ "_modified.tex") (document s w) graphicsPaths
    ∀ x ∈ i.product?, ∃ ms, ms ≠ [] ∧ Path.Under c.root (Path.join i.directory x) ms := by
  intro i x called
  have name : s.inputStem ++ "_modified.tex".toList ≠ "-o".toList := by
    intro same
    have length := congrArg List.length same
    have long : "_modified.tex".toList.length = 13 := by decide
    have short : "-o".toList.length = 2 := by decide
    rw [List.length_append, long, short] at length
    omega
  have product : i.product? = some (Path.absolute here (document s w)) :=
    Invocation.product?_eq_some rfl name
  rw [product] at called
  obtain rfl := Option.some.inj called
  have under := under_document sits
  have absolute : Path.isAbsolute (document s w) = true := by
    rw [under.start, sits.root]
    exact sits.absolute
  obtain ⟨top, names⟩ := Path.names_absolute here absolute
  have alone : Path.join i.directory (Path.absolute here (document s w)) = Path.absolute here (document s w) :=
    if_pos (.inl top)
  rw [alone]
  exact ⟨_, by simp, top.trans (absolute.symm.trans under.start), names.trans under.names, under.inside⟩

theorem ensures_written (confined : tools.Confined) (sits : w.Sits c s) (spared : c.Spared world)
    {graphicsPaths : List Text} :
    (writeDocument tools s w graphicsPaths (s.inputStem ++ "_modified.tex")).Ensures world
      (fun produced world' => c.Spared world' ∧ produced = document s w ∧
        isEmptyFile world'.disk produced = false ∧
          (∃ i, world'.calls.getLast? = some i ∧ i.program = s.programs.documentWriter) ∧
            ∃ response, world'.answers.getLast? = some (response, world'.disk))
      fun _ => c.Spared := by
  rw [writeDocument, ensures_bind, ensures_disk, ensures_bind, ensures_discard, ensures_call]
  let i := WordExport.call s world.disk.here.path w.directory (s.inputStem ++ "_modified.tex") (document s w)
    graphicsPaths
  have after : c.Spared (answered world i (tools.respond world.calls i world.disk)) :=
    spared.respond confined sits.directory (under_product sits)
  refine ⟨fun _ _ => ?_, fun _ _ => after⟩
  rw [ensures_bind, ensures_disk]
  split
  · exact after
  next some =>
    exact ⟨after, rfl, by simpa using some, ⟨_, List.getLast?_concat, rfl⟩, _, List.getLast?_concat⟩

/-- What is copied of a file that is not empty was there before directories were made. -/
theorem exists_content {x : Text} {content : Bytes} {executable : Bool} (ext : Extends d d')
    (filled : isEmptyFile d x = false) (found : d'.find? x = some (.file content executable)) :
    d.find? x = some (.file content executable) ∧ content ≠ [] := by
  rw [isEmptyFile] at filled
  split at filled
  · cases filled
  · cases filled
  next none empty =>
    obtain ⟨e, there⟩ := Option.ne_none_iff_exists'.1 none
    obtain rfl := Option.some.inj ((find?_extends ext there).symm.trans found)
    refine ⟨there, ?_⟩
    rintro rfl
    exact empty _ there

/-- A document that was written in the scratch directory has come to its place. -/
structure Delivered (s : Settings) (w : WorkingCopy) (c : Scratch) (world : World) (a d : Disk) (o l : Location)
    (content : Bytes) (executable : Bool) : Prop where
  spared : c.Holds a
  called : ∃ i, world.calls.getLast? = some i ∧ i.program = s.programs.documentWriter
  answered : ∃ response, world.answers.getLast? = some (response, a)
  produced : a.find? (document s w) = some (.file content executable)
  filled : content ≠ []
  paved : Paves (Path.parents s.output) a d
  moved : Moved s.output content executable d world.disk o l

/-- A document has not come to its place. -/
structure Refused (s : Settings) (c : Scratch) (a d d' : Disk) : Prop where
  spared : c.Holds a
  paved : Paves (Path.parents s.output) a d
  left : d' = d ∨ ∃ l, Undone s.output d d' l

theorem Refused.of_spared (h : c.Holds d) : Refused s c d d d := ⟨h, .refl, .inl rfl⟩

theorem ensures_delivered (confined : tools.Confined) (sits : w.Sits c s) (spared : c.Spared world)
    (noLink : ∀ d l t, Extends c.before d → d.locate false (beside s.output) = .ok l →
      d.entry? l ≠ some (.link t)) :
    (inCopy tools s w).Ensures world
      (fun _ world' => ∃ a d o l content executable, Delivered s w c world' a d o l content executable)
      fun _ world' => ∃ a d, Refused s c a d world'.disk := by
  -- Until the document is placed all happens in the scratch directory, wherever it breaks off.
  have stopped {world' : World} (h : c.Spared world') : ∃ a d, Refused s c a d world'.disk :=
    ⟨_, _, .of_spared h⟩
  rw [inCopy, ensures_bind, ensures_tell, ensures_bind, ensures_disk, ensures_bind, ensures_lift]
  refine ⟨fun m _ => ?_, fun _ _ => stopped spared⟩
  rw [ensures_bind, ensures_lift]
  refine ⟨fun o _ => ?_, fun _ _ => stopped spared⟩
  rw [ensures_bind, ensures_lift]
  refine ⟨fun n _ => ?_, fun _ _ => stopped spared⟩
  rw [ensures_bind, ensures_tell, ensures_bind, ensures_lift]
  refine ⟨fun blocks collected => ?_, fun _ _ => stopped spared⟩
  rw [ensures_bind, ensures_disk, ensures_bind, ensures_lift]
  refine ⟨fun _ _ => ?_, fun _ _ => stopped spared⟩
  rw [ensures_bind, ensures_tell, ensures_bind]
  have safe : ∀ b ∈ blocks, ∀ ch ∈ b.stem, Stem.isSafe ch := fun b mem => Block.safe_stem collected mem
  refine (Typesetting.keeps_blocks confined sits.figures safe _ ?_).mono (fun ps world₁ _ spared => ?_)
    fun _ _ _ => stopped
  · exact spared
  rw [ensures_bind, ensures_tell, ensures_bind, ensures_lift_failure]
  refine ⟨fun f _ => ?_, fun _ _ => stopped spared⟩
  rw [ensures_bind, ensures_change]
  refine ⟨fun d written => ?_, fun _ _ => stopped spared⟩
  have spared : c.Holds d := spared.write (sits.directory.file s.not_mem_inputStem (by decide) (by decide)) written
  rw [ensures_bind, ensures_tell, ensures_bind]
  refine (ensures_written confined sits ?_).mono (fun produced world₂ _ wrote => ?_) fun _ _ _ => stopped
  · exact spared
  obtain ⟨spared, rfl, some, called, response, answered⟩ := wrote
  have grown {d : Disk} (ext : Extends world₂.disk d) : Extends c.before d := spared.extends.trans ext
  rw [ensures_bind]
  refine (ensures_place fun d l t ext => noLink d l t (grown ext)).mono (fun _ world₃ _ placed => ?_)
    fun _ _ _ refused => ?_
  · obtain ⟨d, o, l, content, executable, paved, found, moved, calls, answers⟩ := placed
    rw [ensures_bind, ensures_tell, ensures_pure]
    obtain ⟨produced, filled⟩ := exists_content paved.deepens.1.extends some found
    exact ⟨world₂.disk, d, o, l, content, executable, spared, calls ▸ called, ⟨response, answers ▸ answered⟩,
      produced, filled, paved, moved⟩
  · obtain ⟨d, paved, left⟩ := refused
    exact ⟨world₂.disk, d, spared, paved, left⟩

/-- The directories that are made for the scratch directory. -/
def scratchWays (s : Settings) (world : World) : List Text :=
  s.scratchParent.getD world.temporary :: Path.parents (s.scratchParent.getD world.temporary)

theorem ensures_ended (sound : world.disk.Sound) (confined : tools.Confined)
    (figures : Settings.isSingleName s.figureDirectory = true)
    (noLink : ∀ d l t, Extends world.disk d → d.locate false (beside s.output) = .ok l →
      d.entry? l ≠ some (.link t)) :
    (run tools s).Ensures world
      (fun _ world' => ∃ c w world₁ a d o l content executable,
        Paves (scratchWays s world) world.disk c.before ∧ w.Sits c s ∧
          Delivered s w c world₁ a d o l content executable ∧
            world' = { world₁ with disk := w.discarded world₁.disk })
      fun _ world' => Paves (scratchWays s world) world.disk world'.disk ∨
        ∃ (c : Scratch) (w : WorkingCopy) (a d d' : Disk), Paves (scratchWays s world) world.disk c.before ∧
          w.Sits c s ∧ Refused s c a d d' ∧ world'.disk = w.discarded d' := by
  rw [run, ensures_bind, ensures_disk, ensures_bind, ensures_lift]
  refine ⟨fun _ _ => ?_, fun _ _ => .inl .refl⟩
  rw [ensures_bind, ensures_tell, ensures_bind]
  refine (WorkingCopy.ensures_prepare ?_ figures).mono (fun w world₁ _ prepared => ?_)
    fun _ world₁ _ unprepared => ?_
  · exact sound
  · obtain ⟨c, paved, sits, holds⟩ := prepared
    have grown {d : Disk} (ext : Extends c.before d) : Extends world.disk d := paved.deepens.1.extends.trans ext
    rw [ensures_tryFinally]
    refine (ensures_delivered confined sits holds fun d l t ext => noLink d l t (grown ext)).mono
      (fun _ world₂ _ delivered => ?_) fun _ world₂ _ refused => ?_
    · obtain ⟨a, d, o, l, content, executable, delivered⟩ := delivered
      rw [WorkingCopy.ensures_discarded]
      exact ⟨c, w, world₂, a, d, o, l, content, executable, paved, sits, delivered, rfl⟩
    · obtain ⟨a, d, refused⟩ := refused
      rw [WorkingCopy.ensures_discarded]
      exact .inr ⟨c, w, a, d, world₂.disk, paved, sits, refused, rfl⟩
  · rcases unprepared with paved | ⟨c, w, d, paved, sits, holds, same⟩
    · exact .inl paved
    · exact .inr ⟨c, w, d, d, d, paved, sits, .of_spared holds, same⟩

end Production

end FloatFlattening
