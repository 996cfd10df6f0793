import FloatFlattening.Proofs.Disk.Mirror
import FloatFlattening.Proofs.Run
/-!
What is on the disk when a working copy is prepared: the scratch directory is new, and in it the
directory of the document is mirrored.
-/

namespace FloatFlattening.WorkingCopy

open Disk

variable {s : Settings} {w : WorkingCopy} {world world' : World} {parent : Text} {u : Unit}

/-- The directories that are not copied. -/
def excluded (w : WorkingCopy) (parent : Text) (d : Disk) : List Location :=
  [parent, w.root].filterMap fun p => (d.canonical p).toOption

/-- How a working copy is filled. -/
theorem exists_copied (h : (w.fill s parent).run world = .ok u world') :
    ∃ source target copied, world.disk.canonical s.sourceDirectory = .ok source ∧
      world.disk.locate true w.directory = .ok target ∧
        (if world.disk.isLink s.sourceDirectory then
            world.disk.copyLinked source (w.excluded parent world.disk) target = .ok copied
          else world.disk.entry? source = some .directory ∧
            copied = world.disk.copyTree source (w.excluded parent world.disk) target) ∧
          (∃ name, Path.fileName? s.input = some name) ∧ copied.isFile w.input = true ∧
            copied.makeDirectories w.figures = .ok world'.disk := by
  have tail {d : Disk} (h : (show Run Unit from do
      if (Path.fileName? s.input).isNone then
        Run.fail (.invalidSettings ("input '" ++ s.input ++ "' has no file name"))
      if !(← Run.disk).isFile w.input then Run.fail (.missingAsset .document s.input none)
      Run.makeDirectories (.workspace w.figures) w.figures).run { world with disk := d } = .ok u world') :
      (∃ name, Path.fileName? s.input = some name) ∧ d.isFile w.input = true ∧
        d.makeDirectories w.figures = .ok world'.disk := by
    split at h
    · exact absurd h Run.fail_bind_ne_ok
    next named =>
      obtain ⟨_, _, ⟨⟩, h⟩ := Run.bind_eq_ok_iff.1 h
      split at h
      · exact absurd h Run.fail_bind_ne_ok
      next file =>
        obtain ⟨d', made, rfl⟩ := Run.makeDirectories_eq_ok_iff.1 h
        exact ⟨Option.ne_none_iff_exists'.1 (by simpa using named), by simpa using file, made⟩
  rw [fill] at h
  obtain ⟨_, _, ⟨⟩, h⟩ := Run.bind_eq_ok_iff.1 h
  cases hs : world.disk.canonical s.sourceDirectory with
  | error =>
    rw [hs] at h
    exact absurd h Run.fail_bind_ne_ok
  | ok source =>
  cases ht : world.disk.locate true w.directory with
  | error =>
    simp only [hs, ht, pure_bind] at h
    exact absurd h Run.fail_bind_ne_ok
  | ok target =>
  simp only [hs, ht, pure_bind] at h
  split at h
  next link =>
    split at h
    next copied linked =>
      obtain ⟨_, _, ⟨⟩, h⟩ := Run.bind_eq_ok_iff.1 h
      exact ⟨source, target, copied, rfl, rfl, by rw [if_pos link]; exact linked, tail h⟩
    · exact absurd h Run.fail_bind_ne_ok
  next noLink =>
    split at h
    next dir =>
      obtain ⟨_, _, ⟨⟩, h⟩ := Run.bind_eq_ok_iff.1 h
      exact ⟨source, target, _, rfl, rfl, by rw [if_neg noLink]; exact ⟨dir, rfl⟩, tail h⟩
    · exact absurd h Run.fail_bind_ne_ok

theorem fill_eq_ok (h : (w.fill s parent).run world = .ok u world')
    (noLink : world.disk.isLink s.sourceDirectory = false) :
    ∃ source target, world.disk.canonical s.sourceDirectory = .ok source ∧
      world.disk.locate true w.directory = .ok target ∧
        world.disk.entry? source = some .directory ∧
          let copied := world.disk.copyTree source (w.excluded parent world.disk) target
          copied.isFile w.input = true ∧ copied.makeDirectories w.figures = .ok world'.disk := by
  obtain ⟨source, target, copied, found, located, how, -, file, made⟩ := exists_copied h
  rw [noLink, if_neg Bool.false_ne_true] at how
  obtain ⟨dir, rfl⟩ := how
  exact ⟨source, target, found, located, dir, file, made⟩

/-- A copy of a directory at the place of the working copy. -/
inductive Copied (w : WorkingCopy) (d : Disk) : Disk → Prop
  | tree (source target : Location) (excluded : List Location)
      (located : d.locate true w.directory = .ok target) :
      Copied w d (d.copyTree source excluded target)
  | linked (source target : Location) (excluded : List Location)
      (located : d.locate true w.directory = .ok target) {d' : Disk}
      (copied : d.copyLinked source excluded target = .ok d') : Copied w d d'

/-- How far the filling of a working copy comes. -/
inductive Filled (w : WorkingCopy) (d : Disk) : Disk → Prop
  | not : Filled w d d
  | copied {d' : Disk} (copied : w.Copied d d') : Filled w d d'
  | figures {d' d'' : Disk} (copied : w.Copied d d') (made : d'.makeDirectories w.figures = .ok d'') :
      Filled w d d''
  | obstructed {d' : Disk} (copied : w.Copied d d') : Filled w d (d'.failedDirectories w.figures)

theorem ensures_fill : (w.fill s parent).Ensures world
    (fun _ world' => ∃ d, world' = { world with disk := d } ∧ w.Filled world.disk d)
    fun _ world' => ∃ d, world' = { world with disk := d } ∧ w.Filled world.disk d := by
  have tail {d : Disk} (copied : w.Copied world.disk d) : Run.Ensures (do
      if (Path.fileName? s.input).isNone then
        Run.fail (.invalidSettings ("input '" ++ s.input ++ "' has no file name"))
      if !(← Run.disk).isFile w.input then Run.fail (.missingAsset .document s.input none)
      Run.makeDirectories (.workspace w.figures) w.figures) { world with disk := d }
      (fun _ world' => ∃ d, world' = { world with disk := d } ∧ w.Filled world.disk d)
      fun _ world' => ∃ d, world' = { world with disk := d } ∧ w.Filled world.disk d := by
    dsimp only
    split
    · exact ⟨d, rfl, .copied copied⟩
    · rw [Run.ensures_bind, Run.ensures_disk]
      split
      · exact ⟨d, rfl, .copied copied⟩
      · exact Run.ensures_makeDirectories.2 ⟨fun d' made => ⟨d', rfl, .figures copied made⟩,
          fun _ _ => ⟨_, rfl, .obstructed copied⟩⟩
  rw [fill, Run.ensures_bind, Run.ensures_disk]
  dsimp only
  split
  · rw [pure_bind]
    split
    next target located =>
      rw [pure_bind]
      split
      · split
        next d copied => exact tail (.linked _ target _ located copied)
        · exact ⟨_, rfl, .not⟩
      · split
        · exact tail (.tree _ target _ located)
        · exact ⟨_, rfl, .not⟩
    · exact ⟨_, rfl, .not⟩
  · exact ⟨_, rfl, .not⟩

/-- How a working copy comes about: the scratch directory is made, then filled. -/
theorem prepare_eq_ok (h : (prepare s).run world = .ok w world') :
    let parent := s.scratchParent.getD world.temporary
    ∃ d d' : Disk, world.disk.makeDirectories parent = .ok d ∧ d.makeDirectory w.root = .ok d' ∧
      (∃ above, w.root = d.freshScratch above) ∧ w.directory = Path.join w.root "work" ∧
        w.input = Path.join w.directory ((Path.fileName? s.input).getD []) ∧
          w.figures = Path.join w.directory s.figureDirectory ∧
            (w.fill s parent).run { world with disk := d' } = .ok () world' := by
  rw [prepare] at h
  obtain ⟨_, _, ⟨⟩, h⟩ := Run.bind_eq_ok_iff.1 h
  obtain ⟨_, _, above, h⟩ := Run.bind_eq_ok_iff.1 h
  obtain ⟨d, deep, rfl⟩ := Run.makeDirectories_eq_ok_iff.1 above
  obtain ⟨_, _, ⟨⟩, h⟩ := Run.bind_eq_ok_iff.1 h
  obtain ⟨_, _, made, h⟩ := Run.bind_eq_ok_iff.1 h
  obtain ⟨d', new, rfl⟩ := Run.change_eq_ok_iff.1 made
  obtain ⟨_, _, filled, h⟩ := Run.bind_eq_ok_iff.1 h
  cases h
  refine ⟨d, d', deep, new, ⟨_, rfl⟩, rfl, rfl, rfl, Run.of_tryCatch filled ?_⟩
  intro e w₁ fine
  obtain ⟨_, _, -, fine⟩ := Run.bind_eq_ok_iff.1 fine
  cases fine

/-- The directory from which the names in a document are seen. -/
def base (s : Settings) : Text := (Path.parent? s.input).getD "."

/-- The copying that is done when a working copy is prepared. -/
structure Makes (s : Settings) (world : World) (w : WorkingCopy) (world' : World) (c : Copying) :
    Prop where
  run : (prepare s).run world = .ok w world'
  before : c.before = world.disk
  after : c.after = world'.disk
  base : c.base = base s
  source : world.disk.canonical s.sourceDirectory = .ok c.source
  copy : c.copy = w.directory
  target : world'.disk.canonical w.directory = .ok c.target
  excluded : c.excluded = w.excluded (s.scratchParent.getD world.temporary) world'.disk

variable {c : Copying} {d d' : Disk}

theorem excluded_subset (ext : Extends d d') : w.excluded parent d ⊆ w.excluded parent d' := by
  intro l mem
  obtain ⟨p, hp, found⟩ := List.mem_filterMap.1 mem
  refine List.mem_filterMap.2 ⟨p, hp, ?_⟩
  cases at_ : d.canonical p with
  | error => simp [at_, Except.toOption] at found
  | ok l' =>
    rw [at_] at found
    rw [canonical_extends ext at_]
    exact found

/-- The names of the document's path, and those of its directory. -/
theorem located_base {name : Text} (named : Path.fileName? s.input = some name) {source : Location}
    (found : d.canonical s.sourceDirectory = .ok source) (dir : d.entry? source = some .directory) :
    Located d (base s) source ∧ d.start s.input = d.start (base s) ∧
      Path.names s.input = Path.names (base s) ++ [name] := by
  obtain ⟨parent, hparent, names⟩ := Path.names_of_fileName? named
  have base_eq : base s = parent := by rw [base, hparent, Option.getD_some]
  rw [base_eq]
  obtain ⟨nul, -, -, m, leads⟩ := locate_eq_ok_iff.1 (canonical_eq_ok_iff.1 found).1
  have leads := leads.leading
  rw [← Path.names_eq] at leads
  rw [Settings.sourceDirectory, hparent] at nul leads
  rcases Path.parent?_cases hparent with ⟨rfl, relative⟩ | ⟨ne, same⟩
  · refine ⟨⟨by simp, dir, m, leads⟩, ?_, names⟩
    rw [start, relative]
    rfl
  · simp only [Option.filter_some, ne, ne_eq, not_false_eq_true, decide_true, if_true] at nul leads
    refine ⟨⟨nul, dir, m, leads⟩, ?_, names⟩
    rw [start, start, same]

theorem exists_fileName? (run : (prepare s).run world = .ok w world') :
    ∃ name, Path.fileName? s.input = some name := by
  obtain ⟨_, _, -, -, -, -, -, -, filled⟩ := prepare_eq_ok run
  obtain ⟨_, _, _, -, -, -, named, -⟩ := exists_copied filled
  exact named

theorem last_directory (run : (prepare s).run world = .ok w world') :
    Path.last w.directory = "work" := by
  obtain ⟨_, _, -, -, -, directory, -⟩ := prepare_eq_ok run
  rw [directory]
  exact Path.last_join _ (by decide)

/-- A document that can be read is in a directory. -/
theorem exists_source {name : Text} (named : Path.fileName? s.input = some name) {e : Entry}
    (read : d.find? s.input = some e) : ∃ source, d.canonical s.sourceDirectory = .ok source := by
  obtain ⟨parent, hparent, names⟩ := Path.names_of_fileName? named
  obtain ⟨l, located, -⟩ := find?_eq_some.1 read
  obtain ⟨nul, -, fits, m, leads⟩ := locate_eq_ok_iff.1 located
  have leads := leads.leading
  rw [← Path.names_eq, names] at leads
  obtain ⟨k, source, first, last⟩ := leads.split (.inl rfl)
  have dir : d.entry? source = some .directory := by
    cases last with
    | idle dir | up dir | down dir | link dir => exact dir
  have above := first.of_leading dir
  refine ⟨source, canonical_eq_ok_iff.2 ⟨?_, by rw [dir]; rfl⟩⟩
  rw [Settings.sourceDirectory, hparent]
  rcases Path.parent?_cases hparent with ⟨rfl, relative⟩ | ⟨ne, same⟩
  · rw [start, relative] at first
    have here : Leads d true maxLinks d.here (Path.leading (Path.pieces ".")) k source := first
    exact locate_eq_ok_iff.2 ⟨by decide, by decide, by decide, k, here.of_leading dir⟩
  · obtain ⟨rest, whole⟩ := Path.isPrefix_of_parent? hparent
    rw [start, ← same] at above
    simp only [Option.filter_some, ne, ne_eq, not_false_eq_true, decide_true, if_true]
    refine locate_eq_ok_iff.2 ⟨fun mem => nul ?_, ne, ?_, k, above⟩
    · rw [← whole]
      exact List.mem_append_left _ mem
    · rw [← whole, Text.byteSize_append] at fits
      omega

/-- In a prepared working copy there is a copy of the document's directory. -/
theorem exists_copyTree (run : (prepare s).run world = .ok w world') (tree : world.disk.Tree)
    (noLink : world.disk.isLink s.sourceDirectory = false) {source : Location}
    (found : world.disk.canonical s.sourceDirectory = .ok source) :
    ∃ (d : Disk) (target : Location), Deepens world.disk d ∧ d.entry? source = some .directory ∧
      d.entry? target = none ∧ world'.disk.canonical w.directory = .ok target ∧
        Broadens (d.copyTree source (w.excluded (s.scratchParent.getD world.temporary) d) target)
          world'.disk := by
  obtain ⟨d, d₁, above, made, -, directory, -, -, filled⟩ := prepare_eq_ok run
  have deep := (deepens_makeDirectories above).trans (deepens_makeDirectory made)
  have ext := deep.1.extends
  obtain ⟨source', target, found', at_, dir, -, figures⟩ :=
    fill_eq_ok filled ((isLink_extends ext found).trans noLink)
  simp only at found' at_ dir figures
  obtain rfl : source = source' := Except.ok.inj ((canonical_extends ext found).symm.trans found')
  have wider := (deepens_makeDirectories figures).1
  have free : d₁.entry? target = none := by
    rw [directory] at at_
    exact Sound.free_in_made ((deepens_makeDirectories above).2 tree.toSound) made (by decide)
      (by decide) (by decide) at_
  have ne := ne_root_of_none free
  have later := (extends_copyTree ne).trans wider.extends
  have top := wider.keeps _ _ (entry?_copyTree_top (deep.2 tree.toSound) free)
  exact ⟨d₁, target, deep, dir, free,
    canonical_eq_ok_iff.2 ⟨locate_extends later at_, by rw [top]; rfl⟩, wider⟩

/-- In a prepared working copy the document is there. -/
theorem exists_input (run : (prepare s).run world = .ok w world')
    (noLink : world.disk.isLink s.sourceDirectory = false) {source : Location}
    (found : world.disk.canonical s.sourceDirectory = .ok source) {name : Text}
    (named : Path.fileName? s.input = some name) :
    w.input = Path.join w.directory name ∧
      world'.disk.isFile (Path.join w.directory name) = true := by
  obtain ⟨d, d₁, above, made, -, -, input, -, filled⟩ := prepare_eq_ok run
  have ext := ((deepens_makeDirectories above).trans (deepens_makeDirectory made)).1.extends
  obtain ⟨_, _, -, -, -, file, figures⟩ :=
    fill_eq_ok filled ((isLink_extends ext found).trans noLink)
  simp only at figures file
  rw [named, Option.getD_some] at input
  obtain ⟨e, there, readable⟩ := isFile_eq_true.1 file
  rw [input] at there
  exact ⟨input, isFile_eq_true.2
    ⟨e, find?_extends (deepens_makeDirectories figures).1.extends there, readable⟩⟩

theorem exists_makes (run : (prepare s).run world = .ok w world') (tree : world.disk.Tree)
    (noLink : world.disk.isLink s.sourceDirectory = false) {source : Location}
    (found : world.disk.canonical s.sourceDirectory = .ok source) : ∃ c, Makes s world w world' c := by
  obtain ⟨-, target, -, -, -, at_, -⟩ := exists_copyTree run tree noLink found
  exact ⟨⟨_, _, _, source, _, target, _⟩, run, rfl, rfl, rfl, found, rfl, at_, rfl⟩

/-- In a prepared working copy the directory of the document is mirrored. -/
theorem Makes.mirrors (h : Makes s world w world' c) (tree : world.disk.Tree)
    (noLink : world.disk.isLink s.sourceDirectory = false) {name : Text}
    (named : Path.fileName? s.input = some name) : c.Mirrors := by
  obtain ⟨before, after, base, source, copy, target, excluded⟩ := c
  obtain ⟨run, rfl, rfl, rfl, found, rfl, at_, rfl⟩ := h
  simp only at found at_
  obtain ⟨d, target', deep, dir, free, at', wider⟩ := exists_copyTree run tree noLink found
  obtain rfl : target = target' := Except.ok.inj (at_.symm.trans at')
  have ne := ne_root_of_none free
  have later := (extends_copyTree ne).trans wider.extends
  have dir' : world.disk.entry? source = some .directory := by
    obtain ⟨e, there⟩ := Option.isSome_iff_exists.1 (canonical_eq_ok_iff.1 found).2
    rwa [← deep.1.keeps _ _ there, dir] at there
  have located' : Located world'.disk w.directory target := by
    obtain ⟨nul, -, -, m, leads⟩ := locate_eq_ok_iff.1 (canonical_eq_ok_iff.1 at_).1
    exact ⟨nul, wider.keeps _ _ (entry?_copyTree_top (deep.2 tree.toSound) free), m, leads.leading⟩
  exact Copying.mirrors_of_copyTree tree deep free (excluded_subset later) wider
    (located_base named found dir').1 located'

end FloatFlattening.WorkingCopy
