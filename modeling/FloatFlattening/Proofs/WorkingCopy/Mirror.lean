import FloatFlattening.Proofs.Confined
import FloatFlattening.Proofs.Disk.Tour
/-!
The working copy mirrors the directory of the document. It has the files of that directory, but for those in
directories that are left out; and as the scratch directory is one of these, it never has a copy of itself.
-/

namespace FloatFlattening

open Disk

namespace Disk

/-- The files below `target` are those of the directory `source` that are in no directory that is left out, as they
were before. -/
def Faithful (before after : Disk) (source target : Location) (excluded : List Location) : Prop :=
  ∀ below content executable, after.entry? (target ++ below) = some (.file content executable) ↔
    before.entry? (source ++ below) = some (.file content executable) ∧ ¬ Inside source excluded below

theorem Faithful.broadens {before after after' : Disk} {source target : Location} {excluded : List Location}
    (h : Faithful before after source target excluded) (broad : Broadens after after') :
    Faithful before after' source target excluded := fun below content executable =>
  broad.file_iff.trans (h below content executable)

end Disk

namespace WorkingCopy

variable {s : Settings} {w : WorkingCopy} {world world' : World} {parent : Text}

/-- The directory that the scratch directory is made in. -/
def temporary (s : Settings) (world : World) : Text := s.scratchParent.getD world.temporary

/-- The disk when the copying begins: the scratch directory is made, in its parent. -/
def Begun (s : Settings) (world : World) (w : WorkingCopy) (d : Disk) : Prop :=
  ∃ above, world.disk.makeDirectories (temporary s world) = .ok above ∧
    above.makeDirectory w.root = .ok d

/-- The working copy at `target` is a faithful mirror of the directory `source`. -/
structure Mirrored (s : Settings) (world : World) (w : WorkingCopy) (world' : World) (source target : Location)
    (excluded : List Location) : Prop where
  located : world'.disk.canonical s.sourceDirectory = .ok source
  placed : world'.disk.canonical w.directory = .ok target
  /-- The scratch directory is new. -/
  rooted : world'.disk.canonical w.root = .ok target.dropLast ∧ world.disk.entry? target.dropLast = none
  /-- What is left out, besides the directories of the known names. -/
  excludes (l : Location) : l ∈ excluded ↔
    world'.disk.canonical (temporary s world) = .ok l ∨ world'.disk.canonical w.root = .ok l
  parent : temporary s world ≠ [] →
    ∃ l, world'.disk.canonical (temporary s world) = .ok l
  figures : world'.disk.isDirectory w.figures = true
  /-- Where the copy is in the directory, it has no copy of itself. -/
  apart : Settings.isSingleName s.figureDirectory = true → ∀ below, target = source ++ below →
    ∀ rest, world'.disk.entry? (target ++ (below ++ rest)) = none
  faithful : world.disk.Plain source → Faithful world.disk world'.disk source target excluded
  /-- A walk that copies one entry after the other ends too, whichever way it goes, and with the same files. -/
  walk : world.disk.Plain source → ∃ d, Begun s world w d ∧
    Ends source target excluded ⟨d, [[]]⟩ fun d' => Faithful world.disk d' source target excluded

theorem mem_excluded_iff {d : Disk} {l : Location} :
    l ∈ w.excluded parent d ↔ d.canonical parent = .ok l ∨ d.canonical w.root = .ok l := by
  have known (p : Text) : (d.canonical p).toOption = some l ↔ d.canonical p = .ok l := by
    cases d.canonical p <;> simp [Except.toOption]
  simp [WorkingCopy.excluded, known]

/-- What a working copy is filled from: the directory that its document is in is copied into the scratch directory,
and the document is in the copy. -/
structure Filling (s : Settings) (world : World) (w : WorkingCopy) (world' : World) where
  scratch : Scratch
  begun : Disk
  source : Location
  name : Text
  copied : Disk
  sound : begun.Sound
  above : world.disk.makeDirectories (temporary s world) = .ok scratch.before
  made : scratch.before.makeDirectory w.root = .ok begun
  root : scratch.root = w.root
  holds : scratch.Holds begun
  directory : Path.Under scratch.root w.directory ["work"]
  document : Path.Under scratch.root w.input ["work", name]
  found : begun.canonical s.sourceDirectory = .ok source
  located : begun.locate true w.directory = .ok (scratch.place ++ ["work".toList])
  copies :
    let excluded := w.excluded (temporary s world) begun
    if begun.isLink s.sourceDirectory then
      begun.copyLinked source excluded (scratch.place ++ ["work".toList]) = .ok copied
    else begun.entry? source = some .directory ∧
      copied = begun.copyTree source excluded (scratch.place ++ ["work".toList])
  file : copied.isFile w.input = true
  figures : w.figures = Path.join w.directory s.figureDirectory
  paved : copied.makeDirectories w.figures = .ok world'.disk

theorem exists_filling (run : (prepare s).run world = .ok w world') (sound : world.disk.Sound) :
    Nonempty (Filling s world w world') := by
  obtain ⟨d, begun, above, made, ⟨base, fresh⟩, directory, input, figures, filled⟩ := prepare_eq_ok run
  obtain ⟨source, target, copied, found, located, copies, ⟨name, named⟩, file, paved⟩ := exists_copied filled
  obtain ⟨k, root⟩ := exists_freshScratch (fresh ▸ made)
  have trimmed : trimSlashes w.root = w.root := by
    rw [fresh, root]
    exact trimSlashes_join_scratchName base k
  obtain ⟨c, rfl, rooted, holds⟩ :=
    Scratch.exists_of_makeDirectory ((deepens_makeDirectories above).2 sound) trimmed made
  have under : Path.Under c.root w.directory ["work"] := by
    rw [directory, rooted]
    exact (Path.Under.refl w.root).join (by decide) (by decide) (by decide)
  have document : Path.Under c.root w.input ["work", name] := by
    obtain ⟨last, proper, inside⟩ := Path.fileName?_eq_some named
    rw [input, named, Option.getD_some]
    exact under.join (last ▸ Path.not_mem_last _) proper inside
  obtain rfl := holds.locate_eq under located
  exact ⟨{
    scratch := c, begun, source, name, copied, above, made, root := rooted, holds, directory := under, document, found
    located, copies, file, figures, paved
    sound := (deepens_makeDirectory made).2 ((deepens_makeDirectories above).2 sound) }⟩

namespace Filling

variable (f : Filling s world w world') {l : Location} {e : Entry}

def target : Location := f.scratch.place ++ ["work".toList]

def excluded : List Location := w.excluded (temporary s world) f.begun

/-- The disk with a copy of the whole directory. -/
def whole : Disk := f.begun.copyTree f.source f.excluded f.target

theorem dropLast_target : f.target.dropLast = f.scratch.place := List.dropLast_concat

include f in
theorem deepens : Deepens world.disk f.begun :=
  (deepens_makeDirectories f.above).trans (deepens_makeDirectory f.made)

theorem begun_eq : f.begun = f.scratch.before.put f.scratch.place .directory := by
  obtain ⟨l, -, none, eq⟩ := makeDirectory_eq_ok f.made
  have root := ne_root_of_none none
  have dir := f.holds.dir
  rw [eq, entry?_put root] at dir
  split at dir
  next same => rw [eq, same]
  · have free := f.scratch.free []
    rw [List.append_nil, dir] at free
    cases free

/-- The scratch directory is empty. -/
theorem nothing_below {below : Location} (ne : below ≠ []) : f.begun.entry? (f.scratch.place ++ below) = none := by
  rw [f.begun_eq, entry?_put f.scratch.place_ne_nil, if_neg (by simpa using ne)]
  exact f.scratch.free below

theorem free : f.begun.entry? f.target = none := f.nothing_below (by simp)

theorem holds_copied : f.scratch.Holds f.copied := by
  have copies := f.copies
  dsimp only at copies
  split at copies
  · exact (Copied.linked _ _ _ f.located copies).holds f.holds f.directory
  · obtain ⟨-, eq⟩ := copies
    rw [eq]
    exact (Copied.tree _ _ _ f.located).holds f.holds f.directory

/-- The document is in the copy. -/
theorem exists_document_copied : ∃ e, f.copied.entry? (f.target ++ [f.name]) = some e := by
  obtain ⟨e, found, -⟩ := isFile_eq_true.1 f.file
  obtain ⟨l, located, there⟩ := find?_eq_some.1 found
  rw [f.holds_copied.locate_eq f.document located] at there
  exact ⟨e, by rwa [target, List.append_assoc]⟩

/-- The copy is that of the whole directory, but for names that are not copied anyway. -/
theorem exists_left : ∃ names : List Text,
    (∀ name ∈ names,
      (f.begun.entry? (f.source ++ [name]) = some .directory → f.begun.isSkipped f.source f.excluded [name] = true) ∧
        ∀ content executable, f.begun.entry? (f.source ++ [name]) ≠ some (.file content executable)) ∧
      f.copied = names.foldl (fun d name => d.erase (f.target ++ [name])) f.whole := by
  have copies := f.copies
  dsimp only at copies
  split at copies
  · refine (copyLinked_eq_ok copies).resolve_left fun same => ?_
    obtain ⟨e, there⟩ := f.exists_document_copied
    rw [same, f.sound.nothing_below f.free] at there
    cases there
  · exact ⟨[], by simp, copies.2⟩

theorem of_entry?_copied (there : f.copied.entry? l = some e) :
    f.whole.entry? l = some e := by
  obtain ⟨names, -, eq⟩ := f.exists_left
  rw [eq, entry?_foldl_erase] at there
  split at there
  · cases there
  · exact there

/-- The document is in the directory. -/
theorem exists_document : ∃ e, f.begun.entry? (f.source ++ [f.name]) = some e := by
  obtain ⟨e, there⟩ := f.exists_document_copied
  rcases (entry?_copyTree f.sound f.free).1 (f.of_entry?_copied there) with ⟨none, -⟩ | ⟨-, -, e₀, there, -⟩
  · cases none
  · exact ⟨e₀, there⟩

theorem dir : f.begun.entry? f.source = some .directory := by
  obtain ⟨e, there⟩ := f.exists_document
  exact f.sound.above there (by simp)

theorem source_ne : f.source ≠ f.scratch.place := by
  intro same
  obtain ⟨e, there⟩ := f.exists_document
  rw [same, f.nothing_below (by simp)] at there
  cases there

theorem canonical_root : f.begun.canonical w.root = .ok f.scratch.place :=
  canonical_eq_ok_iff.2 ⟨f.root ▸ f.holds.locate_root, by rw [f.holds.dir]; rfl⟩

theorem place_mem_excluded : f.scratch.place ∈ f.excluded := mem_excluded_iff.2 (.inr f.canonical_root)

theorem plain (plain : world.disk.Plain f.source) : f.begun.Plain f.source := by
  intro below e there
  exact (f.deepens.1.adds _ e there).elim (plain below e) .inl

theorem copiable (plain : world.disk.Plain f.source) : Copiable f.begun f.source f.target f.excluded where
  sound := f.sound
  dir := f.dir
  free := f.free
  out := f.dropLast_target ▸ f.place_mem_excluded
  apart := f.dropLast_target ▸ f.source_ne
  plain := f.plain plain

/-- The copy is whole. -/
theorem entry?_copied (plain : world.disk.Plain f.source) (l : Location) :
    f.copied.entry? l = f.whole.entry? l := by
  obtain ⟨names, left, eq⟩ := f.exists_left
  rw [eq, entry?_foldl_erase]
  split
  next erased =>
    obtain ⟨name, mem, rfl⟩ := erased
    refine (Option.eq_none_iff_forall_ne_some.2 fun e there => ?_).symm
    obtain ⟨kept, there⟩ := (f.copiable plain).entry?_copy.1 there
    rcases f.plain plain [name] e there with rfl | ⟨content, executable, rfl⟩
    · have skipped := (left name mem).1 there
      simp [kept] at skipped
    · exact (left name mem).2 content executable there
  · rfl

theorem entry?_target : f.copied.entry? f.target = some .directory := by
  obtain ⟨names, -, eq⟩ := f.exists_left
  rw [eq, entry?_foldl_erase, if_neg (by simp)]
  exact entry?_copyTree_top f.sound f.free

/-- Nothing of what was there when the copying began is lost. -/
theorem extends_copied : Extends f.begun f.copied where
  here := f.holds_copied.here.trans f.holds.here.symm
  keeps l e there := by
    by_cases inside : f.scratch.place <+: l
    · obtain ⟨below, rfl⟩ := inside
      by_cases here : below = []
      · rw [here, List.append_nil, f.holds.dir] at there
        rw [here, List.append_nil, f.holds_copied.dir, there]
      · rw [f.nothing_below here] at there
        cases there
    · rw [f.holds_copied.outside l inside, ← f.holds.outside l inside, there]
  links l t there := by
    have out : ¬ f.scratch.place <+: l := by
      rintro ⟨below, rfl⟩
      exact f.holds_copied.noLink below t there
    rw [f.holds.outside l out, ← f.holds_copied.outside l out, there]

theorem ext : Extends f.begun world'.disk :=
  f.extends_copied.trans (deepens_makeDirectories f.paved).1.extends

theorem canonical_directory : world'.disk.canonical w.directory = .ok f.target := by
  refine canonical_eq_ok_iff.2 ⟨locate_extends f.ext f.located, ?_⟩
  rw [(deepens_makeDirectories f.paved).1.keeps _ _ f.entry?_target]
  rfl

theorem exists_canonical_parent (ne : temporary s world ≠ []) :
    ∃ l, f.begun.canonical (temporary s world) = .ok l := by
  have dir := isDirectory_of_makeDirectories f.above ne
  rw [isDirectory, decide_eq_true_eq] at dir
  obtain ⟨l, located, dir⟩ := find?_eq_some.1 dir
  exact ⟨l, canonical_extends (deepens_makeDirectory f.made).1.extends
    (canonical_eq_ok_iff.2 ⟨located, by rw [dir]; rfl⟩)⟩

/-- What is left out is the same when the working copy is prepared. -/
theorem excluded_eq : w.excluded (temporary s world) world'.disk = f.excluded := by
  rw [excluded, WorkingCopy.excluded, WorkingCopy.excluded]
  refine List.filterMap_congr fun p mem => ?_
  have known {l : Location} (found : f.begun.canonical p = .ok l) :
      (world'.disk.canonical p).toOption = (f.begun.canonical p).toOption := by
    rw [found, canonical_extends f.ext found]
  rcases List.mem_pair.1 mem with rfl | rfl
  · by_cases ne : temporary s world = []
    · rw [ne]
      rfl
    · obtain ⟨l, found⟩ := f.exists_canonical_parent ne
      exact known found
  · exact known f.canonical_root

include f in
theorem isDirectory_figures : world'.disk.isDirectory w.figures = true := by
  refine isDirectory_of_makeDirectories f.paved ?_
  rw [f.figures]
  exact Path.join_ne_nil (.inl (locate_eq_ok_iff.1 f.located).2.1)

/-- A copy of the directory has its files. -/
theorem faithful_of_copy (plain : world.disk.Plain f.source) {d : Disk}
    (same : ∀ l, d.entry? l = f.whole.entry? l) :
    Faithful world.disk d f.source f.target f.excluded := by
  intro below content executable
  rw [same, whole, (f.copiable plain).file_copy, f.deepens.1.file_iff]

theorem faithful (plain : world.disk.Plain f.source) :
    Faithful world.disk world'.disk f.source f.target f.excluded :=
  (f.faithful_of_copy plain (f.entry?_copied plain)).broadens (deepens_makeDirectories f.paved).1

theorem ends (plain : world.disk.Plain f.source) :
    Ends f.source f.target f.excluded ⟨f.begun, [[]]⟩ fun d => Faithful world.disk d f.source f.target f.excluded where
  acc := (f.copiable plain).walk.acc
  made _ visits stuck := f.faithful_of_copy plain ((f.copiable plain).walk.made _ visits stuck)

/-- The copy has no copy of itself. -/
theorem entry?_within (single : Settings.isSingleName s.figureDirectory = true) {below : Location}
    (inside : f.target = f.source ++ below) (rest : Location) :
    world'.disk.entry? (f.target ++ (below ++ rest)) = none := by
  obtain ⟨slash, proper, down⟩ := Settings.plain_of_isSingleName single
  have under : Path.Under f.scratch.root w.figures ["work", s.figureDirectory] := by
    rw [f.figures]
    exact f.directory.join slash proper down
  -- On the way from the directory down to its copy there is the scratch directory.
  obtain ⟨way, rfl, place⟩ : ∃ way, below = way ++ ["work".toList] ∧ f.scratch.place = f.source ++ way := by
    rcases below.eq_nil_or_concat with rfl | ⟨way, name, rfl⟩
    · have dir := f.dir
      rw [← f.source.append_nil, ← inside, f.free] at dir
      cases dir
    · rw [target, List.concat_eq_append, ← List.append_assoc] at inside
      obtain ⟨place, last⟩ := List.append_inj' inside rfl
      exact ⟨way, by rw [List.concat_eq_append, last], place⟩
  have ne : way ≠ [] := by
    rintro rfl
    exact f.source_ne (by rw [place, List.append_nil])
  refine Option.eq_none_iff_forall_ne_some.2 fun e there => ?_
  rcases f.holds_copied.entry?_paves under (paves_makeChain f.paved) there with there | ⟨ms, front, eq⟩
  · rcases (entry?_copyTree f.sound f.free).1 (f.of_entry?_copied there) with ⟨none, -⟩ | ⟨-, kept, -⟩
    · simp at none
    · refine isSkipped_eq_false_iff.1 kept way ne ⟨["work".toList] ++ rest, by simp⟩ ?_ (.inr ?_)
      · rw [← place, f.holds.dir]
      · exact place ▸ f.place_mem_excluded
  · have short := front.length_le
    have length := congrArg List.length eq
    have long := List.length_pos_of_ne_nil ne
    simp only [target, List.length_append, List.length_cons, List.length_nil] at short length
    omega

theorem mirrored : Mirrored s world w world' f.source f.target f.excluded where
  located := canonical_extends f.ext f.found
  placed := f.canonical_directory
  rooted := by
    rw [dropLast_target]
    refine ⟨canonical_extends f.ext f.canonical_root, Option.eq_none_iff_forall_ne_some.2 fun e there => ?_⟩
    have free := f.scratch.free []
    rw [List.append_nil, (deepens_makeDirectories f.above).1.keeps _ _ there] at free
    cases free
  excludes l := by rw [← f.excluded_eq, mem_excluded_iff]
  parent ne := by
    obtain ⟨l, found⟩ := f.exists_canonical_parent ne
    exact ⟨l, canonical_extends f.ext found⟩
  figures := f.isDirectory_figures
  apart single _ inside rest := f.entry?_within single inside rest
  faithful := f.faithful
  walk plain := ⟨f.begun, ⟨_, f.above, f.made⟩, f.ends plain⟩

end Filling

/-- The directory for scratch work is in that of the document. -/
def nested : World where
  disk := ⟨[(["d"], .directory), (["d", "main.tex"], .file (Text.toBytes "x") false), (["d", "t"], .directory),
    (["d", "t", "main.tex"], .file (Text.toBytes "y") false), (["d", "a"], .directory),
    (["d", "a", "b.png"], .file (Text.toBytes "z") false)], []⟩
  temporary := "/d/t"

def nestedSettings : Settings := { input := "/d/main.tex", output := "/d/main.docx" }

theorem plain_nested : nested.disk.Plain ["d"] := by
  intro below e there
  have mem := mem_entries (by simp) there
  simp only [nested, List.mem_cons, List.not_mem_nil, or_false, Prod.mk.injEq] at mem
  rcases mem with h | h | h | h | h | h <;> simp [h.2]

end WorkingCopy

end FloatFlattening
