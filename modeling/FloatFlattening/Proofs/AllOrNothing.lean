import FloatFlattening.Proofs.Delivery
import FloatFlattening.Proofs.Production
/-!
A production is all or nothing. If it fails, what is at the output is as before; if it succeeds, it is the
document that was left in the scratch directory. Nothing else changes, but for directories on the way.
-/

namespace FloatFlattening

open Disk Run

/-- Wherever a path comes to lead as directories are made, there is neither a link nor a device. -/
def Disk.Clear (d : Disk) (x : Text) : Prop :=
  ∀ d' l e, Extends d d' → d'.locate false x = .ok l → d.entry? l = some e →
    (∀ t, e ≠ .link t) ∧ e ≠ .device

theorem Disk.clear_of_entries {d : Disk} {x : Text}
    (none : ∀ entry ∈ d.entries, (∀ t, entry.2 ≠ .link t) ∧ entry.2 ≠ .device) : d.Clear x := by
  intro _ l e _ _ there
  by_cases root : l = []
  · subst root
    obtain rfl := Option.some.inj there
    exact ⟨nofun, nofun⟩
  · exact none _ (mem_entries root there)

namespace Production

/-- The directories that may be made. -/
def ways (s : Settings) (world : World) : List Text := scratchWays s world ++ Path.parents s.output

/-- What a production leaves that fails, with `d` the disk once directories are made. -/
structure Failed (s : Settings) (world : World) (scratch : Option Location) (d d' : Disk) : Prop where
  grown : Extends world.disk d
  /-- The scratch directory, if it comes to one, is made where nothing was. -/
  fresh : ∀ place ∈ scratch, ∀ below, world.disk.entry? (place ++ below) = none
  same : ∀ l e, world.disk.entry? l = some e →
    d'.entry? l = some e ∨ d.locate false (beside s.output) = .ok l ∧ d'.entry? l = none
  /-- In particular, no file is new at the output. -/
  new : ∀ l e, d'.entry? l = some e → world.disk.entry? l = some e ∨
    (∃ place ∈ scratch, place <+: l) ∨ e = .directory ∧ OnWay d (ways s world) l
  output : ∀ e, world.disk.find? s.output = some e → d'.find? s.output = some e
  discarded : s.keepScratch = false → ∀ place ∈ scratch, ∀ below, d'.entry? (place ++ below) = none

/-- What a production leaves that succeeds: at `o` the document, with `d` the disk once directories are made. -/
structure Succeeded (s : Settings) (world world' : World) (root : Text) (place : Location) (d : Disk)
    (o l : Location) (content : Bytes) (executable : Bool) : Prop where
  grown : Extends world.disk d
  fresh : ∀ below, world.disk.entry? (place ++ below) = none
  rooted : d.locate true root = .ok place
  located : d.locate false s.output = .ok o
  next : d.locate false (beside s.output) = .ok l
  called : ∃ i, world'.calls.getLast? = some i ∧ i.program = s.programs.documentWriter
  /-- The document is what the last program left in the scratch directory. -/
  written : ∃ response a, world'.answers.getLast? = some (response, a) ∧
    a.find? (Path.join root (s.inputStem ++ ".docx")) = some (.file content executable)
  filled : content ≠ []
  placed : ¬ place <+: o → world'.disk.entry? o = some (.file content executable)
  /-- It is found under the path of the output, unless that path leads through the scratch directory or
  through a link that the document took the place of. -/
  found : (∀ t, world.disk.entry? o ≠ some (.link t)) → (d.eraseTree place).locate false s.output = .ok o →
    world'.disk.find? s.output = some (.file content executable)
  gone : world'.disk.entry? l = none
  same : ∀ k e, k ≠ o → k ≠ l → world.disk.entry? k = some e → world'.disk.entry? k = some e
  new : ∀ k e, k ≠ o → world'.disk.entry? k = some e →
    world.disk.entry? k = some e ∨ place <+: k ∨ e = .directory ∧ OnWay d (ways s world) k
  /-- It is removed by its path, which may have led through a link that the document took the place of. -/
  discarded : s.keepScratch = false → ((∀ t, world.disk.entry? o ≠ some (.link t)) ∨
    (d.put o (.file content executable)).locate true root = .ok place) →
      ∀ below, world'.disk.entry? (place ++ below) = none

variable {tools : Toolchain} {s : Settings} {w : WorkingCopy} {c : Scratch} {world world' : World}
  {a d d' : Disk} {o l k : Location} {content : Bytes} {executable : Bool} {e : Entry}

/-- The disk `d` is ready for a document that is in the scratch directory of `a`. -/
structure Ready (s : Settings) (world : World) (c : Scratch) (a d : Disk) : Prop where
  above : Paves (scratchWays s world) world.disk c.before
  spared : c.Holds a
  paved : Paves (Path.parents s.output) a d

namespace Ready

variable (h : Ready s world c a d)
include h

theorem extends_spared : Extends a d := h.paved.deepens.1.extends

theorem grown : Extends world.disk d :=
  (h.above.deepens.1.extends.trans h.spared.extends).trans h.extends_spared

/-- Only directories are new outside the scratch directory. -/
theorem origin (there : d.entry? k = some e) :
    world.disk.entry? k = some e ∨ c.place <+: k ∨ e = .directory ∧ OnWay d (ways s world) k := by
  rcases h.paved.adds there with there | ⟨dir, on⟩
  · by_cases within : c.place <+: k
    · exact .inr (.inl within)
    · rw [h.spared.outside k within] at there
      refine (h.above.adds there).imp_right fun ⟨dir, on⟩ => .inr ⟨dir, ?_⟩
      exact ((on.extends h.spared.extends).extends h.extends_spared).mono (List.subset_append_left _ _)
  · exact .inr (.inr ⟨dir, on.mono (List.subset_append_right _ _)⟩)

theorem not_link (within : c.place <+: k) (t : Text) : d.entry? k ≠ some (.link t) := by
  intro there
  obtain ⟨below, rfl⟩ := within
  exact h.spared.noLink below t (h.extends_spared.links _ t there)

theorem fresh (below : Location) : world.disk.entry? (c.place ++ below) = none := by
  refine Option.eq_none_iff_forall_ne_some.2 fun e there => ?_
  have known := h.above.deepens.1.extends.keeps _ _ there
  rw [c.free] at known
  cases known

theorem outside (there : world.disk.entry? k = some e) : ¬ c.place <+: k := by
  rintro ⟨below, rfl⟩
  rw [h.fresh] at there
  cases there

theorem locate_root : d.locate true c.root = .ok c.place :=
  locate_extends h.extends_spared h.spared.locate_root

/-- A document is placed as a file, if not in the scratch directory. -/
theorem not_device (clear : world.disk.Clear (beside s.output)) (located : d.locate false s.output = .ok o)
    (proper : ¬ (Path.last s.output = [] ∨ Path.last s.output = ".")) (inside : Path.last s.output ≠ "..")
    (next : d.locate false (beside s.output) = .ok l) (out : ¬ c.place <+: o) :
    d.entry? l ≠ some .device := by
  intro device
  rcases h.origin device with there | within | ⟨dir, -⟩
  · exact (clear d l _ h.grown next there).2 rfl
  · obtain ⟨q, rfl, rfl⟩ := exists_directory located proper inside next
    rcases List.prefix_concat_iff.1 within with at_ | within
    · rw [← at_, h.extends_spared.keeps _ _ h.spared.dir] at device
      cases device
    · exact out (within.trans (List.prefix_append _ _))
  · cases dir

/-- A path that does not lead through the scratch directory does not lead to it. -/
theorem not_isPrefix (located : (d.eraseTree c.place).locate false s.output = .ok o)
    (proper : ¬ (Path.last s.output = [] ∨ Path.last s.output = ".")) (inside : Path.last s.output ≠ "..")
    (notDir : d.entry? o ≠ some .directory) : ¬ c.place <+: o := by
  intro within
  obtain ⟨-, -, q, -, -, dir, rfl⟩ := exists_locate_eq located proper inside
  rcases List.prefix_concat_iff.1 within with at_ | within
  · rw [← at_] at notDir
    exact notDir (h.extends_spared.keeps _ _ h.spared.dir)
  · exact (of_entry?_eraseTree c.place_ne_nil dir).2 within

/-- Names that do not lead through the scratch directory lead where they led when it is discarded. -/
theorem ways_discarded (root : ∀ q, d'.locate true w.root = .ok q → q = c.place) (ways : Ways d d') :
    Ways (d.eraseTree c.place) (w.discarded d') where
  here := WorkingCopy.here_discarded.trans ways.here
  dirs k dir := by
    obtain ⟨dir, out⟩ := of_entry?_eraseTree c.place_ne_nil dir
    rw [WorkingCopy.entry?_discarded root out]
    exact ways.dirs k dir
  kept k t there := by
    obtain ⟨there, out⟩ := of_entry?_eraseTree c.place_ne_nil there
    rw [WorkingCopy.entry?_discarded root out]
    exact ways.kept k t there
  links k t there := by
    have there := ways.links k t (WorkingCopy.of_entry?_discarded there)
    rw [entry?_eraseTree, if_neg fun within => h.not_link within.1 t there]
    exact there

end Ready

theorem failed_of_paves (paved : Paves (scratchWays s world) world.disk d) : Failed s world none d d where
  grown := paved.deepens.1.extends
  fresh := nofun
  same _ _ there := .inl (paved.deepens.1.extends.keeps _ _ there)
  new _ _ there := (paved.adds there).imp_right fun ⟨dir, on⟩ =>
    .inr ⟨dir, on.mono (List.subset_append_left _ _)⟩
  output _ found := find?_extends paved.deepens.1.extends found
  discarded := nofun

namespace Refused

theorem ways (h : Refused s c a d d') : Ways d d' := by
  rcases h.left with rfl | ⟨l, undone⟩
  · exact (Broadens.refl _).extends.ways
  · exact undone.ways

/-- All is as before but for the file beside the output, which is gone. -/
theorem same_or_gone (h : Refused s c a d d') (k : Location) : d'.entry? k = d.entry? k ∨
    d.locate false (beside s.output) = .ok k ∧ (∀ e, d.entry? k = some e → e.isLeaf = true) ∧
      d'.entry? k = none := by
  rcases h.left with rfl | ⟨l, undone⟩
  · exact .inl rfl
  · by_cases at_ : k = l
    · subst at_
      exact .inr ⟨undone.next, undone.leaf, undone.gone⟩
    · exact .inl (undone.same k at_)

theorem eq_of_locate_root (h : Refused s c a d d') (ready : Ready s world c a d)
    (located : d'.locate true c.root = .ok l) : l = c.place := by
  refine ready.spared.eq_of_locate_root ready.extends_spared (h.ways.narrows fun k dir => ?_) located
  rcases h.same_or_gone k with same | ⟨-, -, gone⟩
  · rwa [← same]
  · simp [gone] at dir

/-- What is found at the output stays there. -/
theorem output (h : Refused s c a d d') (sound : world.disk.Sound) (ready : Ready s world c a d)
    (located : world.disk.locate true s.output = .ok o) (there : world.disk.entry? o = some e) :
    d'.entry? o = some e := by
  have known := ready.grown.keeps o e there
  rcases h.left with rfl | ⟨l, undone⟩
  · exact known
  by_cases at_ : o = l
  · -- Only a directory keeps the document from its place, and what is gone was none.
    subst at_
    have dir : e = .directory := by
      rcases undone.unfit o e (locate_extends ready.grown located) known with dir | up
      · exact dir
      · have dir := sound.dir_of_last_up located up
        exact Option.some.inj (there.symm.trans dir)
    subst dir
    cases undone.leaf _ known
  · rwa [undone.same o at_]

theorem failed (h : Refused s c a d d') (sits : w.Sits c s) (sound : world.disk.Sound)
    (ready : Ready s world c a d) : Failed s world (some c.place) d (w.discarded d') := by
  have root (q : Location) (located : d'.locate true w.root = .ok q) : q = c.place :=
    h.eq_of_locate_root ready (sits.root ▸ located)
  have same (k : Location) (e : Entry) (there : world.disk.entry? k = some e) :
      Disk.entry? (w.discarded d') k = some e ∨ d.locate false (beside s.output) = .ok k ∧
        e.isLeaf = true ∧ Disk.entry? (w.discarded d') k = none := by
    have known := ready.grown.keeps k e there
    rw [WorkingCopy.entry?_discarded root (ready.outside there)]
    rcases h.same_or_gone k with same | ⟨next, leaf, gone⟩
    · exact .inl (same.trans known)
    · exact .inr ⟨next, leaf e known, gone⟩
  have new (k : Location) (e : Entry) (there : Disk.entry? (w.discarded d') k = some e) : d.entry? k = some e := by
    have there := WorkingCopy.of_entry?_discarded there
    rcases h.same_or_gone k with same | ⟨-, -, gone⟩
    · rwa [← same]
    · simp [gone] at there
  have ways : Ways world.disk (w.discarded d') := by
    refine ⟨?_, fun k dir => ?_, fun k t there => ?_, fun k t there => ?_⟩
    · rw [WorkingCopy.here_discarded, h.ways.here, ready.grown.here]
    · exact (same k _ dir).resolve_right fun gone => by cases gone.2.1
    · exact (same k _ there).resolve_right fun gone => by cases gone.2.1
    · exact ready.grown.links k t (new k _ there)
  refine ⟨ready.grown, ?_, fun k e there => ?_, fun k e there => ?_, fun e found => ?_, fun notKept => ?_⟩
  · rintro _ ⟨⟩
    exact ready.fresh
  · exact (same k e there).imp_right fun gone => ⟨gone.1, gone.2.2⟩
  · refine (ready.origin (new k e there)).imp_right (.imp_left fun within => ?_)
    exact ⟨c.place, rfl, within⟩
  · obtain ⟨o, located, there⟩ := find?_eq_some.1 found
    refine find?_eq_some.2 ⟨o, locate_ways ways located, ?_⟩
    rw [WorkingCopy.entry?_discarded root (ready.outside there)]
    exact h.output sound ready located there
  · rintro _ ⟨⟩
    refine WorkingCopy.entry?_discarded_eq_none (sits.kept.trans notKept) ?_
    exact locate_ways h.ways (sits.root ▸ ready.locate_root)

end Refused

namespace Delivered

theorem succeeded {world₁ : World} (h : Delivered s w c world₁ a d o l content executable) (sits : w.Sits c s)
    (clear : world.disk.Clear (beside s.output)) (ready : Ready s world c a d) :
    Succeeded s world { world₁ with disk := w.discarded world₁.disk } c.root c.place d o l content
      executable := by
  have moved := h.moved
  have root (q : Location) (located : world₁.disk.locate true w.root = .ok q) : q = c.place :=
    ready.spared.eq_of_locate_root ready.extends_spared moved.narrows (sits.root ▸ located)
  have written : ¬ c.place <+: o → Disk.entry? (w.discarded world₁.disk) o = some (.file content executable) := by
    intro out
    rw [WorkingCopy.entry?_discarded root out]
    refine moved.placed.resolve_left fun device => ?_
    exact ready.not_device clear moved.located moved.proper moved.inside moved.next out device.1
  have kept {k : Location} {e : Entry} (ko : k ≠ o) (kl : k ≠ l) (there : d.entry? k = some e)
      (out : ¬ c.place <+: k) : Disk.entry? (w.discarded world₁.disk) k = some e := by
    rw [WorkingCopy.entry?_discarded root out, moved.same k ko kl, there]
  have new {k : Location} {e : Entry} (ko : k ≠ o) (there : Disk.entry? (w.discarded world₁.disk) k = some e) :
      d.entry? k = some e := by
    have there := WorkingCopy.of_entry?_discarded there
    by_cases kl : k = l
    · simp [kl, moved.gone] at there
    · rwa [← moved.same k ko kl]
  have noLink (none : ∀ t, world.disk.entry? o ≠ some (.link t)) (t : Text) : d.entry? o ≠ some (.link t) :=
    fun there => none t (ready.grown.links o t there)
  refine {
    grown := ready.grown, fresh := ready.fresh, rooted := ready.locate_root, located := moved.located
    next := moved.next, called := h.called, filled := h.filled, placed := written
    written := ?_, found := ?_, gone := ?_, same := ?_, new := ?_, discarded := ?_ }
  · obtain ⟨response, answered⟩ := h.answered
    refine ⟨response, a, answered, ?_⟩
    rw [sits.root]
    exact h.produced
  · intro none located
    have out := ready.not_isPrefix located moved.proper moved.inside moved.notDir
    have ways := ready.ways_discarded root (moved.ways (noLink none))
    refine find?_eq_some.2 ⟨o, locate_follow (locate_ways ways located) ?_, written out⟩
    simp [written out]
  · refine Option.eq_none_iff_forall_ne_some.2 fun e there => ?_
    have there := WorkingCopy.of_entry?_discarded there
    rw [moved.gone] at there
    cases there
  · intro k e ko kl there
    exact kept ko kl (ready.grown.keeps k e there) (ready.outside there)
  · intro k e ko there
    exact ready.origin (new ko there)
  · intro notKept led
    refine WorkingCopy.entry?_discarded_eq_none (sits.kept.trans notKept) ?_
    rcases led with none | led
    · exact locate_ways (moved.ways (noLink none)) (sits.root ▸ ready.locate_root)
    · exact locate_ways moved.ways_put (sits.root ▸ led)

end Delivered

/-- Programs that leave the same content in whatever file they are called for. -/
def leaving (content : Bytes) : Toolchain where
  respond _ i d := (.finished ⟨some 0, [], []⟩,
    match i.product? with
    | some x => (d.write (Path.join i.directory x) content).toOption.getD d
    | none => d)

theorem confined_leaving (content : Bytes) : (leaving content).Confined := by
  have changes (earlier : List Invocation) (i : Invocation) (d : Disk) :
      ((leaving content).respond earlier i d).2 = d ∨ ∃ x ∈ i.product?, ∃ l executable,
        d.locate true (Path.join i.directory x) = .ok l ∧ l ≠ [] ∧
          ((leaving content).respond earlier i d).2 = d.put l (.file content executable) := by
    rw [leaving]
    dsimp only
    split
    next x called =>
      cases written : d.write (Path.join i.directory x) content with
      | error => exact .inl rfl
      | ok d' =>
        obtain ⟨l, located, leaf, ⟨-, rfl⟩ | ⟨executable, rfl⟩⟩ := write_eq_ok written
        · exact .inl rfl
        · exact .inr ⟨x, called, l, executable, located, ne_root_of_leaf leaf, rfl⟩
    · exact .inl rfl
  refine ⟨fun earlier i d => ?_, fun earlier i d l changed => ?_, fun earlier i d l t there => ?_⟩
  · rcases changes earlier i d with same | ⟨_, -, _, _, -, -, same⟩ <;> rw [same]
    rfl
  · rcases changes earlier i d with same | ⟨x, called, k, _, located, ne, same⟩
    · exact absurd (by rw [same]) changed
    · rw [same, entry?_put ne] at changed
      have at_ : l = k := by
        by_contra other
        exact changed (if_neg other)
      exact .inr ⟨x, called, at_ ▸ located⟩
  · rcases changes earlier i d with same | ⟨_, -, k, _, -, ne, same⟩
    · rwa [same] at there
    · rw [same, entry?_put ne] at there
      split at there
      · cases there
      · exact there

def lone : World := worldOf [(["d", "main.tex"], texFile "x")]

/-- Some entry stands beside the output. -/
def beset (e : Entry) : World :=
  worldOf [(["d", "main.tex"], texFile "x"), (["d", "notes.txt"], texFile "keep"), (["d", "main.docx.tmp"], e)]

end Production

end FloatFlattening
