import FloatFlattening.Production
import FloatFlattening.Proofs.Manuscript
import FloatFlattening.Proofs.WorkingCopy
import FloatFlattening.Rehearsal
/-!
A survey tells what a production finds: the production reads the same document from its working copy.
-/

namespace FloatFlattening

open Disk

variable {tools : Toolchain} {s : Settings} {world world' : World} {p : Production} {v : Survey}
  {w : WorkingCopy} {d : Disk}

theorem Survey.ofSettings_eq_ok (h : Survey.ofSettings s d = .ok v) :
    ∃ m o n blocks, Manuscript.ofPath d s.input = .ok m ∧ Outline.ofText m.text = .ok o ∧
      Numbering.ofOutline o = .ok n ∧ s.blocks o = .ok blocks ∧ v.labels = n.labels ∧
        v.blocks.map Prod.snd = blocks.map (Block.summary s) := by
  obtain ⟨m, hm, h⟩ := Except.bind_eq_ok_iff.1 h
  obtain ⟨o, ho, h⟩ := Except.bind_eq_ok_iff.1 h
  obtain ⟨n, hn, h⟩ := Except.bind_eq_ok_iff.1 h
  obtain ⟨blocks, hb, h⟩ := Except.bind_eq_ok_iff.1 h
  obtain rfl := Except.ok.inj h
  exact ⟨m, o, n, blocks, hm, ho, hn, hb, rfl, List.map_map⟩

namespace Production

theorem inCopy_eq_ok (h : (inCopy tools s w).run world = .ok p world') :
    ∃ m o n blocks, Manuscript.ofPath world.disk w.input = .ok m ∧ Outline.ofText m.text = .ok o ∧
      Numbering.ofOutline o = .ok n ∧ s.blocks o = .ok blocks ∧ p.labels = n.labels ∧
        p.blocks = blocks.map (Block.summary s) := by
  rw [inCopy] at h
  obtain ⟨_, _, ⟨⟩, h⟩ := Run.bind_eq_ok_iff.1 h
  obtain ⟨_, _, ⟨⟩, h⟩ := Run.bind_eq_ok_iff.1 h
  obtain ⟨m, _, hm, h⟩ := Run.bind_eq_ok_iff.1 h
  obtain ⟨o, _, ho, h⟩ := Run.bind_eq_ok_iff.1 h
  obtain ⟨n, _, hn, h⟩ := Run.bind_eq_ok_iff.1 h
  obtain ⟨_, _, ⟨⟩, h⟩ := Run.bind_eq_ok_iff.1 h
  obtain ⟨blocks, _, hb, h⟩ := Run.bind_eq_ok_iff.1 h
  refine ⟨m, o, n, blocks, (Run.lift_eq_ok_iff.1 hm).1, (Run.lift_eq_ok_iff.1 ho).1,
    (Run.lift_eq_ok_iff.1 hn).1, (Run.lift_eq_ok_iff.1 hb).1, ?_⟩
  -- Whatever is drawn and written after that, it is these that are told of.
  iterate 11 obtain ⟨_, _, -, h⟩ := Run.bind_eq_ok_iff.1 h
  cases h
  exact ⟨rfl, rfl⟩

theorem run_eq_ok (h : (run tools s).run world = .ok p world') :
    ∃ w world₁ world₂, (WorkingCopy.prepare s).run
        { world with events := world.events ++ [.stage .preparing] } = .ok w world₁ ∧
      (inCopy tools s w).run world₁ = .ok p world₂ := by
  rw [run] at h
  obtain ⟨_, _, ⟨⟩, h⟩ := Run.bind_eq_ok_iff.1 h
  obtain ⟨_, _, assets, h⟩ := Run.bind_eq_ok_iff.1 h
  obtain ⟨-, rfl⟩ := Run.lift_eq_ok_iff.1 assets
  obtain ⟨_, _, ⟨⟩, h⟩ := Run.bind_eq_ok_iff.1 h
  obtain ⟨w, world₁, prepared, h⟩ := Run.bind_eq_ok_iff.1 h
  obtain ⟨world₂, produced⟩ := Run.of_tryFinally h
  exact ⟨w, world₁, world₂, prepared, produced⟩

/-- From a mirror of its directory, a document whose names are carried is read as it was. -/
theorem ofPath_mirror {c : Copying} (h : c.Mirrors) (base : c.base = WorkingCopy.base s)
    {name : Text} (named : Path.fileName? s.input = some name)
    (source : c.before.canonical s.sourceDirectory = .ok c.source)
    (copy : ¬ (Path.last c.copy = [] ∨ Path.last c.copy = "."))
    (file : c.after.isFile (Path.join c.copy name) = true)
    (carried : ∀ t, Manuscript.source c.before s.input = .ok t →
      ∀ x, Manuscript.Looks c.before c.base t.withoutComments x → c.Carries x)
    {m : Manuscript} (read : Manuscript.ofPath c.before s.input = .ok m) :
    ∃ m', Manuscript.ofPath c.after (Path.join c.copy name) = .ok m' ∧ m'.text = m.text := by
  obtain ⟨last, proper, inside⟩ := Path.fileName?_eq_some named
  have plain : '/' ∉ name := last ▸ Path.not_mem_last _
  obtain ⟨-, start, names⟩ := WorkingCopy.located_base named source h.located.dir
  rw [← base] at start names
  obtain ⟨t, main, expanded⟩ := Except.bind_eq_ok_iff.1 read
  obtain ⟨e, there⟩ := Manuscript.exists_find?_of_source main
  obtain ⟨e', there', readable⟩ := isFile_eq_true.1 file
  obtain rfl := h.find?_unique start names plain proper inside there there' readable
  obtain ⟨_, eq, main'⟩ := Manuscript.source_eq readable there there'
  obtain rfl := Except.ok.inj (main.symm.trans eq)
  rw [show (Path.parent? s.input).getD "." = c.base from base.symm] at expanded
  have alike : ∀ x, Manuscript.Looks c.before c.base t.withoutComments x →
      Disk.Alike c.before c.after c.base c.copy x :=
    fun x looks e readable => h.find?_eq_some_iff (carried t main x looks) looks.ne_nil readable
  obtain ⟨m', expanded', text⟩ := Manuscript.expand_alike alike expanded
  refine ⟨m', ?_, text⟩
  rw [Manuscript.ofPath, main', Except.ok_bind, Path.parent?_join copy plain proper]
  exact expanded'

/-- A world with a directory `d` for the document and a directory `t` for scratch work. -/
def worldOf (files : List (Location × Entry)) : World where
  disk := ⟨(["d"], .directory) :: (["t"], .directory) :: files, []⟩
  temporary := "/t"

def texFile (t : Text) : Entry := .file t.toBytes false

def settings : Settings := { input := "/d/main.tex", output := "/d/main.docx" }

/-- Only the document writer answers, and leaves a file. -/
def writer : Toolchain :=
  Rehearsal.toolchain [⟨"pandoc", none, [⟨"\x7bo\x7d", Text.toBytes "PK"⟩], .finished ⟨some 0, [], []⟩⟩]

def included : World :=
  worldOf [(["d", "main.tex"], texFile "\\input\x7ba.tex\x7d"), (["d", "a.tex"], texFile "\\label\x7bx\x7d")]

/-- Only the included file is looked for. -/
theorem looks_included {x : Text} (h : Manuscript.Looks included.disk (WorkingCopy.base settings)
    (Text.withoutComments "\\input\x7ba.tex\x7d") x) : x = "a.tex" := by
  have arguments : ((Command.all (Text.withoutComments "\\input\x7ba.tex\x7d")
      ["include", "input"]).found.map fun c => c.argument.trim) = ["a.tex".toList] := by decide +kernel
  have only {c : Command} (mem : c ∈ (Command.all (Text.withoutComments "\\input\x7ba.tex\x7d")
      ["include", "input"]).found) : c.argument.trim = "a.tex" := by
    have mem := List.mem_map_of_mem (f := fun c : Command => c.argument.trim) mem
    rw [arguments] at mem
    exact List.mem_singleton.1 mem
  cases h with
  | name mem => exact only mem
  | tex mem _ missing =>
    have there : included.disk.isFile (Path.join (WorkingCopy.base settings) "a.tex") = true := by
      decide +kernel
    rw [only mem, there] at missing
    cases missing
  | within mem found read then_ =>
    have file : Manuscript.file? included.disk (WorkingCopy.base settings) "a.tex" =
        some ("/d/a.tex" : Text) := by decide +kernel
    have body : Manuscript.source included.disk "/d/a.tex" = .ok ("\\label\x7bx\x7d" : Text) := by
      decide +kernel
    have nothing : (Command.all (Text.withoutComments "\\label\x7bx\x7d")
        ["include", "input"]).found = [] := by decide +kernel
    rw [only mem, file] at found
    cases found
    rw [body] at read
    cases read
    cases then_ with
    | name mem | tex mem | within mem =>
      rw [nothing] at mem
      cases mem

theorem carries_included {w : WorkingCopy} {world₁ : World} {c : Copying}
    (makes : WorkingCopy.Makes settings
      { included with events := included.events ++ [.stage .preparing] } w world₁ c) :
    c.Carries "a.tex" := by
  have tree : included.disk.Tree := by decide +kernel
  have named : Path.fileName? settings.input = some "main.tex".toList := by decide +kernel
  have mirrors := makes.mirrors tree (by decide +kernel) named
  obtain ⟨run, before, -, base, source, copy, -, -⟩ := makes
  have source : c.source = ["d".toList] := by
    have found : included.disk.canonical settings.sourceDirectory = .ok ["d".toList] := by
      decide +kernel
    exact Except.ok.inj (source.symm.trans found)
  have there : c.before.entry? (c.source ++ ["a.tex".toList]) =
      some (texFile "\\label\x7bx\x7d") := by
    rw [before, source]
    decide +kernel
  have directory : w.directory = "/t/tex2docx-000000/work" := by
    obtain ⟨w', outcome, eq⟩ : ∃ w', ((WorkingCopy.prepare settings).outcome
        { included with events := included.events ++ [.stage .preparing] }).1 = .ok w' ∧
          w'.directory = ("/t/tex2docx-000000/work" : Text) := by decide +kernel
    obtain rfl := Except.ok.inj ((Run.outcome_of_run run).symm.trans outcome)
    exact eq
  refine .relative (by decide) ?_ ?_ ?_ ?_
  · have pieces : Path.pieces "a.tex" = ["a.tex".toList] := by decide
    rw [pieces]
    refine .down (by decide) (by decide) ?_ (fun _ _ => rfl) .nil
    refine isSkipped_eq_false.2 fun k hk dir => ?_
    obtain rfl : k = 0 := by simpa using hk
    have file := mirrors.grows.keeps _ _ there
    rw [show List.take (0 + 1) ([] ++ ["a.tex".toList]) = ["a.tex".toList] from rfl, file] at dir
    cases dir
  · intro last t _ isLink
    rw [before] at isLink
    have mem := mem_entries (by simp [source]) isLink
    simp [included, worldOf, texFile] at mem
  · rw [base]
    decide
  · rw [copy, directory]
    decide

/-- What is in a directory that is not copied is surveyed, and not produced. -/
def skipping : World :=
  worldOf [(["d", "main.tex"], texFile "\\input\x7btarget/x\x7d"), (["d", "target"], .directory),
    (["d", "target", "x.tex"], texFile "\\label\x7ba\x7d")]

end Production

end FloatFlattening
