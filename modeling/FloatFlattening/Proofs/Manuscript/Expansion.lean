import FloatFlattening.Manuscript
import FloatFlattening.Proofs.List
import FloatFlattening.Proofs.Outline.Figure
import Mathlib.Data.List.Chain
import Mathlib.Logic.Relation
/-!
When a document can be put together from its files, and what it is then. A file is read as many levels deep as
it is included; so there is a document just if no chain of includes is too long, and all files on the way can
be read to their ends.
-/

namespace FloatFlattening

namespace Manuscript

variable {d : Disk} {base t p q name : Text} {c : Command} {cs : List Command} {depth last : Nat} {m : Manuscript}

/-- What a name leads to from a directory: its file, else the file with `.tex` after the name. -/
inductive Resolves (d : Disk) (base name : Text) : Text → Prop
  | direct (file : d.isFile (Path.join base name)) : Resolves d base name (Path.join base name)
  | tex (missing : d.isFile (Path.join base name) = false) (file : d.isFile (Path.join base (name ++ ".tex"))) :
    Resolves d base name (Path.join base (name ++ ".tex"))

theorem file?_eq_some_iff : file? d base name = some q ↔ name ≠ [] ∧ Resolves d base name q := by
  by_cases empty : name = []
  · simp [file?, empty]
  · have given : name.isEmpty = false := by simpa using empty
    simp only [file?, given, Bool.false_eq_true, if_false, List.find?_cons, List.find?_nil, ne_eq, empty,
      not_false_iff, true_and]
    constructor
    · intro found
      split at found
      next direct =>
        obtain rfl := Option.some.inj found
        exact .direct direct
      next missing =>
        split at found
        next file =>
          obtain rfl := Option.some.inj found
          exact .tex missing file
        next => cases found
    · rintro (file | ⟨missing, file⟩)
      · simp only [file]
      · simp only [missing, file]

/-- The includes of a text. -/
def commands (t : Text) : List Command := (Command.all t ["include", "input"]).found

/-- The file of an include. One without a name has none. -/
def Finds (d : Disk) (base : Text) (c : Command) (q : Text) : Prop :=
  c.argument.trim ≠ [] ∧ Resolves d base c.argument.trim q

/-- A file includes another. -/
def Includes (d : Disk) (base p q : Text) : Prop :=
  ∃ t, source d p = .ok t ∧ ∃ c ∈ commands t.withoutComments, Finds d base c q

/-- A file that can be read, none of whose includes is malformed. -/
def Whole (d : Disk) (p : Text) : Prop :=
  ∃ t, source d p = .ok t ∧ (Command.all t.withoutComments ["include", "input"]).stopped = none

/-- A text from a position on, with the includes that come there exchanged each for what its file becomes, or for
the placeholder where it has none. -/
inductive Expands (d : Disk) (base : Text) : Text → Nat → List Command → Manuscript → Prop
  | done {t : Text} {last : Nat} : Expands d base t last [] ⟨t.drop last, []⟩
  | missing {t : Text} {last : Nat} {c : Command} {cs : List Command} {m : Manuscript}
    (none : ∀ q, ¬ Finds d base c q) (later : Expands d base t c.span.stop cs m) :
    Expands d base t last (c :: cs) ⟨t.slice ⟨last, c.span.start⟩ ++ (placeholder c ++ m.text), m.includes⟩
  | file {t : Text} {last : Nat} {c : Command} {cs : List Command} {m inner : Manuscript} {q s : Text}
    (found : Finds d base c q) (read : source d q = .ok s)
    (within : Expands d base s.withoutComments 0 (commands s.withoutComments) inner)
    (later : Expands d base t c.span.stop cs m) :
    Expands d base t last (c :: cs)
      ⟨t.slice ⟨last, c.span.start⟩ ++ (inner.text ++ m.text), q :: (inner.includes ++ m.includes)⟩

/-- A file from which a document can be made with so many levels of includes. -/
def Expandable (d : Disk) (base : Text) (depth : Nat) (p : Text) : Prop :=
  ∃ t, source d p = .ok t ∧ ∃ m, expand d base depth t.withoutComments = .ok m

/-- What comes in the place of an include. -/
def exchanged (d : Disk) (base : Text) (expand : Command → Text → Except Fault Manuscript) (c : Command) :
    Except Fault (Span × Manuscript) :=
  match file? d base c.argument.trim with
  | none => return (c.span, ⟨placeholder c, []⟩)
  | some file => return (c.span, ← expand c file)

theorem assemble_eq_ok_iff {expand : Command → Text → Except Fault Manuscript} :
    assemble d base t expand = .ok m ↔
      ∃ parts, (Command.all t ["include", "input"]).stopped = none ∧
        List.Forall₂ (fun c part => exchanged d base expand c = .ok part) (commands t) parts ∧
          m = ⟨t.splice t.length 0 (parts.map fun (s, m) => (s, m.text)), parts.flatMap fun (_, m) => m.includes⟩ := by
  rw [assemble, Except.bind_eq_ok_iff]
  refine exists_congr fun parts => ?_
  rw [← and_assoc]
  exact and_congr Scan.traverse_eq_ok_iff ⟨fun eq => (Except.ok.inj eq).symm, fun eq => congrArg Except.ok eq.symm⟩

theorem exists_exchanged_iff {expand : Command → Text → Except Fault Manuscript} :
    (∃ part, exchanged d base expand c = .ok part) ↔ ∀ q, Finds d base c q → ∃ m, expand c q = .ok m := by
  simp only [Finds, ← file?_eq_some_iff]
  rw [exchanged]
  cases found : file? d base c.argument.trim with
  | none => simp [pure, Except.pure]
  | some q =>
    simp only [Option.some.injEq, forall_eq', Except.bind_eq_ok_iff]
    constructor
    · rintro ⟨_, m, expanded, -⟩
      exact ⟨m, expanded⟩
    · rintro ⟨m, expanded⟩
      exact ⟨_, m, expanded, rfl⟩

theorem exists_assemble_iff {expand : Command → Text → Except Fault Manuscript} :
    (∃ m, assemble d base t expand = .ok m) ↔ (Command.all t ["include", "input"]).stopped = none ∧
      ∀ c ∈ commands t, ∀ q, Finds d base c q → ∃ m, expand c q = .ok m := by
  simp only [assemble_eq_ok_iff, ← exists_exchanged_iff]
  constructor
  · rintro ⟨m, parts, whole, each, -⟩
    refine ⟨whole, fun c mem => ?_⟩
    obtain ⟨part, -, made⟩ := exists_right_of_forall₂ each mem
    exact ⟨part, made⟩
  · rintro ⟨whole, each⟩
    obtain ⟨parts, each⟩ := exists_forall₂ each
    exact ⟨_, parts, whole, each, rfl⟩

/-- A file is put together just if it is whole, and so is what comes in the places of those that it includes. -/
theorem exists_assemble_source_iff {expand : Text → Command → Text → Except Fault Manuscript} {P : Text → Prop}
    (each : ∀ t c q, (∃ m, expand t c q = .ok m) ↔ P q) :
    (∃ t, source d p = .ok t ∧ ∃ m, assemble d base t.withoutComments (expand t) = .ok m) ↔
      Whole d p ∧ ∀ q, Includes d base p q → P q := by
  simp only [exists_assemble_iff, each]
  constructor
  · rintro ⟨t, read, whole, found⟩
    refine ⟨⟨t, read, whole⟩, ?_⟩
    rintro q ⟨t', read', c, mem, finds⟩
    obtain rfl := Except.ok.inj (read.symm.trans read')
    exact found c mem q finds
  · rintro ⟨⟨t, read, whole⟩, included⟩
    exact ⟨t, read, whole, fun c mem q finds => included q ⟨t, read, c, mem, finds⟩⟩

/-- With no levels left, a file may include none. -/
theorem expandable_zero_iff : Expandable d base 0 p ↔ Whole d p ∧ ∀ q, ¬ Includes d base p q := by
  refine exists_assemble_source_iff (P := fun _ => False) fun _ _ _ => iff_false_intro ?_
  rintro ⟨m, expanded⟩
  cases expanded

/-- What a file includes takes one level less. -/
theorem expandable_succ_iff :
    Expandable d base (depth + 1) p ↔ Whole d p ∧ ∀ q, Includes d base p q → Expandable d base depth q := by
  refine exists_assemble_source_iff fun _ _ q => ?_
  simp only [Expandable, Except.bind_eq_ok_iff]
  constructor
  · rintro ⟨_, t, read, m, expanded, -⟩
    exact ⟨t, read, m, expanded⟩
  · rintro ⟨t, read, m, expanded⟩
    exact ⟨_, t, read, m, expanded, rfl⟩

/-- There is a document just if no chain of includes has too many levels, and all files on the way are whole. -/
theorem expandable_iff : Expandable d base depth p ↔
    (∀ files, List.IsChain (Includes d base) (p :: files) → files.length ≤ depth) ∧
      ∀ q, Relation.ReflTransGen (Includes d base) p q → Whole d q := by
  induction depth generalizing p with
  | zero =>
    rw [expandable_zero_iff]
    constructor
    · rintro ⟨whole, none⟩
      refine ⟨fun files chain => ?_, fun q reached => ?_⟩
      · cases files with
        | nil => exact Nat.le_refl _
        | cons q files => exact absurd (List.isChain_cons_cons.1 chain).1 (none q)
      · rcases reached.cases_head with rfl | ⟨r, first, -⟩
        · exact whole
        · exact absurd first (none r)
    · rintro ⟨short, whole⟩
      refine ⟨whole p .refl, fun q first => ?_⟩
      have := short [q] (List.isChain_pair.2 first)
      simp at this
  | succ depth ih =>
    rw [expandable_succ_iff]
    constructor
    · rintro ⟨whole, each⟩
      refine ⟨fun files chain => ?_, fun q reached => ?_⟩
      · cases files with
        | nil => exact Nat.zero_le _
        | cons q files =>
          obtain ⟨first, later⟩ := List.isChain_cons_cons.1 chain
          exact Nat.succ_le_succ ((ih.1 (each q first)).1 files later)
      · rcases reached.cases_head with rfl | ⟨r, first, later⟩
        · exact whole
        · exact (ih.1 (each r first)).2 q later
    · rintro ⟨short, whole⟩
      refine ⟨whole p .refl, fun q first => ih.2 ⟨fun files chain => ?_, fun r reached => ?_⟩⟩
      · have := short (q :: files) (List.isChain_cons_cons.2 ⟨first, chain⟩)
        simpa using this
      · exact whole r (.head first reached)

/-- Where there is a document, no file on the way comes back to itself. -/
theorem Expandable.acyclic (h : Expandable d base depth p) (reached : Relation.ReflTransGen (Includes d base) p q) :
    ¬ Relation.TransGen (Includes d base) q q := by
  intro around
  obtain ⟨r, first, later⟩ := Relation.TransGen.head'_iff.1 (Relation.TransGen.trans_right reached around)
  induction depth generalizing p r with
  | zero => exact (expandable_zero_iff.1 h).2 r first
  | succ depth ih =>
    have h := (expandable_succ_iff.1 h).2 r first
    obtain ⟨s, next, rest⟩ := Relation.TransGen.head'_iff.1 (Relation.TransGen.trans_right later around)
    exact ih h later s next rest

/-- What a file includes depends on its text alone, so one that comes to a copy of itself is on a way without end. -/
theorem transGen_of_same (around : Relation.TransGen (Includes d base) p q) (same : source d q = source d p) :
    Relation.TransGen (Includes d base) q q := by
  obtain ⟨r, ⟨t, read, first⟩, later⟩ := Relation.TransGen.head'_iff.1 around
  exact Relation.TransGen.head'_iff.2 ⟨r, ⟨t, same.trans read, first⟩, later⟩

/-- The parts between the includes, and what comes in their places. -/
theorem expands_of_exchanged {expand : Command → Text → Except Fault Manuscript} {parts : List (Span × Manuscript)}
    (each : ∀ c q made, expand c q = .ok made → ∃ s inner, source d q = .ok s ∧
      Expands d base s.withoutComments 0 (commands s.withoutComments) inner ∧
        made = ⟨inner.text, q :: inner.includes⟩)
    (h : List.Forall₂ (fun c part => exchanged d base expand c = .ok part) cs parts) (last : Nat) :
    Expands d base t last cs
      ⟨t.splice t.length last (parts.map fun (s, m) => (s, m.text)), parts.flatMap fun (_, m) => m.includes⟩ := by
  induction h generalizing last with
  | nil =>
    simp only [List.map_nil, List.flatMap_nil, Text.splice, Text.slice_eq_drop]
    exact .done
  | @cons c part cs parts made _ ih =>
    simp only [List.map_cons, List.flatMap_cons, Text.splice, List.append_assoc]
    rw [exchanged] at made
    cases found : file? d base c.argument.trim with
    | none =>
      simp only [found] at made
      obtain rfl := Except.ok.inj made
      refine .missing (fun q finds => ?_) (ih c.span.stop)
      rw [file?_eq_some_iff.2 finds] at found
      cases found
    | some q =>
      simp only [found] at made
      obtain ⟨m, expanded, made⟩ := Except.bind_eq_ok_iff.1 made
      obtain rfl := Except.ok.inj made
      obtain ⟨s, inner, read, within, rfl⟩ := each c q m expanded
      exact .file (file?_eq_some_iff.1 found) read within (ih c.span.stop)

theorem expands_of_expand (h : expand d base depth t = .ok m) : Expands d base t 0 (commands t) m := by
  induction depth generalizing t m with
  | zero =>
    obtain ⟨parts, -, exchanged, rfl⟩ := assemble_eq_ok_iff.1 h
    refine expands_of_exchanged (fun c q made expanded => ?_) exchanged 0
    cases expanded
  | succ depth ih =>
    obtain ⟨parts, -, exchanged, rfl⟩ := assemble_eq_ok_iff.1 h
    refine expands_of_exchanged (fun c q made expanded => ?_) exchanged 0
    obtain ⟨s, read, expanded⟩ := Except.bind_eq_ok_iff.1 expanded
    obtain ⟨inner, expanded, eq⟩ := Except.bind_eq_ok_iff.1 expanded
    exact ⟨s, inner, read, ih expanded, (Except.ok.inj eq).symm⟩

/-- The directory that the includes of a document are found from. -/
def directory (p : Text) : Text := (Path.parent? p).getD "."

theorem ofPath_expandable : (∃ m, ofPath d p = .ok m) ↔ Expandable d (directory p) maxDepth p := by
  simp only [ofPath, Except.bind_eq_ok_iff, Expandable, directory]
  constructor
  · rintro ⟨m, t, read, expanded⟩
    exact ⟨t, read, m, expanded⟩
  · rintro ⟨t, read, m, expanded⟩
    exact ⟨m, t, read, expanded⟩

/-- A document is made just if no chain of includes is longer than the bound and all files that are reached are
whole; so never where a file comes to itself, whatever its name is there. It is the text of the main file with
each include exchanged, and its files are listed each before those that it includes. -/
theorem ofPath_expansion (d : Disk) (p : Text) :
    ((∃ m, ofPath d p = .ok m) ↔
      (∀ files, List.IsChain (Includes d (directory p)) (p :: files) → files.length ≤ 16) ∧
        ∀ q, Relation.ReflTransGen (Includes d (directory p)) p q → Whole d q) ∧
    (∀ q r, Relation.ReflTransGen (Includes d (directory p)) p q →
      Relation.TransGen (Includes d (directory p)) q r → source d r = source d q → ∀ m, ofPath d p ≠ .ok m) ∧
    ∀ m, ofPath d p = .ok m → ∃ t, source d p = .ok t ∧
      Expands d (directory p) t.withoutComments 0 (commands t.withoutComments) m := by
  refine ⟨ofPath_expandable.trans expandable_iff, fun q r reached around same m made => ?_, fun m made => ?_⟩
  · have expandable := ofPath_expandable.1 ⟨m, made⟩
    exact expandable.acyclic (reached.trans around.to_reflTransGen) (transGen_of_same around same)
  · obtain ⟨t, read, expanded⟩ := Except.bind_eq_ok_iff.1 made
    exact ⟨t, read, expands_of_expand expanded⟩

/-- An include without a name, beside a file that has nothing but the ending for a name. -/
def unnamed : Disk where
  entries := [(["d"], .directory), (["d", "main.tex"], .file (Text.toBytes "\\input\x7b\x7d") false),
    (["d", ".tex"], .file (Text.toBytes "x") false)]
  here := []

theorem exists_unnamed : ∃ c, commands "\\input\x7b\x7d" = [c] ∧
    Resolves unnamed (directory "/d/main.tex") c.argument.trim "/d/.tex" ∧ source unnamed "/d/.tex" = .ok ['x'] ∧
      ofPath unnamed "/d/main.tex" = .ok ⟨placeholder c, []⟩ := by
  refine ⟨⟨"input", false, ⟨0, 8⟩, [], [], ⟨7, 7⟩⟩, by decide +kernel, ?_, by decide +kernel, by decide +kernel⟩
  exact .tex (by decide +kernel) (by decide +kernel)

end Manuscript

end FloatFlattening
