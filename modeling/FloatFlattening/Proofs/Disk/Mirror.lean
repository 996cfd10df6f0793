import FloatFlattening.Proofs.Disk.Below
/-!
A directory and its copy. Names that stay below the directory, and out of what is not copied, lead
to the same file from the copy as from the directory.
-/

namespace FloatFlattening

/-- Whether an entry can be read as a file. -/
def Entry.isReadable : Entry → Bool
  | file .. | program _ => true
  | _ => false

namespace Disk

variable {d : Disk} {n m : Nat} {place l source below last : Location} {excluded : List Location}
  {ns : List Text} {x base : Text} {e : Entry}

theorem isFile_eq_true : d.isFile x = true ↔ ∃ e, d.find? x = some e ∧ e.isReadable = true := by
  rw [isFile]
  cases d.find? x with
  | none => simp
  | some e => cases e <;> simp [Entry.isReadable]

/-- A path names a directory. -/
structure Located (d : Disk) (base : Text) (place : Location) : Prop where
  nul : '\x00' ∉ base
  dir : d.entry? place = some .directory
  leads : ∃ m, Leads d true maxLinks (d.start base) (Path.names base) m place

theorem mem_join {c : Char} (relative : Path.isAbsolute x = false) (slash : c ≠ '/') :
    c ∈ Path.join base x ↔ c ∈ base ∨ c ∈ x := by
  rw [Path.join]
  split
  next alone =>
    have empty : base = [] := by simpa [relative] using alone
    simp [empty]
  · split <;> simp [slash]

/-- A path that is seen from a directory leads where its names lead from there. -/
theorem Located.of_locate (h : Located d base place) (relative : Path.isAbsolute x = false)
    (found : d.locate true (Path.join base x) = .ok l) :
    ∃ n ≤ maxLinks, ∃ m, Leads d true n place (Path.pieces x) m l := by
  obtain ⟨-, -, -, m, leads⟩ := locate_eq_ok_iff.1 found
  obtain ⟨start, pieces, names⟩ := Path.exists_pieces_join base relative
  rw [pieces, start_join relative] at leads
  obtain ⟨n, q, first, then_⟩ := leads.split (.inl rfl)
  obtain ⟨k, known⟩ := h.leads
  rw [← names] at known
  obtain rfl : q = place := Except.ok.inj (first.leading.walk.symm.trans known.walk)
  exact ⟨n, first.le, m, then_⟩

theorem Located.locate (h : Located d base place) (relative : Path.isAbsolute x = false)
    (ne : x ≠ []) (nul : '\x00' ∉ x) (fits : (Path.join base x).byteSize ≤ maxPathSize)
    (leads : ∀ n, ∃ m, Leads d true n place (Path.pieces x) m l) :
    d.locate true (Path.join base x) = .ok l := by
  obtain ⟨start, pieces, names⟩ := Path.exists_pieces_join base relative
  obtain ⟨n, first⟩ := h.leads
  rw [← names] at first
  obtain ⟨m, then_⟩ := leads n
  have noNul : '\x00' ∉ Path.join base x := by
    rw [mem_join relative (by decide)]
    exact not_or.2 ⟨h.nul, nul⟩
  refine locate_eq_ok_iff.2 ⟨noNul, Path.join_ne_nil (.inr ne), fits, m, ?_⟩
  rw [pieces, start_join relative]
  exact (first.of_leading h.dir).append then_ (.inl rfl)

theorem not_nul_of_find? (relative : Path.isAbsolute x = false) (found : d.find? (Path.join base x) = some e) :
    '\x00' ∉ x := by
  obtain ⟨l, located, -⟩ := find?_eq_some.1 found
  have nul := (locate_eq_ok_iff.1 located).1
  rw [mem_join relative (by decide), not_or] at nul
  exact nul.2

/-- A name that stays below a directory, past no link, is found there. -/
theorem Located.find?_of_stays (h : Located d base place) (relative : Path.isAbsolute x = false) (ne : x ≠ [])
    (nul : '\x00' ∉ x) (fits : (Path.join base x).byteSize ≤ maxPathSize)
    (stays : Stays d place [] (Path.pieces x) last) (noLink : ∀ t, d.entry? (place ++ last) ≠ some (.link t))
    (there : d.entry? (place ++ last) = some e) : d.find? (Path.join base x) = some e := by
  refine find?_eq_some.2 ⟨_, ?_, there⟩
  refine h.locate relative ne nul fits fun n => ⟨n, ?_⟩
  have leads := stays.leads noLink n
  rwa [List.append_nil] at leads

end Disk

/-- A directory and the copy made of it, each with the path by which it is known. -/
structure Copying where
  before : Disk
  after : Disk
  base : Text
  source : Location
  copy : Text
  target : Location
  /-- The directories that are not copied, whatever their names. -/
  excluded : List Location

namespace Copying

open Disk

variable {c : Copying} {d : Disk} {below last : Location} {ns : List Text} {x : Text} {e e₀ : Entry}

def skips (c : Copying) (below : Location) : Bool := c.after.isSkipped c.source c.excluded below

structure Mirrors (c : Copying) : Prop where
  tree : c.before.Tree
  grows : Extends c.before c.after
  /-- Outside the copy, only directories are made. -/
  adds : ∀ l e, c.after.entry? l = some e →
    c.before.entry? l = some e ∨ e = .directory ∨ c.target <+: l
  located : Located c.before c.base c.source
  located' : Located c.after c.copy c.target
  kept : ∀ below e, c.before.entry? (c.source ++ below) = some e → c.skips below = false →
    (∀ t, e ≠ .link t) → c.after.entry? (c.target ++ below) = some e
  /-- A link is exchanged for the file that it leads to from the root. -/
  linked : ∀ below t content executable, c.before.entry? (c.source ++ below) = some (.link t) →
    c.skips below = false →
    c.before.find? (Location.path (c.source ++ below)) = some (.file content executable) →
    c.after.entry? (c.target ++ below) = some (.file content executable)
  made : ∀ below e, c.after.entry? (c.target ++ below) = some e → e = .directory ∨
    (∃ content executable t, e = .file content executable ∧
      c.before.entry? (c.source ++ below) = some (.link t) ∧
      c.after.find? (Location.path (c.source ++ below)) = some e) ∨
    c.before.entry? (c.source ++ below) = some e ∧ ∀ t, e ≠ .link t

/-- Names that lead alike from the directory and from its copy. A name seen from the directory stays
in it and in what is copied, past no link; a link that it names leads to the same from the root. A
name from the root leads to the same place, outside the copy, before and after. -/
inductive Carries (c : Copying) (x : Text) : Prop
  | relative (relative : Path.isAbsolute x = false)
      (inward : Inward c.before c.source c.skips [] (Path.pieces x))
      (link : ∀ last t, Stays c.before c.source [] (Path.pieces x) last →
        c.before.entry? (c.source ++ last) = some (.link t) →
        c.after.find? (Location.path (c.source ++ last)) = c.before.find? (Path.join c.base x) ∧
          ∀ name, c.before.find? (Path.join c.base x) ≠ some (.program name))
      (fits : (Path.join c.base x).byteSize ≤ maxPathSize)
      (fits' : (Path.join c.copy x).byteSize ≤ maxPathSize)
  | absolute (absolute : Path.isAbsolute x = true)
      (same : (c.after.locate true x).toOption = (c.before.locate true x).toOption)
      (outside : ∀ l, c.before.locate true x = .ok l → ¬ c.target <+: l)

/-- A tree is mirrored by its copy, if only directories are made before and after. -/
theorem mirrors_of_copyTree (tree : c.before.Tree) {excluded : List Location}
    (made : Deepens c.before d) (free : d.entry? c.target = none) (less : excluded ⊆ c.excluded)
    (wider : Broadens (d.copyTree c.source excluded c.target) c.after)
    (located : Located c.before c.base c.source) (located' : Located c.after c.copy c.target) :
    c.Mirrors := by
  have sound := made.2 tree.toSound
  have ext := made.1.extends
  have ne := ne_root_of_none free
  have later : Extends d c.after := (extends_copyTree ne).trans wider.extends
  have carry {below : Location} {e e' : Entry} (there : d.entry? (c.source ++ below) = some e)
      (kept : c.skips below = false) (copied : d.copied? (c.source ++ below) e = some e') :
      c.after.entry? (c.target ++ below) = some e' := by
    apply wider.keeps
    rw [entry?_copyTree sound free]
    by_cases top : below = []
    · subst top
      rw [List.append_nil, ext.keeps _ _ located.dir] at there
      cases there
      exact .inl ⟨rfl, (Option.some.inj copied).symm⟩
    · exact .inr ⟨top, isSkipped_extends later less kept, e, there, copied⟩
  constructor
  case tree => exact tree
  case grows => exact ext.trans later
  case located => exact located
  case located' => exact located'
  case adds =>
    intro l e there
    rcases wider.adds l e there with there | dir
    · rcases entry?_copyTree_cases there with there | inside
      · exact (made.1.adds l e there).imp_right .inl
      · exact .inr (.inr inside)
    · exact .inr (.inl dir)
  case kept =>
    intro below e there kept noLink
    apply carry (ext.keeps _ _ there) kept
    cases e with
    | link t => exact absurd rfl (noLink t)
    | _ => rfl
  case linked =>
    intro below t content executable there kept leadsTo
    apply carry (ext.keeps _ _ there) kept
    rw [copied?, find?_extends ext leadsTo]
  case made =>
    intro below e there
    rcases wider.adds _ _ there with there | dir
    · rcases (entry?_copyTree sound free).1 there with ⟨-, dir⟩ | ⟨-, -, e₀, original, copied⟩
      · exact .inl dir
      · rcases copied?_cases copied with ⟨content, executable, t, rfl, rfl, leadsTo⟩ | ⟨rfl, noLink⟩
        · exact .inr (.inl ⟨content, executable, t, rfl, ext.links _ _ original, find?_extends later leadsTo⟩)
        · rcases made.1.adds _ _ original with there | dir
          · exact .inr (.inr ⟨there, noLink⟩)
          · exact .inl dir
    · exact .inl dir

namespace Mirrors

variable (m : c.Mirrors)
include m

theorem noLink (below : Location) (t : Text) : c.after.entry? (c.target ++ below) ≠ some (.link t) := by
  intro there
  rcases m.made below _ there with dir | ⟨_, _, _, file, -⟩ | ⟨-, no⟩
  · cases dir
  · cases file
  · exact no t rfl

theorem dir (h : c.before.entry? (c.source ++ below) = some .directory)
    (kept : c.skips below = false) : c.after.entry? (c.target ++ below) = some .directory :=
  m.kept below _ h kept (by simp)

theorem inward (h : Inward c.before c.source c.skips below ns) (kept : c.skips below = false) :
    Inward c.after c.target c.skips below ns := by
  induction h with
  | nil => exact .nil
  | idle idle _ ih => exact .idle idle (ih kept)
  | up dir ne _ ih => exact .up (m.dir dir kept) ne (ih (isSkipped_dropLast kept))
  | down proper inside kept' _ _ ih =>
    exact .down proper inside kept' (fun t there => absurd there (m.noLink _ t)) (ih kept')

theorem stays (h : Stays c.before c.source below ns last)
    (inward : Inward c.before c.source c.skips below ns) (kept : c.skips below = false) :
    Stays c.after c.target below ns last ∧ c.skips last = false := by
  induction h with
  | nil => exact ⟨.nil, kept⟩
  | idle dir idle _ ih =>
    cases inward with
    | idle _ then_ =>
      obtain ⟨stays, kept'⟩ := ih then_ kept
      exact ⟨.idle (m.dir dir kept) idle stays, kept'⟩
    | up => simp at idle
    | down proper => exact absurd idle proper
  | up dir ne _ ih =>
    cases inward with
    | idle idle => simp at idle
    | up _ _ then_ =>
      obtain ⟨stays, kept'⟩ := ih then_ (isSkipped_dropLast kept)
      exact ⟨.up (m.dir dir kept) ne stays, kept'⟩
    | down _ inside => exact absurd rfl inside
  | down dir isName _ ih =>
    cases inward with
    | idle idle => exact absurd idle isName.proper
    | up => exact absurd rfl isName.inside
    | down _ _ kept' _ then_ =>
      obtain ⟨stays, kept''⟩ := ih then_ kept'
      exact ⟨.down (m.dir dir kept) isName stays, kept''⟩

/-- Names that lead to a file in the copy go through directories that were there before. -/
theorem stays_before (h : Stays c.after c.target below ns last)
    (inward : Inward c.before c.source c.skips below ns)
    (ends : c.after.entry? (c.target ++ last) ≠ some .directory)
    (there : c.before.entry? (c.source ++ last) = some e₀) :
    Stays c.before c.source below ns last ∧
      (ns = [] ∨ c.before.entry? (c.source ++ below) = some .directory) := by
  induction h with
  | nil => exact ⟨.nil, .inl rfl⟩
  | idle dir idle _ ih =>
    cases inward with
    | idle _ then_ =>
      obtain ⟨stays, rfl | dir'⟩ := ih then_ ends there
      · cases stays
        exact absurd dir ends
      · exact ⟨.idle dir' idle stays, .inr dir'⟩
    | up => simp at idle
    | down proper => exact absurd idle proper
  | up _ ne _ ih =>
    cases inward with
    | idle idle => simp at idle
    | up dir _ then_ => exact ⟨.up dir ne (ih then_ ends there).1, .inr dir⟩
    | down _ inside => exact absurd rfl inside
  | @down below _ name _ _ isName _ ih =>
    cases inward with
    | idle idle => exact absurd idle isName.proper
    | up => exact absurd rfl isName.inside
    | down _ _ _ _ then_ =>
      obtain ⟨stays, next⟩ := ih then_ ends there
      have here : ∃ e, c.before.entry? (c.source ++ (below ++ [name])) = some e := by
        rcases next with rfl | dir
        · cases stays
          exact ⟨_, there⟩
        · exact ⟨_, dir⟩
      obtain ⟨_, here⟩ := here
      rw [← List.append_assoc] at here
      have dir := m.tree.rooted _ _ here
      rw [List.dropLast_concat] at dir
      exact ⟨.down dir isName stays, .inr dir⟩

/-- A name from the root leads to the same file, if it leads outside the copy. -/
theorem find?_absolute (absolute : Path.isAbsolute x = true)
    (same : (c.after.locate true x).toOption = (c.before.locate true x).toOption)
    (outside : ∀ l, c.before.locate true x = .ok l → ¬ c.target <+: l) (readable : e.isReadable = true) :
    c.after.find? (Path.join c.copy x) = some e ↔ c.before.find? (Path.join c.base x) = some e := by
  have alone (base : Text) : Path.join base x = x := by simp [Path.join, absolute]
  rw [alone, alone, find?, find?, same]
  cases found : c.before.locate true x with
  | error => rfl
  | ok l =>
    simp only [Except.toOption, Option.bind_some]
    constructor
    · intro there
      rcases m.adds l e there with there | rfl | inside
      · exact there
      · cases readable
      · exact absurd inside (outside l found)
    · exact m.grows.keeps l e

/-- The file that a name leads to from the copy is that to which it leads from the directory. -/
theorem find?_of_copy (relative : Path.isAbsolute x = false) (ne : x ≠ [])
    (inward : Inward c.before c.source c.skips [] (Path.pieces x))
    (link : ∀ last t, Stays c.before c.source [] (Path.pieces x) last →
      c.before.entry? (c.source ++ last) = some (.link t) →
      c.after.find? (Location.path (c.source ++ last)) = c.before.find? (Path.join c.base x))
    (fits : (Path.join c.base x).byteSize ≤ maxPathSize) (readable : e.isReadable = true)
    (found : c.after.find? (Path.join c.copy x) = some e) : c.before.find? (Path.join c.base x) = some e := by
  obtain ⟨l, located, there⟩ := find?_eq_some.1 found
  obtain ⟨n, -, k, leads⟩ := m.located'.of_locate relative located
  rw [← List.append_nil c.target] at leads
  obtain ⟨last, stays, ends⟩ := (m.inward inward rfl).stays leads
  obtain rfl : l = c.target ++ last := by
    rcases ends with eq | ⟨_, _, t, _, -, isLink, -⟩
    · exact eq
    · exact absurd isLink (m.noLink last t)
  have ends : c.after.entry? (c.target ++ last) ≠ some .directory := by
    rw [there]
    rintro ⟨⟩
    cases readable
  rcases m.made last e there with rfl | ⟨_, _, t, -, isLink, leadsTo⟩ | ⟨there', noLink⟩
  · cases readable
  · have stays := (m.stays_before stays inward ends isLink).1
    exact link last t stays isLink ▸ leadsTo
  · have stays := (m.stays_before stays inward ends there').1
    exact m.located.find?_of_stays relative ne (not_nul_of_find? relative found) fits stays
      (by simpa [there'] using noLink) there'

/-- The file that a name leads to from the directory is that to which it leads from the copy. -/
theorem find?_of_source (relative : Path.isAbsolute x = false) (ne : x ≠ [])
    (inward : Inward c.before c.source c.skips [] (Path.pieces x))
    (link : ∀ last t, Stays c.before c.source [] (Path.pieces x) last →
      c.before.entry? (c.source ++ last) = some (.link t) →
      c.after.find? (Location.path (c.source ++ last)) = c.before.find? (Path.join c.base x) ∧
        ∀ name, c.before.find? (Path.join c.base x) ≠ some (.program name))
    (fits : (Path.join c.copy x).byteSize ≤ maxPathSize) (readable : e.isReadable = true)
    (found : c.before.find? (Path.join c.base x) = some e) : c.after.find? (Path.join c.copy x) = some e := by
  obtain ⟨l, located, there⟩ := find?_eq_some.1 found
  obtain ⟨n, most, k, leads⟩ := m.located.of_locate relative located
  rw [← List.append_nil c.source] at leads
  obtain ⟨last, stays, ends⟩ := inward.stays leads
  obtain ⟨stays', kept⟩ := m.stays stays inward rfl
  have there' : c.after.entry? (c.target ++ last) = some e := by
    rcases ends with rfl | ⟨p, name, t, links, split, isLink, less, first⟩
    · refine m.kept last e there kept ?_
      rintro t rfl
      cases readable
    · obtain ⟨same, noProgram⟩ := link last t stays isLink
      rw [found] at same
      obtain ⟨q, root, -⟩ := find?_eq_some.1 same
      have short := (locate_eq_ok_iff.1 root).2.2.1
      have leadsTo : c.before.find? (Location.path (c.source ++ last)) = some e := by
        rw [split] at isLink short ⊢
        exact find?_eq_some.2
          ⟨l, m.tree.locate_link isLink first (Nat.lt_of_lt_of_le less most) short, there⟩
      cases e with
      | file content executable => exact m.linked last t _ _ isLink kept leadsTo
      | program name => exact absurd found (noProgram name)
      | _ => cases readable
  exact m.located'.find?_of_stays relative ne (not_nul_of_find? relative found) fits stays' (m.noLink last) there'

/-- A name that is carried leads to the same file from the copy. -/
theorem find?_eq_some_iff (carries : c.Carries x) (ne : x ≠ []) (readable : e.isReadable = true) :
    c.after.find? (Path.join c.copy x) = some e ↔ c.before.find? (Path.join c.base x) = some e := by
  cases carries with
  | absolute absolute same outside => exact m.find?_absolute absolute same outside readable
  | relative relative inward link fits fits' =>
    exact ⟨m.find?_of_copy relative ne inward (fun last t stays isLink => (link last t stays isLink).1) fits readable,
      m.find?_of_source relative ne inward link fits' readable⟩

/-- What a path in the directory leads to is what its last name leads to in the copy, where that
leads to a file. -/
theorem find?_unique {p name : Text} {e' : Entry} (start : c.before.start p = c.before.start c.base)
    (names : Path.names p = Path.names c.base ++ [name]) (plain : '/' ∉ name)
    (proper : ¬ (name = [] ∨ name = ".")) (inside : name ≠ "..")
    (h : c.before.find? p = some e) (h' : c.after.find? (Path.join c.copy name) = some e')
    (readable : e'.isReadable = true) : e' = e := by
  obtain ⟨l, located, there⟩ := find?_eq_some.1 h
  obtain ⟨l', located', there'⟩ := find?_eq_some.1 h'
  have copied : l' = c.target ++ [name] := by
    obtain ⟨n, -, k, leads⟩ := m.located'.of_locate (Path.isAbsolute_of_not_mem plain) located'
    rw [Path.pieces_of_not_mem plain] at leads
    rcases leads.last_cases proper inside with ⟨place, -⟩ | ⟨-, _, _, -, there, -⟩
    · exact place
    · exact absurd there (m.noLink [name] _)
  obtain ⟨n, most, k, leads⟩ : ∃ n ≤ maxLinks, ∃ k, Leads c.before true n c.source [name] k l := by
    obtain ⟨-, -, -, k, leads⟩ := locate_eq_ok_iff.1 located
    have leads := leads.leading
    rw [← Path.names_eq, names, start] at leads
    obtain ⟨n, q, first, last⟩ := leads.split (.inl rfl)
    obtain ⟨_, known⟩ := m.located.leads
    obtain rfl : q = c.source := Except.ok.inj (first.walk.symm.trans known.walk)
    exact ⟨n, first.le, k, last⟩
  subst copied
  have last := leads.last_cases proper inside
  rcases m.made _ _ there' with rfl | ⟨_, _, t, -, isLink, leadsTo⟩ | ⟨there'', noLink⟩
  · cases readable
  · rcases last with ⟨rfl, noLink⟩ | ⟨-, k, t', rfl, isLink', first⟩
    · exact absurd isLink (noLink rfl t)
    · obtain ⟨q, root, -⟩ := find?_eq_some.1 leadsTo
      have short := (locate_eq_ok_iff.1 root).2.2.1
      have same := m.tree.locate_link isLink' first (Nat.lt_of_succ_le most) short
      have same := find?_extends m.grows (find?_eq_some.2 ⟨l, same, there⟩)
      exact Option.some.inj (leadsTo.symm.trans same)
  · rcases last with ⟨rfl, -⟩ | ⟨-, _, _, -, isLink, -⟩
    · exact Option.some.inj (there''.symm.trans there)
    · exact absurd (Option.some.inj (there''.symm.trans isLink)) (noLink _)

end Mirrors

end Copying

end FloatFlattening
