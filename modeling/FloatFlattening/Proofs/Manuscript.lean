import FloatFlattening.Manuscript
import FloatFlattening.Proofs.Disk.Mirror
import FloatFlattening.Proofs.List
import FloatFlattening.Proofs.Outline.Figure
/-!
A document that is read from two places. If each name that is looked for leads to the same file from
both, the text is the same.
-/

namespace FloatFlattening

namespace Disk

/-- Whether a name leads to the same file from both bases, or to none from both. -/
def Alike (d d' : Disk) (base base' x : Text) : Prop :=
  ∀ e, e.isReadable = true →
    (d'.find? (Path.join base' x) = some e ↔ d.find? (Path.join base x) = some e)

variable {d d' : Disk} {base base' p p' x : Text} {e : Entry}

theorem Alike.isFile (h : Disk.Alike d d' base base' x) :
    d'.isFile (Path.join base' x) = d.isFile (Path.join base x) := by
  rw [Bool.eq_iff_iff, isFile_eq_true, isFile_eq_true]
  constructor
  · rintro ⟨e, there, readable⟩
    exact ⟨e, (h e readable).1 there, readable⟩
  · rintro ⟨e, there, readable⟩
    exact ⟨e, (h e readable).2 there, readable⟩

/-- Where the same can be read, the same is read. -/
theorem read_eq (readable : e.isReadable = true) (h : d.find? p = some e) (h' : d'.find? p' = some e) :
    ∃ content, d.read p = .ok content ∧ d'.read p' = .ok content := by
  obtain ⟨l, located, there⟩ := find?_eq_some.1 h
  obtain ⟨l', located', there'⟩ := find?_eq_some.1 h'
  rw [read, read, located, located', Except.ok_bind, Except.ok_bind, there, there']
  cases e with
  | file | program => exact ⟨_, rfl, rfl⟩
  | directory | link | device => cases readable

end Disk

namespace Manuscript

open Disk

variable {d d' : Disk} {base base' t x file : Text} {e : Entry} {m : Manuscript} {depth : Nat}
  {c : Command}

/-- The names that are looked for from a base: those in a text, with `.tex` after them where they
name no file, and those in the files found. -/
inductive Looks (d : Disk) (base : Text) : Text → Text → Prop
  | name {t : Text} {c : Command} (mem : c ∈ (Command.all t ["include", "input"]).found)
      (ne : c.argument.trim ≠ []) : Looks d base t c.argument.trim
  | tex {t : Text} {c : Command} (mem : c ∈ (Command.all t ["include", "input"]).found)
      (ne : c.argument.trim ≠ []) (missing : d.isFile (Path.join base c.argument.trim) = false) :
      Looks d base t (c.argument.trim ++ ".tex")
  | within {t x file body : Text} {c : Command}
      (mem : c ∈ (Command.all t ["include", "input"]).found)
      (found : file? d base c.argument.trim = some file) (read : source d file = .ok body)
      (then_ : Looks d base body.withoutComments x) : Looks d base t x

theorem Looks.ne_nil (h : Looks d base t x) : x ≠ [] := by
  induction h with
  | name _ ne => exact ne
  | tex => simp
  | within _ _ _ _ ih => exact ih

theorem exists_find?_of_source {p : Text} (h : source d p = .ok t) : ∃ e, d.find? p = some e := by
  rw [source] at h
  split at h
  next content read =>
    obtain ⟨l, located, read⟩ := Except.bind_eq_ok_iff.1 read
    cases there : d.entry? l with
    | some e => exact ⟨e, find?_eq_some.2 ⟨l, located, there⟩⟩
    | none =>
      simp only [there] at read
      cases read
  · cases h
  · cases h

theorem source_eq (readable : e.isReadable = true) {p p' : Text} (h : d.find? p = some e)
    (h' : d'.find? p' = some e) : ∃ body, source d p = .ok body ∧ source d' p' = .ok body := by
  obtain ⟨content, read, read'⟩ := read_eq readable h h'
  exact ⟨Text.ofBytes content, by rw [source, read], by rw [source, read']⟩

/-- The file of an include, and the same file seen from the other base. -/
theorem file?_alike (alike : ∀ x, Looks d base t x → Disk.Alike d d' base base' x)
    (mem : c ∈ (Command.all t ["include", "input"]).found) :
    file? d base c.argument.trim = none ∧ file? d' base' c.argument.trim = none ∨
      ∃ file file' e, file? d base c.argument.trim = some file ∧
        file? d' base' c.argument.trim = some file' ∧ e.isReadable = true ∧
          d.find? file = some e ∧ d'.find? file' = some e := by
  by_cases empty : c.argument.trim = []
  · left
    simp [file?, empty]
  have some : c.argument.trim.isEmpty = false := by simpa using empty
  simp only [file?, some, Bool.false_eq_true, if_false, List.find?_cons, List.find?_nil]
  have direct := alike _ (.name mem empty)
  rw [direct.isFile]
  cases first : d.isFile (Path.join base c.argument.trim) with
  | true =>
    obtain ⟨e, there, readable⟩ := isFile_eq_true.1 first
    exact .inr ⟨_, _, e, rfl, rfl, readable, there, (direct e readable).2 there⟩
  | false =>
    have other := alike _ (.tex mem empty first)
    rw [other.isFile]
    cases second : d.isFile (Path.join base (c.argument.trim ++ ".tex")) with
    | true =>
      obtain ⟨e, there, readable⟩ := isFile_eq_true.1 second
      exact .inr ⟨_, _, e, rfl, rfl, readable, there, (other e readable).2 there⟩
    | false => exact .inl ⟨rfl, rfl⟩

/-- If the files of includes are expanded to the same text, so is the text that includes them. -/
theorem assemble_alike {expand expand' : Command → Text → Except Fault Manuscript}
    (alike : ∀ x, Looks d base t x → Disk.Alike d d' base base' x)
    (same : ∀ c ∈ (Command.all t ["include", "input"]).found, ∀ file file' e m,
      file? d base c.argument.trim = some file → e.isReadable = true → d.find? file = some e →
        d'.find? file' = some e → expand c file = .ok m →
          ∃ m', expand' c file' = .ok m' ∧ m'.text = m.text)
    (h : assemble d base t expand = .ok m) :
    ∃ m', assemble d' base' t expand' = .ok m' ∧ m'.text = m.text := by
  obtain ⟨parts, hparts, h⟩ := Except.bind_eq_ok_iff.1 h
  obtain rfl := Except.ok.inj h
  obtain ⟨whole, each⟩ := Scan.traverse_eq_ok_iff.1 hparts
  refine (exists_forall₂_map_eq (f := fun p => (p.1, p.2.text))
    (g := fun p : Span × Manuscript => (p.1, p.2.text)) each fun c mem p hp => ?_).elim
      fun parts' both => ⟨_, Except.bind_eq_ok_iff.2 ⟨parts', Scan.traverse_eq_ok_iff.2 ⟨whole, both.1⟩, rfl⟩,
        congrArg (t.splice t.length 0) both.2⟩
  rcases file?_alike alike mem with ⟨none, none'⟩ | ⟨file, file', e, found, found', readable, there, there'⟩
  · rw [none] at hp
    obtain rfl := Except.ok.inj hp
    exact ⟨_, by rw [none']; rfl, rfl⟩
  · rw [found] at hp
    obtain ⟨m, expanded, hp⟩ := Except.bind_eq_ok_iff.1 hp
    obtain rfl := Except.ok.inj hp
    obtain ⟨m', expanded', text⟩ := same c mem file file' e m found readable there there' expanded
    refine ⟨(c.span, m'), ?_, by rw [text]⟩
    rw [found']
    exact Except.bind_eq_ok_iff.2 ⟨m', expanded', rfl⟩

/-- A text whose includes lead to the same files from another base is there the same document. -/
theorem expand_alike (alike : ∀ x, Looks d base t x → Disk.Alike d d' base base' x)
    (h : expand d base depth t = .ok m) :
    ∃ m', expand d' base' depth t = .ok m' ∧ m'.text = m.text := by
  induction depth generalizing t m with
  | zero =>
    rw [expand] at h ⊢
    refine assemble_alike alike ?_ h
    intro c mem file file' e m _ _ _ _ expanded
    cases expanded
  | succ depth ih =>
    rw [expand] at h ⊢
    refine assemble_alike alike ?_ h
    intro c mem file file' e m found readable there there' expanded
    obtain ⟨body, read, read'⟩ := source_eq readable there there'
    obtain ⟨_, eq, expanded⟩ := Except.bind_eq_ok_iff.1 expanded
    obtain rfl := Except.ok.inj (read.symm.trans eq)
    obtain ⟨m₁, inner, expanded⟩ := Except.bind_eq_ok_iff.1 expanded
    obtain rfl := Except.ok.inj expanded
    obtain ⟨m', inner', text⟩ := ih (fun x looks => alike x (.within mem found read looks)) inner
    refine ⟨{ m' with includes := file' :: m'.includes }, ?_, text⟩
    rw [read', Except.ok_bind, inner', Except.ok_bind]
    rfl

end Manuscript

end FloatFlattening
