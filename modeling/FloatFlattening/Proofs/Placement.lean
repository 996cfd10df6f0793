import FloatFlattening.Production
import FloatFlattening.Proofs.Disk.Scratch
import FloatFlattening.Proofs.Run
/-!
How a document comes to its place: it is copied to a file beside the output and moved from there. If it
cannot be moved, the file beside the output is removed.
-/

namespace FloatFlattening

open Disk

/-- Names lead neither into it nor on from it. -/
def Entry.isLeaf : Entry → Bool
  | directory | link _ => false
  | _ => true

namespace Path

/-- The pieces of a path end in its last name. -/
theorem exists_pieces_append_last (p : Text) : ∃ above, pieces p = above ++ [last p] := by
  have single := pieces_of_not_mem (not_mem_last p)
  have whole := congrArg pieces (front_append_last p)
  rcases front_cases p with empty | ⟨q, eq⟩
  · rw [empty, List.nil_append, single] at whole
    exact ⟨[], whole.symm⟩
  · rw [eq, List.append_assoc, List.singleton_append, pieces_append_slash, single] at whole
    exact ⟨pieces q, whole.symm⟩

end Path

namespace Disk

variable {d d' : Disk} {source target : Text} {l o : Location} {x name : Text} {e : Entry}
  {content : Bytes} {executable : Bool}

theorem ne_root_of_leaf (leaf : ∀ e, d.entry? l = some e → e.isLeaf = true) : l ≠ [] :=
  ne_root fun dir => absurd (leaf _ dir) (by decide)

/-- What is neither a directory nor a link is not on the way to anything. -/
theorem ways_of_leaf (here : d'.here = d.here) (same : ∀ k ≠ l, d'.entry? k = d.entry? k)
    (leaf : ∀ e, d.entry? l = some e → e.isLeaf = true)
    (leaf' : ∀ e, d'.entry? l = some e → e.isLeaf = true) : Ways d d' where
  here := here
  dirs k dir := by
    by_cases at_ : k = l
    · subst at_
      cases leaf _ dir
    · rwa [same k at_]
  kept k t there := by
    by_cases at_ : k = l
    · subst at_
      cases leaf _ there
    · rwa [same k at_]
  links k t there := by
    by_cases at_ : k = l
    · subst at_
      cases leaf' _ there
    · rwa [← same k at_]

/-- A path that ends in a name leads to an entry of the directory that the names before it lead to. -/
theorem exists_locate_eq (h : d.locate false x = .ok l) (proper : ¬ (Path.last x = [] ∨ Path.last x = "."))
    (inside : Path.last x ≠ "..") : ∃ ns m q, Path.names x = ns ++ [Path.last x] ∧
      Leads d true maxLinks (d.start x) ns m q ∧ d.entry? q = some .directory ∧ l = q ++ [Path.last x] := by
  obtain ⟨-, -, -, m, leads⟩ := locate_eq_ok_iff.1 h
  obtain ⟨above, pieces⟩ := Path.exists_pieces_append_last x
  rw [pieces] at leads
  obtain ⟨n, q, first, last⟩ := leads.split (.inr (by simp))
  refine ⟨Path.leading above, n, q, ?_, first.leading, last.dir_of_ne_nil (by simp), ?_⟩
  · rw [Path.names_eq, pieces, Path.leading_append, Path.leading_cons proper]
    rfl
  · rcases last.last_cases proper inside with ⟨place, -⟩ | ⟨follows, -⟩
    · exact place
    · cases follows

/-- A path leads to its own place if there is no link. -/
theorem locate_stop (h : d.locate true x = .ok l)
    (noLink : ∀ l t, d.locate false x = .ok l → d.entry? l ≠ some (.link t)) : d.locate false x = .ok l := by
  obtain ⟨nul, ne, fits, m, leads⟩ := locate_eq_ok_iff.1 h
  obtain ⟨k, q, stops⟩ := leads.exists_stop
  have located : d.locate false x = .ok q := locate_eq_ok_iff.2 ⟨nul, ne, fits, k, stops⟩
  obtain rfl := (stops.follow_of_noLink fun t => noLink q t located).unique leads
  exact located

/-- A file is written as a whole; only what is written to a device is lost. -/
theorem write_eq_ok {mode : Bool} (h : d.write x content mode = .ok d') :
    ∃ l, d.locate true x = .ok l ∧ (∀ e, d.entry? l = some e → e.isLeaf = true) ∧
      (d.entry? l = some .device ∧ d' = d ∨ ∃ executable, d' = d.put l (.file content executable)) := by
  obtain ⟨l, located, h⟩ := Except.bind_eq_ok_iff.1 h
  refine ⟨l, located, ?_⟩
  cases there : d.entry? l with
  | none =>
    simp only [there] at h
    obtain rfl := Except.ok.inj h
    exact ⟨by simp, .inr ⟨_, rfl⟩⟩
  | some e =>
    simp only [there] at h
    cases e with
    | file =>
      obtain rfl := Except.ok.inj h
      exact ⟨by simp [Entry.isLeaf], .inr ⟨_, rfl⟩⟩
    | device =>
      obtain rfl := Except.ok.inj h
      exact ⟨by simp [Entry.isLeaf], .inl ⟨rfl, rfl⟩⟩
    | directory | link | program => cases h

/-- A copy is all of the file, at the place of its path if there is no link. -/
theorem copy_eq_ok (h : d.copy source target = .ok d')
    (noLink : ∀ l t, d.locate false target = .ok l → d.entry? l ≠ some (.link t)) :
    ∃ l content executable, d.find? source = some (.file content executable) ∧
      d.locate false target = .ok l ∧ (∀ e, d.entry? l = some e → e.isLeaf = true) ∧
        d'.here = d.here ∧ (∀ k ≠ l, d'.entry? k = d.entry? k) ∧
          (d.entry? l = some .device ∧ d'.entry? l = some .device ∨
            d'.entry? l = some (.file content executable)) := by
  obtain ⟨p, located, h⟩ := Except.bind_eq_ok_iff.1 h
  cases there : d.entry? p with
  | none =>
    simp only [there] at h
    cases h
  | some e =>
    simp only [there] at h
    cases e with
    | file content executable =>
      have found := find?_eq_some.2 ⟨p, located, there⟩
      obtain ⟨d₁, written, h⟩ := Except.bind_eq_ok_iff.1 h
      obtain ⟨l', again, h⟩ := Except.bind_eq_ok_iff.1 h
      obtain ⟨l, follows, leaf, written⟩ := write_eq_ok written
      have stops := locate_stop follows noLink
      refine ⟨l, content, executable, found, stops, leaf, ?_⟩
      rcases written with ⟨device, rfl⟩ | ⟨mode, rfl⟩
      · obtain rfl := Except.ok.inj (follows.symm.trans again)
        rw [if_pos device] at h
        obtain rfl := Except.ok.inj h
        exact ⟨rfl, fun _ _ => rfl, .inl ⟨device, device⟩⟩
      · have ne := ne_root_of_leaf leaf
        have put (k : Location) := entry?_put (d := d) (e := .file content mode) ne k
        have ways : Ways d (d.put l (.file content mode)) := by
          refine ways_of_leaf rfl (fun k other => by rw [put, if_neg other]) leaf fun e there => ?_
          rw [put, if_pos rfl] at there
          cases there
          rfl
        obtain rfl : l = l' := Except.ok.inj ((locate_ways ways follows).symm.trans again)
        rw [put, if_pos rfl, if_neg (by simp)] at h
        obtain rfl := Except.ok.inj h
        refine ⟨rfl, fun k other => ?_, .inr ?_⟩
        · rw [entry?_put ne, if_neg other, put, if_neg other]
        · rw [entry?_put ne, if_pos rfl]
    | directory | link | device | program => cases h

/-- What is moved stands in place of what was there, if the new path ends in a name and there is no
directory. -/
theorem rename_eq_ok_iff : d.rename source target = .ok d' ↔ ∃ l o e,
    d.locate false source = .ok l ∧ d.locate false target = .ok o ∧
      ¬ (Path.last target = [] ∨ Path.last target = ".") ∧ Path.last target ≠ ".." ∧
        d.entry? l = some e ∧ d.entry? o ≠ some .directory ∧ (d.erase l).put o e = d' := by
  have named_iff (name : Text) : name ∉ [[], ['.'], ['.', '.']] ↔ ¬ (name = [] ∨ name = ".") ∧ name ≠ ".." := by
    rw [List.mem_cons, List.mem_cons, List.mem_singleton, ← or_assoc, not_or]
    exact Iff.rfl
  constructor
  · intro h
    obtain ⟨l, old, h⟩ := Except.bind_eq_ok_iff.1 h
    obtain ⟨o, new, h⟩ := Except.bind_eq_ok_iff.1 h
    by_cases named : Path.last (trimSlashes target) ∈ [[], ['.'], ['.', '.']]
    · rw [if_pos named] at h
      cases h
    rw [if_neg named] at h
    cases there : d.entry? l with
    | none =>
      simp only [there] at h
      cases h
    | some e =>
      simp only [there] at h
      by_cases ends : Text.endsWith target "/" = true
      · rw [if_pos ends] at h
        cases h
      rw [if_neg ends] at h
      by_cases dir : d.entry? o = some .directory
      · rw [if_pos dir] at h
        cases h
      rw [if_neg dir] at h
      rw [trimSlashes_eq_self (eq_false_of_ne_true ends)] at new named
      rw [ite_self] at new
      obtain ⟨proper, inside⟩ := (named_iff _).1 named
      exact ⟨l, o, e, old, new, proper, inside, there, dir, Except.ok.inj h⟩
  · rintro ⟨l, o, e, old, new, proper, inside, there, dir, rfl⟩
    have named := (named_iff _).2 ⟨proper, inside⟩
    have ends := Path.endsWith_slash_of_last fun empty => proper (.inl empty)
    have trimmed := trimSlashes_eq_self ends
    refine Except.bind_eq_ok_iff.2 ⟨l, old, Except.bind_eq_ok_iff.2 ⟨o, ?_, ?_⟩⟩
    · rw [trimmed, ite_self, new]
    · rw [trimmed, if_neg named]
      simp only [there, ends, Bool.false_eq_true, if_false]
      rw [if_neg dir]
      rfl

/-- Nothing is in the way of a move to where something is found that is not a directory. -/
theorem exists_rename (found : d.locate true target = .ok o) (entry : d.entry? o = some e)
    (notDir : e ≠ .directory) (inside : Path.last target ≠ "..") (old : d.locate false source = .ok l)
    {e' : Entry} (there : d.entry? l = some e') : ∃ d', d.rename source target = .ok d' := by
  obtain ⟨nul, ne, fits, m, leads⟩ := locate_eq_ok_iff.1 found
  obtain ⟨k, q, stops⟩ := leads.exists_stop
  have new : d.locate false target = .ok q := locate_eq_ok_iff.2 ⟨nul, ne, fits, k, stops⟩
  have proper : ¬ (Path.last target = [] ∨ Path.last target = ".") := by
    intro idle
    obtain ⟨above, pieces⟩ := Path.exists_pieces_append_last target
    rw [pieces] at leads
    obtain ⟨n, p, -, last⟩ := leads.split (.inl rfl)
    have same := last.of_leading_nil (by rw [Path.leading_cons_idle idle]; rfl)
    have dir := last.dir_of_ne_nil (by simp)
    rw [← same, entry, Option.some.injEq] at dir
    exact notDir dir
  refine ⟨_, rename_eq_ok_iff.2 ⟨l, q, e', old, new, proper, inside, there, fun dir => ?_, rfl⟩⟩
  obtain rfl := (stops.follow_of_noLink (by simp [dir])).unique leads
  rw [entry, Option.some.injEq] at dir
  exact notDir dir

/-- A path that ends by going up leads to a directory. -/
theorem Sound.dir_of_last_up (sound : d.Sound) (located : d.locate true x = .ok l)
    (up : Path.last x = "..") : d.entry? l = some .directory := by
  obtain ⟨-, -, -, m, leads⟩ := locate_eq_ok_iff.1 located
  obtain ⟨above, pieces⟩ := Path.exists_pieces_append_last x
  rw [pieces, up] at leads
  obtain ⟨n, p, -, last⟩ := leads.split (.inl rfl)
  cases last with
  | idle _ idle => simp at idle
  | up dir then_ =>
    cases then_
    exact sound.rooted _ _ dir
  | down _ isName | link _ isName => exact absurd rfl isName.inside

end Disk

namespace Production

variable {output produced : Text} {d : Disk} {l o : Location}

/-- The path of the file beside an output. -/
def beside (output : Text) : Text :=
  Path.withFileName output ((Path.fileName? output).getD [] ++ ".tmp")

/-- The file beside an output is in the same directory under another name. -/
theorem exists_directory (located : d.locate false output = .ok o)
    (proper : ¬ (Path.last output = [] ∨ Path.last output = ".")) (inside : Path.last output ≠ "..")
    (located' : d.locate false (beside output) = .ok l) :
    ∃ q, o = q ++ [Path.last output] ∧ l = q ++ [Path.last output ++ ".tmp"] := by
  have plain : '/' ∉ Path.last output ++ ".tmp" := fun mem => by
    rcases List.mem_append.1 mem with mem | mem
    · exact Path.not_mem_last output mem
    · exact absurd mem (by decide)
  have relative := Path.isAbsolute_of_not_mem plain
  have named := Path.fileName?_of_last proper inside
  obtain ⟨parent, above, names⟩ := Path.names_of_fileName? named
  have eq : beside output = Path.join parent (Path.last output ++ ".tmp") := by
    rw [beside, Path.withFileName, named, Option.isSome_some, if_pos rfl, above]
    rfl
  have last : Path.last (beside output) = Path.last output ++ ".tmp" := by
    rw [eq]
    exact Path.last_join _ plain
  have long : 2 < (Path.last output ++ ".tmp").length := by
    rw [List.length_append]
    exact Nat.lt_of_lt_of_le (by decide) (Nat.le_add_left 4 _)
  obtain ⟨proper', inside'⟩ := Path.proper_of_length long
  rw [← last] at proper' inside'
  obtain ⟨ns, m, q, names₁, leads, -, rfl⟩ := exists_locate_eq located proper inside
  obtain ⟨ns', m', q', names₂, leads', -, rfl⟩ := exists_locate_eq located' proper' inside'
  obtain rfl := List.append_inj_left' (names.symm.trans names₁) rfl
  have start : d.start (beside output) = d.start output := by
    rw [start, start, eq, Path.isAbsolute_join relative]
    rcases Path.parent?_cases above with ⟨rfl, relative⟩ | ⟨-, same⟩
    · rw [relative]
      rfl
    · rw [same]
  have same : ns' = Path.names parent := by
    have single : Path.names (Path.last output ++ ".tmp") = [Path.last output ++ ".tmp"] := by
      rw [Path.names_eq, Path.pieces_of_not_mem plain, Path.leading_cons (last ▸ proper')]
      rfl
    rw [eq, Path.names_join parent relative, single] at names₂
    exact (List.append_inj_left' names₂ rfl).symm
  rw [start, same] at leads'
  obtain rfl := leads.unique leads'
  exact ⟨q, rfl, by rw [last]⟩

theorem beside_ne_output (located : d.locate false output = .ok o)
    (proper : ¬ (Path.last output = [] ∨ Path.last output = ".")) (inside : Path.last output ≠ "..")
    (located' : d.locate false (beside output) = .ok l) : l ≠ o := by
  obtain ⟨q, rfl, rfl⟩ := exists_directory located proper inside located'
  intro same
  have length := congrArg List.length (List.singleton_inj.1 (List.append_inj' same rfl).2)
  rw [List.length_append, Nat.add_eq_left] at length
  exact absurd length (by decide)

/-- A document has come to its place, and the file beside it is gone. -/
structure Moved (output : Text) (content : Bytes) (executable : Bool) (d d' : Disk) (o l : Location) :
    Prop where
  located : d.locate false output = .ok o
  proper : ¬ (Path.last output = [] ∨ Path.last output = ".")
  inside : Path.last output ≠ ".."
  next : d.locate false (beside output) = .ok l
  leaf : ∀ e, d.entry? l = some e → e.isLeaf = true
  notDir : d.entry? o ≠ some .directory
  here : d'.here = d.here
  same : ∀ k, k ≠ o → k ≠ l → d'.entry? k = d.entry? k
  /-- A device would have kept nothing of the document. -/
  placed : d.entry? l = some .device ∧ d'.entry? o = some .device ∨
    d'.entry? o = some (.file content executable)
  gone : d'.entry? l = none

/-- A document could not come to its place, and the file beside it is gone. -/
structure Undone (output : Text) (d d' : Disk) (l : Location) : Prop where
  next : d.locate false (beside output) = .ok l
  leaf : ∀ e, d.entry? l = some e → e.isLeaf = true
  here : d'.here = d.here
  same : ∀ k ≠ l, d'.entry? k = d.entry? k
  gone : d'.entry? l = none
  unfit : ∀ o e, d.locate true output = .ok o → d.entry? o = some e →
    e = .directory ∨ Path.last output = ".."

/-- A copy of a document stands beside its output; a device kept nothing of it. -/
structure Beside (output : Text) (content : Bytes) (executable : Bool) (d d' : Disk) (l : Location) : Prop where
  next : d.locate false (beside output) = .ok l
  leaf : ∀ e, d.entry? l = some e → e.isLeaf = true
  here : d'.here = d.here
  same : ∀ k ≠ l, d'.entry? k = d.entry? k
  written : d.entry? l = some .device ∧ d'.entry? l = some .device ∨ d'.entry? l = some (.file content executable)

variable {content : Bytes} {executable : Bool} {d' : Disk}

theorem isLeaf_of_written {before : Prop}
    (h : before ∧ d'.entry? l = some .device ∨ d'.entry? l = some (.file content executable)) :
    ∀ e, d'.entry? l = some e → e.isLeaf = true := by
  intro e there
  rcases h with ⟨-, device⟩ | file
  · rw [device] at there
    cases there
    rfl
  · rw [file] at there
    cases there
    rfl

namespace Beside

variable {d₁ d₂ : Disk} {e : Obstacle} (h : Beside output content executable d d₁ l)
include h

theorem ne_root : l ≠ [] := ne_root_of_leaf h.leaf

theorem exists_entry : ∃ e, d₁.entry? l = some e := by
  rcases h.written with ⟨-, device⟩ | file
  · exact ⟨_, device⟩
  · exact ⟨_, file⟩

theorem ways : Ways d d₁ := ways_of_leaf h.here h.same h.leaf (isLeaf_of_written h.written)

theorem ways_back : Ways d₁ d :=
  ways_of_leaf h.here.symm (fun k other => (h.same k other).symm) (isLeaf_of_written h.written) h.leaf

theorem moved (renamed : d₁.rename (beside output) output = .ok d₂) : ∃ o, Moved output content executable d d₂ o l := by
  obtain ⟨e, there⟩ := h.exists_entry
  obtain ⟨l', o, e', old, new, proper, inside, there', notDir, rfl⟩ := rename_eq_ok_iff.1 renamed
  obtain rfl : l = l' := Except.ok.inj ((locate_ways h.ways h.next).symm.trans old)
  obtain rfl := Option.some.inj (there.symm.trans there')
  have root := Disk.ne_root notDir
  have located := locate_ways h.ways_back new
  have other := beside_ne_output located proper inside h.next
  have entry (k : Location) : Disk.entry? ((d₁.erase l).put o e) k =
      if k = o then some e else if k = l ∧ k ≠ [] then none else d₁.entry? k := by
    rw [entry?_put root, entry?_erase]
  refine ⟨o, located, proper, inside, h.next, h.leaf, ?_, h.here, fun k ko kl => ?_, ?_, ?_⟩
  · rwa [← h.same o other.symm]
  · rw [entry, if_neg ko, if_neg fun at_ => kl at_.1, h.same k kl]
  · rw [entry, if_pos rfl, ← there]
    exact h.written
  · rw [entry, if_neg other, if_pos ⟨rfl, h.ne_root⟩]

theorem remove_eq : d₁.remove (beside output) = .ok (d₁.erase l) := by
  obtain ⟨e, there⟩ := h.exists_entry
  refine Except.bind_eq_ok_iff.2 ⟨l, locate_ways h.ways h.next, ?_⟩
  rw [there]
  cases e with
  | directory => cases isLeaf_of_written h.written _ there
  | _ => rfl

/-- Whatever else is at the output, the copy could be moved there. -/
theorem exists_rename {o : Location} {e : Entry} (found : d.locate true output = .ok o) (entry : d.entry? o = some e)
    (notDir : e ≠ .directory) (inside : Path.last output ≠ "..") :
    ∃ d₂, d₁.rename (beside output) output = .ok d₂ := by
  obtain ⟨e', there⟩ := h.exists_entry
  obtain ⟨e₁, entry₁, notDir₁⟩ : ∃ e, d₁.entry? o = some e ∧ e ≠ .directory := by
    by_cases at_ : o = l
    · subst at_
      refine ⟨e', there, ?_⟩
      rintro rfl
      cases isLeaf_of_written h.written _ there
    · exact ⟨e, (h.same o at_).trans entry, notDir⟩
  exact Disk.exists_rename (locate_ways h.ways found) entry₁ notDir₁ inside (locate_ways h.ways h.next) there

theorem undone (failed : d₁.rename (beside output) output = .error e) :
    Undone output d ((d₁.remove (beside output)).toOption.getD d₁) l := by
  rw [h.remove_eq]
  refine ⟨h.next, h.leaf, h.here, fun k other => ?_, ?_, fun o e' found entry => ?_⟩
  · exact (entry?_erase l k).trans ((if_neg fun at_ => other at_.1).trans (h.same k other))
  · exact (entry?_erase l l).trans (if_pos ⟨rfl, h.ne_root⟩)
  · by_contra fit
    obtain ⟨notDir, inside⟩ := not_or.1 fit
    obtain ⟨d₂, moved⟩ := h.exists_rename found entry notDir inside
    rw [failed] at moved
    cases moved

end Beside

theorem Moved.leaf_placed (h : Moved output content executable d d' o l) :
    ∀ e, d'.entry? o = some e → e.isLeaf = true := isLeaf_of_written h.placed

theorem Moved.narrows (h : Moved output content executable d d' o l) : Narrows d d' where
  here := h.here
  dirs k dir := by
    by_cases ko : k = o
    · subst ko
      cases h.leaf_placed _ dir
    by_cases kl : k = l
    · simp [kl, h.gone] at dir
    · rwa [← h.same k ko kl]
  links k t there := by
    by_cases ko : k = o
    · subst ko
      cases h.leaf_placed _ there
    by_cases kl : k = l
    · simp [kl, h.gone] at there
    · rwa [← h.same k ko kl]

/-- Names lead on where they led, unless the document took the place of a link. -/
theorem Moved.ways (h : Moved output content executable d d' o l) (noLink : ∀ t, d.entry? o ≠ some (.link t)) :
    Ways d d' := by
  have kept {k : Location} {e : Entry} (there : d.entry? k = some e) (notLeaf : e.isLeaf = false)
      (other : k ≠ o) : d'.entry? k = some e := by
    rwa [h.same k other]
    rintro rfl
    rw [h.leaf e there] at notLeaf
    cases notLeaf
  refine ⟨h.here, fun k dir => kept dir rfl ?_, fun k t there => kept there rfl ?_, h.narrows.links⟩
  · rintro rfl
    exact h.notDir dir
  · rintro rfl
    exact noLink t there

/-- Names lead on where they lead with the document in its place. -/
theorem Moved.ways_put (h : Moved output content executable d d' o l) :
    Ways (d.put o (.file content executable)) d' := by
  have root := Disk.ne_root h.notDir
  have kept {k : Location} {e : Entry} (there : Disk.entry? (d.put o (.file content executable)) k = some e)
      (notLeaf : e.isLeaf = false) : d'.entry? k = some e := by
    rw [entry?_put root] at there
    split at there
    · obtain rfl := Option.some.inj there
      cases notLeaf
    · rwa [h.same k ‹_›]
      rintro rfl
      rw [h.leaf e there] at notLeaf
      cases notLeaf
  refine ⟨h.here, fun k dir => kept dir rfl, fun k t there => kept there rfl, fun k t there => ?_⟩
  rw [entry?_put root, if_neg]
  · exact h.narrows.links k t there
  · rintro rfl
    cases h.leaf_placed _ there

theorem Undone.ways (h : Undone output d d' l) : Ways d d' :=
  ways_of_leaf h.here h.same h.leaf (by simp [h.gone])

theorem ensures_place {world : World} (noLink : ∀ d l t, Extends world.disk d →
      d.locate false (beside output) = .ok l → d.entry? l ≠ some (.link t)) :
    (place produced output).Ensures world
      (fun _ world' => ∃ d o l content executable, Paves (Path.parents output) world.disk d ∧
        d.find? produced = some (.file content executable) ∧
          Moved output content executable d world'.disk o l ∧
            world'.calls = world.calls ∧ world'.answers = world.answers)
      fun _ world' => ∃ d, Paves (Path.parents output) world.disk d ∧
        (world'.disk = d ∨ ∃ l, Undone output d world'.disk l) := by
  have rest {d : Disk} (paved : Paves (Path.parents output) world.disk d) : Run.Ensures (do
      Run.change (.outputNotWritten output) (·.copy produced (beside output))
      try Run.change (.outputNotWritten output) (·.rename (beside output) output)
      catch e =>
        modify fun w : World => { w with disk := (w.disk.remove (beside output)).toOption.getD w.disk }
        throw e) { world with disk := d }
      (fun _ world' => ∃ d o l content executable, Paves (Path.parents output) world.disk d ∧
        d.find? produced = some (.file content executable) ∧
          Moved output content executable d world'.disk o l ∧
            world'.calls = world.calls ∧ world'.answers = world.answers)
      fun _ world' => ∃ d, Paves (Path.parents output) world.disk d ∧
        (world'.disk = d ∨ ∃ l, Undone output d world'.disk l) := by
    rw [Run.ensures_bind, Run.ensures_change]
    refine ⟨fun d₁ copied => ?_, fun _ _ => ⟨d, paved, .inl rfl⟩⟩
    obtain ⟨l, content, executable, found, next, leaf, here, same, written⟩ :=
      copy_eq_ok copied fun l t => noLink d l t paved.deepens.1.extends
    have copy : Beside output content executable d d₁ l := ⟨next, leaf, here, same, written⟩
    rw [Run.ensures_tryCatch, Run.ensures_change]
    refine ⟨fun d₂ renamed => ?_, fun _ failed => ⟨d, paved, .inr ⟨l, copy.undone failed⟩⟩⟩
    obtain ⟨o, moved⟩ := copy.moved renamed
    exact ⟨d, o, l, content, executable, paved, found, moved, rfl, rfl⟩
  rw [place]
  dsimp only
  split
  next parent parent_eq =>
    have above : parent :: Path.parents parent = Path.parents output := by
      obtain ⟨found, -⟩ := Option.filter_eq_some_iff.1 parent_eq
      rw [Path.parents.eq_def output]
      split
      next none => simp [none] at found
      next q some =>
        obtain rfl := Option.some.inj (found.symm.trans some)
        rfl
    rw [Run.ensures_bind, Run.ensures_makeDirectories]
    refine ⟨fun d made => ?_, fun _ _ => ⟨_, ?_, .inl rfl⟩⟩
    · exact rest (above ▸ paves_makeChain made)
    · exact above ▸ paves_failedChain _ _
  · exact rest .refl

end Production

end FloatFlattening
