import Mathlib.Logic.Hydra
import FloatFlattening.Proofs.Disk.Copy
/-!
Copying a directory by a walk. The walk visits one entry after the other, and what it copies is on the disk when it
goes on. Where the place of the copy is in a directory that is left out, it never comes upon its own copies, so it
ends, and has made what copying the tree at once makes.
-/

namespace FloatFlattening.Disk

/-- A directory that is not copied, for its name or its place. -/
def Omitted (excluded : List Location) (l : Location) : Prop :=
  (∃ name ∈ l.getLast?, name ∈ skippedNames) ∨ l ∈ excluded

/-- A place, given from `source`, that is in a directory below `source` that is not copied. -/
def Inside (source : Location) (excluded : List Location) (below : Location) : Prop :=
  ∃ up, up ≠ [] ∧ up <+: below ∧ up ≠ below ∧ Omitted excluded (source ++ up)

/-- A walk: the disk, and the places, given from the directory that is copied, that are still to be visited. -/
structure Walk where
  disk : Disk
  pending : List Location

/-- A visit. The names in a directory are those that are there by now, in any order. -/
inductive Visit (source target : Location) (excluded : List Location) : Walk → Walk → Prop
  | skip {d : Disk} {below : Location} {rest : List Location} (dir : d.entry? (source ++ below) = some .directory)
      (ne : below ≠ []) (omitted : Omitted excluded (source ++ below)) :
      Visit source target excluded ⟨d, below :: rest⟩ ⟨d, rest⟩
  | enter {d : Disk} {below : Location} {rest : List Location} {names : List Text}
      (dir : d.entry? (source ++ below) = some .directory)
      (kept : below = [] ∨ ¬ Omitted excluded (source ++ below)) (once : names.Nodup)
      (listed : ∀ name, name ∈ names ↔ (d.entry? (source ++ (below ++ [name]))).isSome) :
      Visit source target excluded ⟨d, below :: rest⟩
        ⟨d.put (target ++ below) .directory, names.map (below ++ [·]) ++ rest⟩
  | copy {d : Disk} {below : Location} {rest : List Location} {content : Bytes} {executable : Bool}
      (file : d.entry? (source ++ below) = some (.file content executable)) :
      Visit source target excluded ⟨d, below :: rest⟩ ⟨d.put (target ++ below) (.file content executable), rest⟩

/-- A walk ends, whichever way it goes on, and what holds of the disk then. -/
structure Ends (source target : Location) (excluded : List Location) (w : Walk) (P : Disk → Prop) : Prop where
  acc : Acc (fun w' w => Visit source target excluded w w') w
  made (w' : Walk) : Relation.ReflTransGen (Visit source target excluded) w w' →
    (∀ w'', ¬ Visit source target excluded w' w'') → P w'.disk

variable {d d' : Disk} {source target below up l : Location} {excluded : List Location} {e : Entry} {w w' : Walk}

theorem not_omitted_iff : ¬ Omitted excluded l ↔
    l.getLast?.any (· ∈ skippedNames) = false ∧ l ∉ excluded := by
  rw [Omitted, not_or, Option.any_eq_false_iff_get]
  cases l.getLast? <;> simp

theorem isSkipped_eq_false_iff : d.isSkipped source excluded below = false ↔
    ∀ up, up ≠ [] → up <+: below → d.entry? (source ++ up) = some .directory → ¬ Omitted excluded (source ++ up) := by
  simp only [isSkipped_eq_false, not_omitted_iff]
  constructor
  · intro h up ne front dir
    obtain ⟨k, hk⟩ := Nat.exists_eq_add_one_of_ne_zero (List.length_pos_of_ne_nil ne).ne'
    have taken : up = below.take (k + 1) := hk ▸ List.prefix_iff_eq_take.1 front
    rw [taken] at dir ⊢
    exact h k (by have := front.length_le; omega) dir
  · intro h k hk dir
    refine h _ (fun nil => ?_) (List.take_prefix _ _) dir
    rcases List.take_eq_nil_iff.1 nil with zero | rfl
    · omega
    · simp at hk

/-- What is in a directory that is not skipped is skipped only for itself. -/
theorem isSkipped_concat {name : Text} (h : d.isSkipped source excluded below = false)
    (kept : d.entry? (source ++ (below ++ [name])) = some .directory → ¬ Omitted excluded (source ++ (below ++ [name]))) :
    d.isSkipped source excluded (below ++ [name]) = false := by
  rw [isSkipped_eq_false_iff] at h ⊢
  intro up ne front dir
  rcases List.prefix_concat_iff.1 front with rfl | front
  · exact kept dir
  · exact h up ne front dir

/-- What is below a place is below something in it. -/
theorem Sound.exists_first {b : Location} (sound : d.Sound) (there : (d.entry? (source ++ b)).isSome)
    (front : below <+: b) (ne : b ≠ below) :
    ∃ name more, b = below ++ name :: more ∧ (d.entry? (source ++ (below ++ [name]))).isSome := by
  obtain ⟨_ | ⟨name, more⟩, rfl⟩ := front
  · simp at ne
  · refine ⟨name, more, rfl, ?_⟩
    cases more with
    | nil => exact there
    | cons next more =>
      obtain ⟨e, there⟩ := Option.isSome_iff_exists.1 there
      have split : source ++ (below ++ name :: next :: more) = source ++ (below ++ [name]) ++ next :: more := by simp
      rw [split] at there
      rw [sound.above there (by simp)]
      rfl

theorem Sound.dir_of_prefix {b : Location} (sound : d.Sound) (there : (d.entry? (source ++ b)).isSome)
    (front : below <+: b) (ne : b ≠ below) : d.entry? (source ++ below) = some .directory := by
  obtain ⟨more, rfl⟩ := front
  obtain ⟨e, there⟩ := Option.isSome_iff_exists.1 there
  rw [← List.append_assoc] at there
  exact sound.above there fun nil => ne (by simp [nil])

/-- A file is skipped for the directories that it is in. -/
theorem Sound.isSkipped_file (sound : d.Sound) {content : Bytes} {executable : Bool}
    (file : d.entry? (source ++ below) = some (.file content executable)) :
    d.isSkipped source excluded below = false ↔ ¬ Inside source excluded below := by
  rw [isSkipped_eq_false_iff]
  constructor
  · rintro h ⟨up, ne, front, strict, omitted⟩
    exact h up ne front (sound.dir_of_prefix (by simp [file]) front strict.symm) omitted
  · intro out up ne front dir omitted
    refine out ⟨up, ne, front, ?_, omitted⟩
    rintro rfl
    rw [file] at dir
    cases dir

/-- There are files and directories only. -/
def Plain (d : Disk) (source : Location) : Prop :=
  ∀ below e, d.entry? (source ++ below) = some e → e = .directory ∨ ∃ content executable, e = .file content executable

/-- What a copy needs that is made by a walk: nothing is at its place yet, and the directory of that place is left
out, and is not the one to copy. -/
structure Copiable (d : Disk) (source target : Location) (excluded : List Location) : Prop where
  sound : d.Sound
  dir : d.entry? source = some .directory
  free : d.entry? target = none
  out : target.dropLast ∈ excluded
  apart : source ≠ target.dropLast
  plain : d.Plain source

/-- How far a walk has come that began on the disk `d`: outside the copy nothing has changed, and what is missing of
the copy is at or below places that are still to be visited. -/
structure Underway (d : Disk) (source target : Location) (excluded : List Location) (w : Walk) : Prop where
  outside (l : Location) : ¬ target <+: l → w.disk.entry? l = d.entry? l
  copied (below : Location) (e : Entry) : w.disk.entry? (target ++ below) = some e →
    Disk.entry? (d.copyTree source excluded target) (target ++ below) = some e
  missing (below : Location) (e : Entry) : Disk.entry? (d.copyTree source excluded target) (target ++ below) = some e →
    w.disk.entry? (target ++ below) = some e ∨ ∃ p ∈ w.pending, p <+: below
  pending (p : Location) : p ∈ w.pending →
    (d.entry? (source ++ p)).isSome ∧ d.isSkipped source excluded p.dropLast = false

namespace Copiable

theorem target_ne_nil (h : Copiable d source target excluded) : target ≠ [] := ne_root_of_none h.free

/-- Nothing that is there is in the place of the copy. -/
theorem not_prefix (h : Copiable d source target excluded) (there : (d.entry? l).isSome) : ¬ target <+: l := by
  rintro ⟨below, rfl⟩
  simp [h.sound.nothing_below h.free] at there

theorem start (h : Copiable d source target excluded) : Underway d source target excluded ⟨d, [[]]⟩ where
  outside _ _ := rfl
  copied below e there := by simp [h.sound.nothing_below h.free] at there
  missing below e _ := .inr ⟨[], List.mem_singleton_self _, List.nil_prefix⟩
  pending p hp := by
    obtain rfl := List.mem_singleton.1 hp
    exact ⟨by simp [h.dir], rfl⟩

/-- What is in the copy: what is in the directory and not skipped. -/
theorem entry?_copy (h : Copiable d source target excluded) :
    Disk.entry? (d.copyTree source excluded target) (target ++ below) = some e ↔
      d.isSkipped source excluded below = false ∧ d.entry? (source ++ below) = some e := by
  have same {e : Entry} (there : d.entry? (source ++ below) = some e) : d.copied? (source ++ below) e = some e := by
    rcases h.plain below e there with rfl | ⟨content, executable, rfl⟩ <;> rfl
  rw [entry?_copyTree h.sound h.free]
  constructor
  · rintro (⟨rfl, rfl⟩ | ⟨-, kept, e₀, there, copied⟩)
    · exact ⟨rfl, by rw [List.append_nil, h.dir]⟩
    · rw [same there] at copied
      exact ⟨kept, copied ▸ there⟩
  · rintro ⟨kept, there⟩
    by_cases here : below = []
    · subst here
      rw [List.append_nil, h.dir] at there
      exact .inl ⟨rfl, (Option.some.inj there).symm⟩
    · exact .inr ⟨here, kept, e, there, same there⟩

/-- The files in the copy. -/
theorem file_copy (h : Copiable d source target excluded) {content : Bytes} {executable : Bool} :
    Disk.entry? (d.copyTree source excluded target) (target ++ below) = some (.file content executable) ↔
      d.entry? (source ++ below) = some (.file content executable) ∧ ¬ Inside source excluded below := by
  rw [h.entry?_copy, and_comm]
  exact and_congr_right fun file => h.sound.isSkipped_file file

end Copiable

/-- The names in a directory. -/
theorem exists_names (d : Disk) (l : Location) :
    ∃ names : List Text, names.Nodup ∧ ∀ name, name ∈ names ↔ (d.entry? (l ++ [name])).isSome := by
  refine ⟨((d.entries.map Prod.fst).filterMap fun k => if k.dropLast = l then k.getLast? else none).dedup,
    List.nodup_dedup _, fun name => ?_⟩
  have key (k : Location) : (if k.dropLast = l then k.getLast? else none) = some name ↔ k = l ++ [name] := by
    rw [Option.ite_none_right_eq_some, List.getLast?_eq_some_iff]
    constructor
    · rintro ⟨rfl, front, rfl⟩
      rw [List.dropLast_concat]
    · rintro rfl
      exact ⟨List.dropLast_concat, l, rfl⟩
  simp only [List.mem_dedup, List.mem_filterMap, key, exists_eq_right, List.mem_map]
  rw [entry?_of_ne_nil (by simp), ← not_iff_not, Option.not_isSome_iff_eq_none, List.lookup_eq_none_iff]
  simp only [not_exists, not_and, bne_iff_ne]
  exact ⟨fun h p hp eq => h p hp eq.symm, fun h p hp eq => h p hp eq.symm⟩

namespace Underway

variable {rest : List Location}

/-- What is to be visited is as it was. -/
theorem entry?_pending (way : Underway d source target excluded ⟨d', below :: rest⟩)
    (h : Copiable d source target excluded) : d'.entry? (source ++ below) = d.entry? (source ++ below) :=
  way.outside _ (h.not_prefix (way.pending below List.mem_cons_self).1)

/-- What is visited is copied, and what is found there is to be visited. -/
theorem put (way : Underway d source target excluded ⟨d', below :: rest⟩) (h : Copiable d source target excluded)
    (more : List Location) (kept : d.isSkipped source excluded below = false) (there : d.entry? (source ++ below) = some e)
    (found : ∀ p ∈ more, (d.entry? (source ++ p)).isSome ∧ d.isSkipped source excluded p.dropLast = false)
    (covers : ∀ b, (d.entry? (source ++ b)).isSome → below <+: b → b ≠ below → ∃ p ∈ more, p <+: b) :
    Underway d source target excluded ⟨d'.put (target ++ below) e, more ++ rest⟩ := by
  have ne : target ++ below ≠ [] := List.append_ne_nil_of_left_ne_nil h.target_ne_nil _
  refine ⟨fun l out => ?_, fun b e' there' => ?_, fun b e' there' => ?_, fun p hp => ?_⟩
  · have other : l ≠ target ++ below := by
      rintro rfl
      exact out (List.prefix_append _ _)
    rw [entry?_put ne, if_neg other]
    exact way.outside l out
  · rw [entry?_put ne] at there'
    split at there'
    next same =>
      obtain rfl := List.append_cancel_left same
      obtain rfl := Option.some.inj there'
      exact h.entry?_copy.2 ⟨kept, there⟩
    · exact way.copied b e' there'
  · by_cases same : b = below
    · subst same
      obtain rfl : e = e' := Option.some.inj (there.symm.trans (h.entry?_copy.1 there').2)
      exact .inl (by rw [entry?_put ne, if_pos rfl])
    · rw [entry?_put ne, if_neg fun eq => same (List.append_cancel_left eq)]
      refine (way.missing b e' there').imp_right ?_
      rintro ⟨p, hp, front⟩
      rcases List.mem_cons.1 hp with rfl | hp
      · have known := h.entry?_copy.1 there'
        obtain ⟨q, hq, front'⟩ := covers b (by rw [known.2]; rfl) front same
        exact ⟨q, List.mem_append_left _ hq, front'⟩
      · exact ⟨p, List.mem_append_right _ hp, front⟩
  · rcases List.mem_append.1 hp with hp | hp
    · exact found p hp
    · exact way.pending p (List.mem_cons_of_mem _ hp)

/-- A directory that is entered is not skipped. -/
theorem isSkipped_eq_false (way : Underway d source target excluded ⟨d', below :: rest⟩)
    (kept : d.entry? (source ++ below) = some .directory → below = [] ∨ ¬ Omitted excluded (source ++ below)) :
    d.isSkipped source excluded below = false := by
  rcases below.eq_nil_or_concat with rfl | ⟨up, name, rfl⟩
  · rfl
  · have above := (way.pending _ List.mem_cons_self).2
    rw [List.concat_eq_append] at *
    rw [List.dropLast_concat] at above
    exact isSkipped_concat above fun dir => (kept dir).resolve_left (by simp)

/-- A visit goes on with what a walk has come to. -/
theorem visit (way : Underway d source target excluded w) (h : Copiable d source target excluded)
    (visit : Visit source target excluded w w') : Underway d source target excluded w' := by
  cases visit with
  | @skip d' below rest dir ne omitted =>
    rw [way.entry?_pending h] at dir
    refine ⟨way.outside, way.copied, fun b e there => ?_, fun p hp => way.pending p (List.mem_cons_of_mem _ hp)⟩
    refine (way.missing b e there).imp_right ?_
    rintro ⟨p, hp, front⟩
    rcases List.mem_cons.1 hp with rfl | hp
    · exact absurd omitted (isSkipped_eq_false_iff.1 (h.entry?_copy.1 there).1 p ne front dir)
    · exact ⟨p, hp, front⟩
  | @enter d' below rest names dir kept once listed =>
    rw [way.entry?_pending h] at dir
    have whole := way.isSkipped_eq_false fun _ => kept
    -- The place of the copy is in none of the directories that are entered.
    have elsewhere (name : Text) : ¬ target <+: source ++ (below ++ [name]) := by
      intro inside
      rw [← List.append_assoc] at inside
      rcases List.prefix_concat_iff.1 inside with eq | inside
      · have place : target.dropLast = source ++ below := by rw [eq, List.dropLast_concat]
        rcases kept with rfl | kept
        · exact h.apart (by rw [place, List.append_nil])
        · exact kept (.inr (place ▸ h.out))
      · exact h.not_prefix (by rw [dir]; rfl) inside
    refine way.put h _ whole dir (fun p hp => ?_) fun b there front ne => ?_
    · obtain ⟨name, mem, rfl⟩ := List.mem_map.1 hp
      have there := (listed name).1 mem
      rw [way.outside _ (elsewhere name)] at there
      exact ⟨there, by rwa [List.dropLast_concat]⟩
    · obtain ⟨name, more, rfl, first⟩ := h.sound.exists_first there front ne
      refine ⟨below ++ [name], List.mem_map_of_mem ((listed name).2 ?_), more, by simp⟩
      rwa [way.outside _ (elsewhere name)]
  | @copy d' below rest content executable file =>
    rw [way.entry?_pending h] at file
    have whole := way.isSkipped_eq_false fun dir => by simp [file] at dir
    refine way.put h [] whole file (by simp) fun b there front ne => ?_
    have dir := h.sound.dir_of_prefix there front ne
    simp [file] at dir

theorem run (way : Underway d source target excluded w) (h : Copiable d source target excluded)
    (visits : Relation.ReflTransGen (Visit source target excluded) w w') : Underway d source target excluded w' := by
  induction visits with
  | refl => exact way
  | tail _ visit ih => exact ih.visit h visit

/-- A walk that has nothing more to visit has made the copy. -/
theorem entry?_eq (way : Underway d source target excluded ⟨d', []⟩) (h : Copiable d source target excluded)
    (l : Location) : d'.entry? l = Disk.entry? (d.copyTree source excluded target) l := by
  by_cases inside : target <+: l
  · obtain ⟨below, rfl⟩ := inside
    exact Option.ext fun e => ⟨way.copied below e, fun there => (way.missing below e there).resolve_right (by simp)⟩
  · rw [way.outside l inside]
    exact Option.ext fun e => ⟨(extends_copyTree h.target_ne_nil).keeps l e,
      fun there => (entry?_copyTree_cases there).resolve_right inside⟩

/-- A walk goes on while there is something to visit. -/
theorem exists_visit (way : Underway d source target excluded w) (h : Copiable d source target excluded)
    (more : w.pending ≠ []) : ∃ w', Visit source target excluded w w' := by
  obtain ⟨d', _ | ⟨below, rest⟩⟩ := w
  · exact absurd rfl more
  · obtain ⟨e, there⟩ := Option.isSome_iff_exists.1 (way.pending below List.mem_cons_self).1
    have here := way.entry?_pending h
    rw [there] at here
    rcases h.plain below e there with rfl | ⟨content, executable, rfl⟩
    · by_cases kept : below = [] ∨ ¬ Omitted excluded (source ++ below)
      · obtain ⟨names, once, listed⟩ := exists_names d' (source ++ below)
        exact ⟨_, .enter here kept once (by simpa using listed)⟩
      · rw [not_or, not_not] at kept
        exact ⟨_, .skip here kept.1 kept.2⟩
    · exact ⟨_, .copy here⟩

end Underway

theorem exists_length_le (d : Disk) : ∃ n, ∀ l, (d.entry? l).isSome → l.length ≤ n := by
  refine ⟨(d.entries.map fun entry => entry.1.length).sum, fun l there => ?_⟩
  obtain ⟨e, there⟩ := Option.isSome_iff_exists.1 there
  by_cases root : l = []
  · simp [root]
  · exact List.le_sum_of_mem (List.mem_map.2 ⟨_, mem_entries root there, rfl⟩)

/-- How far it is, at most, from the places to be visited to what is deepest. -/
def Walk.depths (n : Nat) (w : Walk) : Multiset Nat := ↑(w.pending.map fun p => n - p.length)

namespace Underway

/-- Each visit exchanges a place for places that are deeper. -/
theorem cutExpand (way : Underway d source target excluded w') {n : Nat}
    (bound : ∀ l, (d.entry? l).isSome → l.length ≤ n) (visit : Visit source target excluded w w') :
    Relation.CutExpand (· < ·) (w'.depths n) (w.depths n) := by
  cases visit with
  | @skip d' below rest => exact ⟨0, n - below.length, nofun, by simp [Walk.depths, add_comm]⟩
  | @copy d' below rest => exact ⟨0, n - below.length, nofun, by simp [Walk.depths, add_comm]⟩
  | @enter d' below rest names =>
    refine ⟨↑((names.map (below ++ [·])).map fun p => n - p.length), n - below.length, fun k hk => ?_, ?_⟩
    · obtain ⟨p, hp, rfl⟩ := List.mem_map.1 (Multiset.mem_coe.1 hk)
      have le := bound _ (way.pending p (List.mem_append_left _ hp)).1
      obtain ⟨name, -, rfl⟩ := List.mem_map.1 hp
      simp only [List.length_append, List.length_singleton] at le ⊢
      omega
    · simp only [Walk.depths, List.map_append, List.map_cons, ← Multiset.cons_coe, ← Multiset.coe_add]
      rw [← Multiset.singleton_add]
      ac_rfl

end Underway

namespace Copiable

/-- A walk that copies a directory ends, whichever way it goes, and has made the copy then. -/
theorem walk (h : Copiable d source target excluded) :
    Ends source target excluded ⟨d, [[]]⟩ fun d' =>
      ∀ l, d'.entry? l = Disk.entry? (d.copyTree source excluded target) l := by
  obtain ⟨n, bound⟩ := exists_length_le d
  have wf := InvImage.wf (Walk.depths n) (Nat.lt_wfRel.wf.cutExpand)
  have acc (w : Walk) (way : Underway d source target excluded w) :
      Acc (fun w' w => Visit source target excluded w w') w := by
    induction w using wf.induction with
    | _ w ih => exact ⟨w, fun w' visit => ih w' ((way.visit h visit).cutExpand bound visit) (way.visit h visit)⟩
  refine ⟨acc _ h.start, fun w visits ends => ?_⟩
  have way := h.start.run h visits
  obtain ⟨d', pending⟩ := w
  obtain rfl : pending = [] := by
    by_contra more
    obtain ⟨w', visit⟩ := way.exists_visit h more
    exact ends w' visit
  exact way.entry?_eq h

end Copiable

end FloatFlattening.Disk
