import FloatFlattening.Numbering.OfOutline
import Mathlib.Data.List.Nodup
/-!
What the steps of a numbering register. An entry is a label without its number and line. Each step
adds its entries to those there are, or it fails: because a label is there already, because a figure
has no letter left, or because a further name is for a label that is not there.
-/

namespace FloatFlattening

inductive Label.Entry
  | own (id : Text) (kind : Label.Kind) (parent : Option Text) (letter : Option Char)
  | further (id target : Text)
  deriving DecidableEq, Repr

namespace Label.Entry

def id : Label.Entry → Text
  | own id _ _ _ | further id _ => id

@[simp] theorem id_own (id : Text) (kind : Label.Kind) (parent : Option Text)
    (letter : Option Char) : (own id kind parent letter).id = id := rfl

@[simp] theorem id_further (id target : Text) : (further id target).id = id := rfl

end Label.Entry

def Label.entry (l : Label) : Label.Entry :=
  match l.aliasOf with
  | none => .own l.id l.kind l.parent l.letter
  | some target => .further l.id target

@[simp] theorem Label.id_entry (l : Label) : l.entry.id = l.id := by
  rw [entry]
  split <;> rfl

namespace Numbering

variable {n n' : Numbering} {id : Text} {es es' : List Label.Entry} {seats seats' : List Text}
  {full full' lost lost' : Prop} {α β : Type}

def ids (n : Numbering) : List Text := n.labels.map Label.id

def entries (n : Numbering) : List Label.Entry := n.labels.map Label.entry

@[simp] theorem map_id_entries (n : Numbering) : n.entries.map Label.Entry.id = n.ids := by
  simp [entries, ids]

theorem get?_eq_none_iff : n.get? id = none ↔ id ∉ n.ids := by
  simp [get?, ids, List.find?_eq_none]

theorem mem_of_get? {l : Label} (h : n.get? id = some l) : l ∈ n.labels ∧ l.id = id :=
  ⟨List.mem_of_find?_eq_some h, by simpa using List.find?_some h⟩

theorem mem_ids_of_get? {l : Label} (h : n.get? id = some l) : id ∈ n.ids := by
  by_contra none
  simp [get?_eq_none_iff.2 none] at h

/-- No label is there twice, seats are taken at labels that are there, and letters are those of
panels. -/
structure Sound (n : Numbering) : Prop where
  nodup : n.ids.Nodup
  seats : n.seats ⊆ n.ids
  letters : ∀ l ∈ n.labels, ∀ x ∈ l.letter, ∃ i, Panel.letter? i = some x

theorem Sound.exists_get? (h : n.Sound) {e : Label.Entry} (he : e ∈ n.entries) :
    ∃ l, n.get? e.id = some l ∧ l.entry = e := by
  obtain ⟨l, hl, rfl⟩ := List.mem_map.1 he
  cases found : n.get? l.id with
  | none => exact absurd (List.mem_map_of_mem hl) (get?_eq_none_iff.1 found)
  | some l' =>
    obtain ⟨hl', eq⟩ := mem_of_get? found
    obtain rfl := List.inj_on_of_nodup_map h.nodup hl' hl eq
    exact ⟨l', by simpa using found, rfl⟩

/-- Entries and seats have been added. -/
structure Grows (n : Numbering) (es : List Label.Entry) (seats : List Text) (n' : Numbering) : Prop where
  entries : n'.entries = n.entries ++ es
  seats : n'.seats = n.seats ++ seats
  sound : n.Sound → n'.Sound

theorem Grows.ids (h : Grows n es seats n') : n'.ids = n.ids ++ es.map Label.Entry.id := by
  rw [← map_id_entries, h.entries, List.map_append, map_id_entries]

theorem Grows.trans {n'' : Numbering} (h : Grows n es seats n') (k : Grows n' es' seats' n'') :
    Grows n (es ++ es') (seats ++ seats') n'' where
  entries := by rw [k.entries, h.entries, List.append_assoc]
  seats := by rw [k.seats, h.seats, List.append_assoc]
  sound hn := k.sound (h.sound hn)

/-- A label is registered a second time. -/
def IsDuplicate (f : Fault) : Prop := ∃ id first second, f = .duplicateLabel id first second

/-- A figure has more panels than letters. -/
def IsFull (f : Fault) : Prop :=
  ∃ figure line, f = .malformed "\\label" line
    ("figure '" ++ figure ++ "' has more than " ++ Text.ofNat Panel.maxCount ++ " panels")

/-- What comes of a step that is to add `es` and `seats`: `full` tells whether letters run out and
`lost` whether a further name has no label. -/
inductive Outcome (n : Numbering) (es : List Label.Entry) (seats : List Text) (full lost : Prop) :
    EStateM.Result Fault Numbering α → Prop
  | grown {a : α} {n' : Numbering} (grows : Grows n es seats n') (notFull : ¬ full) :
      Outcome n es seats full lost (.ok a n')
  | duplicate {f : Fault} {n' : Numbering} (duplicate : IsDuplicate f)
      (twice : ¬ (n.ids ++ es.map Label.Entry.id).Nodup) : Outcome n es seats full lost (.error f n')
  | outOfLetters {f : Fault} {n' : Numbering} (isFull : IsFull f) (isSo : full) :
      Outcome n es seats full lost (.error f n')
  | lost {f : Fault} {n' : Numbering} (isSo : lost) : Outcome n es seats full lost (.error f n')

namespace Outcome

theorem imp {r : EStateM.Result Fault Numbering α} (h : Outcome n es seats full lost r)
    (hf : full ↔ full') (hl : lost → lost') : Outcome n es seats full' lost' r := by
  cases h with
  | grown grows notFull => exact .grown grows (hf.not.1 notFull)
  | duplicate duplicate twice => exact .duplicate duplicate twice
  | outOfLetters isFull isSo => exact .outOfLetters isFull (hf.1 isSo)
  | lost isSo => exact .lost (hl isSo)

theorem bind {x : Change α} {g : α → Change β} (hn : n.Sound)
    (h : Outcome n es seats full lost (x.run n))
    (k : ∀ a n', n'.Sound → Grows n es seats n' →
      Outcome n' es' seats' full' lost' ((g a).run n')) :
    Outcome n (es ++ es') (seats ++ seats') (full ∨ full') (lost ∨ lost') ((x >>= g).run n) := by
  rw [EStateM.run_bind]
  cases hx : x.run n with
  | ok a n' =>
    rw [hx] at h
    cases h with
    | grown grows notFull =>
      have k := k a n' (grows.sound hn) grows
      cases hg : (g a).run n' with
      | ok b n'' =>
        rw [hg] at k
        cases k with
        | grown grows' notFull' =>
          simpa only [hg] using .grown (grows.trans grows') (not_or.2 ⟨notFull, notFull'⟩)
      | error f n'' =>
        rw [hg] at k
        simp only [hg]
        cases k with
        | duplicate duplicate twice =>
          refine .duplicate duplicate ?_
          rwa [List.map_append, ← List.append_assoc, ← grows.ids]
        | outOfLetters isFull isSo => exact .outOfLetters isFull (.inr isSo)
        | lost isSo => exact .lost (.inr isSo)
  | error f n' =>
    rw [hx] at h
    cases h with
    | duplicate duplicate twice =>
      refine .duplicate duplicate fun nodup => twice ?_
      rw [List.map_append, ← List.append_assoc] at nodup
      exact nodup.of_append_left
    | outOfLetters isFull isSo => exact .outOfLetters isFull (.inl isSo)
    | lost isSo => exact .lost (.inl isSo)

theorem discard {x : Change α} (h : Outcome n es seats full lost (x.run n)) :
    Outcome n es seats full lost ((discard x).run n) := by
  have run : (Functor.discard x).run n = (x >>= fun _ => pure ⟨⟩).run n := rfl
  rw [run, EStateM.run_bind]
  generalize x.run n = r at h
  cases h with
  | grown grows notFull => exact .grown grows notFull
  | duplicate duplicate twice => exact .duplicate duplicate twice
  | outOfLetters isFull isSo => exact .outOfLetters isFull isSo
  | lost isSo => exact .lost isSo

end Outcome

end Numbering

end FloatFlattening
