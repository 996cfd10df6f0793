import FloatFlattening.Flattening.Reference
import FloatFlattening.Proofs.Numbering.Entry
/-!
What becomes of a reference to a registered label, by the entry of the label and, for a further
name, by the entry of the label that it is for.
-/

namespace FloatFlattening

variable {n : Numbering} {l l' : Label} {id target figure source : Text} {kind : Label.Kind}
  {letter : Char} {flattened : List Text} {line : Nat}

namespace Numbering

theorem Sound.exists_own (hn : n.Sound) {parent : Option Text} {letter : Option Char}
    (h : .own id kind parent letter ∈ n.entries) :
    ∃ l, n.get? id = some l ∧ l.aliasOf = none ∧ l.id = id ∧ l.kind = kind ∧ l.parent = parent ∧
      l.letter = letter := by
  obtain ⟨l, get, entry⟩ := hn.exists_get? h
  refine ⟨l, get, ?_⟩
  rw [Label.entry] at entry
  split at entry
  next own => simpa [own] using entry
  next => cases entry

theorem Sound.exists_further (hn : n.Sound) (h : .further id target ∈ n.entries) :
    ∃ l, n.get? id = some l ∧ l.aliasOf = some target := by
  obtain ⟨l, get, entry⟩ := hn.exists_get? h
  refine ⟨l, get, ?_⟩
  rw [Label.entry] at entry
  split at entry
  next => cases entry
  next target' further =>
    rw [further]
    exact congrArg some (Label.Entry.further.inj entry).2

theorem follow_own (count : Nat) (h : l.aliasOf = none) : n.follow count l = l := by
  cases count with
  | zero => rfl
  | succ count => simp [follow, h]

theorem rootOf_own (h : l.aliasOf = none) : n.rootOf l = l := follow_own 8 h

theorem follow_succ (h : l.aliasOf = some target) (ht : n.get? target = some l') (count : Nat) :
    n.follow (count + 1) l = n.follow count l' := by
  simp only [follow, h, Option.bind_some, ht]

theorem rootOf_further (h : l.aliasOf = some target) (ht : n.get? target = some l')
    (own : l'.aliasOf = none) : n.rootOf l = l' := by
  rw [rootOf, follow_succ h ht, follow_own 7 own]

end Numbering

namespace Visit

open Numbering

theorem markup_of (h : n.get? target = some l) :
    (of n flattened target line).markup source = (n.exchanged? flattened l).getD source := by
  simp only [of, h]
  cases n.exchanged? flattened l <;> rfl

/-- A label outside panels is referred to as before. -/
theorem markup_of_own (hn : n.Sound) (h : .own id kind none none ∈ n.entries) :
    (of n flattened id line).markup source = source := by
  obtain ⟨l, get, own, -, -, parent, -⟩ := hn.exists_own h
  rw [markup_of get, exchanged?, rootOf_own own, Label.flattenedPanel?, parent]
  simp [own]

theorem markup_of_panel (hn : n.Sound) (h : .own id .panel (some figure) (some letter) ∈ n.entries) :
    (of n flattened id line).markup source =
      if figure ∈ flattened then Reference.markup figure ++ "(" ++ [letter] ++ ")" else source := by
  obtain ⟨l, get, own, -, kind, parent, letter⟩ := hn.exists_own h
  rw [markup_of get, exchanged?, rootOf_own own, Label.flattenedPanel?, kind, parent, letter]
  by_cases mem : figure ∈ flattened <;> simp [mem, own]

theorem markup_of_further (hn : n.Sound) (h : .further id target ∈ n.entries)
    (ht : .own target kind none none ∈ n.entries) :
    (of n flattened id line).markup source =
      if target ∈ flattened then Reference.markup target else source := by
  obtain ⟨l, get, further⟩ := hn.exists_further h
  obtain ⟨l', get', own, id, -, parent, -⟩ := hn.exists_own ht
  rw [markup_of get, exchanged?, rootOf_further further get' own, Label.flattenedPanel?, parent, id]
  by_cases mem : target ∈ flattened <;> simp [mem, further]

/-- A further name of a panel is exchanged like the panel's own, which names no float. -/
theorem markup_of_further_panel (hn : n.Sound) (h : .further id target ∈ n.entries)
    (ht : .own target .panel (some figure) (some letter) ∈ n.entries) (not : target ∉ flattened) :
    (of n flattened id line).markup source =
      if figure ∈ flattened then Reference.markup figure ++ "(" ++ [letter] ++ ")" else source := by
  obtain ⟨l, get, further⟩ := hn.exists_further h
  obtain ⟨l', get', own, id, kind, parent, letter⟩ := hn.exists_own ht
  rw [markup_of get, exchanged?, rootOf_further further get' own, Label.flattenedPanel?, kind, parent,
    letter]
  by_cases mem : figure ∈ flattened <;> simp [mem, id, not]

end Visit

end FloatFlattening
