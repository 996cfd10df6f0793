import FloatFlattening.Path
import Mathlib.Data.List.TakeWhile
/-!
The names on a path, and how they come apart into those of its parent and its last name.
-/

namespace FloatFlattening.Path

variable {p q name x : Text}

/-- The names of a list that lead somewhere. -/
def leading (names : List Text) : List Text := names.filter fun name => name ≠ [] ∧ name ≠ "."

theorem names_eq (p : Text) : names p = leading (pieces p) := rfl

@[simp] theorem leading_append (a b : List Text) : leading (a ++ b) = leading a ++ leading b :=
  List.filter_append ..

theorem leading_cons_idle {ns : List Text} (h : name = [] ∨ name = ".") :
    leading (name :: ns) = leading ns := by
  rw [leading, List.filter_cons_of_neg, ← leading]
  rcases h with rfl | rfl <;> decide

theorem leading_cons {ns : List Text} (h : ¬ (name = [] ∨ name = ".")) :
    leading (name :: ns) = name :: leading ns := by
  rw [leading, List.filter_cons_of_pos, ← leading]
  simpa [not_or] using h

theorem pieces_append_slash (p q : Text) : pieces (p ++ '/' :: q) = pieces p ++ pieces q :=
  List.splitOn_append_cons_self ..

theorem pieces_of_not_mem (h : '/' ∉ p) : pieces p = [p] := List.splitOn_eq_singleton h

theorem names_append_slash (p q : Text) : names (p ++ '/' :: q) = names p ++ names q := by
  rw [names_eq, pieces_append_slash, leading_append]
  rfl

theorem isAbsolute_of_not_mem (h : '/' ∉ p) : isAbsolute p = false := by
  cases p with
  | nil => rfl
  | cons c p =>
    have : c ≠ '/' := by
      rintro rfl
      exact h List.mem_cons_self
    simp [isAbsolute, this]

theorem not_mem_of_mem_pieces (h : name ∈ pieces p) : '/' ∉ name := by
  induction p generalizing name with
  | nil =>
    obtain rfl : name = [] := by simpa [pieces] using h
    simp
  | cons c p ih =>
    rw [pieces, List.splitOn_cons_eq_if_modifyHead, ← pieces] at h
    split at h
    · rcases List.mem_cons.1 h with rfl | h
      · simp
      · exact ih h
    next ne =>
      have ne : c ≠ '/' := by simpa using ne
      cases hp : pieces p with
      | nil =>
        rw [hp] at h
        cases h
      | cons first rest =>
        rw [hp, List.modifyHead_cons] at h
        rcases List.mem_cons.1 h with rfl | h
        · have := ih (hp ▸ List.mem_cons_self)
          simp [this, ne.symm]
        · exact ih (hp ▸ List.mem_cons_of_mem first h)

theorem names_dropIdle (p : Text) : names (dropIdle p).reverse = names p.reverse := by
  fun_induction dropIdle p with
  | case1 => rfl
  | case2 p _ ih =>
    rw [ih, List.reverse_cons, names_append_slash]
    simp [names, pieces]
  | case3 p ih =>
    have dot : names ['.'] = [] := by decide
    have nothing : names [] = [] := by decide
    rw [ih, List.reverse_cons, List.reverse_cons, List.reverse_cons, List.append_assoc,
      List.singleton_append, names_append_slash, names_append_slash, dot, nothing]
  | case4 => rfl

@[simp] theorem names_trimEnd (p : Text) : names (trimEnd p) = names p := by
  rw [trimEnd, names_dropIdle, List.reverse_reverse]

theorem dropIdle_isSuffix (p : Text) : dropIdle p <:+ p := by
  fun_induction dropIdle p with
  | case1 => exact List.suffix_rfl
  | case2 p _ ih => exact ih.trans (List.suffix_cons _ _)
  | case3 p ih => exact ih.trans (List.suffix_cons _ _)
  | case4 => exact List.suffix_rfl

theorem trimEnd_isPrefix (p : Text) : trimEnd p <+: p := by
  rw [trimEnd, ← List.reverse_suffix, List.reverse_reverse]
  exact dropIdle_isSuffix _

theorem dropIdle_ne_nil (h : p ≠ []) : dropIdle p ≠ [] := by
  fun_induction dropIdle p with
  | case1 => exact h
  | case2 p not ih =>
    apply ih
    rintro rfl
    exact not rfl
  | case3 p ih => exact ih (by simp)
  | case4 => exact h

theorem trimEnd_ne_nil (h : p ≠ []) : trimEnd p ≠ [] := by
  rw [trimEnd, ne_eq, List.reverse_eq_nil_iff]
  exact dropIdle_ne_nil (by simpa using h)

/-- What stands before the last name of a trimmed path. -/
def front (p : Text) : Text := (p.reverse.dropWhile (· ≠ '/')).reverse

theorem front_append_last (p : Text) : front p ++ last p = p := by
  rw [front, last, ← List.reverse_append, List.takeWhile_append_dropWhile, List.reverse_reverse]

theorem not_mem_last (p : Text) : '/' ∉ last p := by
  intro mem
  have := List.mem_takeWhile_imp (List.mem_reverse.1 mem)
  simp at this

/-- What stands before the last name ends in a slash. -/
theorem front_cases (p : Text) : front p = [] ∨ ∃ q, front p = q ++ ['/'] := by
  cases rest : p.reverse.dropWhile (· ≠ '/') with
  | nil => exact .inl (by rw [front, rest]; rfl)
  | cons c q =>
    have stop := List.head?_dropWhile_not (· ≠ '/') p.reverse
    rw [rest] at stop
    obtain rfl : c = '/' := by simpa using stop
    exact .inr ⟨q.reverse, by rw [front, rest, List.reverse_cons]⟩

theorem parent?_eq (h : last (trimEnd p) ≠ []) : parent? p = some (trimEnd (front (trimEnd p))) := by
  have taken : (trimEnd p).take ((trimEnd p).length - (last (trimEnd p)).length) = front (trimEnd p) := by
    have length := congrArg List.length (front_append_last (trimEnd p))
    rw [List.length_append] at length
    calc
      _ = (front (trimEnd p) ++ last (trimEnd p)).take (front (trimEnd p)).length := by
        rw [front_append_last]
        congr 1
        omega
      _ = front (trimEnd p) := List.take_left
  simp [parent?, h, taken]

theorem fileName?_eq_some (h : fileName? p = some name) : last (trimEnd p) = name ∧
    ¬ (name = [] ∨ name = ".") ∧ name ≠ ".." := by
  rw [fileName?] at h
  split at h
  · cases h
  next proper =>
    obtain rfl := Option.some.inj h
    simp only [not_or, List.isEmpty_iff] at proper
    exact ⟨rfl, not_or.2 ⟨proper.1, proper.2.1⟩, proper.2.2⟩

/-- The names on a path are those of its parent and its last name. -/
theorem names_of_fileName? (h : fileName? p = some name) :
    ∃ parent, parent? p = some parent ∧ names p = names parent ++ [name] := by
  obtain ⟨rfl, proper, -⟩ := fileName?_eq_some h
  refine ⟨_, parent?_eq fun empty => proper (.inl empty), ?_⟩
  have single : names (last (trimEnd p)) = [last (trimEnd p)] := by
    rw [names_eq, pieces_of_not_mem (not_mem_last _), leading_cons proper]
    rfl
  calc
    names p = names (front (trimEnd p) ++ last (trimEnd p)) := by
      rw [front_append_last, names_trimEnd]
    _ = names (front (trimEnd p)) ++ [last (trimEnd p)] := by
      rcases front_cases (trimEnd p) with empty | ⟨q, eq⟩
      · rw [empty, List.nil_append, single]
        rfl
      · have nothing : names [] = [] := by decide
        rw [eq, List.append_assoc, List.singleton_append, names_append_slash, names_append_slash,
          single, nothing, List.append_nil]
    _ = names (trimEnd (front (trimEnd p))) ++ [last (trimEnd p)] := by rw [names_trimEnd]

theorem isAbsolute_of_isPrefix (h : q <+: p) (ne : q ≠ []) : isAbsolute q = isAbsolute p := by
  obtain ⟨rest, rfl⟩ := h
  cases q with
  | nil => exact absurd rfl ne
  | cons c q => rfl

theorem front_isPrefix (p : Text) : front (trimEnd p) <+: p :=
  .trans ⟨_, front_append_last (trimEnd p)⟩ (trimEnd_isPrefix p)

theorem last_of_parent? (h : parent? p = some q) : last (trimEnd p) ≠ [] := by
  intro empty
  simp [parent?, empty] at h

theorem isPrefix_of_parent? (h : parent? p = some q) : q <+: p := by
  rw [parent?_eq (last_of_parent? h), Option.some.injEq] at h
  subst h
  exact (trimEnd_isPrefix _).trans (front_isPrefix p)

/-- A parent is empty only for a path that is just a name. -/
theorem parent?_cases (h : parent? p = some q) : q = [] ∧ isAbsolute p = false ∨
    q ≠ [] ∧ isAbsolute q = isAbsolute p := by
  have ne := last_of_parent? h
  have isPrefix := isPrefix_of_parent? h
  rw [parent?_eq ne, Option.some.injEq] at h
  subst h
  by_cases empty : front (trimEnd p) = []
  · left
    refine ⟨by rw [empty]; rfl, ?_⟩
    have trimmed : last (trimEnd p) = trimEnd p := by
      have whole := front_append_last (trimEnd p)
      rwa [empty, List.nil_append] at whole
    rw [← isAbsolute_of_isPrefix (trimEnd_isPrefix p) (trimmed ▸ ne), ← trimmed]
    exact isAbsolute_of_not_mem (not_mem_last _)
  · have some := trimEnd_ne_nil empty
    exact .inr ⟨some, isAbsolute_of_isPrefix isPrefix some⟩

/-- A relative path seen from a base: what leads to the base, then the pieces of the path. -/
theorem exists_pieces_join (base : Text) (h : isAbsolute x = false) :
    ∃ start, pieces (join base x) = start ++ pieces x ∧ leading start = names base := by
  rw [join]
  split
  next alone =>
    have empty : base = [] := by simpa [h] using alone
    exact ⟨[], rfl, by rw [empty]; decide⟩
  · split
    next ends =>
      obtain ⟨b, rfl⟩ := List.isSuffixOf_iff_suffix.1 ends
      refine ⟨pieces b, ?_, ?_⟩
      · rw [← pieces_append_slash, List.append_assoc]
        rfl
      · have nothing : names [] = [] := by decide
        rw [← names_eq]
        exact ((names_append_slash b []).trans (by rw [nothing, List.append_nil])).symm
    · refine ⟨pieces base, ?_, rfl⟩
      rw [← pieces_append_slash, List.append_assoc]
      rfl

theorem isAbsolute_join {base : Text} (h : isAbsolute x = false) :
    isAbsolute (join base x) = isAbsolute base := by
  rw [join]
  split
  next alone =>
    have empty : base = [] := by simpa [h] using alone
    rw [empty, h]
    rfl
  next not =>
    have ne : base ≠ [] := by
      rintro rfl
      exact not (.inr rfl)
    split
    · exact (isAbsolute_of_isPrefix (List.prefix_append _ _) ne).symm
    · rw [List.append_assoc]
      exact (isAbsolute_of_isPrefix (List.prefix_append _ _) ne).symm

theorem join_ne_nil {base : Text} (h : base ≠ [] ∨ x ≠ []) : join base x ≠ [] := by
  rw [join]
  split
  next alone =>
    rintro rfl
    simp [isAbsolute] at alone
    simp [alone] at h
  next both =>
    have ne : base ≠ [] := by simpa using (not_or.1 both).2
    split <;> simp [ne]

theorem names_join (base : Text) (h : isAbsolute x = false) : names (join base x) = names base ++ names x := by
  obtain ⟨start, pieces, leads⟩ := exists_pieces_join base h
  rw [names_eq, pieces, leading_append, leads, names_eq x]

theorem names_isPrefix_of_parent? (h : parent? p = some q) : names q <+: names p := by
  have ne := last_of_parent? h
  rw [parent?_eq ne, Option.some.injEq] at h
  subst h
  have whole := congrArg names (front_append_last (trimEnd p))
  rw [names_trimEnd] at whole ⊢
  rw [← whole]
  rcases front_cases (trimEnd p) with empty | ⟨r, eq⟩
  · rw [empty]
    exact List.nil_prefix
  · have nothing : names [] = [] := by decide
    rw [eq, List.append_assoc, List.singleton_append, names_append_slash, names_append_slash, nothing,
      List.append_nil]
    exact List.prefix_append _ _

/-- The names of a path above another come first on it. -/
theorem names_isPrefix_of_mem_parents (h : q ∈ parents p) : names q <+: names p := by
  fun_induction parents p with
  | case1 => cases h
  | case2 p r parent ih =>
    have first := names_isPrefix_of_parent? parent
    rcases List.mem_cons.1 h with rfl | h
    · exact first
    · exact (ih h).trans first

theorem isAbsolute_of_mem_parents (h : q ∈ parents p) : q = [] ∨ isAbsolute q = isAbsolute p := by
  fun_induction parents p with
  | case1 => cases h
  | case2 p r parent ih =>
    rcases List.mem_cons.1 h with rfl | h
    · exact (parent?_cases parent).imp And.left And.right
    · rcases parent?_cases parent with ⟨rfl, -⟩ | ⟨-, same⟩
      · have top : parents [] = [] := by
          rw [parents]
          rfl
        rw [top] at h
        cases h
      · exact (ih h).imp_right fun eq => eq.trans same

theorem names_foldl_join {ns : List Text} (start : Text)
    (plain : ∀ name ∈ ns, '/' ∉ name ∧ ¬ (name = [] ∨ name = ".")) :
    isAbsolute (ns.foldl join start) = isAbsolute start ∧ names (ns.foldl join start) = names start ++ ns := by
  induction ns generalizing start with
  | nil => exact ⟨rfl, (List.append_nil _).symm⟩
  | cons name ns ih =>
    obtain ⟨slash, proper⟩ := plain name List.mem_cons_self
    obtain ⟨absolute, whole⟩ := ih (join start name) fun name mem => plain name (List.mem_cons_of_mem _ mem)
    have relative := isAbsolute_of_not_mem slash
    have single : names name = [name] := by
      rw [names_eq, pieces_of_not_mem slash, leading_cons proper]
      rfl
    refine ⟨absolute.trans (isAbsolute_join relative), ?_⟩
    rw [List.foldl_cons, whole, names_join start relative, single, List.append_assoc]
    rfl

/-- An absolute path is the same path from anywhere. -/
theorem names_absolute (base : Text) (h : isAbsolute x = true) :
    isAbsolute (absolute base x) = true ∧ names (absolute base x) = names x := by
  have plain : ∀ name ∈ names x, '/' ∉ name ∧ ¬ (name = [] ∨ name = ".") := by
    intro name mem
    obtain ⟨piece, proper⟩ := List.mem_filter.1 mem
    refine ⟨not_mem_of_mem_pieces piece, ?_⟩
    simpa [not_or] using proper
  have ne : x.isEmpty = false := by
    cases x with
    | nil => cases h
    | cons => rfl
  have nothing : names [] = [] := by decide
  simp only [absolute, ne, h, Bool.false_eq_true, Bool.not_true, if_false]
  generalize eq : ite (x.take 2 = "//".toList ∧ x.take 3 ≠ "///".toList) "//".toList "/".toList = start
  obtain ⟨top, none⟩ : isAbsolute start = true ∧ names start = [] := by
    subst eq
    split <;> decide
  obtain ⟨absolute, whole⟩ := names_foldl_join start plain
  rw [top] at absolute
  rw [none, List.nil_append] at whole
  split
  · exact ⟨(isAbsolute_join rfl).trans absolute, by rw [names_join _ rfl, whole, nothing, List.append_nil]⟩
  · exact ⟨absolute, whole⟩

/-! The parent of a name seen from a base. -/

theorem last_append_slash (p : Text) (plain : '/' ∉ name) : last (p ++ '/' :: name) = name := by
  have all : ∀ c ∈ name.reverse, decide (c ≠ '/') = true := by
    intro c mem
    have : c ≠ '/' := fun same => plain (same ▸ List.mem_reverse.1 mem)
    simpa using this
  rw [last, List.reverse_append, List.reverse_cons, List.append_assoc, List.takeWhile_append_of_pos all,
    List.singleton_append, List.takeWhile_cons_of_neg (by simp), List.append_nil, List.reverse_reverse]

theorem endsWith_slash_of_last (h : last p ≠ []) : Text.endsWith p "/" = false := by
  rw [← Bool.not_eq_true]
  intro ends
  obtain ⟨b, rfl⟩ := List.isSuffixOf_iff_suffix.1 ends
  exact h (last_append_slash b (by simp))

theorem last_of_not_mem (plain : '/' ∉ name) : last name = name := by
  rw [last, List.takeWhile_eq_self_iff.2, List.reverse_reverse]
  intro c mem
  have : c ≠ '/' := fun same => plain (same ▸ List.mem_reverse.1 mem)
  simpa using this

theorem last_join (base : Text) (plain : '/' ∉ name) : last (join base name) = name := by
  rw [join]
  split
  · exact last_of_not_mem plain
  · split
    next ends =>
      obtain ⟨b, rfl⟩ := List.isSuffixOf_iff_suffix.1 ends
      rw [List.append_assoc]
      exact last_append_slash b plain
    · rw [List.append_assoc]
      exact last_append_slash base plain

theorem proper_of_length (h : 2 < name.length) : ¬ (name = [] ∨ name = ".") ∧ name ≠ ".." := by
  refine ⟨?_, ?_⟩
  · rintro (rfl | rfl) <;> exact absurd h (by decide)
  · rintro rfl
    exact absurd h (by decide)

/-- A path that ends in a name has nothing to be trimmed. -/
theorem trimEnd_eq_self (h : ¬ (last p = [] ∨ last p = ".")) : trimEnd p = p := by
  have keep {r : Text} (h : ¬ ((r.takeWhile (· ≠ '/')).reverse = [] ∨
      (r.takeWhile (· ≠ '/')).reverse = ".")) : dropIdle r = r := by
    fun_cases dropIdle r with
    | case1 => rfl
    | case2 => simp at h
    | case3 => simp at h
    | case4 => rfl
  rw [trimEnd, keep h, List.reverse_reverse]

theorem fileName?_of_last (proper : ¬ (last p = [] ∨ last p = ".")) (inside : last p ≠ "..") :
    fileName? p = some (last p) := by
  rw [fileName?, trimEnd_eq_self proper]
  refine if_neg ?_
  rw [List.isEmpty_iff, ← or_assoc]
  exact not_or.2 ⟨proper, inside⟩

theorem parent?_join {base : Text} (hb : ¬ (last base = [] ∨ last base = ".")) (plain : '/' ∉ name)
    (proper : ¬ (name = [] ∨ name = ".")) : parent? (join base name) = some base := by
  have joined : join base name = base ++ '/' :: name := by
    have ne : base ≠ [] := by
      rintro rfl
      exact hb (.inl rfl)
    have ends := endsWith_slash_of_last fun empty => hb (.inl empty)
    have not : ¬ (isAbsolute name = true ∨ base.isEmpty = true) := by
      simp [isAbsolute_of_not_mem plain, ne]
    rw [join, if_neg not, if_neg (ne_true_of_eq_false ends), List.append_assoc]
    rfl
  have last_eq : last (base ++ '/' :: name) = name := last_append_slash base plain
  have trimmed : trimEnd (base ++ '/' :: name) = base ++ '/' :: name :=
    trimEnd_eq_self (by rwa [last_eq])
  have front_eq : front (base ++ '/' :: name) = base ++ ['/'] := by
    have whole := front_append_last (base ++ '/' :: name)
    rw [last_eq] at whole
    exact List.append_cancel_right (whole.trans (List.append_cons base '/' name))
  have slash : trimEnd (base ++ ['/']) = trimEnd base := by
    rw [trimEnd, trimEnd, List.reverse_append, List.reverse_singleton, List.singleton_append, dropIdle]
    intro empty
    rw [List.reverse_eq_nil_iff] at empty
    exact hb (.inl (by rw [empty]; rfl))
  have ne : last (trimEnd (join base name)) ≠ [] := by
    rw [joined, trimmed, last_eq]
    exact fun empty => proper (.inl empty)
  rw [parent?_eq ne, joined, trimmed, front_eq, slash, trimEnd_eq_self hb]

end FloatFlattening.Path
