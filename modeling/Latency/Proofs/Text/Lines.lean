import Mathlib.Data.List.DropRight
import Latency.Text.Blank
/-!
# Lines with something on them

White space around a text makes lines of its own, and makes the first and the last line of the text
longer.  It does not change which lines have something on them, and what stands there.
-/

namespace Latency.Text

/-- The lines that are not blank, without the blanks around them. -/
def shownLines (lines : List (List Char)) : List (List Char) :=
  (lines.map (trimBy isBlank)).filter fun line => !line.isEmpty

section Trim

variable {α : Type} {p : α → Bool} {xs front back : List α}

theorem trimBy_append_left (hfront : ∀ x ∈ front, p x = true) :
    trimBy p (front ++ xs) = trimBy p xs := by
  rw [trimBy, trimBy, List.dropWhile_append_of_pos hfront]

theorem trimBy_append_right (hback : ∀ x ∈ back, p x = true) :
    trimBy p (xs ++ back) = trimBy p xs := by
  have hreverse : ∀ x ∈ back.reverse, p x = true := by simpa using hback
  rw [trimBy, trimBy, List.dropWhile_append]
  split
  · next hnone =>
    rw [List.isEmpty_iff.1 hnone, List.dropWhile_eq_nil_iff.2 hback]
  · rw [List.reverse_append, List.dropWhile_append_of_pos hreverse]

theorem trimBy_eq_nil_iff : trimBy p xs = [] ↔ ∀ x ∈ xs, p x = true := by
  rw [← List.dropWhile_eq_nil_iff (p := p) (l := xs)]
  change (xs.dropWhile p).rdropWhile p = [] ↔ _
  rw [List.rdropWhile_eq_nil_iff]
  constructor
  · intro hall
    by_contra hne
    exact absurd (hall _ (List.head_mem hne)) (by simpa using List.head_dropWhile_not p hne)
  · intro hnone
    rw [hnone]
    simp

theorem trimBy_prefix : trimBy p xs <+: xs.dropWhile p := by
  exact List.rdropWhile_prefix p _

end Trim

variable {line line' cs blanks : List Char} {lines : List (List Char)}

theorem shownLines_cons (line : List Char) (lines : List (List Char)) :
    shownLines (line :: lines) = shownLines [line] ++ shownLines lines := by
  exact List.filter_append [trimBy isBlank line] (lines.map (trimBy isBlank))

theorem shownLines_congr (h : trimBy isBlank line = trimBy isBlank line') :
    shownLines [line] = shownLines [line'] := by
  rw [shownLines, shownLines, List.map_singleton, List.map_singleton, h]

theorem shownLines_blank (h : ∀ c ∈ line, isBlank c = true) : shownLines [line] = [] := by
  rw [shownLines, List.map_singleton, trimBy_eq_nil_iff.2 h]
  rfl

theorem shownLines_linesFrom_append (h : ∀ c ∈ blanks, isBlank c = true) (line cs : List Char) :
    shownLines (linesFrom (line ++ blanks) cs) = shownLines (linesFrom line cs) := by
  have hreverse : ∀ c ∈ blanks.reverse, isBlank c = true := by simpa using h
  have hline (line : List Char) :
      shownLines [(line ++ blanks).reverse] = shownLines [line.reverse] := by
    rw [List.reverse_append]
    exact shownLines_congr (trimBy_append_left hreverse)
  fun_induction linesFrom line cs with
  | case1 line hnone =>
    obtain rfl := List.isEmpty_iff.1 hnone
    rw [List.nil_append, linesFrom]
    split
    · rfl
    · exact shownLines_blank hreverse
  | case2 line hsome =>
    have hsome' : ¬ (line ++ blanks).isEmpty = true := by
      simp only [List.isEmpty_iff, List.append_eq_nil_iff] at hsome ⊢
      exact fun hnone => hsome hnone.1
    rw [linesFrom, if_neg hsome']
    exact hline line
  | case3 line rest _ => rw [linesFrom, shownLines_cons, shownLines_cons line.reverse, hline]
  | case4 line c rest hnot hbreak _ =>
    rw [linesFrom, if_pos hbreak, shownLines_cons, shownLines_cons line.reverse, hline]
    exact hnot
  | case5 line c rest hnot hbreak ih =>
    rw [linesFrom, if_neg hbreak]
    · exact ih
    · exact hnot

theorem shownLines_linesFrom_cons {c : Char} (hc : isBlank c = true) (cs : List Char) :
    shownLines (linesFrom [] (c :: cs)) = shownLines (linesFrom [] cs) := by
  have hfirst (lines : List (List Char)) : shownLines ([] :: lines) = shownLines lines := by
    rw [shownLines_cons, shownLines_blank (by simp), List.nil_append]
  by_cases hpair : ∃ rest, c = '\r' ∧ cs = '\n' :: rest
  · obtain ⟨rest, rfl, rfl⟩ := hpair
    have hfeed : linesFrom [] ('\n' :: rest) = [] :: linesFrom [] rest := rfl
    rw [linesFrom, hfeed]
    rfl
  · rw [linesFrom]
    · split
      · exact hfirst _
      · have hall : ∀ b ∈ [c], isBlank b = true := by simpa using hc
        exact shownLines_linesFrom_append hall [] cs
    · exact fun rest hr hrest => hpair ⟨rest, hr, hrest⟩

theorem shownLines_linesFrom_blank (h : ∀ c ∈ blanks, isBlank c = true) (line : List Char) :
    shownLines (linesFrom line blanks) = shownLines [line.reverse] := by
  fun_induction linesFrom line blanks with
  | case1 line hnone =>
    obtain rfl := List.isEmpty_iff.1 hnone
    rfl
  | case2 line hsome => rfl
  | case3 line rest ih =>
    rw [shownLines_cons, ih fun c hc => h c (by simp [hc])]
    exact List.append_nil _
  | case4 line c rest _ _ ih =>
    rw [shownLines_cons, ih fun c hc => h c (List.mem_cons_of_mem _ hc)]
    exact List.append_nil _
  | case5 line c rest _ _ ih =>
    rw [ih fun c hc => h c (List.mem_cons_of_mem _ hc), List.reverse_cons]
    exact shownLines_congr (trimBy_append_right (by simpa using h c List.mem_cons_self))

theorem shownLines_linesFrom_right (h : ∀ c ∈ blanks, isBlank c = true) (line cs : List Char) :
    shownLines (linesFrom line (cs ++ blanks)) = shownLines (linesFrom line cs) := by
  fun_induction linesFrom line cs with
  | case1 line hnone =>
    obtain rfl := List.isEmpty_iff.1 hnone
    exact shownLines_linesFrom_blank h []
  | case2 line hsome => exact shownLines_linesFrom_blank h line
  | case3 line rest ih =>
    rw [List.cons_append, List.cons_append, linesFrom, shownLines_cons, ih, ← shownLines_cons]
  | case4 line c rest hnot hbreak ih =>
    rw [shownLines_cons, ← ih, ← shownLines_cons]
    -- The blanks may go on with the line feed that belongs to a carriage return.
    by_cases hpair : ∃ more, c = '\r' ∧ rest ++ blanks = '\n' :: more
    · obtain ⟨more, rfl, hmore⟩ := hpair
      have hfeed : linesFrom [] ('\n' :: more) = [] :: linesFrom [] more := rfl
      rw [List.cons_append, hmore, linesFrom, hfeed, shownLines_cons _ (linesFrom [] more),
        shownLines_cons _ ([] :: linesFrom [] more)]
      rfl
    · rw [List.cons_append, linesFrom, if_pos hbreak]
      exact fun more hr hmore => hpair ⟨more, hr, hmore⟩
  | case5 line c rest hnot hbreak ih =>
    rw [List.cons_append, linesFrom, if_neg hbreak]
    · exact ih
    · rintro more rfl -
      exact absurd rfl hbreak

/-- Trimming a text takes blank lines away and nothing else. -/
theorem shownLines_trim (cs : List Char) :
    shownLines (linesFrom [] (trimBy isBlank cs)) = shownLines (linesFrom [] cs) := by
  have hfront : shownLines (linesFrom [] (cs.dropWhile isBlank)) =
      shownLines (linesFrom [] cs) := by
    induction cs with
    | nil => rfl
    | cons c cs ih =>
      rw [List.dropWhile_cons]
      split
      · next hc => rw [ih, shownLines_linesFrom_cons hc]
      · rfl
  rw [← hfront]
  obtain ⟨rest, hrest⟩ : ∃ rest, cs.dropWhile isBlank = rest := ⟨_, rfl⟩
  have hback : rest = trimBy isBlank cs ++ (rest.reverse.takeWhile isBlank).reverse := by
    rw [trimBy, hrest, ← List.reverse_append, List.takeWhile_append_dropWhile,
      List.reverse_reverse]
  rw [hrest]
  conv_rhs => rw [hback]
  refine (shownLines_linesFrom_right (fun c hc => ?_) [] _).symm
  exact List.mem_takeWhile_imp (List.mem_reverse.1 hc)

theorem exists_linesFrom (hline : line ≠ []) (cs : List Char) :
    ∃ more lines, linesFrom line cs = (line.reverse ++ more) :: lines := by
  fun_induction linesFrom line cs with
  | case1 line hnone => exact absurd (List.isEmpty_iff.1 hnone) hline
  | case2 line hsome => exact ⟨[], [], by rw [List.append_nil]⟩
  | case3 line rest _ => exact ⟨[], _, by rw [List.append_nil]⟩
  | case4 line c rest _ _ _ => exact ⟨[], _, by rw [List.append_nil]⟩
  | case5 line c rest _ _ ih =>
    obtain ⟨more, lines, hlines⟩ := ih (List.cons_ne_nil c line)
    exact ⟨c :: more, lines, by rw [hlines, List.reverse_cons, List.append_assoc]; rfl⟩

theorem isLineBreak_of_not_isBlank {c : Char} (h : isBlank c = false) : isLineBreak c = false := by
  simp only [isBlank, isLineBreak, Bool.or_eq_false_iff, Bool.and_eq_false_iff,
    decide_eq_false_iff_not, beq_eq_false_iff_ne] at h ⊢
  omega

/-- The first line of a trimmed text is its first line with something on it. -/
theorem head?_linesFrom_trim (cs : List Char) :
    (linesFrom [] (trimBy isBlank cs)).head?.map (trimBy isBlank) =
      (shownLines (linesFrom [] cs)).head? := by
  rw [← shownLines_trim]
  cases htrim : trimBy isBlank cs with
  | nil => rfl
  | cons c rest =>
    have hc : isBlank c = false := by
      have hprefix : trimBy isBlank cs <+: cs.dropWhile isBlank := trimBy_prefix
      obtain ⟨more, hmore⟩ := htrim ▸ hprefix
      have hfirst := List.head?_dropWhile_not isBlank cs
      rw [← hmore] at hfirst
      simpa using hfirst
    have hbreak : ¬ isLineBreak c = true := by simp [isLineBreak_of_not_isBlank hc]
    have hread : linesFrom [] (c :: rest) = linesFrom [c] rest := by
      rw [linesFrom, if_neg hbreak]
      rintro _ rfl
      cases hc
    obtain ⟨more, lines, hlines⟩ := exists_linesFrom (List.cons_ne_nil c []) rest
    have hshown : trimBy isBlank ([c].reverse ++ more) ≠ [] := by
      intro hnone
      have hblank := trimBy_eq_nil_iff.1 hnone c (by simp)
      rw [hc] at hblank
      cases hblank
    rw [hread, hlines, shownLines, List.map_cons, List.filter_cons_of_pos]
    · rfl
    · simpa using hshown

end Latency.Text
