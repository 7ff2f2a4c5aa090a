import Mathlib.Tactic.Common
import Latency.Server.Probe
import Latency.Proofs.Text.Lines
/-!
# What helpers print

A program that is asked for its version answers with the first line that it has something on, and
what a command is looked up under is the first such line of the look-up.  Both are told by the lines
of the output; how the output is trimmed before it is cut into lines does not matter.
-/

namespace Latency

/-- The first line of a text that is not blank, without the blanks around it. -/
structure FirstLine (text line : String) : Prop where
  first : ∃ before full behind, Text.splitLines text = before ++ full :: behind ∧
    (∀ blank ∈ before, Text.trim blank = "") ∧ Text.trim full = line
  ne_empty : line ≠ ""

def BlankText (text : String) : Prop :=
  ∀ line ∈ Text.splitLines text, Text.trim line = ""

theorem blank_or_firstLine (text : String) : BlankText text ∨ ∃ line, FirstLine text line := by
  cases hfind : (Text.splitLines text).find? (Text.trim · != "") with
  | none =>
    refine .inl fun line hline => ?_
    simpa using List.find?_eq_none.1 hfind line hline
  | some full =>
    obtain ⟨hne, before, behind, hlines, hbefore⟩ := List.find?_eq_some_iff_append.1 hfind
    refine .inr ⟨Text.trim full, ⟨before, full, behind, hlines, fun blank hblank => ?_, rfl⟩, ?_⟩
    · simpa using hbefore blank hblank
    · simpa using hne

theorem BlankText.find?_eq {text : String} (h : BlankText text) :
    ((Text.splitLines text).map Text.trim).find? (· != "") = none := by
  rw [List.find?_eq_none]
  intro line hline
  obtain ⟨full, hfull, rfl⟩ := List.mem_map.1 hline
  simp [h full hfull]

theorem FirstLine.find?_eq {text line : String} (h : FirstLine text line) :
    ((Text.splitLines text).map Text.trim).find? (· != "") = some line := by
  obtain ⟨⟨before, full, behind, hlines, hbefore, rfl⟩, hne⟩ := h
  rw [List.find?_eq_some_iff_append]
  refine ⟨by simpa using hne, before.map Text.trim, behind.map Text.trim, ?_, ?_⟩
  · rw [hlines, List.map_append, List.map_cons]
  · intro line hline
    obtain ⟨blank, hblank, rfl⟩ := List.mem_map.1 hline
    simp [hbefore blank hblank]

namespace Probe

theorem firstLine_of_blank {text : String} (h : BlankText text) : firstLine text = "" := by
  rw [firstLine, h.find?_eq]
  rfl

theorem firstLine_of_firstLine {text line : String} (h : FirstLine text line) :
    firstLine text = line := by
  rw [firstLine, h.find?_eq]
  rfl

theorem firstTrimmedLine?_eq (text : String) :
    firstTrimmedLine? text = ((Text.splitLines text).map Text.trim).find? (· != "") := by
  have hlist (lines : List (List Char)) :
      (lines.map String.ofList).map Text.trim =
        (lines.map (Text.trimBy Text.isBlank)).map String.ofList := by
    rw [List.map_map, List.map_map]
    refine List.map_congr_left fun line _ => ?_
    simp only [Function.comp_apply, Text.trim, String.toList_ofList]
  have hempty : (fun line : List Char => String.ofList line != "") = fun line => !line.isEmpty := by
    funext line
    cases line <;> simp [bne, ← String.toList_inj]
  calc firstTrimmedLine? text
      = ((Text.linesFrom [] (Text.trimBy Text.isBlank text.toList)).head?.map
          (Text.trimBy Text.isBlank)).map String.ofList := by
        unfold firstTrimmedLine? Text.splitLines
        rw [← List.head?_map, hlist, List.head?_map, List.head?_map, Text.trim,
          String.toList_ofList]
    _ = (Text.shownLines (Text.linesFrom [] text.toList)).head?.map String.ofList := by
        rw [Text.head?_linesFrom_trim]
    _ = ((Text.splitLines text).map Text.trim).find? (· != "") := by
        unfold Text.splitLines Text.shownLines
        rw [hlist, List.find?_map, List.head?_filter]
        exact congrArg _ (congrArg (List.find? · _) hempty.symm)

/-- What a program that was asked for its version answers: it has ended well, with a line on its
output, or with none there and one among its errors. -/
inductive Answers : Probe → String → Prop
  | out {out err line : String} : FirstLine out line → Answers (.finished 0 out err) line
  | err {out err line : String} : BlankText out → FirstLine err line →
    Answers (.finished 0 out err) line

/-- A program without an answer: it was not run, ran out of time, failed or had nothing to say. -/
def Silent (p : Probe) : Prop :=
  ∀ line, ¬ p.Answers line

/-- Where a command stands by the output of a look-up that ended well. -/
inductive Locates : Probe → String → Prop
  | out {out err place : String} : FirstLine out place → Locates (.finished 0 out err) place

theorem shownLine?_of_answers {p : Probe} {line : String} (h : p.Answers line) :
    p.shownLine? = some line := by
  cases h with
  | out hline =>
    simp only [shownLine?, firstLine_of_firstLine hline, hline.ne_empty, if_false]
  | err hblank hline =>
    simp only [shownLine?, firstLine_of_blank hblank, firstLine_of_firstLine hline,
      hline.ne_empty, if_false, if_true]

theorem shownLine?_of_silent {p : Probe} (h : p.Silent) : p.shownLine? = none := by
  unfold shownLine?
  split
  · next out err =>
    obtain hout | ⟨line, hline⟩ := blank_or_firstLine out
    · obtain herr | ⟨line, hline⟩ := blank_or_firstLine err
      · simp only [firstLine_of_blank hout, firstLine_of_blank herr, if_true]
      · exact absurd (.err hout hline) (h line)
    · exact absurd (.out hline) (h line)
  · rfl

theorem location?_eq_some_iff {p : Probe} {place : String} :
    p.location? = some place ↔ p.Locates place := by
  unfold location?
  split
  · next out err =>
    rw [firstTrimmedLine?_eq]
    constructor
    · intro hfind
      obtain hblank | ⟨line, hline⟩ := blank_or_firstLine out
      · rw [hblank.find?_eq] at hfind
        cases hfind
      · obtain rfl := Option.some.inj (hline.find?_eq.symm.trans hfind)
        exact .out hline
    · rintro ⟨hline⟩
      exact hline.find?_eq
  · next hother =>
    constructor
    · nofun
    · rintro ⟨_⟩
      exact absurd rfl (hother _ _)

end Probe

end Latency
