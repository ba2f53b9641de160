import Mathlib.Tactic.Common
import ShaderShrink.Text.Blank
import ShaderShrink.Text.Lines

/-!
# Lines and line ends

How a text is split into lines is told by two equations: `Text.lines_append` takes off a line that
is ended, and `Text.lines_last` is about what is left when no line end is. A line may be ended by a
line feed alone or by a carriage return and a line feed (`Text.LineEnd`). What is read of a line in
front of a line feed is the line, but for a carriage return at its end (`LineEnd.cut`).
-/

namespace ShaderShrink.Text

/-- How a line is ended. -/
inductive LineEnd where
  | feed
  | returnFeed
  deriving DecidableEq, Repr

namespace LineEnd

/-- The characters of a line end. -/
def text : LineEnd → String
  | .feed => "\n"
  | .returnFeed => "\x0d\n"

/-- What is read of a line that is ended in this way: a carriage return in front of a line feed
belongs to the line end. -/
def cut : LineEnd → String → String
  | .feed, line => String.ofList (endedLine line.toList.reverse)
  | .returnFeed, line => line

end LineEnd

section
variable {line rest : String} {s : List Char}

/-- What stands in front of a line feed is ended by it. -/
theorem linesFrom_append (h : '\n' ∉ s) (front after : List Char) :
    linesFrom front (s ++ '\n' :: after) =
      endedLine (s.reverse ++ front) :: linesFrom [] after := by
  induction s generalizing front with
  | nil => exact if_pos rfl
  | cons c s ih =>
    obtain ⟨hc, hs⟩ := List.ne_and_not_mem_of_not_mem_cons h
    rw [List.cons_append, linesFrom, if_neg (Ne.symm hc), ih hs, List.reverse_cons,
      List.append_assoc, List.singleton_append]

/-- What no line feed ends is a line unless it is empty. -/
theorem linesFrom_last (h : '\n' ∉ s) (front : List Char) :
    linesFrom front s = if (s.reverse ++ front).isEmpty then [] else [front.reverse ++ s] := by
  induction s generalizing front with
  | nil => simp [linesFrom]
  | cons c s ih =>
    obtain ⟨hc, hs⟩ := List.ne_and_not_mem_of_not_mem_cons h
    rw [linesFrom, if_neg (Ne.symm hc), ih hs]
    simp

/-- The first line of a text is what stands in front of the first line end. -/
theorem lines_append (h : '\n' ∉ line.toList) (e : LineEnd) (rest : String) :
    lines (line ++ e.text ++ rest) = e.cut line :: lines rest := by
  cases e with
  | feed =>
    have hsplit : (line ++ LineEnd.feed.text ++ rest).toList =
        line.toList ++ '\n' :: rest.toList := by simp [LineEnd.text]
    rw [lines, hsplit, linesFrom_append h, List.map_cons, List.append_nil]
    rfl
  | returnFeed =>
    have hsplit : (line ++ LineEnd.returnFeed.text ++ rest).toList =
        (line.toList ++ ['\r']) ++ '\n' :: rest.toList := by simp [LineEnd.text]
    have hfeed : '\n' ∉ line.toList ++ ['\r'] := by simpa using h
    rw [lines, hsplit, linesFrom_append hfeed, List.map_cons, List.append_nil,
      List.reverse_append, List.reverse_singleton, List.singleton_append, endedLine,
      List.reverse_reverse, String.ofList_toList]
    rfl

/-- What stands behind the last line end is a line unless it is empty. -/
theorem lines_last (h : '\n' ∉ line.toList) :
    lines line = if line.isEmpty then [] else [line] := by
  rw [lines, linesFrom_last h]
  by_cases he : line = ""
  · simp [he]
  · simp [he]

/-! ## What is read of a line -/

namespace LineEnd

/-- A line that ends loses its carriage return if it has one. -/
theorem endedLine_eq_or (s : List Char) :
    endedLine s = s.reverse ∨ ∃ t, s = '\r' :: t ∧ endedLine s = t.reverse := by
  unfold endedLine
  split
  · exact .inr ⟨_, rfl, rfl⟩
  · exact .inl rfl

/-- A line without a carriage return is read whole. -/
theorem cut_eq_self (h : '\r' ∉ line.toList) (e : LineEnd) : e.cut line = line := by
  cases e with
  | feed =>
    rw [cut]
    rcases endedLine_eq_or line.toList.reverse with he | ⟨t, ht, -⟩
    · rw [he, List.reverse_reverse, String.ofList_toList]
    · have hmem : '\r' ∈ line.toList.reverse := ht ▸ List.mem_cons_self
      exact absurd (List.mem_reverse.1 hmem) h
  | returnFeed => rfl

/-- What is read of a blank line is blank. -/
theorem isBlankText_cut (h : isBlankText line = true) (e : LineEnd) :
    isBlankText (e.cut line) = true := by
  cases e with
  | feed =>
    rw [isBlankText, List.all_eq_true] at h
    rw [cut, isBlankText, List.all_eq_true, String.toList_ofList]
    intro c hc
    refine h c ?_
    rcases endedLine_eq_or line.toList.reverse with he | ⟨t, ht, he⟩
    · simpa [he] using hc
    · rw [he, List.mem_reverse] at hc
      exact List.mem_reverse.1 (ht ▸ List.mem_cons_of_mem _ hc)
  | returnFeed => exact h

end LineEnd

end

end ShaderShrink.Text
