import ShaderShrink.CommandLine.Run
import ShaderShrink.Disk.FileTree
import ShaderShrink.Proofs.Job.Coding
import ShaderShrink.Proofs.Json.Compact
import ShaderShrink.Proofs.Text.Lines

/-!
# Files of pairs are read as they were written

A file of pairs is laid out (`PairsFile`) with one pair per line in compact JSON, with blank lines
anywhere between them, and with a line end of either kind behind each line but perhaps the last one.
However it is laid out, what is read are its pairs in their order
(`ProgramPair.readAll_pairsFile`): the text of a pair is a single line that is not blank, and a
carriage return in front of a line feed is no part of it. Of a text that is not such a file, the
first line that is neither blank nor a pair is named (`ProgramPair.readLines_eq_error_iff`).
-/

namespace ShaderShrink

open Text (LineEnd isBlankText)

/-! ## Layouts -/

/-- What stands on a line of a file of pairs. -/
inductive PairsLine where
  | pair (p : ProgramPair)
  | blank (text : String) (hblank : isBlankText text = true) (hfeed : '\n' ∉ text.toList)

namespace PairsLine

/-- The characters of a line. -/
def text : PairsLine → String
  | .pair p => p.toJson.compact
  | .blank text _ _ => text

/-- The pair on a line. -/
def pair? : PairsLine → Option ProgramPair
  | .pair p => some p
  | .blank _ _ _ => none

end PairsLine

/-- A layout of a file of pairs. -/
structure PairsFile where
  /-- The lines with a line end. -/
  ended : List (PairsLine × LineEnd)
  /-- A last line without one. -/
  last : Option PairsLine

namespace PairsFile

/-- The characters of some lines that are ended and of a last one that is not. -/
def textOf (last : Option PairsLine) : List (PairsLine × LineEnd) → String
  | [] => last.elim "" PairsLine.text
  | (line, e) :: rest => line.text ++ e.text ++ textOf last rest

/-- The characters of the file. -/
def text (file : PairsFile) : String := textOf file.last file.ended

/-- The pairs in the file. -/
def pairs (file : PairsFile) : List ProgramPair :=
  (file.ended.map Prod.fst ++ file.last.toList).filterMap PairsLine.pair?

end PairsFile

/-! ## Lines -/

namespace ProgramPair

/-- The text of a pair starts with a brace. -/
theorem isBlankText_compact (p : ProgramPair) : isBlankText p.toJson.compact = false := by
  rw [toJson, Json.compact, isBlankText, String.toList_append, String.toList_append]
  rfl

/-- A pair is decoded from its text on one line. -/
theorem decode_compact (p : ProgramPair) (h : p.toJson.depth ≤ Json.nestingLimit) :
    decode p.toJson.compact = .ok p := by
  rw [p.decode_written (Json.written_compact _), if_pos h]

end ProgramPair

namespace PairsLine

variable (line : PairsLine)

/-- The text of a line has no line feed in it. -/
theorem feed_not_mem_text : '\n' ∉ line.text.toList := by
  cases line with
  | pair p => exact (Json.printable_compact p.toJson).not_mem (by decide)
  | blank text hblank hfeed => exact hfeed

/-- What is read of a line in front of a line end is as good as the line: of a pair it is the whole
text, and of a blank line it is blank. -/
theorem readLines_cut (e : LineEnd) (number : Nat) (rest : List String) :
    ProgramPair.readLines number (e.cut line.text :: rest) =
      ProgramPair.readLines number (line.text :: rest) := by
  cases line with
  | pair p =>
    have hreturn : '\r' ∉ p.toJson.compact.toList :=
      (Json.printable_compact p.toJson).not_mem (by decide)
    rw [text, LineEnd.cut_eq_self hreturn]
  | blank text hblank hfeed =>
    rw [PairsLine.text, ProgramPair.readLines, ProgramPair.readLines, if_pos hblank,
      if_pos (LineEnd.isBlankText_cut hblank e)]

/-- A line adds its pair to those of the lines behind it. -/
theorem readLines_cons {number : Nat} {rest : List String} {pairs : List ProgramPair}
    (hdepth : ∀ p ∈ line.pair?, p.toJson.depth ≤ Json.nestingLimit)
    (hrest : ProgramPair.readLines (number + 1) rest = .ok pairs) :
    ProgramPair.readLines number (line.text :: rest) = .ok (line.pair?.toList ++ pairs) := by
  cases line with
  | pair p =>
    have hnot : ¬ isBlankText p.toJson.compact = true := by simp [p.isBlankText_compact]
    rw [text, ProgramPair.readLines, if_neg hnot, p.decode_compact (hdepth p rfl), hrest]
    rfl
  | blank text hblank hfeed =>
    rw [PairsLine.text, ProgramPair.readLines, if_pos hblank, hrest]
    rfl

/-- A line without characters is no line, and no pair stands on it. -/
theorem pair?_of_isEmpty (h : line.text.isEmpty = true) : line.pair? = none := by
  cases line with
  | pair p =>
    have hempty : p.toJson.compact = "" := String.isEmpty_iff.1 h
    have hblank : isBlankText p.toJson.compact = true := hempty ▸ rfl
    rw [p.isBlankText_compact] at hblank
    contradiction
  | blank => rfl

/-- From a line without a line end its pair is read. -/
theorem readLines_lines {number : Nat}
    (hdepth : ∀ p ∈ line.pair?, p.toJson.depth ≤ Json.nestingLimit) :
    ProgramPair.readLines number (Text.lines line.text) = .ok line.pair?.toList := by
  rw [Text.lines_last line.feed_not_mem_text]
  split_ifs with hempty
  · rw [line.pair?_of_isEmpty hempty]
    rfl
  · rw [line.readLines_cons hdepth rfl, List.append_nil]

end PairsLine

/-! ## Files -/

namespace ProgramPair

/-- The pairs of a file are read in their order. -/
theorem readLines_textOf (last : Option PairsLine) (ended : List (PairsLine × LineEnd))
    (number : Nat)
    (hdepth : ∀ p ∈ PairsFile.pairs ⟨ended, last⟩, p.toJson.depth ≤ Json.nestingLimit) :
    readLines number (Text.lines (PairsFile.textOf last ended)) =
      .ok (PairsFile.pairs ⟨ended, last⟩) := by
  induction ended generalizing number with
  | nil =>
    cases last with
    | none => rfl
    | some line =>
      have hpairs : PairsFile.pairs ⟨[], some line⟩ = line.pair?.toList := by cases line <;> rfl
      rw [hpairs] at hdepth ⊢
      exact line.readLines_lines (by simpa using hdepth)
  | cons head rest ih =>
    obtain ⟨line, e⟩ := head
    have hpairs : PairsFile.pairs ⟨(line, e) :: rest, last⟩ =
        line.pair?.toList ++ PairsFile.pairs ⟨rest, last⟩ := by
      cases line <;> rfl
    rw [hpairs] at hdepth ⊢
    obtain ⟨hline, hrest⟩ := List.forall_mem_append.1 hdepth
    rw [PairsFile.textOf, Text.lines_append line.feed_not_mem_text, line.readLines_cut]
    exact line.readLines_cons (by simpa using hline) (ih (number + 1) hrest)

/-- All pairs of a file are read, whatever lies between them. -/
theorem readAll_pairsFile (file : PairsFile)
    (hdepth : ∀ p ∈ file.pairs, p.toJson.depth ≤ Json.nestingLimit) :
    readAll file.text = .ok file.pairs :=
  readLines_textOf file.last file.ended 1 hdepth

/-- A line that is passed over or gives a pair. -/
def Readable (line : String) : Prop := isBlankText line = true ∨ ∃ p, decode line = .ok p

/-- Reading fails at the first line that is neither blank nor a pair. -/
theorem readLines_eq_error_iff {number : Nat} {ls : List String} {e : PairsError} :
    readLines number ls = .error e ↔ ∃ front line after, ls = front ++ line :: after ∧
      (∀ l ∈ front, Readable l) ∧ isBlankText line = false ∧ decode line = .error e.cause ∧
      e.line = number + front.length := by
  induction ls generalizing number with
  | nil => simp [readLines]
  | cons head rest ih =>
    -- behind a line that is readable, the lines are counted from the next number on
    have hstep (hhead : Readable head) :
        readLines (number + 1) rest = .error e ↔ ∃ front line after,
          head :: rest = front ++ line :: after ∧ (∀ l ∈ front, Readable l) ∧
            isBlankText line = false ∧ decode line = .error e.cause ∧
            e.line = number + front.length := by
      rw [ih]
      constructor
      · rintro ⟨front, line, after, rfl, hfront, hline, hcause, hnumber⟩
        exact ⟨head :: front, line, after, rfl, List.forall_mem_cons.2 ⟨hhead, hfront⟩, hline,
          hcause, by rw [hnumber, List.length_cons]; omega⟩
      · rintro ⟨front, line, after, heq, hfront, hline, hcause, hnumber⟩
        cases front with
        | nil =>
          obtain ⟨rfl, -⟩ := List.cons.inj heq
          obtain hblank | ⟨p, hp⟩ := hhead
          · simp [hblank] at hline
          · simp [hp] at hcause
        | cons first front =>
          obtain ⟨rfl, rfl⟩ := List.cons.inj heq
          exact ⟨front, line, after, rfl, (List.forall_mem_cons.1 hfront).2, hline, hcause,
            by rw [hnumber, List.length_cons]; omega⟩
    rw [readLines]
    split_ifs with hblank
    · exact hstep (.inl hblank)
    · split
      next cause hcause =>
        constructor
        · intro heq
          obtain rfl := Except.error.inj heq
          exact ⟨[], head, rest, rfl, by simp, by simpa using hblank, hcause, rfl⟩
        · rintro ⟨front, line, after, heq, hfront, hline, hcause', hnumber⟩
          cases front with
          | nil =>
            obtain ⟨rfl, -⟩ := List.cons.inj heq
            obtain rfl : cause = e.cause := by simpa [hcause] using hcause'
            rw [List.length_nil, Nat.add_zero] at hnumber
            rw [← hnumber]
          | cons first front =>
            obtain ⟨rfl, -⟩ := List.cons.inj heq
            obtain hfirst | ⟨p, hp⟩ := (List.forall_mem_cons.1 hfront).1
            · exact absurd hfirst hblank
            · simp [hp] at hcause
      next p hp =>
        rw [← hstep (.inr ⟨p, hp⟩)]
        cases readLines (number + 1) rest <;> simp [Except.map]

end ProgramPair

/-- A file of pairs is read as the list of its pairs, however it is laid out, if none of them nests
more than 127 arrays and objects inside each other. Of any file that cannot be read, the error names
the first line that is neither blank nor a pair; the number of a line is one more than that of the
lines in front of it, the blank ones included. -/
theorem loadPairs_of_read {σ : Type} [Disk σ] {path text : String} {s : σ}
    (hread : Disk.read path s = .ok text) :
    (∀ file : PairsFile, text = file.text → (∀ p ∈ file.pairs, p.toJson.depth ≤ 127) →
      loadPairs path s = .ok file.pairs) ∧
    ∀ e, loadPairs path s = .error e ↔
      ∃ front line after cause, Text.lines text = front ++ line :: after ∧
        (∀ l ∈ front, isBlankText l = true ∨ ∃ p, ProgramPair.decode l = .ok p) ∧
        isBlankText line = false ∧ ProgramPair.decode line = .error cause ∧
        e = .undecodablePair path (front.length + 1) cause := by
  have hload : loadPairs path s =
      (ProgramPair.readAll text).mapError fun e => .undecodablePair path e.line e.cause := by
    rw [loadPairs, hread]
  rw [hload]
  refine ⟨?_, fun e => ⟨fun heq => ?_, ?_⟩⟩
  · rintro file rfl hdepth
    rw [ProgramPair.readAll_pairsFile file hdepth]
    rfl
  · cases hall : ProgramPair.readAll text with
    | ok pairs => rw [hall] at heq; cases heq
    | error cause =>
      obtain ⟨front, line, after, hlines, hfront, hline, hcause, hnumber⟩ :=
        ProgramPair.readLines_eq_error_iff.1 hall
      refine ⟨front, line, after, cause.cause, hlines, hfront, hline, hcause, ?_⟩
      have he : ProgramError.undecodablePair path cause.line cause.cause = e :=
        Except.error.inj (hall ▸ heq)
      rw [← he, hnumber, Nat.add_comm]
  · rintro ⟨front, line, after, cause, hlines, hfront, hline, hcause, rfl⟩
    have hall : ProgramPair.readAll text = .error ⟨front.length + 1, cause⟩ :=
      ProgramPair.readLines_eq_error_iff.2
        ⟨front, line, after, hlines, hfront, hline, hcause, Nat.add_comm ..⟩
    rw [hall]
    rfl

/-- A job whose name has a line end in it, and that is paired with itself. -/
def brokenNamePair : ProgramPair :=
  let job : ShaderJob := ⟨"a\x0d\nb", "glsl-310es", ⟨[]⟩⟩
  ⟨job, job⟩

/-- A pair behind a line that is blank, and another one that no line end follows. -/
def twoPairsFile : PairsFile where
  ended := [(.blank " " (by decide) (by decide), .feed), (.pair brokenNamePair, .returnFeed)]
  last := some (.pair brokenNamePair)

/-- A file of two pairs, and one with a number on its second line. -/
def pairsTree : FileTree where
  entries := [(["pairs"], .file twoPairsFile.text), (["numbers"], .file "\n7")]
  workingDir := []

/-- Two pairs are read from a file, and a file with a number on its second line is refused there. -/
theorem loadPairs_pairsTree :
    loadPairs "pairs" pairsTree = .ok [brokenNamePair, brokenNamePair] ∧
      loadPairs "numbers" pairsTree = .error (.undecodablePair "numbers" 2 .shape) := by
  have hpairs : Disk.read "pairs" pairsTree = .ok twoPairsFile.text := rfl
  have hnumbers : Disk.read "numbers" pairsTree = .ok "\n7" := rfl
  refine ⟨(loadPairs_of_read hpairs).1 twoPairsFile rfl (by decide), ?_⟩
  exact ((loadPairs_of_read hnumbers).2 _).2
    ⟨[""], "7", [], .shape, by decide, by simp [isBlankText], by decide, rfl, rfl⟩

end ShaderShrink
