import Mathlib.Data.List.Basic
import Mathlib.Tactic.Common

/-!
# Reading a text line by line

An input stream holds what has not been read, and whether the end was reached: a line that is ended by
a line break leaves the stream before the end, even if nothing follows. So a loop that reads until the
end takes the lines of the text, of which the last is what stands after the last line break, be it
empty (`toEnd_opened`). Lines that hold no line break are joined into a text that has these lines
(`lines_unlines`).
-/

namespace Lib.Text

/-- What has not been read of a text, and whether the end was reached. -/
structure Stream where
  rest : List Char
  eof : Bool := false

/-- A text that has just been opened. -/
def Stream.opened (text : List Char) : Stream := { rest := text }

/-- One line: up to the next line break, which is taken too, or up to the end. -/
def getline (s : Stream) : List Char × Stream :=
  (s.rest.takeWhile (· ≠ '\n'),
    match s.rest.dropWhile (· ≠ '\n') with
    | [] => { rest := [], eof := true }
    | _ :: rest => { rest := rest, eof := false })

/-- The lines of a text: what stands between its line breaks. -/
def lines : List Char → List (List Char)
  | [] => [[]]
  | c :: text =>
    if c = '\n' then [] :: lines text
    else match lines text with
      | [] => [[c]]
      | line :: rest => (c :: line) :: rest

/-- A text has a line. -/
theorem lines_ne_nil (text : List Char) : lines text ≠ [] := by
  cases text with
  | nil => simp [lines]
  | cons c text =>
    simp only [lines]
    split
    · simp
    · split <;> simp

/-- **A line read is the first line of the text**, and the lines of what is left follow. -/
theorem lines_getline (text : List Char) :
    lines text = (getline (.opened text)).1 ::
      if (getline (.opened text)).2.eof then [] else lines (getline (.opened text)).2.rest := by
  induction text with
  | nil => rfl
  | cons c text ih =>
    by_cases ends : c = '\n'
    · simp [lines, getline, Stream.opened, ends]
    · rw [lines, if_neg ends, ih]
      simp [getline, Stream.opened, ends]

/-- The lines that a loop reads until the end, with the turns it may take. -/
def toEnd : Nat → Stream → List (List Char)
  | 0, _ => []
  | turns + 1, s => if s.eof then [] else (getline s).1 :: toEnd turns (getline s).2

/-- A line break less is left after each line. -/
theorem getline_shorter (text : List Char) :
    (getline (.opened text)).2.eof = true ∨ (getline (.opened text)).2.rest.length < text.length := by
  induction text with
  | nil => exact .inl rfl
  | cons c text ih =>
    by_cases ends : c = '\n'
    · right
      simp [getline, Stream.opened, ends]
    · have same : (getline (.opened (c :: text))).2 = (getline (.opened text)).2 := by
        simp [getline, Stream.opened, ends]
      rw [same]
      apply ih.imp_right
      intro shorter
      rw [List.length_cons]
      omega

/-- **Reading until the end** takes the lines of the text. -/
theorem toEnd_opened (text : List Char) : toEnd (text.length + 1) (.opened text) = lines text := by
  suffices enough : ∀ turns (text : List Char), text.length < turns →
      toEnd turns (.opened text) = lines text from enough _ text (Nat.lt_succ_self _)
  intro turns
  induction turns with
  | zero =>
    intro text few
    omega
  | succ turns ih =>
    intro text few
    rw [lines_getline, toEnd, if_neg (by simp [Stream.opened])]
    congr 1
    cases ended : (getline (.opened text)).2.eof with
    | true =>
      cases turns with
      | zero => rfl
      | succ turns => simp [toEnd, ended]
    | false =>
      have shorter := (getline_shorter text).resolve_left (by simp [ended])
      have again : (getline (.opened text)).2 = .opened (getline (.opened text)).2.rest := by
        generalize getline (.opened text) = g at ended
        obtain ⟨line, rest, eof⟩ := g
        simp only at ended
        rw [ended]
        rfl
      rw [again, ih _ (by omega)]
      rfl

/-! ## Joining lines -/

/-- The lines joined by line breaks. -/
def unlines : List (List Char) → List Char
  | [] => []
  | [line] => line
  | line :: rest => line ++ '\n' :: unlines rest

/-- A text without a line break is one line. -/
theorem lines_plain {line : List Char} (plain : '\n' ∉ line) : lines line = [line] := by
  induction line with
  | nil => rfl
  | cons c line ih =>
    obtain ⟨here, later⟩ := not_or.mp (mt List.mem_cons.mpr plain)
    rw [lines, if_neg (Ne.symm here), ih later]

/-- A line that is ended by a line break comes first. -/
theorem lines_append_break {line : List Char} (plain : '\n' ∉ line) (text : List Char) :
    lines (line ++ '\n' :: text) = line :: lines text := by
  induction line with
  | nil => simp [lines]
  | cons c line ih =>
    obtain ⟨here, later⟩ := not_or.mp (mt List.mem_cons.mpr plain)
    rw [List.cons_append, lines, if_neg (Ne.symm here), ih later]

/-- No line of a text holds a line break. -/
theorem plain_of_mem_lines {text line : List Char} (h : line ∈ lines text) : '\n' ∉ line := by
  induction text generalizing line with
  | nil =>
    obtain rfl : line = [] := by simpa [lines] using h
    exact List.not_mem_nil
  | cons c text ih =>
    rw [lines] at h
    split at h
    · rcases List.mem_cons.mp h with rfl | h
      · exact List.not_mem_nil
      · exact ih h
    · next other =>
      obtain ⟨first, rest, split_⟩ := List.exists_cons_of_ne_nil (lines_ne_nil text)
      rw [split_] at h ih
      rcases List.mem_cons.mp h with rfl | h
      · intro inside
        rcases List.mem_cons.mp inside with same | inside
        · exact other same.symm
        · exact ih List.mem_cons_self inside
      · exact ih (List.mem_cons_of_mem first h)

/-- **Joined lines are the lines of the text.** -/
theorem lines_unlines {ls : List (List Char)} (some_ : ls ≠ []) (plain : ∀ line ∈ ls, '\n' ∉ line) :
    lines (unlines ls) = ls := by
  induction ls with
  | nil => exact absurd rfl some_
  | cons line rest ih =>
    have here := plain line List.mem_cons_self
    cases rest with
    | nil => exact lines_plain here
    | cons next rest =>
      have later := ih (List.cons_ne_nil next rest) fun l hl => plain l (List.mem_cons_of_mem line hl)
      rw [unlines, lines_append_break here, later]
      exact List.cons_ne_nil next rest

end Lib.Text
