import MCsim.ConfigFile

/-!
# Blanks and comments in a configuration file

What is appended behind a line's text is cut off and trimmed away again, in every line that is read at
all (`readLine_append`). An empty line and a comment from the first column on are passed over. A line
that starts with a blank and has nothing but a comment after it is not: it is neither empty nor does its
comment stand first, the trimming leaves a line of blanks alone, and the missing `=` aborts.
-/

namespace MCsim
namespace Config

open Lib.Text

variable {config : Config} {line blanks comment : List Char}

/-- Spaces and tabs. -/
def Blank (l : List Char) : Prop := ∀ c ∈ l, isBlank c = true

theorem findFirst_none {c : Char} (absent : c ∉ line) : findFirst c line = none := by
  rw [findFirst, List.findIdx?_eq_none_iff]
  intro d hd
  rw [beq_eq_false_iff_ne]
  rintro rfl
  exact absent hd

theorem findFirst_append_of_mem {c : Char} {rest : List Char} {i : Nat}
    (found : findFirst c line = some i) : findFirst c (line ++ rest) = some i := by
  unfold findFirst at *
  rw [List.findIdx?_append, found]
  rfl

/-- What is not in the line is found where it was appended. -/
theorem findFirst_append {c : Char} {rest : List Char} (absent : c ∉ line) :
    findFirst c (line ++ c :: rest) = some line.length := by
  have before : findFirst c line = none := findFirst_none absent
  unfold findFirst at *
  rw [List.findIdx?_append, before]
  simp [List.findIdx?_cons]

theorem Blank.not_mem {c : Char} (blank : Blank blanks) (other : isBlank c = false) : c ∉ blanks := by
  intro inside
  rw [blank c inside] at other
  cases other

/-- A line of blanks has no end to trim to. -/
theorem findLastNotBlank_blank (blank : Blank blanks) : findLastNotBlank blanks = none := by
  unfold findLastNotBlank
  rw [Option.map_eq_none_iff, List.findIdx?_eq_none_iff]
  intro c hc
  rw [blank c (List.mem_reverse.mp hc)]
  rfl

/-- **Blanks at the end are trimmed away**, behind anything that is not a blank. -/
theorem trimEnd_append (blank : Blank blanks) (text : ¬ Blank line) :
    trimEnd (line ++ blanks) = trimEnd line := by
  have skipped : blanks.reverse.findIdx? (fun c => !isBlank c) = none := by
    rw [List.findIdx?_eq_none_iff]
    intro c hc
    rw [blank c (List.mem_reverse.mp hc)]
    rfl
  obtain ⟨i, found⟩ : ∃ i, line.reverse.findIdx? (fun c => !isBlank c) = some i := by
    cases found : line.reverse.findIdx? (fun c => !isBlank c) with
    | some i => exact ⟨i, rfl⟩
    | none =>
      refine absurd (fun c hc => ?_) text
      simpa using List.findIdx?_eq_none_iff.mp found c (List.mem_reverse.mpr hc)
  have bound : i < line.length := by
    obtain ⟨bound, _⟩ := List.findIdx?_eq_some_iff_getElem.mp found
    simpa using bound
  have whole : (line ++ blanks).reverse.findIdx? (fun c => !isBlank c) =
      some (i + blanks.length) := by
    rw [List.reverse_append, List.findIdx?_append, skipped, found]
    simp
  have place : (line ++ blanks).length - 1 - (i + blanks.length) = line.length - 1 - i := by
    rw [List.length_append]
    omega
  unfold trimEnd findLastNotBlank
  rw [whole, found, Option.map_some, Option.map_some, place]
  exact List.take_append_of_le_length (by omega)

/-- A line that is read has something besides blanks. -/
theorem not_blank_of_readEntry {config' : Config} (h : config.readEntry line = some config') :
    ¬ Blank line := by
  intro blank
  unfold readEntry trimEnd at h
  rw [findLastNotBlank_blank blank] at h
  dsimp only at h
  rw [findFirst_none (blank.not_mem rfl)] at h
  cases h

theorem readEntry_append {config' : Config} (blank : Blank blanks)
    (h : config.readEntry line = some config') : config.readEntry (line ++ blanks) = some config' := by
  rw [← h]
  unfold readEntry
  rw [trimEnd_append blank (not_blank_of_readEntry h)]

/-! ## Lines -/

/-- **Appending to a line that is not empty** blanks and a comment leaves what is read. -/
theorem readLine_append {config' : Config} (some_ : line ≠ []) (blank : Blank blanks)
    (comment : List Char) (h : config.readLine line = some config') :
    config.readLine (line ++ (blanks ++ ';' :: comment)) = some config' := by
  have long : (line ++ (blanks ++ ';' :: comment)).length ≠ 0 := by
    simp
  have filled : line.length ≠ 0 := mt List.length_eq_zero_iff.mp some_
  unfold readLine at *
  rw [if_neg filled] at h
  rw [if_neg long]
  cases found : findFirst ';' line with
  | some i =>
    -- the line has a comment, and it stays where it is
    obtain ⟨bound, _⟩ := List.findIdx?_eq_some_iff_getElem.mp found
    rw [found] at h
    rw [findFirst_append_of_mem found]
    dsimp only at h ⊢
    rw [List.take_append_of_le_length (Nat.le_of_lt bound)]
    exact h
  | none =>
    have absent : ';' ∉ line ++ blanks := by
      intro inside
      rcases List.mem_append.mp inside with inside | inside
      · simpa using List.findIdx?_eq_none_iff.mp found ';' inside
      · exact blank.not_mem (c := ';') rfl inside
    rw [found] at h
    rw [← List.append_assoc, findFirst_append absent]
    have more : (line ++ blanks).length ≠ 0 := by
      rw [List.length_append]
      omega
    dsimp only
    rw [if_neg more, List.take_left]
    exact readEntry_append blank h

/-- A line of blanks and perhaps a comment. -/
def blankLine (blanks : List Char) (comment : Option (List Char)) : List Char :=
  blanks ++ comment.elim [] (';' :: ·)

/-- **A blank line is passed over exactly where it has no blanks.** -/
theorem readLine_blankLine (blank : Blank blanks) (comment : Option (List Char)) :
    config.readLine (blankLine blanks comment) = if blanks = [] then some config else none := by
  by_cases empty : blanks = []
  · subst empty
    rw [if_pos rfl]
    cases comment with
    | none => rfl
    | some comment =>
      unfold readLine blankLine
      rw [if_neg (by simp)]
      rfl
  · rw [if_neg empty]
    have filled : blanks.length ≠ 0 := mt List.length_eq_zero_iff.mp empty
    have long : (blankLine blanks comment).length ≠ 0 := by
      rw [blankLine, List.length_append]
      omega
    have malformed : config.readEntry blanks = none := by
      cases read : config.readEntry blanks with
      | none => rfl
      | some _ => exact absurd blank (not_blank_of_readEntry read)
    have absent : ';' ∉ blanks := blank.not_mem rfl
    unfold readLine
    rw [if_neg long]
    cases comment with
    | none =>
      have same : blankLine blanks none = blanks := List.append_nil blanks
      rw [same, findFirst_none absent]
      exact malformed
    | some comment =>
      have same : blankLine blanks (some comment) = blanks ++ ';' :: comment := rfl
      rw [same, findFirst_append absent]
      dsimp only
      rw [if_neg filled, List.take_left]
      exact malformed

/-! ## Texts -/

/-- The text with a line put before the line at a position, or behind the last. -/
def insertLine (text : List Char) (i : Nat) (line : List Char) : List Char :=
  unlines ((lines text).take i ++ line :: (lines text).drop i)

/-- The text with something put behind the line at a position. -/
def appendTo (text : List Char) (i : Nat) (tail : List Char) : List Char :=
  unlines ((lines text).modify i (· ++ tail))

theorem plain_blanks (blank : Blank blanks) : '\n' ∉ blanks := blank.not_mem rfl

theorem lines_insertLine {text : List Char} {i : Nat} (plain : '\n' ∉ line) :
    lines (insertLine text i line) = (lines text).take i ++ line :: (lines text).drop i := by
  apply lines_unlines
  · simp
  · intro l hl
    rcases List.mem_append.mp hl with hl | hl
    · exact plain_of_mem_lines (List.mem_of_mem_take hl)
    · rcases List.mem_cons.mp hl with rfl | hl
      · exact plain
      · exact plain_of_mem_lines (List.mem_of_mem_drop hl)

theorem lines_appendTo {text tail : List Char} {i : Nat} (at_ : (lines text)[i]? = some line)
    (plain : '\n' ∉ tail) :
    lines (appendTo text i tail) =
      (lines text).take i ++ (line ++ tail) :: (lines text).drop (i + 1) := by
  obtain ⟨bound, rfl⟩ := List.getElem?_eq_some_iff.mp at_
  have split : (lines text).modify i (· ++ tail) =
      (lines text).take i ++ ((lines text)[i] ++ tail) :: (lines text).drop (i + 1) :=
    List.modify_eq_take_cons_drop bound
  rw [appendTo, split]
  apply lines_unlines
  · simp
  · intro l hl
    rcases List.mem_append.mp hl with hl | hl
    · exact plain_of_mem_lines (List.mem_of_mem_take hl)
    · rcases List.mem_cons.mp hl with rfl | hl
      · intro inside
        rcases List.mem_append.mp inside with inside | inside
        · exact plain_of_mem_lines (List.getElem_mem bound) inside
        · exact plain inside
      · exact plain_of_mem_lines (List.mem_of_mem_drop hl)

/-- **Configuration text is insensitive to comments, and to blanks behind something.** A line of blanks
and perhaps a comment can be inserted anywhere if and only if it has no blanks. -/
theorem readConfigFile_insensitive (text : List Char) (config config' : Config)
    (parsed : readConfigFile text config = some config') (blanks : List Char) (blank : Blank blanks) :
    (∀ i ≤ (lines text).length, ∀ comment : Option (List Char), (∀ c ∈ comment, '\n' ∉ c) →
      (readConfigFile (insertLine text i (blankLine blanks comment)) config = some config' ↔
        blanks = [])) ∧
    ∀ i line, (lines text)[i]? = some line → line ≠ [] → ∀ comment : List Char, '\n' ∉ comment →
      readConfigFile (appendTo text i (blanks ++ ';' :: comment)) config = some config' := by
  rw [readConfigFile_eq] at parsed
  constructor
  · intro i _ comment plain
    have whole : '\n' ∉ blankLine blanks comment := by
      intro inside
      rcases List.mem_append.mp inside with inside | inside
      · exact plain_blanks blank inside
      · cases comment with
        | none => cases inside
        | some c =>
          rcases List.mem_cons.mp inside with same | inside
          · cases same
          · exact plain c rfl inside
    rw [← List.take_append_drop i (lines text), List.foldlM_append] at parsed
    obtain ⟨config₁, before, after⟩ := Option.bind_eq_some_iff.mp parsed
    have inserted : readConfigFile (insertLine text i (blankLine blanks comment)) config =
        (if blanks = [] then some config₁ else none).bind
          fun c => ((lines text).drop i).foldlM readLine c := by
      rw [readConfigFile_eq, lines_insertLine whole, List.foldlM_append, before,
        ← readLine_blankLine blank comment]
      rfl
    rw [inserted]
    by_cases empty : blanks = []
    · rw [if_pos empty]
      exact iff_of_true after empty
    · rw [if_neg empty]
      exact iff_of_false (fun h => by cases h) empty
  · intro i line at_ some_ comment plain
    have whole : '\n' ∉ blanks ++ ';' :: comment := by
      intro inside
      rcases List.mem_append.mp inside with inside | inside
      · exact plain_blanks blank inside
      · rcases List.mem_cons.mp inside with same | inside
        · cases same
        · exact plain inside
    obtain ⟨bound, here⟩ := List.getElem?_eq_some_iff.mp at_
    have around : lines text = (lines text).take i ++ line :: (lines text).drop (i + 1) := by
      rw [← here, List.getElem_cons_drop bound, List.take_append_drop]
    rw [around, List.foldlM_append] at parsed
    obtain ⟨config₁, before, after⟩ := Option.bind_eq_some_iff.mp parsed
    rw [List.foldlM_cons] at after
    obtain ⟨config₂, read, later⟩ := Option.bind_eq_some_iff.mp after
    rw [readConfigFile_eq, lines_appendTo at_ whole, List.foldlM_append, before]
    show (readLine config₁ _).bind _ = _
    rw [readLine_append some_ blank comment read]
    exact later

/-- Two entries. -/
def twoEntries : List Char := "RequestQueue=0010\nWriteQueue=1".toList

/-- The law at a comment line put between them and a comment put behind the first. -/
theorem readConfigFile_insensitive_twoEntries : ∃ config,
    readConfigFile twoEntries {} = some config ∧
      config.reqMap = [false, false, true, false] ∧ config.writeQueueEnable = true ∧
      readConfigFile "RequestQueue=0010\n; one\nWriteQueue=1".toList {} = some config ∧
      readConfigFile "RequestQueue=0010 \t; one\nWriteQueue=1".toList {} = some config := by
  have read : (readConfigFile twoEntries {}).isSome = true := by decide +kernel
  obtain ⟨config, parsed⟩ := Option.isSome_iff_exists.mp read
  have maps : (readConfigFile twoEntries {}).map (fun c => (c.reqMap, c.writeQueueEnable)) =
      some ([false, false, true, false], true) := by decide +kernel
  rw [parsed] at maps
  have maps := Prod.mk.inj (Option.some.inj maps)
  have inserted := ((readConfigFile_insensitive twoEntries {} config parsed [] (by
    intro c hc
    cases hc)).1 1 (by decide +kernel) (some " one".toList) (by decide +kernel)).mpr rfl
  have appended := (readConfigFile_insensitive twoEntries {} config parsed " \t".toList (by
    intro c hc
    rcases List.mem_cons.mp hc with rfl | hc
    · rfl
    · rw [List.mem_singleton.mp hc]
      rfl)).2 0 "RequestQueue=0010".toList (by decide +kernel) (by decide +kernel)
      " one".toList (by decide +kernel)
  have first : insertLine twoEntries 1 (blankLine [] (some " one".toList)) =
      "RequestQueue=0010\n; one\nWriteQueue=1".toList := by decide +kernel
  have second : appendTo twoEntries 0 (" \t".toList ++ ';' :: " one".toList) =
      "RequestQueue=0010 \t; one\nWriteQueue=1".toList := by decide +kernel
  rw [first] at inserted
  rw [second] at appended
  exact ⟨config, parsed, maps.1, maps.2, inserted, appended⟩

/-- A line of one space between the two aborts, and so does a comment that does not stand in the first
column. -/
theorem readConfigFile_blankLine :
    (readConfigFile twoEntries {}).isSome = true ∧
      (readConfigFile (insertLine twoEntries 1 (blankLine [' '] none)) {}).isSome = false ∧
      (readConfigFile (insertLine twoEntries 1 (blankLine [' '] (some "one".toList))) {}).isSome =
        false := by
  decide +kernel

end Config
end MCsim
