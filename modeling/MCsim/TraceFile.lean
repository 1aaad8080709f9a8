import MCsim.Requestor
import MCsim.Lib.Text

/-!
# Trace files

A line of a trace file holds an address, a command and a delay, between blanks. A line of nothing is no
request. `parseTraceFileLine` covers lines of this form; it gives nothing for any other line, on which
the source throws, exits, or reads the digits that it can.

The source divides the delay by the memory clock, a floating point number, and truncates. The scaling
is a parameter here.
-/

namespace MCsim

/-- The digit that a character stands for. -/
def digit? (base : Nat) (c : Char) : Option Nat :=
  let value :=
    if '0' ≤ c ∧ c ≤ '9' then some (c.toNat - '0'.toNat)
    else if 'a' ≤ c ∧ c ≤ 'f' then some (c.toNat - 'a'.toNat + 10)
    else if 'A' ≤ c ∧ c ≤ 'F' then some (c.toNat - 'A'.toNat + 10)
    else none
  value.filter (· < base)

/-- A number of 64 bits written out in a base. -/
def readNumber (base : Nat) (digits : List Char) : Option Nat :=
  if digits.isEmpty then none
  else (digits.foldlM (fun n c => (digit? base c).map (n * base + ·)) 0).filter (· < 2 ^ 64)

/-- The next word of a line, and what follows it. Past the last word `substr` throws. -/
def nextWord (line : List Char) : Option (List Char × List Char) :=
  match line.dropWhile (· = ' ') with
  | [] => none
  | text => some (text.takeWhile (· ≠ ' '), text.dropWhile (· ≠ ' '))

def readCommand (word : List Char) : Option RequestType :=
  if word = "WRITE".toList then some .DATA_WRITE
  else if word = "READ".toList then some .DATA_READ
  else none

/-- `parseTraceFileLine`, up to the arrival time. -/
def parseTraceFileLine (scale : Nat → Nat) (line : List Char) : Option TraceLine :=
  (nextWord line).bind fun (addressStr, line) =>
    (readNumber 16 (addressStr.drop 2)).bind fun addr =>
      (nextWord line).bind fun (cmdStr, line) =>
        (readCommand cmdStr).bind fun requestType =>
          (nextWord line).bind fun (ccStr, _) =>
            (readNumber 10 ccStr).map fun delay =>
              { addr := addr, requestType := requestType, compDelay := scale delay }

/-- A line that was read: nothing for a line of nothing. -/
def readLine (scale : Nat → Nat) (line : List Char) : Option (Option TraceLine) :=
  if line.isEmpty then some none else (parseTraceFileLine scale line).map some

/-- The lines of a trace file, where they are all of the form above. -/
def traceLines (scale : Nat → Nat) (text : List Char) : Option (List (Option TraceLine)) :=
  (Lib.Text.lines text).mapM (readLine scale)

/-- The lines of a file that are not empty. -/
def nonEmptyLines (text : List Char) : List (List Char) :=
  (Lib.Text.lines text).filter fun line => !line.isEmpty

/-- A trace has a request for each line that is not empty. -/
theorem length_traceLines {scale : Nat → Nat} {text : List Char} {trace : List (Option TraceLine)}
    (h : traceLines scale text = some trace) :
    (trace.filterMap id).length = (nonEmptyLines text).length := by
  unfold traceLines at h
  unfold nonEmptyLines
  generalize Lib.Text.lines text = lines at h
  induction lines generalizing trace with
  | nil =>
    obtain rfl : [] = trace := by simpa using h
    rfl
  | cons line lines ih =>
    simp only [List.mapM_cons, Option.bind_eq_bind, Option.bind_eq_some_iff] at h
    obtain ⟨entry, read, rest, more, out⟩ := h
    obtain rfl := Option.some.inj out
    have later := ih more
    unfold readLine at read
    cases empty : line.isEmpty with
    | true =>
      rw [empty, if_pos rfl] at read
      obtain rfl := Option.some.inj read
      simpa [empty] using later
    | false =>
      rw [empty, if_neg (by decide)] at read
      obtain ⟨parsed, _, rfl⟩ := Option.map_eq_some_iff.mp read
      simpa [empty] using later

example : traceLines id "0x40 READ 5\n\n0xC0 WRITE 0".toList =
    some [some { addr := 64, requestType := .DATA_READ, compDelay := 5 }, none,
      some { addr := 192, requestType := .DATA_WRITE, compDelay := 0 }] := by
  decide +kernel

end MCsim
