import Mathlib.Algebra.Group.Nat.Defs
import MCsim.Lib.Subscript
import MCsim.Lib.Text

/-!
# Configuration files

`readConfigFile` reads a line at a time: a comment is cut off, blanks at the end are trimmed, and what
stands before and after the first `=` is handed to `SetKey`. A line that is left without a `=` aborts.

`find_first_of` and `find_last_not_of` answer with a position or `npos`, which is `none` here.
`RequestQueue` and `CommandQueue` append to their map, every other key overwrites.
-/

namespace MCsim

/-- The members that a configuration file sets. -/
structure Config where
  reqMap : List Bool := []
  cmdMap : List Bool := []
  writeQueueEnable : Bool := false
  requestorReqQ : Bool := false
  requestorCmdQ : Bool := false
  configTable : Lib.Subscript.Table (List Char) (List Char) := Lib.Subscript.empty

namespace Config

/-- `isNumeric`. -/
def isNumeric (input : List Char) : Bool := input.all fun c => '0' ≤ c ∧ c ≤ '9'

/-- `convertNumber`: extracting a number that is too large gives the largest, from nothing gives 0. -/
def convertNumber (input : List Char) : Nat :=
  if isNumeric input then
    min (input.foldl (fun n c => n * 10 + (c.toNat - 48)) 0) (2 ^ 32 - 1)
  else 0

/-- `setQueue`. -/
def setQueue (queueOrg : List Char) (queueMap : List Bool) : List Bool :=
  queueMap ++ queueOrg.map (· == '1')

/-- `SetKey`. -/
def SetKey (config : Config) (key valueString : List Char) : Config :=
  if key = "RequestQueue".toList then { config with reqMap := setQueue valueString config.reqMap }
  else if key = "WriteQueue".toList then
    { config with writeQueueEnable := convertNumber valueString ≠ 0 }
  else if key = "ReqPerREQ".toList then { config with requestorReqQ := convertNumber valueString ≠ 0 }
  else if key = "CommandQueue".toList then { config with cmdMap := setQueue valueString config.cmdMap }
  else if key = "CmdPerREQ".toList then { config with requestorCmdQ := convertNumber valueString ≠ 0 }
  else { config with configTable := Lib.Subscript.enter config.configTable key valueString }

def isBlank (c : Char) : Bool := c == ' ' || c == '\t'

/-- `find_first_of` for one character. -/
def findFirst (c : Char) (line : List Char) : Option Nat := line.findIdx? (· == c)

/-- `find_last_not_of(" \t")`. -/
def findLastNotBlank (line : List Char) : Option Nat :=
  (line.reverse.findIdx? fun c => !isBlank c).map (line.length - 1 - ·)

/-- The line without the blanks at its end; a line of blanks is left as it is. -/
def trimEnd (line : List Char) : List Char :=
  match findLastNotBlank line with
  | some whiteSpaceEndIndex => line.take (whiteSpaceEndIndex + 1)
  | none => line

/-- A line from the trimming on. -/
def readEntry (config : Config) (line : List Char) : Option Config :=
  let line := trimEnd line
  (findFirst '=' line).map fun equalsIndex =>
    config.SetKey (line.take equalsIndex) (line.drop (equalsIndex + 1))

/-- One turn of the loop over the lines; it aborts on a line without a `=`. -/
def readLine (config : Config) (line : List Char) : Option Config :=
  if line.length = 0 then some config
  else
    match findFirst ';' line with
    | some commentIndex =>
      if commentIndex = 0 then some config else config.readEntry (line.take commentIndex)
    | none => config.readEntry line

/-- `readConfigFile`, of a file that is open. -/
def readConfigFile (text : List Char) (config : Config) : Option Config :=
  (Lib.Text.toEnd (text.length + 1) (.opened text)).foldlM readLine config

theorem readConfigFile_eq (text : List Char) (config : Config) :
    readConfigFile text config = (Lib.Text.lines text).foldlM readLine config := by
  rw [readConfigFile, Lib.Text.toEnd_opened]

end Config
end MCsim
