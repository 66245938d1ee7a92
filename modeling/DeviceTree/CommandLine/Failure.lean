import DeviceTree.Text.Split

/-!
# Failures

A command that cannot do its work fails with a message, below which are the causes, each the cause
of the one before. A failure is reported on several lines, or on one with colons between.
-/

namespace DeviceTree

/-- Why a command failed. -/
structure Failure where
  message : String
  causes : List String := []
deriving Repr, DecidableEq

namespace Failure

/-- The text with each line indented: the first by `first`, others by blanks of the same width. -/
def indented (first text : String) : String :=
  first ++ String.intercalate ("\n".pushn ' ' first.length) (Text.splitOn '\n' text)

/-- The start of the first line of a numbered cause. -/
def numberMark (n : Nat) : String :=
  let digits := toString n
  "".pushn ' ' (5 - digits.length) ++ digits ++ ": "

/-- The causes as indented texts, numbered where there are several. -/
def causeTexts (f : Failure) : List String :=
  match f.causes with
  | [cause] => [indented "    " cause]
  | causes => causes.mapIdx fun n cause => indented (numberMark n) cause

/-- The report on several lines. -/
def report (f : Failure) : String :=
  let causes := if f.causes.isEmpty then [] else "" :: "Caused by:" :: f.causeTexts
  String.intercalate "\n" (("Error: " ++ f.message) :: causes) ++ "\n"

/-- The message and its causes on one line. -/
def summary (f : Failure) : String :=
  String.intercalate ": " (f.message :: f.causes)

end Failure

end DeviceTree
