import DeviceTree.Pattern.Syntax

/-!
# Matching

`Regex.ends` gives all places at which a match that starts at a given place can end, as a list
without repetitions. A repetition adds places as long as there are new ones; a text with `n`
characters has `n + 1` places, so `n + 1` rounds reach all of them.
-/

namespace DeviceTree

namespace Assertion

/-- Whether the character at a place, if there is one, is part of a word. -/
def wordAt (text : Array Char) (i : Nat) : Bool :=
  text[i]?.any Text.isWord

/-- Whether there is a word character right before a place. -/
def wordBefore (text : Array Char) (i : Nat) : Bool :=
  i != 0 && wordAt text (i - 1)

/-- Whether the assertion holds at a place of the text. -/
def holds (text : Array Char) (i : Nat) : Assertion → Bool
  | startOfText => i == 0
  | endOfText => i == text.size
  | startOfLine => i == 0 || text[i - 1]? == some '\n'
  | endOfLine => i == text.size || text[i]? == some '\n'
  | wordBoundary => wordBefore text i != wordAt text i
  | noWordBoundary => wordBefore text i == wordAt text i
  | startOfWord => !wordBefore text i && wordAt text i
  | endOfWord => wordBefore text i && !wordAt text i
  | noWordBefore => !wordBefore text i
  | noWordAfter => !wordAt text i

end Assertion

namespace Regex

/-- The places reached by one step from any of the given ones. -/
def oneStep (step : Nat → List Nat) (places : List Nat) : List Nat :=
  (places.flatMap step).eraseDups

/-- The places reached by exactly `n` steps. -/
def exactly (step : Nat → List Nat) : Nat → List Nat → List Nat
  | 0, places => places
  | n + 1, places => exactly step n (oneStep step places)

/-- The places reached by at most `n` steps. -/
def atMost (step : Nat → List Nat) : Nat → List Nat → List Nat
  | 0, places => places
  | n + 1, places =>
    let more := (oneStep step places).filter (!places.contains ·)
    if more.isEmpty then places else atMost step n (places ++ more)

/-- The places at which a match from place `i` can end. -/
def ends (text : Array Char) : Regex → Nat → List Nat
  | .empty, i => [i]
  | .char set, i => if text[i]?.any set.contains then [i + 1] else []
  | .assert a, i => if a.holds text i then [i] else []
  | .seq a b, i => oneStep (fun j => ends text b j) (ends text a i)
  | .alt a b, i => (ends text a i ++ ends text b i).eraseDups
  | .repeat a low high, i =>
    let step j := ends text a j
    let more := match high with
      | some high => high - low
      | none => text.size + 1
    atMost step more (exactly step low [i])

/-- Whether some part of the text matches. -/
def occursIn (r : Regex) (text : String) : Bool :=
  let cs := text.toList.toArray
  (List.range (cs.size + 1)).any fun i => !(ends cs r i).isEmpty

end Regex

end DeviceTree
