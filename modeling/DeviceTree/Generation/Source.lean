import DeviceTree.Timestamp

/-!
# Sources of draws

Generated values depend on draws and on the clock. A `Source` gives both, in a world of states that
the draws may change. The least source gives the lower end of every range.
-/

namespace DeviceTree

/-- Where draws and the time come from. -/
structure Source (σ : Type) where
  bool : StateM σ Bool
  byte : StateM σ UInt8
  /-- An integer between two bounds that are part of the range. -/
  integer (low high : Int) : StateM σ Int
  /-- A double from the lower bound up to the upper one, which is not part of the range. -/
  double (low high : Float) : StateM σ Float
  /-- The current time. -/
  now : StateM σ Timestamp

namespace Source

variable {σ : Type}

/-- The source whose draws are all minimal, at a fixed time. -/
def least (time : Timestamp) : Source σ where
  bool := pure false
  byte := pure 0
  integer low _ := pure low
  double low _ := pure low
  now := pure time

/-- A position in a list of the given length. -/
def index (s : Source σ) (length : Nat) : StateM σ Nat := do
  let i ← s.integer 0 (length - 1)
  pure i.toNat

/-- Exchanges each element from position `last` down to the second with one not after it. -/
def shuffleFrom {α : Type} (s : Source σ) (items : Array α) : (last : Nat) → StateM σ (Array α)
  | 0 => pure items
  | last + 1 => do
    let i ← s.index (last + 2)
    s.shuffleFrom (items.swapIfInBounds (last + 1) i) last

/-- The elements in a drawn order. -/
def shuffle {α : Type} (s : Source σ) (items : List α) : StateM σ (List α) := do
  let shuffled ← s.shuffleFrom items.toArray (items.length - 1)
  pure shuffled.toList

end Source

end DeviceTree
