import DeviceTree.Generation.Source

/-!
# Pseudo-random draws

A source of draws whose world is the state of a generator. Equal seeds give equal draws.
-/

namespace DeviceTree.Source

/-- A number below `count`, which must be positive. -/
def below (count : Nat) : StateM StdGen Nat := fun g =>
  randNat g 0 (count - 1)

/-- The source that draws from a generator, at a fixed time. A double is drawn as one of the
fractions of the range in steps of `2 ^ -53`. -/
def random (time : Timestamp) : Source StdGen where
  bool := do pure ((← below 2) == 1)
  byte := do pure (UInt8.ofNat (← below 256))
  integer low high := do pure (low + (← below ((high - low).toNat + 1)))
  double low high := do
    let fraction := Float.ofScientific (← below 0x20000000000000) false 0 / 9007199254740992.0
    pure (low + (high - low) * fraction)
  now := pure time

end DeviceTree.Source
