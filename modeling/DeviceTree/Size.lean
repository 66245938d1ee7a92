import DeviceTree.Registry.Basic
import DeviceTree.Word

/-!
# Encoded sizes

Upper bounds of the number of bytes that a value takes when it is encoded in ChainPack.
`Value.encodedSize?` is the size of one value, `Registry.packedSize?` a bound for all values of a
type, where there is one. Texts with a pattern are bounded by their length alone.
-/

namespace DeviceTree

namespace Size

/-- The size of an integer with a byte for its kind, by the number of its bits. -/
def ofBits? (bits : Nat) : Option Nat :=
  if bits ≤ 7 then some 2
  else if bits ≤ 14 then some 3
  else if bits ≤ 21 then some 4
  else if bits ≤ 28 then some 5
  else if bits / 8 + 1 ≤ 17 then some (2 + (bits / 8 + 1))
  else none

/-- The bits that are counted for an integer between two bounds: the digits of the larger magnitude
after its first, and one for the sign where there is one. Without a first digit there is no count. -/
def bits? (minimum maximum : Int) (unsigned : Bool) : Option Nat :=
  let magnitude := max minimum.natAbs maximum.natAbs
  (Word.difference? (Word.digits magnitude) 1).map fun bits => if unsigned then bits else bits + 1

/-- The size of an integer between two bounds. Small integers that are not negative fit into one
byte; others take a byte for their kind and a length that depends on the number of bits. -/
def int? (minimum maximum : Int) (unsigned : Bool) : Option Nat :=
  if 0 ≤ minimum ∧ maximum < 64 then some 1
  else (bits? minimum maximum unsigned).bind ofBits?

/-- The size of an integer. -/
def ofInt? (n : Int) : Option Nat :=
  int? n n (0 ≤ n)

/-- The size of a sequence of bytes between two lengths. -/
def sequence? (minimum maximum : Nat) : Option Nat :=
  (int? minimum maximum true).map fun length => 1 + length + maximum

/-- The size of a text. -/
def ofText? (s : String) : Option Nat :=
  sequence? s.utf8ByteSize s.utf8ByteSize

/-- The sum of two sizes. -/
def plus (a b : Option Nat) : Option Nat :=
  a.bind fun a => b.map fun b => a + b

/-- The larger of two sizes. -/
def larger (a b : Option Nat) : Option Nat :=
  a.bind fun a => b.map fun b => max a b

/-- What a container takes around its items. -/
def framing : Nat := 2

end Size

namespace Value

open Size

mutual

/-- The size of a value. -/
def encodedSize? : Value → Option Nat
  | .null | .bool _ => some 1
  | .int n => ofInt? n.toInt
  | .uint n => int? n.toNat n.toNat true
  | .double _ | .dateTime _ => some 9
  | .decimal d =>
    let m := d.mantissa.toInt
    let e := d.exponent.toInt
    plus (some 1) (plus (int? m m false) (int? e e false))
  | .string s => ofText? s
  | .blob bytes => sequence? bytes.length bytes.length
  | .list items => plus (some framing) (itemsSize? items)
  | .map entries => plus (some framing) (entriesSize? entries)
  | .imap entries => plus (some framing) (pairsSize? entries)

/-- The size of all items. -/
def itemsSize? : List Value → Option Nat
  | [] => some 0
  | item :: rest => plus item.encodedSize? (itemsSize? rest)

/-- The size of all entries with their keys. -/
def entriesSize? : List (String × Value) → Option Nat
  | [] => some 0
  | (key, item) :: rest => plus (plus (ofText? key) item.encodedSize?) (entriesSize? rest)

/-- The size of all entries with their integer keys. -/
def pairsSize? : List (Int × Value) → Option Nat
  | [] => some 0
  | (key, item) :: rest => plus (plus (ofInt? key) item.encodedSize?) (pairsSize? rest)

end

end Value

namespace Registry

open Size

/-- The sum of the sizes of all parts. -/
def sumSizes? (sizes : List (Option Nat)) : Option Nat :=
  sizes.foldr plus (some 0)

/-- The largest of the sizes; there must be one. -/
def maxSize? : List (Option Nat) → Option Nat
  | [] => none
  | first :: rest => rest.foldl larger first

/-- A bound for the values of a type, where `size` bounds the types it refers to. -/
def bodySize? (size : String → Option Nat) : TypeDef → Option Nat
  | .any | .decimal _ => none
  | .null | .bool => some 1
  | .int range =>
    match range.minimum, range.maximum with
    | some low, some high => int? low high range.unsigned
    | _, _ => none
  | .double _ | .dateTime => some 9
  | .string shape => shape.maxLength.bind (sequence? (shape.minLength.getD 0))
  | .blob shape => shape.maxLength.bind (sequence? (shape.minLength.getD 0))
  | .enum e => e.maxValue?.bind fun largest => int? 0 largest true
  | .bitfield b => int? 0 ((1 <<< min b.bitSize 64) - 1) true
  | .list shape =>
    match shape.maxLength, shape.allowed with
    | some 0, _ => some framing
    | some count, some allowed => (size allowed).map fun item => framing + count * item
    | _, _ => none
  | .tuple shape => plus (some framing) (sumSizes? (shape.items.map size))
  | .map shape => shape.fields.bind fun fields =>
      plus (some framing) (sumSizes? (fields.entries.map fun (key, typeName) =>
        plus (ofText? key) (size typeName)))
  | .imap shape => shape.fields.bind fun fields =>
      plus (some framing) (sumSizes? (fields.entries.map fun (key, typeName) =>
        plus (ofInt? key) (size typeName)))
  | .alias target => size target
  | .union members => maxSize? (members.map size)
  | .constant v => v.encodedSize?

/-- A bound for the values of the named type, where the names on the path lead to it. A type inside
itself has no bound. -/
def sizeFrom? (r : Registry) (path : List String) (name : String) : Option Nat :=
  if _ : name ∈ path then none
  else match _ : r.get? name with
    | none => none
    | some type => bodySize? (fun target => r.sizeFrom? (name :: path) target) type
termination_by r.unvisited path
decreasing_by
  exact unvisited_lt (mem_names_of_get? ‹_›) ‹_› (by simp)

/-- A bound for the encoded size of all values of the named type, if there is one. -/
def packedSize? (r : Registry) (name : String) : Option Nat :=
  r.sizeFrom? [] name

end Registry

end DeviceTree
