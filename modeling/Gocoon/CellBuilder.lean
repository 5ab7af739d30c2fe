import Mathlib.Tactic.Common
import Mathlib.Algebra.Group.Nat.Defs

/-!
# Cells and their builders

A cell has at most 1023 bits and at most four references; a builder carries both bounds,
so a cell that is too large cannot be built. The storing operations are the ones that
panic, here by having no result, exactly when a value does not fit its field or the cell
would overflow. Numbers are stored most significant bit first, and an amount of coins as
its length in bytes and the bytes.
-/

namespace Gocoon.CellBuilder

set_option autoImplicit false

inductive Cell where
  | mk (bits : List Bool) (refs : List Cell)

namespace Cell

def bits : Cell → List Bool
  | .mk bits _ => bits

def refs : Cell → List Cell
  | .mk _ refs => refs

end Cell

def maxBits : Nat := 1023

def maxRefs : Nat := 4

structure Builder where
  bits : List Bool
  refs : List Cell
  bitsFit : bits.length ≤ maxBits
  refsFit : refs.length ≤ maxRefs

def beginCell : Builder where
  bits := []
  refs := []
  bitsFit := Nat.zero_le _
  refsFit := Nat.zero_le _

def numberBits : Nat → Nat → List Bool
  | 0, _ => []
  | width + 1, value => value.testBit width :: numberBits width value

namespace Builder

def storeBits (added : List Bool) (builder : Builder) : Option Builder :=
  if fits : (builder.bits ++ added).length ≤ maxBits then
    some { builder with bits := builder.bits ++ added, bitsFit := fits }
  else none

def storeRef (cell : Cell) (builder : Builder) : Option Builder :=
  if fits : (builder.refs ++ [cell]).length ≤ maxRefs then
    some { builder with refs := builder.refs ++ [cell], refsFit := fits }
  else none

def storeUInt (value width : Nat) (builder : Builder) : Option Builder :=
  if value < 2 ^ width then builder.storeBits (numberBits width value) else none

def storeBigUInt (value : Int) (width : Nat) (builder : Builder) : Option Builder :=
  if 0 ≤ value then builder.storeUInt value.toNat width else none

/-- Coins: the least number of bytes that hold the value, below sixteen, and the bytes. -/
def storeBigCoins (value : Int) (builder : Builder) : Option Builder :=
  if 0 ≤ value then do
    let length ← (List.range 16).find? fun count => value.toNat < 256 ^ count
    let sized ← builder.storeUInt length 4
    sized.storeUInt value.toNat (8 * length)
  else none

def storeBoolBit (value : Bool) (builder : Builder) : Option Builder := builder.storeBits [value]

def storeMaybeRef (cell : Option Cell) (builder : Builder) : Option Builder :=
  match cell with
  | none => builder.storeBits [false]
  | some inner => (builder.storeBits [true]).bind (·.storeRef inner)

def storeCell (cell : Cell) (builder : Builder) : Option Builder := do
  let filled ← builder.storeBits cell.bits
  cell.refs.foldlM (fun partly ref => partly.storeRef ref) filled

def endCell (builder : Builder) : Cell := .mk builder.bits builder.refs

end Builder

/-- A reading position in a cell; a load that finds too few bits fails. -/
structure Slice where
  bits : List Bool
  refs : List Cell

def beginParse (cell : Cell) : Slice where
  bits := cell.bits
  refs := cell.refs

def bitsNumber (bits : List Bool) : Nat :=
  bits.foldl (fun value bit => 2 * value + bit.toNat) 0

namespace Slice

def loadUInt (width : Nat) (slice : Slice) : Option (Nat × Slice) :=
  if width ≤ slice.bits.length then
    some (bitsNumber (slice.bits.take width), { slice with bits := slice.bits.drop width })
  else none

def loadBigCoins (slice : Slice) : Option (Nat × Slice) := do
  let (length, rest) ← slice.loadUInt 4
  rest.loadUInt (8 * length)

def loadBoolBit (slice : Slice) : Option (Bool × Slice) :=
  match slice.bits with
  | [] => none
  | bit :: rest => some (bit, { slice with bits := rest })

def loadRef (slice : Slice) : Option (Cell × Slice) :=
  match slice.refs with
  | [] => none
  | cell :: rest => some (cell, { slice with refs := rest })

def loadMaybeRef (slice : Slice) : Option (Option Cell × Slice) := do
  let (present, rest) ← slice.loadBoolBit
  if present then rest.loadRef.map fun (cell, after) => (some cell, after)
  else some (none, rest)

end Slice

end Gocoon.CellBuilder
