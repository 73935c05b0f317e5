import StackMachine.Text.Utf8

/-!
# Data items

The messages of the machine's service travel as CBOR (RFC 8949). `Item` is the tree of a well-formed
data item: what is left of the bytes once lengths and the different ways of writing the same head
have been read.
-/

namespace StackMachine.Cbor

open Text

/-- The three sizes of floating-point numbers. -/
inductive Precision where
  | half
  | single
  | double
  deriving DecidableEq, Repr

/-- How many bits of a floating-point number hold its exponent. -/
def Precision.exponentBits : Precision → Nat
  | half => 5
  | single => 8
  | double => 11

/-- How many bits of a floating-point number hold its fraction. -/
def Precision.fractionBits : Precision → Nat
  | half => 10
  | single => 23
  | double => 52

/-- The value of a floating-point number: none for infinities and for what is not a number, else
a signed multiple of a power of two. -/
inductive Real where
  | nonFinite
  | finite (negative : Bool) (mantissa : Nat) (exponent : Int)
  deriving DecidableEq, Repr

/-- The number that the bits of a floating-point format spell. -/
def Real.ofBits (p : Precision) (bits : Nat) : Real :=
  let fraction := bits % Nat.pow 2 p.fractionBits
  let exponent := bits / Nat.pow 2 p.fractionBits % Nat.pow 2 p.exponentBits
  let negative := bits / Nat.pow 2 (p.fractionBits + p.exponentBits) % 2 == 1
  -- The exponent of the last place of the smallest numbers.
  let lowest : Int := 2 - Nat.pow 2 (p.exponentBits - 1) - p.fractionBits
  if exponent = Nat.pow 2 p.exponentBits - 1 then .nonFinite
  else if exponent = 0 then .finite negative fraction lowest
  else .finite negative (Nat.pow 2 p.fractionBits + fraction) (lowest + exponent - 1)

/-- A data item. -/
inductive Item where
  /-- A natural number below `2 ^ 64`. -/
  | unsigned (n : Nat)
  /-- The number `-1 - n`. -/
  | negative (n : Nat)
  | bytes (b : Bytes)
  /-- A text in the pieces it came in; a text of known length is one piece. -/
  | text (pieces : List Bytes)
  | array (items : List Item)
  /-- Keys and values in the order they came in. -/
  | map (entries : List (Item × Item))
  | tag (number : Nat) (content : Item)
  | bool (b : Bool)
  | null
  | undefined
  /-- A simple value that has no name. -/
  | simple (n : Nat)
  /-- A floating-point number by its bits. -/
  | real (p : Precision) (bits : Nat)
  deriving Repr

namespace Item

/-- What messages call an item of this form. -/
def kindName : Item → String
  | unsigned _ => "positive integer"
  | negative _ => "negative integer"
  | bytes _ => "byte string"
  | text _ => "UTF-8 text string"
  | array _ => "array"
  | map _ => "map"
  | tag _ _ => "tag"
  | _ => "primitives"

/-- Whether an item stands for no value. -/
def isNull : Item → Bool
  | null | undefined => true
  | _ => false

/-- A signed 64-bit word as an item. -/
def ofWord (v : Int64) : Item :=
  if 0 ≤ v then unsigned v.toInt.toNat else negative (-1 - v.toInt).toNat

/-- A text as an item. -/
def ofText (t : Bytes) : Item := text [t]

end Item

end StackMachine.Cbor
