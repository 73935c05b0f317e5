import StackMachine.Text.Bytes

/-!
# Characters of a text

A text that need not be UTF-8 is read as a sequence of `Symbol`s: a character where the bytes spell
one in UTF-8, and a stray byte where they do not. Reading is greedy from the left and a stray byte
stands for itself alone, so the symbols of a text, written out again, are the text.
-/

namespace StackMachine.Text

/-- A character of a text, or a byte that belongs to no character. -/
inductive Symbol where
  | char (c : Char)
  | stray (b : UInt8)
  deriving DecidableEq, Repr

/-- The replacement character `U+FFFD`, which stands where a character was expected and none is. -/
def replacement : Char := Char.ofNat 0xFFFD

/-- The bytes a symbol stands for. -/
def Symbol.bytes : Symbol → Bytes
  | .char c => encodeChar c
  | .stray b => [b]

/-- A byte that continues a character: `10xxxxxx`. -/
def isTail (b : UInt8) : Bool := 0x80 ≤ b && b ≤ 0xBF

/-- Whether the second byte of a character may follow the first one. Overlong forms, surrogates and
values above `U+10FFFF` are excluded here. -/
def isSecond (first second : UInt8) : Bool :=
  if first = 0xE0 then 0xA0 ≤ second && second ≤ 0xBF
  else if first = 0xED then 0x80 ≤ second && second ≤ 0x9F
  else if first = 0xF0 then 0x90 ≤ second && second ≤ 0xBF
  else if first = 0xF4 then 0x80 ≤ second && second ≤ 0x8F
  else isTail second

/-- The six payload bits of a continuation byte. -/
def payload (b : UInt8) : Nat := b.toNat % 0x40

/-- The character at the start of a text, and how many bytes it takes. -/
def firstChar? : Bytes → Option (Char × Nat)
  | [] => none
  | a :: rest =>
    if a < 0x80 then some (Char.ofNat a.toNat, 1)
    else match rest with
      | [] => none
      | b :: rest =>
        if 0xC2 ≤ a && a ≤ 0xDF then
          if isTail b then some (Char.ofNat (a.toNat % 0x20 * 0x40 + payload b), 2) else none
        else match rest with
          | [] => none
          | c :: rest =>
            if 0xE0 ≤ a && a ≤ 0xEF then
              if isSecond a b && isTail c then
                some (Char.ofNat (a.toNat % 0x10 * 0x1000 + payload b * 0x40 + payload c), 3)
              else none
            else match rest with
              | [] => none
              | d :: _ =>
                if 0xF0 ≤ a && a ≤ 0xF4 && isSecond a b && isTail c && isTail d then
                  some (Char.ofNat (a.toNat % 0x08 * 0x40000 + payload b * 0x1000
                    + payload c * 0x40 + payload d), 4)
                else none

/-- The first symbol of a non-empty text, and how many bytes it takes. -/
def firstSymbol (a : UInt8) (rest : Bytes) : Symbol × Nat :=
  match firstChar? (a :: rest) with
  | some (c, n) => (.char c, n)
  | none => (.stray a, 1)

/-- The symbols of a text after its first `skip` bytes, which are part of a symbol already read. -/
def symbolsFrom : (skip : Nat) → Bytes → List Symbol
  | _, [] => []
  | skip + 1, _ :: rest => symbolsFrom skip rest
  | 0, a :: rest =>
    let (u, n) := firstSymbol a rest
    u :: symbolsFrom (n - 1) rest

/-- The symbols of a text, in order. -/
def symbols (t : Bytes) : List Symbol := symbolsFrom 0 t

/-- How many characters a text has, a stray byte counting as one. -/
def count (t : Bytes) : Nat := (symbols t).length

/-- A text is UTF-8 when no byte of it is stray. -/
def isUtf8 (t : Bytes) : Bool :=
  (symbols t).all fun u => match u with | .char _ => true | .stray _ => false

/-- The bytes of a sequence of symbols. -/
def ofSymbols (us : List Symbol) : Bytes := us.flatMap Symbol.bytes

/-- A text widened on the right with blanks to at least `width` characters. -/
def padRight (width : Nat) (t : Bytes) : Bytes :=
  t ++ List.replicate (width - count t) 32

end StackMachine.Text
