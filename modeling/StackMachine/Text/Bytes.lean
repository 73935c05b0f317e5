/-!
# Texts as byte strings

Program texts, names and messages are finite sequences of bytes. Most are UTF-8, but nothing
forces them to be: a program read from a file may hold any byte, columns are counted in bytes, and
a message that quotes a line quotes it byte for byte. `Bytes` is therefore the text type of the
whole library, and `utf8` brings the fixed wording of messages into it.

The file also holds the plain ways of writing numbers: `decimal` for unsigned and `signed` for
signed integers, lower-case hexadecimal digits, and the big-endian bytes of a number.
-/

namespace StackMachine

/-- A text: any finite sequence of bytes, the first one first. -/
abbrev Bytes := List UInt8

namespace Text

/-- The UTF-8 form of one character: one byte below `U+0080`, two below `U+0800`, three below
`U+10000`, four from there on. -/
def encodeChar (c : Char) : Bytes :=
  let n := c.toNat
  if n < 0x80 then [n.toUInt8]
  else if n < 0x800 then
    [(0xC0 + n / 0x40).toUInt8, (0x80 + n % 0x40).toUInt8]
  else if n < 0x10000 then
    [(0xE0 + n / 0x1000).toUInt8, (0x80 + n / 0x40 % 0x40).toUInt8, (0x80 + n % 0x40).toUInt8]
  else
    [(0xF0 + n / 0x40000).toUInt8, (0x80 + n / 0x1000 % 0x40).toUInt8,
      (0x80 + n / 0x40 % 0x40).toUInt8, (0x80 + n % 0x40).toUInt8]

/-- The UTF-8 form of a string of characters. -/
def utf8 (s : String) : Bytes := s.toList.flatMap encodeChar

/-- The byte of an ASCII character. -/
def ascii (c : Char) : UInt8 := c.toNat.toUInt8

/-! ## Numbers -/

/-- The byte of the decimal digit `n % 10`. -/
def digit (n : Nat) : UInt8 := (48 + n % 10).toUInt8

/-- A natural number in decimal, without leading zeros. -/
def decimal (n : Nat) : Bytes :=
  if n < 10 then [digit n] else decimal (n / 10) ++ [digit n]

/-- An integer in decimal, with a minus sign when it is negative. -/
def signed (n : Int) : Bytes :=
  if n < 0 then ascii '-' :: decimal n.natAbs else decimal n.natAbs

/-- A 64-bit word read as a signed number, in decimal. -/
def word (v : Int64) : Bytes := signed v.toInt

/-- The lower-case hexadecimal digit of `n % 16`. -/
def hexDigit (n : Nat) : UInt8 :=
  if n % 16 < 10 then (48 + n % 16).toUInt8 else (87 + n % 16).toUInt8

/-- The lowest `width` hexadecimal digits of a number, the most significant first. -/
def hexDigits : (width : Nat) → Nat → Bytes
  | 0, _ => []
  | width + 1, n => hexDigits width (n / 16) ++ [hexDigit n]

/-- A byte string as hexadecimal digits, two a byte. -/
def hex (b : Bytes) : Bytes := b.flatMap fun x => hexDigits 2 x.toNat

/-- The `count` lowest bytes of a number, the most significant first. -/
def bigEndian : (count : Nat) → Nat → Bytes
  | 0, _ => []
  | count + 1, n => bigEndian count (n / 256) ++ [n.toUInt8]

/-- The number whose bytes these are, the most significant first. -/
def ofBigEndian (b : Bytes) : Nat := b.foldl (fun n x => n * 256 + x.toNat) 0

/-! ## Columns and joining -/

/-- A text widened on the left to at least `width` bytes. -/
def padLeft (fill : UInt8) (width : Nat) (t : Bytes) : Bytes :=
  List.replicate (width - t.length) fill ++ t

/-- Texts put after one another, with a separator between each two. -/
def join (separator : Bytes) : List Bytes → Bytes
  | [] => []
  | [t] => t
  | t :: ts => t ++ separator ++ join separator ts

/-- A text and the line feed that ends its line. -/
def line (t : Bytes) : Bytes := t ++ [10]

/-- What is left of a text after a given beginning, if it begins so. -/
def dropPrefix? : (start : Bytes) → Bytes → Option Bytes
  | [], t => some t
  | _ :: _, [] => none
  | a :: start, b :: t => if a = b then dropPrefix? start t else none

theorem length_of_dropPrefix? {start t rest : Bytes} (h : dropPrefix? start t = some rest) :
    rest.length + start.length = t.length := by
  induction start generalizing t with
  | nil => simp_all [dropPrefix?]
  | cons a start ih =>
    cases t with
    | nil => simp [dropPrefix?] at h
    | cons b t =>
      simp only [dropPrefix?] at h
      split at h
      · have := ih h
        simp only [List.length_cons]
        omega
      · simp at h

/-- The order of texts byte by byte, a shorter text before its continuations. -/
def before : Bytes → Bytes → Bool
  | [], [] => false
  | [], _ :: _ => true
  | _ :: _, [] => false
  | a :: s, b :: t => if a = b then before s t else a < b

/-- The reading of a text as characters, or nothing when it is not UTF-8. -/
def toString? (t : Bytes) : Option String := String.fromUTF8? (ByteArray.mk t.toArray)

end Text

end StackMachine
