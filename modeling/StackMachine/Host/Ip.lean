import StackMachine.Text.Percent

/-!
# Numeric host addresses

An address of four decimal numbers, or one of eight groups of hexadecimal digits in which two colons
can stand for groups of zeros and four decimal numbers for the last two groups. Only the form of an
address is told here, and where a text leaves it.
-/

namespace StackMachine.Ip

open Text

/-- The two forms of an address. -/
inductive Family where
  | four
  | six
  deriving DecidableEq, Repr

/-- In which way a text is not an address. -/
inductive Flaw where
  | noAddress
  | unreadable
  | leadingZero
  | tooLarge
  | noNumber
  | fourTooLong
  | unexpected
  | fourTooShort
  | noZone
  | longGroup
  | noDigit
  | misplacedFour
  | noRoomForFour
  | noColon
  | lastColon
  | secondGap
  | trailing
  | sixTooShort
  | emptyGap
  deriving DecidableEq, Repr

/-- The wording of a flaw. -/
def Flaw.message : Flaw → String
  | noAddress => "missing IPv6 address"
  | unreadable => "unable to parse IP"
  | leadingZero => "IPv4 field has octet with leading zero"
  | tooLarge => "IPv4 field has value >255"
  | noNumber => "IPv4 field must have at least one digit"
  | fourTooLong => "IPv4 address too long"
  | unexpected => "unexpected character"
  | fourTooShort => "IPv4 address too short"
  | noZone => "zone must be a non-empty string"
  | longGroup => "each group must have 4 or less digits"
  | noDigit => "each colon-separated field must have at least one digit"
  | misplacedFour => "embedded IPv4 address must replace the final 2 fields of the address"
  | noRoomForFour => "too many hex fields to fit an embedded IPv4 at the end of the address"
  | noColon => "unexpected character, want colon"
  | lastColon => "colon must be followed by more characters"
  | secondGap => "multiple :: in address"
  | trailing => "trailing garbage after address"
  | sixTooShort => "address string too short"
  | emptyGap => "the :: must expand to at least one field of zeros"

/-- A flaw and the rest of the text from where it shows, or nothing if all of the text shows it. -/
structure Error where
  flaw : Flaw
  rest : Bytes := []
  deriving DecidableEq, Repr

/-- The wording of a text that is not an address. -/
def Error.message (t : Bytes) (e : Error) : Bytes :=
  utf8 "ParseAddr(" ++ quoted t ++ utf8 "): " ++ utf8 e.flaw.message
    ++ (if e.rest = [] then [] else utf8 " (at " ++ quoted e.rest ++ utf8 ")")

/-- Reads what is left of an address of four numbers; so many numbers are complete, and the present
one has a value and a count of digits. -/
def checkFour (complete value digits : Nat) : Bytes → Except Error Unit
  | [] => if complete < 3 then .error ⟨.fourTooShort, []⟩ else .ok ()
  | b :: rest =>
    match Numeral.digit? b with
    | some d =>
      if digits = 1 ∧ value = 0 then .error ⟨.leadingZero, []⟩
      else if 255 < 10 * value + d then .error ⟨.tooLarge, []⟩
      else checkFour complete (10 * value + d) (digits + 1) rest
    | none =>
      if b ≠ ascii '.' then .error ⟨.unexpected, b :: rest⟩
      else if digits = 0 ∨ rest = [] then .error ⟨.noNumber, b :: rest⟩
      else if complete = 3 then .error ⟨.fourTooLong, []⟩
      else checkFour (complete + 1) 0 0 rest

/-- How far an address of eight groups has been read. -/
structure Progress where
  groups : Nat
  /-- Whether two colons have been met. -/
  gap : Bool
  rest : Bytes

/-- Passes the colon after a group, and a second one that makes a gap. -/
def passColon (p : Progress) : Except Error Progress :=
  match p.rest with
  | [] => .ok p
  | [b] => .error ⟨if b = ascii ':' then .lastColon else .noColon, [b]⟩
  | b :: c :: rest =>
    if b ≠ ascii ':' then .error ⟨.noColon, p.rest⟩
    else if c ≠ ascii ':' then .ok { p with rest := c :: rest }
    else if p.gap then .error ⟨.secondGap, c :: rest⟩
    else .ok { p with gap := true, rest }

/-- Reads groups, as many as there is room for. -/
def readGroups : (room : Nat) → Progress → Except Error Progress
  | 0, p => .ok p
  | room + 1, p =>
    let digits := p.rest.takeWhile fun b => (Percent.hexDigit? b).isSome
    let after := p.rest.drop digits.length
    if 4 < digits.length then .error ⟨.longGroup, p.rest⟩
    else if digits = [] then .error ⟨.noDigit, p.rest⟩
    else if after.head? = some (ascii '.') then
      if !p.gap ∧ p.groups ≠ 6 then .error ⟨.misplacedFour, p.rest⟩
      else if 6 < p.groups then .error ⟨.noRoomForFour, p.rest⟩
      else do
        checkFour 0 0 0 p.rest
        .ok { p with groups := p.groups + 2, rest := [] }
    else do
      let p ← passColon { p with groups := p.groups + 1, rest := after }
      if p.rest = [] then .ok p else readGroups room p

/-- Checks an address of eight groups, which may name a zone after a percent sign. -/
def checkSix (t : Bytes) : Except Error Unit := do
  let address := t.takeWhile (· ≠ Percent.sign)
  if t.drop address.length = [Percent.sign] then throw ⟨.noZone, []⟩
  let start : Progress :=
    match dropPrefix? (utf8 "::") address with
    | some rest => ⟨0, true, rest⟩
    | none => ⟨0, false, address⟩
  if start.gap ∧ start.rest = [] then .ok ()
  else
    let p ← readGroups 8 start
    if p.rest ≠ [] then .error ⟨.trailing, p.rest⟩
    else if p.groups < 8 ∧ !p.gap then .error ⟨.sixTooShort, []⟩
    else if p.groups = 8 ∧ p.gap then .error ⟨.emptyGap, []⟩
    else .ok ()

/-- The form of an address. The first dot, colon or percent sign tells which one is meant. -/
def parse (t : Bytes) : Except Error Family :=
  match t.find? fun b => b = ascii '.' ∨ b = ascii ':' ∨ b = Percent.sign with
  | none => .error ⟨.unreadable, []⟩
  | some b =>
    if b = ascii '.' then (checkFour 0 0 0 t).map fun _ => .four
    else if b = ascii ':' then (checkSix t).map fun _ => .six
    else .error ⟨.noAddress, []⟩

end StackMachine.Ip
