import StackMachine.Text.Numeral
import StackMachine.Text.Case

/-!
# Addresses to listen on

An address is a host and a service with a colon between them. The host may be empty, and one that
has colons of its own stands in square brackets. The service is a number, or one of the names that
stand for a number.
-/

namespace StackMachine.Address

open Text

/-- What is wrong with an address. -/
inductive Flaw where
  | missingService
  | tooManyColons
  | missingBracket
  | strayOpening
  | strayClosing
  deriving DecidableEq, Repr

/-- The wording of a flaw. -/
def Flaw.message : Flaw → Bytes
  | .missingService => utf8 "missing port in address"
  | .tooManyColons => utf8 "too many colons in address"
  | .missingBracket => utf8 "missing ']' in address"
  | .strayOpening => utf8 "unexpected '[' in address"
  | .strayClosing => utf8 "unexpected ']' in address"

/-- Why nothing can listen on an address. -/
inductive Error where
  | flawed (address : Bytes) (flaw : Flaw)
  | badService (service : Bytes)
  | unknownService (service : Bytes)
  deriving DecidableEq, Repr

/-- The wording of an address that nothing can listen on. -/
def Error.message : Error → Bytes
  | .flawed address flaw => utf8 "listen tcp: address " ++ address ++ utf8 ": " ++ flaw.message
  | .badService service => utf8 "listen tcp: address " ++ service ++ utf8 ": invalid port"
  | .unknownService service => utf8 "listen tcp: lookup tcp/" ++ service ++ utf8 ": unknown port"

/-- The part of a text before its last colon and the part after it. -/
def atLastColon? (t : Bytes) : Option (Bytes × Bytes) :=
  let service := (t.reverse.takeWhile (· != ascii ':')).reverse
  if service.length < t.length then some (t.take (t.length - service.length - 1), service) else none

/-- The host and the service of an address. -/
def split (t : Bytes) : Except Flaw (Bytes × Bytes) := do
  match atLastColon? t with
  | none => .error .missingService
  | some (host, service) =>
    match t with
    | 91 :: rest =>
      if !rest.contains (ascii ']') then .error .missingBracket
      else
        let inner := rest.takeWhile (· != ascii ']')
        let after := rest.drop (inner.length + 1)
        if after = [] then .error .missingService
        else if inner.length + 2 ≠ host.length then
          if after.head? = some (ascii ':') then .error .tooManyColons else .error .missingService
        else if rest.contains (ascii '[') then .error .strayOpening
        else if after.contains (ascii ']') then .error .strayClosing
        else .ok (inner, service)
    | _ =>
      if host.contains (ascii ':') then .error .tooManyColons
      else if t.contains (ascii '[') then .error .strayOpening
      else if t.contains (ascii ']') then .error .strayClosing
      else .ok (host, service)

/-- Digits are read as long as the magnitude is below this. -/
def enough : UInt32 := 1073741824

/-- Reads the digits of a service onto a word, which wraps. Nothing is read past a magnitude that is
large enough, and there is no answer when something other than a digit comes first. -/
def scanNumber : UInt32 → Bytes → Option UInt32
  | n, [] => some n
  | n, b :: rest =>
    match Numeral.digit? b with
    | none => none
    | some d =>
      if enough ≤ n then some n
      else
        let tens := n * 10
        let sum := tens + d.toUInt32
        if sum < tens then some enough else scanNumber sum rest

/-- The services that go by a name, and their numbers. -/
def services : List (String × Nat) :=
  [("ftp", 21), ("ftps", 990), ("gopher", 70), ("http", 80), ("https", 443), ("imap2", 143),
    ("imap3", 220), ("imaps", 993), ("pop3", 110), ("pop3s", 995), ("smtp", 25),
    ("submissions", 465), ("ssh", 22), ("telnet", 23)]

/-- The number of a service, whose name may be written in any case. -/
def namedService (name : Bytes) : Except Error Nat :=
  match services.find? fun s => lowerAscii (utf8 s.1) = lowerAscii name with
  | some (_, service) => .ok service
  | none => .error (.unknownService name)

/-- The number of a service. An empty one is zero. -/
def serviceNumber (service : Bytes) : Except Error Nat :=
  let (negative, digits) := Numeral.sign service
  match scanNumber 0 digits with
  | none => namedService service
  | some n =>
    if 65535 < n ∨ (negative ∧ n ≠ 0) then .error (.badService service) else .ok n.toNat

/-- The host and the number of the service that an address stands for. An empty address is the
service `http` on any host. -/
def parse (t : Bytes) : Except Error (Bytes × Nat) := do
  let t := if t = [] then utf8 ":http" else t
  let (host, service) ← (split t).mapError (.flawed t)
  .ok (host, ← serviceNumber service)

end StackMachine.Address
