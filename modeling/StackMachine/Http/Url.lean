import StackMachine.Host.Ip
import StackMachine.Host.Path
import StackMachine.Text.Query

/-!
# URLs

The URL that a request is sent to: a scheme, a host and a path, or a path alone. What follows a
question mark is left aside. The path is kept with its escapes resolved, since that is how a server
compares it.
-/

namespace StackMachine.Http

open Text

/-- A URL. -/
structure Url where
  scheme : Bytes := []
  host : Bytes := []
  path : Bytes := []
  deriving DecidableEq, Repr

/-- Why a text is not a URL. -/
inductive UrlError where
  | controlByte
  | noScheme
  | noRequest
  | userinfo
  | unclosed
  | literal
  /-- What follows the host is not the number of a service. -/
  | service (text : Bytes)
  | address (text : Bytes) (e : Ip.Error)
  /-- An escape that makes no sense where it stands. -/
  | escape (spelled : Bytes)
  /-- A byte that the name of a host cannot have. -/
  | hostByte (b : UInt8)
  deriving DecidableEq, Repr

/-- The wording of a text that is not a URL. -/
def UrlError.message : UrlError → Bytes
  | controlByte => utf8 "net/url: invalid control character in URL"
  | noScheme => utf8 "missing protocol scheme"
  | noRequest => utf8 "invalid URI for request"
  | userinfo => utf8 "net/url: invalid userinfo"
  | unclosed => utf8 "missing ']' in host"
  | literal => utf8 "invalid IP-literal"
  | service text => utf8 "invalid port " ++ quoted text ++ utf8 " after host"
  | address text e => utf8 "invalid host: " ++ e.message text
  | escape spelled => Percent.brokenMessage spelled
  | hostByte b => utf8 "invalid character " ++ quoted [b] ++ utf8 " in host name"

namespace Url

/-- Whether a byte is an ASCII letter. -/
def isLetter (b : UInt8) : Bool := (65 ≤ b && b ≤ 90) || (97 ≤ b && b ≤ 122)

/-- Whether a byte is an ASCII digit. -/
def isDigit (b : UInt8) : Bool := 48 ≤ b && b ≤ 57

/-- Whether a byte is an ASCII letter or digit, or one of the given ones. -/
def isOneOf (others : String) (b : UInt8) : Bool :=
  isLetter b || isDigit b || (utf8 others).contains b

/-- The bytes that a host is written with. -/
def isHostByte : UInt8 → Bool := isOneOf "-_.~!$&'()*+,;=:[]<>\""

/-- The bytes that the name and the password of a user are written with. -/
def isUserByte : UInt8 → Bool := isOneOf "-._:~!$&'()*+,;=%@"

/-! ## Hosts -/

/-- The byte that a code in a host stands for. Escapes are for bytes outside ASCII, and for the
percent sign. -/
def hostCode : Percent.Code → Except UrlError UInt8
  | .plain b => if b < 0x80 ∧ !isHostByte b then .error (.hostByte b) else .ok b
  | .escape high low value =>
    if value < 0x80 ∧ [high, low] ≠ utf8 "25" then .error (.escape [Percent.sign, high, low])
    else .ok value
  | .broken spelled => .error (.escape spelled)

/-- The byte that a code in a zone stands for. Escapes are for bytes of hosts, the blank and the
percent sign. -/
def zoneCode : Percent.Code → Except UrlError UInt8
  | .escape high low value =>
    if [high, low] = utf8 "25" ∨ value = ascii ' ' ∨ isHostByte value then .ok value
    else .error (.escape [Percent.sign, high, low])
  | code => hostCode code

/-- A host with its escapes resolved. -/
def decodeHost (t : Bytes) : Except UrlError Bytes := (Percent.codes t).mapM hostCode

/-- A zone with its escapes resolved. -/
def decodeZone (t : Bytes) : Except UrlError Bytes := (Percent.codes t).mapM zoneCode

/-- Checks that a text is nothing, or a colon and a number, which may be left out. -/
def checkService (t : Bytes) : Except UrlError Unit :=
  match t with
  | [] => .ok ()
  | b :: digits => if b = ascii ':' ∧ digits.all isDigit then .ok () else .error (.service t)

/-- The two sides of the last occurrence of a byte, which goes with the second side. -/
def cutLast? (mark : UInt8) (t : Bytes) : Option (Bytes × Bytes) :=
  if t.contains mark then
    let last := (t.reverse.takeWhile (· ≠ mark)).reverse
    some (t.take (t.length - last.length - 1), mark :: last)
  else none

/-- An address and its zone, from what stands between two brackets. -/
def decodeLiteral (t : Bytes) : Except UrlError Bytes :=
  match pieces Percent.sign (utf8 "25") t with
  | address :: _ :: _ => do
    .ok ((← decodeHost address) ++ (← decodeZone (t.drop address.length)))
  | _ => decodeHost t

/-- The host in a text that begins with a bracket: a numeric address of eight groups. -/
def bracketed (t : Bytes) : Except UrlError Bytes :=
  match cutLast? (ascii ']') t with
  | none => .error .unclosed
  | some (inside, after) => do
    let service := after.drop 1
    checkService service
    let service ← decodeHost service
    let address ← decodeLiteral (inside.drop 1)
    match Ip.parse address with
    | .error e => .error (.address address e)
    | .ok .four => .error .literal
    | .ok .six => .ok (utf8 "[" ++ address ++ utf8 "]" ++ service)

/-- A host, which may be followed by the number of a service. -/
def parseHost (t : Bytes) : Except UrlError Bytes :=
  match cutLast? (ascii '[') t with
  | some ([], _) => bracketed t
  | some _ => .error .literal
  | none => do
    checkService (((cutLast? (ascii ':') t).map (·.2)).getD [])
    decodeHost t

/-- Checks the name and the password of a user. -/
def checkUser (t : Bytes) : Except UrlError Unit := do
  if !t.all isUserByte then throw .userinfo
  let (name, password) := Query.cut (ascii ':') t
  let _ ← (Percent.decode name).mapError .escape
  let _ ← (Percent.decode password).mapError .escape

/-- The host in an authority. It is judged before the user who may be named in front of it. -/
def parseAuthority (t : Bytes) : Except UrlError Bytes :=
  match cutLast? (ascii '@') t with
  | none => parseHost t
  | some (user, host) => do
    let host ← parseHost (host.drop 1)
    checkUser user
    .ok host

/-! ## URLs -/

/-- The scheme at the start of a text, and what follows it. A text without one has an empty
scheme. -/
def cutScheme (t : Bytes) : Except UrlError (Bytes × Bytes) :=
  let name := t.takeWhile (isOneOf "+-.")
  match t.drop name.length with
  | 58 :: rest =>
    match name with
    | [] => .error .noScheme
    | b :: _ => if isLetter b then .ok (name, rest) else .ok ([], t)
  | _ => .ok ([], t)

/-- The URL that a text spells. -/
def parse (t : Bytes) : Except UrlError Url := do
  if t.any fun b => b < 0x20 ∨ b = 0x7F then throw .controlByte
  let (scheme, rest) ← cutScheme t
  let rest := (Query.cut (ascii '?') rest).1
  if rest.head? ≠ some (ascii '/') then
    if scheme = [] then .error .noRequest else .ok { scheme }
  else
    let authority := (if scheme = [] then none else dropPrefix? (utf8 "//") rest).map fun t =>
      (t.takeWhile (· ≠ ascii '/'), t.dropWhile (· ≠ ascii '/'))
    let host ← match authority with
      | some (authority, _) => parseAuthority authority
      | none => .ok []
    let path := (authority.map (·.2)).getD rest
    .ok { scheme, host, path := ← (Percent.decode path).mapError .escape }

end Url

/-- The path that a request to a URL asks for. A fragment at the end of the URL does not count, but
has to make sense. -/
def requestPath? (url : Bytes) : Option Bytes := do
  let (url, fragment) := Query.cut (ascii '#') url
  let _ ← (Percent.decode fragment).toOption
  (Url.parse url).toOption.map (·.path)

/-- Whether a text can be the method of a request. An empty one stands for the usual method. -/
def isMethod (t : Bytes) : Bool := t.all (Url.isOneOf "!#$%&'*+-.^_`|~")

/-- The path that a server looks for: it begins with a slash, and has no part that is empty, a dot
or two dots. A slash at the end stays. -/
def canonicalPath (path : Bytes) : Bytes :=
  let clean := Path.clean (if path.head? = some Path.slash then path else Path.slash :: path)
  if path.getLast? = some Path.slash ∧ clean ≠ [Path.slash] then clean ++ [Path.slash] else clean

end StackMachine.Http
