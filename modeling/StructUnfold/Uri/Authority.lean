import StructUnfold.Domain.Ascii
import StructUnfold.Uri.Address
import StructUnfold.Uri.Percent
import StructUnfold.Uri.Scheme

/-!
# Authorities

The authority of a URI names a user, a host and a number at that host, of which only the host must
be there, and in some schemes not even the host. The host is the name or the address of a machine,
in brackets an address of words. Schemes such as `http` and `file` take the name for a domain name,
or for an address of bytes if it ends in a number; other schemes leave it as it is.
-/

namespace StructUnfold.Uri

/-! ### Hosts -/

/-- Whether a character may not occur in a host. -/
def isForbiddenInHost (c : Char) : Bool :=
  c.toNat == 0 || " \t\n\r#/:<>?@[\\]^|".toList.contains c

/-- Whether a character may not occur in a domain name. -/
def isForbiddenInDomain (c : Char) : Bool :=
  isForbiddenInHost c || c == '%' || c.toNat < 32 || c.toNat == 127

/-- An address in brackets, given the text behind the first of them. -/
def bracketed? (cs : List Char) : Option String :=
  if cs.getLast? == some ']' then
    (wordAddress? cs.dropLast).map fun words => "[" ++ wordAddressText words ++ "]"
  else none

/-- A host that is left as it is, in normal form. -/
def plainHost? : List Char → Option String
  | '[' :: rest => bracketed? rest
  | cs =>
    if cs.any isForbiddenInHost then none else some (String.ofList (encode (fun _ => false) cs))

/-- A host that is a domain name or an address, in normal form. -/
def domainHost? : List Char → Option String
  | '[' :: rest => bracketed? rest
  | cs => do
    let name ← Domain.ascii? (Text.readable (decode cs))
    if name.isEmpty || name.any isForbiddenInDomain then none
    else if endsInNumber name then (byteAddress? name).map byteAddressText
    else return String.ofList name

/-! ### Authorities -/

/-- The authority of a URI. -/
structure Authority where
  /-- User, host and number as they are written. -/
  text : String
  /-- The host, unless it is empty. -/
  host : Option String
deriving DecidableEq, Repr

/-- The number behind the colon of an authority: none where it is the usual one of the scheme. -/
def number? (scheme : String) (cs : List Char) : Option (Option Nat) :=
  if cs.isEmpty then some none
  else if cs.all Char.isDigit then
    let n := Json.natOfDigits cs
    if n ≥ 65536 then none
    else if defaultNumbers.contains (scheme, n) then some none
    else some (some n)
  else none

/-- Host and number of an authority: the text up to the colon outside brackets and the text
behind it. -/
def splitNumber (inBrackets : Bool) (acc : List Char) : List Char → List Char × Option (List Char)
  | [] => (acc.reverse, none)
  | ':' :: cs => if inBrackets then splitNumber true (':' :: acc) cs else (acc.reverse, some cs)
  | c :: cs =>
    splitNumber (if c == '[' then true else if c == ']' then false else inBrackets) (c :: acc) cs

/-- The user in an authority, if an at sign stands in it, and the text behind it. -/
def splitUser (cs : List Char) : Option (List Char) × List Char :=
  let backwards := cs.reverse
  match backwards.dropWhile (· != '@') with
  | _ :: user => (some user.reverse, (backwards.takeWhile (· != '@')).reverse)
  | [] => (none, cs)

/-- User and password in normal form, with the at sign. -/
def userText (user : List Char) : String :=
  let name := encode inUser (user.takeWhile (· != ':'))
  let password := encode inUser ((user.dropWhile (· != ':')).drop 1)
  let text := if password.isEmpty then name else name ++ ':' :: password
  if text.isEmpty then "" else String.ofList (text ++ ['@'])

/-- The authority that a text begins with, and the text behind it. -/
def authority? (scheme : String) (kind : SchemeKind) (cs : List Char) :
    Option (Authority × List Char) := do
  let (user, place) := splitUser (cs.takeWhile fun c => !endsAuthority kind c)
  let rest := cs.dropWhile fun c => !endsAuthority kind c
  let (name, numeral) := splitNumber false [] place
  -- A number ends before a backslash, also where that is no slash.
  let behind := (numeral.elim [] fun numeral => numeral.dropWhile (· != '\\')) ++ rest
  let number ← numeral.elim (some none) fun numeral =>
    number? scheme (numeral.takeWhile (· != '\\'))
  let host ← if kind == .plain then plainHost? name else domainHost? name
  let userText := user.elim "" userText
  if host.isEmpty && (numeral.isSome || userText != "") then none
  else if user == some [] && place.isEmpty && !rest.isEmpty then none
  else
    let numberText := number.elim "" fun n => ":" ++ toString n
    return (⟨userText ++ host ++ numberText, if host.isEmpty then none else some host⟩, behind)

end StructUnfold.Uri
