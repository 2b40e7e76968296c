import StructUnfold.Path
import StructUnfold.Uri.Percent

/-!
# URIs

A URI names a document. It is kept in its normal form, so that two spellings of one URI are equal.
Files are named by URIs whose path consists of the names on the path of the file, in percent
encoding.
-/

namespace StructUnfold

/-- The part of a URI behind its authority and before its query. -/
inductive Uri.Trail where
  /-- A text without structure. -/
  | flat (text : String)
  /-- The names behind the slashes of a path. -/
  | segments (names : List String)
deriving DecidableEq, Repr

/-- A URI in normal form. -/
structure Uri where
  /-- The scheme in lower case. -/
  scheme : String
  /-- User, host and number as they are written, if there is an authority. -/
  authority : Option String
  /-- The host, unless it is missing or empty. -/
  host : Option String
  /-- The path. -/
  trail : Uri.Trail
  /-- What stands behind the question mark. -/
  query : Option String
  /-- What stands behind the number sign. -/
  fragment : Option String
deriving DecidableEq, Repr

namespace Uri

/-- The names behind the slashes of a path, as a text. -/
def segmentsText (names : List String) : String :=
  String.join (names.map fun name => "/" ++ name)

/-- The text of a URI. -/
def text (u : Uri) : String :=
  let authority := u.authority.elim "" fun a => "//" ++ a
  let trail :=
    match u.trail with
    | .flat text => text
    | .segments names =>
      if u.authority.isNone && names.length > 1 && names.head? == some "" then
        "/." ++ segmentsText names
      else segmentsText names
  u.scheme ++ ":" ++ authority ++ trail ++ u.query.elim "" (fun q => "?" ++ q) ++
    u.fragment.elim "" fun f => "#" ++ f

/-- Whether bytes end in a letter and a colon or bar, with something before them. -/
def endsInDrive (bytes : List UInt8) : Bool :=
  match (bytes.map fun b => Char.ofNat b.toNat).reverse with
  | mark :: letter :: _ :: _ => (mark == ':' || mark == '|') && letter.isAlpha
  | _ => false

/-- The path of the file that a URI names. Only URIs with a path of names and without a foreign host
name a file. -/
def toFilePath? (u : Uri) : Option Path :=
  match u.trail with
  | .flat _ => none
  | .segments names =>
    if u.host.isNone || u.host == some "localhost" then
      let bytes := names.flatMap fun name => Path.separator :: decode name.toList
      some ⟨if endsInDrive bytes then bytes ++ [Path.separator] else bytes⟩
    else none

/-- The name of a component of a path in a URI. -/
def segmentOf? : Path.Component → Option String
  | .root => none
  | .current => some "."
  | .parent => some ".."
  | .name name => some (String.ofList (encodeBytes inSegment name))

/-- The URI that names the file of an absolute path. -/
def ofFilePath? (p : Path) : Option Uri :=
  if p.isAbsolute then
    let names := p.components.filterMap segmentOf?
    some ⟨"file", some "", none, .segments (if names.isEmpty then [""] else names), none, none⟩
  else none

end Uri

end StructUnfold
