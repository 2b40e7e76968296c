import StructUnfold.Uri.Authority
import StructUnfold.Uri.Basic
import StructUnfold.Uri.Segments

/-!
# Reading URIs

`Uri.parse?` reads an absolute URI by the rules that editors go by and brings it into normal form.
Blanks around it and line breaks in it do not count.
-/

namespace StructUnfold.Uri

/-- The text of a URI without blanks around it and without tabs and line ends. -/
def clean (cs : List Char) : List Char :=
  let isOuter (c : Char) : Bool := c.toNat ≤ 32
  ((cs.dropWhile isOuter).reverse.dropWhile isOuter).reverse.filter fun c =>
    c != '\t' && c != '\n' && c != '\r'

/-- Query and fragment in the text behind a path. -/
def queryAndFragment (kind : SchemeKind) (cs : List Char) : Option String × Option String :=
  let inQuery (c : Char) : Bool := Uri.inQuery c || (c == '\'' && kind != .plain)
  let query :=
    match cs with
    | '?' :: rest => some (String.ofList (encode inQuery (rest.takeWhile (· != '#'))))
    | _ => none
  let fragment :=
    match cs.dropWhile (· != '#') with
    | '#' :: rest => some (String.ofList (encode inFragment rest))
    | _ => none
  (query, fragment)

/-- A path and what stands behind it. -/
def splitPath (cs : List Char) : List Char × List Char :=
  (cs.takeWhile fun c => !endsPath c, cs.dropWhile fun c => !endsPath c)

/-- Host and names of a path of files behind two slashes. -/
def hostAndNames? (path : List Char) : Option (Option String × List String) := do
  let name := path.takeWhile fun c => !isSlash .file c
  let behind := path.dropWhile fun c => !isSlash .file c
  if isDrive name then return (none, segments .file path)
  else
    let host ← if name.isEmpty then some "localhost" else domainHost? name
    if host == "localhost" then return (none, segments .file behind)
    else
      -- A drive is one of this machine, so a host in front of it is dropped.
      let names := segments .file (dropSlash .file behind)
      return (if names.head?.any fun name => isDrive name.toList then none else some host, names)

/-- A URI of a file, given the text behind the scheme. -/
def parseFile? (cs : List Char) : Option Uri := do
  let (path, behind) := splitPath cs
  let (query, fragment) := queryAndFragment .file behind
  let (host, names) ←
    if (path.takeWhile (isSlash .file)).length < 2 then
      some (none, segments .file (dropSlash .file path))
    else hostAndNames? (path.drop 2)
  return ⟨"file", some (host.getD ""), host, .segments (dropEmpty names), query, fragment⟩

/-- A URI of a scheme other than that of files, whose authority and path stand in the text. -/
def parseAuthority? (scheme : String) (kind : SchemeKind) (cs : List Char) : Option Uri := do
  let (authority, rest) ← authority? scheme kind cs
  let (path, behind) := splitPath rest
  let (query, fragment) := queryAndFragment kind behind
  let trail :=
    if path.isEmpty && kind == .plain then Trail.flat ""
    else .segments (segments kind (dropSlash kind path))
  return ⟨scheme, some authority.text, authority.host, trail, query, fragment⟩

/-- A URI without authority. -/
def parsePlain (scheme : String) (cs : List Char) : Uri :=
  let (path, behind) := splitPath cs
  let (query, fragment) := queryAndFragment .plain behind
  let trail :=
    match path with
    | '/' :: path => Trail.segments (segments .plain path)
    | _ => .flat (String.ofList (encode (fun _ => false) path))
  ⟨scheme, none, none, trail, query, fragment⟩

/-- The URI that a text stands for. -/
def parse? (text : String) : Option Uri := do
  let (scheme, rest) ← scheme? (clean text.toList)
  match SchemeKind.of scheme with
  | .file => parseFile? rest
  | .special => parseAuthority? scheme .special (rest.dropWhile (isSlash .special))
  | .plain =>
    match rest with
    | '/' :: '/' :: rest => parseAuthority? scheme .plain rest
    | _ => some (parsePlain scheme rest)

end StructUnfold.Uri
