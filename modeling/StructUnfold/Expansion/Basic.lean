import StructUnfold.Expansion.Run
import StructUnfold.Expansion.Tree

/-!
# Expanding a struct

A struct is entered at most once in a query. Each declaration of its body is read word by word. A
word that names a struct not entered yet is replaced by the block of that struct, which ends the
declaration; one that names a struct entered before, or too deep to enter, is replaced by the name
of the struct. All other words stay as they are.
-/

namespace StructUnfold.Expansion

/-- Why a struct was not entered. -/
inductive LeafCause where
  /-- Its aliases form too long a chain. -/
  | unresolved
  /-- It has been entered before. -/
  | visited
  /-- It is defined nowhere. -/
  | undefined
  /-- Its body could not be read. -/
  | unreadable
  /-- More structs were entered than there are. -/
  | exhausted
deriving DecidableEq, Repr

/-- What comes of entering a struct. -/
inductive Entered where
  /-- Its block. -/
  | block (b : Block)
  /-- Its name alone. -/
  | leaf (name : List Char) (cause : LeafCause)
deriving Repr

/-- How a struct is entered: the symbol that names it, the label of its block and the number of
blocks around it. -/
abbrev Enter := (symbol label : List Char) → (depth : Nat) → Run → Entered × Run

/-- What a word of a declaration becomes. -/
inductive WordResult where
  /-- A word. -/
  | word (text : List Char)
  /-- A block in the place of the type `token`. -/
  | block (token : List Char) (b : Block)
deriving Repr

/-- Whether a character is a star. -/
def isStar (c : Char) : Bool :=
  c == '*'

/-- The name of a struct that is not entered. The star an alias stands for is written out, unless
the declaration has one of its own. -/
def leafName (resolved : Resolved) (hasStar : Bool) : List Char :=
  if resolved.isPointer && !hasStar then resolved.root.toList ++ ['*'] else resolved.root.toList

/-- What a block is labelled with that stands before the text `rest` of a declaration: that text, or
what follows the body of a struct defined in place. -/
def declaratorOf (rest : List Char) : List Char :=
  match rest with
  | '{' :: _ =>
    let backwards := rest.reverse
    if rest.contains '}' then Text.trim (backwards.takeWhile (· != '}')).reverse else rest
  | _ => rest

/-- The issue of a name that looks like a struct but stands for none that is defined. -/
def unexpandable? (c : Catalog) (name : List Char) (root : String) : Option Problem :=
  match c.unparseable.get? (String.ofList name) <|> c.unparseable.get? root with
  | some entry => some (.unparseable (String.ofList name) entry.path entry.reason)
  | none => if root.toList = name then none else some (.unresolvedSymbol root)

/-- The name in a word: the word without the stars at its end. -/
def nameIn (word : List Char) : List Char :=
  Text.dropEndWhile isStar word

/-- The stars at the end of a word. -/
def starsOf (word : List Char) : List Char :=
  word.drop (nameIn word).length

/-- Whether a word that stands before the words `rest` has a star: at its own end or at the start of
the next word. -/
def hasStar (word : List Char) (rest : Declaration) : Bool :=
  !(starsOf word).isEmpty || (rest.head?.bind List.head?).any isStar

/-- The symbol by which the struct of a word is entered. The star is passed on, for the block of a
pointer has the star as its label. -/
def symbolOf (word : List Char) (rest : Declaration) : List Char :=
  if hasStar word rest then nameIn word ++ ['*'] else nameIn word

/-- What is to be done about a word of a declaration. -/
inductive Verdict where
  /-- It becomes this text, and an issue may be noted. -/
  | settle (text : List Char) (issue : Option Problem)
  /-- The struct it names is entered. -/
  | enter
deriving DecidableEq, Repr

/-- What is to be done about a word that stands before the words `rest` of a declaration, `depth`
blocks deep, when the structs `visited` have been entered. -/
def verdict (ctx : Context) (depth : Nat) (word : List Char) (rest : Declaration)
    (visited : List String) : Verdict :=
  let name := nameIn word
  if name.isEmpty then .settle word none
  else
    match ctx.catalog.resolve name with
    | .error issue => .settle word (some issue)
    | .ok resolved =>
      let leaf := leafName resolved (hasStar word rest) ++ starsOf word
      -- The three tests are ordered: a struct entered before is named without an issue.
      if visited.contains resolved.root then .settle leaf none
      else if !ctx.catalog.structs.contains resolved.root then
        .settle word (unexpandable? ctx.catalog name resolved.root)
      else if ctx.options.maxDepth ≤ depth + 1 then
        .settle leaf (some (.depthLimit resolved.root (depth + 1)))
      else .enter

/-- What a word becomes that stands before the words `rest` of a declaration, `depth` blocks
deep. -/
def flattenWord (ctx : Context) (enter : Enter) (depth : Nat) (word : List Char)
    (rest : Declaration) (run : Run) : WordResult × Run :=
  match verdict ctx depth word rest run.visited with
  | .settle text issue => (.word text, run.noteAll issue.toList)
  | .enter =>
    match enter (symbolOf word rest) (declaratorOf rest.text) (depth + 1) run with
    | (.block b, run) => (.block (nameIn word) b, run)
    | (.leaf leaf _, run) => (.word (leaf ++ starsOf word), run)

/-- What a declaration becomes of which the words `done` are settled, the latest first. -/
def flattenWords (ctx : Context) (enter : Enter) (depth : Nat) (done : Declaration) :
    Declaration → Run → Item × Run
  | [], run => (.line (Declaration.text done.reverse), run)
  | word :: rest, run =>
    match flattenWord ctx enter depth word rest run with
    | (.word text, run) => flattenWords ctx enter depth (text :: done) rest run
    | (.block token b, run) =>
      -- The words behind the type are not read any further: they are the label of the block.
      let declaration := Declaration.text (done.reverse ++ word :: rest)
      (.nested (Splice.lead declaration token) b.root b.label b.items, run)

/-- What the declarations of a body become, in order. -/
def flattenAll (ctx : Context) (enter : Enter) (depth : Nat) :
    List Declaration → Run → List Item × Run
  | [], run => ([], run)
  | d :: ds, run =>
    let (item, run) := flattenWords ctx enter depth [] d run
    let (items, run) := flattenAll ctx enter depth ds run
    (item :: items, run)

/-- What is found where a struct is to be entered. -/
inductive Opening where
  /-- No body. -/
  | leaf (name : List Char) (cause : LeafCause)
  /-- The body of the struct a symbol comes down to. -/
  | body (resolved : Resolved) (text : List Char)
deriving DecidableEq, Repr

/-- Mark the struct of a symbol as entered and read its body. -/
def opening (ctx : Context) (symbol : List Char) (depth : Nat) (run : Run) : Opening × Run :=
  match ctx.catalog.resolve symbol with
  | .error issue => (.leaf (Text.dropEndWhile isStar symbol) .unresolved, run.note issue)
  | .ok resolved =>
    let name := resolved.root.toList
    -- The struct of the query itself is entered in any case.
    if 0 < depth ∧ resolved.root ∈ run.visited then (.leaf name .visited, run)
    else
      -- It counts as entered while its body is expanded, so that it never contains itself.
      let run := run.visit resolved.root
      match ctx.catalog.structs.get? resolved.root with
      | none => (.leaf name .undefined, run.note (.unresolvedSymbol resolved.root))
      | some definition =>
        match body ctx resolved.root definition run with
        | (.error issue, run) => (.leaf name .unreadable, run.note issue)
        | (.ok text, run) => (.body resolved text, run)

/-- The label of the block of a struct: a star for a pointer. -/
def labelOf (resolved : Resolved) (label : List Char) : List Char :=
  if resolved.isPointer then ['*'] else label

/-- Enter a struct, where `enter` is how the structs in its body are entered. -/
def enterWith (ctx : Context) (enter : Enter) : Enter := fun symbol label depth run =>
  match opening ctx symbol depth run with
  | (.leaf name cause, run) => (.leaf name cause, run)
  | (.body resolved text, run) =>
    let (items, run) := flattenAll ctx enter depth (Declaration.all text) run
    (.block ⟨resolved.root, labelOf resolved label, items⟩, run)

/-- Enter a struct when at most `fuel` structs are left that have not been entered. -/
def enterWithin (ctx : Context) : Nat → Enter
  | 0 => fun symbol _ _ run => (.leaf (Text.dropEndWhile isStar symbol) .exhausted, run)
  | fuel + 1 => enterWith ctx (enterWithin ctx fuel)

/-- Enter a struct. Each one is entered once, so their number bounds how deep they nest. -/
def enter (ctx : Context) : Enter :=
  enterWithin ctx ctx.catalog.structs.size

/-- The text of what comes of entering a struct. -/
def Entered.render (indentWidth : Nat) : Entered → List Char
  | .block b => b.render indentWidth
  | .leaf name _ => name

end Expansion

open Expansion in
/-- The result of a query. -/
structure Expansion where
  /-- What the struct has become. -/
  entered : Entered
  /-- The final state. -/
  run : Run

namespace Expansion

/-- The issues met, in order. -/
def issues (e : Expansion) : List Problem :=
  e.run.issues

/-- Why a query names no struct. -/
def refusal (c : Catalog) (query : List Char) (root : String) : Problem :=
  let name := String.ofList (Catalog.stripStars query)
  match c.unparseable.get? name <|> c.unparseable.get? root with
  | some entry => .unparseable name entry.path entry.reason
  | none => .notFound (String.ofList query)

/-- Expand the struct that a query names. -/
def expand (ctx : Context) (query : List Char) : Except Problem Expansion :=
  let query := Text.trim query
  match ctx.catalog.resolve query with
  | .error p => .error p
  | .ok resolved =>
    if ctx.catalog.structs.contains resolved.root then
      let (entered, run) := enter ctx query query 0 Run.start
      .ok ⟨entered, run⟩
    else .error (refusal ctx.catalog query resolved.root)

/-- The text of an expansion. -/
def text (indentWidth : Nat) (e : Expansion) : String :=
  String.ofList (e.entered.render indentWidth)

end Expansion

end StructUnfold
