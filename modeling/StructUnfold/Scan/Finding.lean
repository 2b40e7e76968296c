import StructUnfold.Catalog.Basic
import StructUnfold.Problem
import StructUnfold.Source.Block
import StructUnfold.Source.Declarator
import StructUnfold.Source.Header

/-!
# What a text holds

A text is read once for struct headers and once for alias statements. What is found there depends on
nothing but the text, its path and the ceiling for blocks; the catalog comes in when the findings
are recorded.
-/

namespace StructUnfold.Scan

/-- One thing found in a text. -/
inductive Finding where
  /-- A struct. -/
  | struct (name : String) (definition : StructDefinition)
  /-- An alias of a struct. -/
  | aliased (name : String) (value : Alias)
  /-- A struct whose name cannot be used, or an alias of one. -/
  | unparseable (name : String) (entry : UnparseableStruct)
  /-- A problem. -/
  | problem (value : Problem)
deriving DecidableEq, Repr

/-- Why an alias of a struct whose name has a fault is not parsed. -/
def aliasReason (fault : Header.NameFault) : String :=
  "alias of a struct whose name could not be parsed (" ++ fault.message ++ ")"

/-- The aliases of a struct in a list of declarators; the name of the struct itself is none. -/
def structAliases (path : Path) (target : String) (declarators : List Declarator) : List Finding :=
  (declarators.filter fun d => d.name != target).map fun d =>
    .aliased d.name ⟨target, d.isPointer, path⟩

/-- What a struct header itself declares. -/
def ownFindings (path : Path) (brace : Nat) (declared : Header.Declared) : List Finding :=
  match declared.fault with
  | none => [.struct declared.name ⟨path, brace, declared.base⟩]
  | some fault =>
    if declared.name.isEmpty then []
    else [.unparseable declared.name ⟨path, brace, fault.message⟩]

/-- What the declarators behind the block of a header declare. -/
def declaratorFindings (path : Path) (brace : Nat) (declared : Header.Declared)
    (declarators : List Declarator) : List Finding :=
  match declared.fault with
  | none => structAliases path declared.name declarators
  | some fault => declarators.map fun d => .unparseable d.name ⟨path, brace, aliasReason fault⟩

/-- What is found at a struct header whose brace stands at `brace`. -/
def headerFindings (maxScan : Nat) (path : Path) (text : List Char) (brace : Nat)
    (header : Header) : List Finding :=
  let declared := header.declared
  let aliases :=
    if header.isTypedef then
      match Block.extract (Block.Options.declaration maxScan) text brace with
      | .error reason => [.problem (.malformedBlock path reason)]
      | .ok span =>
        declaratorFindings path brace declared (Declarator.parseList (span.trailer text))
    else []
  ownFindings path brace declared ++ aliases

/-- What is found at an alias statement. -/
def statementFindings (path : Path) (statement : AliasStatement) : List Finding :=
  match AliasStatement.parse? statement.body with
  | some (target, declarators) => structAliases path target declarators
  | none => [.problem (.malformedAliasStatement path (String.ofList statement.text))]

/-- What a text holds: first what its struct headers declare, then its alias statements. Headers and
statements in comments do not count. -/
def findings (maxScan : Nat) (path : Path) (text : List Char) : List Finding :=
  let comments := Comment.spans text
  let headers := (Header.all text).filter fun (brace, _) => !Comment.inSpans comments brace
  let statements := (AliasStatement.all text).filter fun s => !Comment.inSpans comments s.offset
  headers.flatMap (fun (brace, header) => headerFindings maxScan path text brace header) ++
    statements.flatMap (statementFindings path)

end StructUnfold.Scan
