import StructUnfold.Path
import StructUnfold.Source.Block

/-!
# Problems

What can go wrong while texts are read, scanned and expanded, and how it is worded. A problem met
while scanning is collected and stops nothing; of those met while expanding, some make a query fail
and the others are collected beside its text.
-/

namespace StructUnfold

/-- Why the system refuses to read or to write a file. -/
inductive SystemFault where
  /-- There is no such file. -/
  | notFound
  /-- The path leads to a directory. -/
  | isADirectory
  /-- The path leads through something that is no directory. -/
  | notADirectory
  /-- The content is not UTF-8. -/
  | invalidData
  /-- The path leads through too many links. -/
  | linkLoop
  /-- A name in the path is too long. -/
  | nameTooLong
  /-- Something stands already where a directory is to be made. -/
  | alreadyExists
  /-- The path holds a byte that ends a name for the system. -/
  | nulByte
deriving DecidableEq, Repr

/-- The system's own wording of a fault. -/
def SystemFault.message : SystemFault → String
  | notFound => "No such file or directory (os error 2)"
  | isADirectory => "Is a directory (os error 21)"
  | notADirectory => "Not a directory (os error 20)"
  | invalidData => "stream did not contain valid UTF-8"
  | linkLoop => "Too many levels of symbolic links (os error 40)"
  | nameTooLong => "File name too long (os error 36)"
  | alreadyExists => "File exists (os error 17)"
  | nulByte => "file name contained an unexpected NUL byte"

/-- A short name of a fault. -/
def SystemFault.description : SystemFault → String
  | notFound => "entity not found"
  | isADirectory => "is a directory"
  | notADirectory => "not a directory"
  | invalidData => "invalid data"
  | linkLoop => "filesystem loop or indirection limit (e.g. symlink loop)"
  | nameTooLong => "invalid filename"
  | alreadyExists => "entity already exists"
  | nulByte => "invalid input parameter"

/-- Why a reader gives no text for a path. -/
inductive ReadError where
  /-- The system refused. -/
  | system (fault : SystemFault)
  /-- A reader of texts in memory holds none for the path. -/
  | notLoaded (path : Path)
  /-- The path was asked for before and refused with this fault. -/
  | remembered (fault : SystemFault)
deriving DecidableEq, Repr

/-- The fault behind an error. -/
def ReadError.fault : ReadError → SystemFault
  | system fault => fault
  | notLoaded _ => .notFound
  | remembered fault => fault

/-- The wording of an error. -/
def ReadError.message : ReadError → String
  | system fault => fault.message
  | notLoaded path => path.display ++ " is not loaded"
  | remembered fault => fault.description

/-- A problem met while scanning or expanding. -/
inductive Problem where
  /-- A source file could not be read. -/
  | fileRead (path : Path) (error : ReadError)
  /-- A statement `typedef struct …;` names no struct or no alias. -/
  | malformedAliasStatement (path : Path) (statement : String)
  /-- A struct is named by an alias but defined nowhere. -/
  | unresolvedSymbol (symbol : String)
  /-- A chain of aliases is longer than allowed. -/
  | cyclicAlias (symbol : String) (hops : Nat)
  /-- A name stands for no struct. -/
  | notFound (symbol : String)
  /-- A name belongs to a struct that could not be parsed. -/
  | unparseable (name : String) (path : Path) (reason : String)
  /-- The block of a struct could not be extracted. -/
  | malformedBlock (path : Path) (reason : Block.Error)
  /-- A struct was not expanded because it lies too deep. -/
  | depthLimit (symbol : String) (depth : Nat)
deriving DecidableEq, Repr

/-- The wording of a problem. -/
def Problem.message : Problem → String
  | fileRead path error => "failed to read " ++ path.display ++ ": " ++ error.message
  | malformedAliasStatement path statement =>
    "malformed struct alias `" ++ statement ++ "` in " ++ path.display
  | unresolvedSymbol symbol =>
    "struct `" ++ symbol ++ "` is referenced but never defined in a scanned file"
  | cyclicAlias symbol hops =>
    "alias chain for `" ++ symbol ++ "` did not settle after " ++ toString hops ++ " hops"
  | notFound symbol => "`" ++ symbol ++ "` is not a known struct or struct alias"
  | unparseable name path reason =>
    "`" ++ name ++ "` looks like a struct in " ++ path.display ++ " but could not be parsed: " ++
      reason
  | malformedBlock path reason => "malformed block in " ++ path.display ++ ": " ++ reason.message
  | depthLimit symbol depth =>
    "expansion of `" ++ symbol ++ "` stopped at depth " ++ toString depth

end StructUnfold
