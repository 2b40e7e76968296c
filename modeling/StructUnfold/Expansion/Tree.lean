import StructUnfold.Text.Line
import StructUnfold.Text.Search
import StructUnfold.Text.Space

/-!
# The tree of an expansion

An expanded struct is a block of items, one for each declaration of its body: a line, or an inner
block behind the text that stays in front of it. A block is drawn between two bars, and its label
stands behind a third.

An inner block takes the place of a type in a declaration. What stands before the type stays in
front of the block's first line, and the other lines are indented by as much, so that the block's
bars line up. What follows the type is dropped, for it has become the label of the block.
-/

namespace StructUnfold

/-! ### Splicing a block into a declaration -/

namespace Splice

/-- A line moved to the right; an empty line stays empty. -/
def indentLine (width : Nat) (line : List Char) : List Char :=
  if line.isEmpty then [] else List.replicate width ' ' ++ line

/-- The declaration without its first keyword `struct` and the white space behind it. -/
def dropStructKeyword (declaration : List Char) : List Char :=
  match Text.splitAtWord? "struct".toList declaration with
  | some (before, rest) => before ++ Text.trimStart rest
  | none => declaration

/-- What stays in front of a block that takes the place of `token` in a declaration. -/
def lead (declaration token : List Char) : List Char :=
  match Text.splitAtWord? token (dropStructKeyword declaration) with
  | some (before, _) => before
  | none => []

/-- Put a text behind `lead`, its later lines indented by the length of `lead`. -/
def attach (lead text : List Char) : List Char :=
  match Text.lines text with
  | [] => lead
  | first :: rest => lead ++ first ++ rest.flatMap fun line => '\n' :: indentLine lead.length line

/-- The declaration with the text of a block in the place of `token`. -/
def splice (declaration token block : List Char) : List Char :=
  attach (lead declaration token) block

end Splice

/-! ### Blocks and items -/

namespace Expansion

/-- What a declaration of a struct has become. -/
inductive Item where
  /-- A declaration that is kept in one line. -/
  | line (text : List Char)
  /-- The block of the struct `root` behind the text `lead`. -/
  | nested (lead : List Char) (root : String) (label : List Char) (items : List Item)
deriving Repr

/-- An expanded struct. -/
structure Block where
  /-- Name of the struct. -/
  root : String
  /-- What the block is labelled with. -/
  label : List Char
  /-- The declarations of its body. -/
  items : List Item
deriving Repr

/-- Draw a block whose items have these texts. -/
def frame (indentWidth : Nat) (label : List Char) (items : List (List Char)) : List Char :=
  '|' ::
    (items.flatMap Text.lines).flatMap (fun line => '\n' :: Splice.indentLine indentWidth line) ++
    "\n|\n| ".toList ++ label

mutual

/-- The text of an item. -/
def Item.render (indentWidth : Nat) : Item → List Char
  | .line text => text
  | .nested lead _ label items =>
    Splice.attach lead (frame indentWidth label (renderItems indentWidth items))

/-- The texts of items. -/
def renderItems (indentWidth : Nat) : List Item → List (List Char)
  | [] => []
  | item :: items => item.render indentWidth :: renderItems indentWidth items

end

/-- The text of a block. -/
def Block.render (indentWidth : Nat) (b : Block) : List Char :=
  frame indentWidth b.label (renderItems indentWidth b.items)

end Expansion

end StructUnfold
