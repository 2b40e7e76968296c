/-!
# Offsets in a text

A text is a list of characters; an offset into it counts the bytes of its UTF-8 form, a column the
units of its UTF-16 form. An offset that falls inside a character denotes no place in the text.
-/

namespace StructUnfold.Text

/-- Number of bytes of a text in UTF-8. -/
def byteSize (s : List Char) : Nat :=
  s.foldl (fun n c => n + c.utf8Size) 0

/-- Number of units of a character in UTF-16. -/
def charUnits (c : Char) : Nat :=
  if c.val < 0x10000 then 1 else 2

/-- Number of units of a text in UTF-16. -/
def units (s : List Char) : Nat :=
  s.foldl (fun n c => n + charUnits c) 0

/-- The text from a byte offset on; none past the end or inside a character. -/
def dropBytes? : Nat → List Char → Option (List Char)
  | 0, s => some s
  | _ + 1, [] => none
  | n + 1, c :: cs => if c.utf8Size ≤ n + 1 then dropBytes? (n + 1 - c.utf8Size) cs else none

/-- The text before a byte offset, read backwards onto `before`; none past the end or inside a
character. -/
def takeBytesOnto? (before : List Char) : Nat → List Char → Option (List Char)
  | 0, _ => some before
  | _ + 1, [] => none
  | n + 1, c :: cs =>
    if c.utf8Size ≤ n + 1 then takeBytesOnto? (c :: before) (n + 1 - c.utf8Size) cs else none

/-- The text before a byte offset; none past the end or inside a character. -/
def takeBytes? (n : Nat) (s : List Char) : Option (List Char) :=
  (takeBytesOnto? [] n s).map List.reverse

/-- A count that goes on from a number is that number more. -/
private theorem foldl_add (f : Char → Nat) (s : List Char) (n : Nat) :
    s.foldl (fun n c => n + f c) n = n + s.foldl (fun n c => n + f c) 0 := by
  have hmap : ∀ n, s.foldl (fun n c => n + f c) n = (s.map f).foldl (· + ·) n :=
    fun _ => List.foldl_map.symm
  rw [hmap, hmap]
  exact @List.foldl_assoc Nat (· + ·) _ (s.map f) n 0

@[simp] theorem byteSize_nil : byteSize [] = 0 := rfl

@[simp] theorem byteSize_cons (c : Char) (cs : List Char) :
    byteSize (c :: cs) = c.utf8Size + byteSize cs := by
  rw [byteSize, List.foldl_cons, Nat.zero_add]
  exact foldl_add Char.utf8Size cs c.utf8Size

@[simp] theorem byteSize_append (s t : List Char) :
    byteSize (s ++ t) = byteSize s + byteSize t := by
  induction s with
  | nil => simp
  | cons c cs ih => simp [ih, Nat.add_assoc]

@[simp] theorem units_nil : units [] = 0 := rfl

@[simp] theorem units_cons (c : Char) (cs : List Char) :
    units (c :: cs) = charUnits c + units cs := by
  rw [units, List.foldl_cons, Nat.zero_add]
  exact foldl_add charUnits cs (charUnits c)

end StructUnfold.Text
