import StructUnfold.Proofs.Expansion.Members
import StructUnfold.Proofs.Scan.Registration
import StructUnfold.Proofs.Schema.Rendering

/-!
# The layout of an expansion

A drawn block is a list of rows. A row lies in a number of blocks, each of which moves it to the
right by the width of an indentation, and behind the texts that stand in front of these blocks. Both
numbers are read off the tree, so the rows are the same for every width, and the text of an
expansion has one line for each row.

* `Row`, `Item.rows`, `Block.rows`, `Entered.rows`: the rows of a tree.
* `Item.IsPlain`, `Item.lines_render`: an item without line breaks in its texts is drawn row by row.
* `ListsBody`: the items of a block are what the declarations of a body have become.
* `expand_withIndent`: the width makes no difference to the tree.
* `text_drawn_by_rows`: the text of an expansion is drawn row by row, whatever the width.
-/

namespace StructUnfold

open Text

/-- What stands in front of a block stood in the declaration. -/
theorem Splice.mem_of_mem_lead {declaration token : List Char} {c : Char}
    (h : c ∈ lead declaration token) : c ∈ declaration := by
  have hdrop : ∀ d ∈ dropStructKeyword declaration, d ∈ declaration := by
    intro d hd
    rw [dropStructKeyword] at hd
    split at hd
    · rename_i front back hfound
      obtain ⟨-, hfound⟩ := Option.ite_none_left_eq_some.1 hfound
      obtain ⟨t, rfl, rfl⟩ := exists_of_splitAtWordFrom hfound
      rcases List.mem_append.1 hd with hd | hd
      · exact List.mem_append_left _ hd
      · exact List.mem_append_right _
          (List.mem_append_right _ ((List.dropWhile_sublist isSpace).mem hd))
    · exact hd
  rw [lead] at h
  split at h
  · rename_i front back hfound
    obtain ⟨-, hfound⟩ := Option.ite_none_left_eq_some.1 hfound
    obtain ⟨t, rfl, heq⟩ := exists_of_splitAtWordFrom hfound
    exact hdrop c (heq ▸ List.mem_append_left _ h)
  · cases h

namespace Expansion

/-! ### Rows -/

/-- A line of a drawn block. -/
structure Row where
  /-- Number of blocks around it. -/
  depth : Nat
  /-- Number of characters in front of these blocks. -/
  shift : Nat
  /-- What stands in it. -/
  text : List Char
deriving DecidableEq, Repr

namespace Row

/-- The column in which a row begins. -/
def column (indentWidth : Nat) (r : Row) : Nat :=
  r.depth * indentWidth + r.shift

/-- The row as a line. -/
def draw (indentWidth : Nat) (r : Row) : List Char :=
  List.replicate (r.column indentWidth) ' ' ++ r.text

/-- The last rows of a block that opens in a row of this depth, behind `shift` characters. -/
def closing (depth shift : Nat) (label : List Char) : List Row :=
  [⟨depth, shift, ['|']⟩, ⟨depth, shift, '|' :: ' ' :: label⟩]

/-- Wider indentations move a row to the right, by as much for each block around it. -/
theorem draw_add (indentWidth more : Nat) (r : Row) :
    r.draw (indentWidth + more) = List.replicate (r.depth * more) ' ' ++ r.draw indentWidth := by
  have hcolumn : r.column (indentWidth + more) = r.depth * more + r.column indentWidth := by
    rw [column, column, Nat.mul_add]
    omega
  rw [draw, hcolumn, draw, List.replicate_add, List.append_assoc]

/-- Without the spaces at its beginning a line is the same for every width. -/
theorem dropWhile_draw (indentWidth : Nat) (r : Row) :
    (r.draw indentWidth).dropWhile (· == ' ') = r.text.dropWhile (· == ' ') :=
  List.dropWhile_append_of_pos fun c hc => by simp [(List.mem_replicate.1 hc).2]

end Row

mutual

/-- The rows of an item that lies in `depth` blocks, behind `shift` characters. A block opens behind
what stands in front of it; its items lie in one more block, and its last rows below its opening. -/
def Item.rows (depth shift : Nat) : Item → List Row
  | .line text => [⟨depth, shift, text⟩]
  | .nested lead _ label items =>
    ⟨depth, shift, lead ++ ['|']⟩ :: (rowsOf (depth + 1) (shift + lead.length) items ++
      Row.closing depth (shift + lead.length) label)

/-- The rows of items, in order. -/
def rowsOf (depth shift : Nat) : List Item → List Row
  | [] => []
  | item :: items => item.rows depth shift ++ rowsOf depth shift items

end

/-- The rows of a block. -/
def Block.rows (b : Block) : List Row :=
  ⟨0, 0, ['|']⟩ :: (rowsOf 1 0 b.items ++ Row.closing 0 0 b.label)

/-- The rows of the block that comes of entering a struct. -/
def Entered.rows : Entered → List Row
  | .block b => b.rows
  | .leaf _ _ => []

/-! ### Items that are drawn row by row -/

/-- Neither the line of an item nor what stands in front of its block or behind it breaks a line. -/
def Item.IsPlain : Item → Prop
  | .line text => IsLine text
  | .nested lead _ label _ => Unbroken lead ∧ Unbroken label

/-- A line that is moved to the right. -/
def indented (n : Nat) (line : List Char) : List Char :=
  List.replicate n ' ' ++ line

theorem indented_indented (m n : Nat) (line : List Char) :
    indented m (indented n line) = indented (m + n) line := by
  rw [indented, indented, indented, List.replicate_add, List.append_assoc]

theorem isLine_indented {line : List Char} (h : IsLine line) (n : Nat) :
    IsLine (indented n line) :=
  ((unbroken_replicate_space n).append h.unbroken).isLine
    (List.append_ne_nil_of_right_ne_nil _ h.ne_nil)

variable {indentWidth : Nat}

/-- Lines are the rows of something that may lie in any number of blocks, behind any number of
characters. -/
structure DrawnBy (indentWidth : Nat) (ls : List (List Char)) (rows : Nat → Nat → List Row) :
    Prop where
  /-- Moved to the right, they are its rows. -/
  rows : ∀ depth shift, ls.map (indented (depth * indentWidth + shift)) =
    (rows depth shift).map (Row.draw indentWidth)
  /-- They can be read back. -/
  isLine : ∀ l ∈ ls, IsLine l

namespace DrawnBy

variable {ls ls' : List (List Char)} {rows rows' : Nat → Nat → List Row}

theorem line {l : List Char} (hl : IsLine l) :
    DrawnBy indentWidth [l] fun depth shift => [⟨depth, shift, l⟩] :=
  ⟨fun _ _ => rfl, List.forall_mem_singleton.2 hl⟩

theorem append (h : DrawnBy indentWidth ls rows) (h' : DrawnBy indentWidth ls' rows') :
    DrawnBy indentWidth (ls ++ ls') fun depth shift => rows depth shift ++ rows' depth shift := by
  refine ⟨fun depth shift => ?_, fun l hl => (List.mem_append.1 hl).elim (h.isLine l) (h'.isLine l)⟩
  rw [List.map_append, List.map_append, h.rows, h'.rows]

/-- The lines of a block behind a text: its items lie in one more block, and all rows but the first
lie behind the text. -/
theorem nested (h : DrawnBy indentWidth ls rows) {lead label : List Char} (hlead : Unbroken lead)
    (hlabel : Unbroken label) :
    DrawnBy indentWidth
      ((lead ++ ['|']) :: (Schema.blockLines indentWidth label ls).tail.map (indented lead.length))
      fun depth shift => ⟨depth, shift, lead ++ ['|']⟩ ::
        (rows (depth + 1) (shift + lead.length) ++
          Row.closing depth (shift + lead.length) label) := by
  have hbar : IsLine ['|'] := ⟨by decide, by decide, by decide⟩
  refine ⟨fun depth shift => ?_, fun l hl => ?_⟩
  · have htail : (Schema.blockLines indentWidth label ls).tail =
        ls.map (indented indentWidth) ++ [['|'], '|' :: ' ' :: label] := rfl
    -- The items begin one indentation to the right of the bar, wherever it stands.
    have hcolumn : depth * indentWidth + shift + lead.length + indentWidth =
        (depth + 1) * indentWidth + (shift + lead.length) := by
      rw [Nat.succ_mul]
      omega
    have hclosing : ([['|'], '|' :: ' ' :: label] : List (List Char)).map
        (indented (depth * indentWidth + shift + lead.length)) =
          (Row.closing depth (shift + lead.length) label).map (Row.draw indentWidth) := by
      rw [Nat.add_assoc]
      rfl
    rw [htail, List.map_cons, List.map_map, List.map_append, List.map_map]
    simp only [Function.comp_def, indented_indented, hcolumn, hclosing]
    rw [h.rows, ← List.map_append]
    rfl
  · rcases List.mem_cons.1 hl with rfl | hl
    · exact (hlead.append hbar.unbroken).isLine (by simp)
    · obtain ⟨k, hk, rfl⟩ := List.mem_map.1 hl
      exact isLine_indented
        (Schema.isLine_of_mem_blockLines hlabel h.isLine indentWidth k (List.mem_of_mem_tail hk)) _

end DrawnBy

mutual

/-- An item without line breaks in its texts is drawn row by row. -/
theorem Item.drawnBy (indentWidth : Nat) : ∀ item : Item, (∀ i ∈ item.members, i.IsPlain) →
    DrawnBy indentWidth (lines (item.render indentWidth)) fun depth shift => item.rows depth shift
  | .line text, h => by
    have htext : IsLine text := h _ (Item.mem_members _)
    rw [Item.render, lines_of_isLine htext]
    exact .line htext
  | .nested lead root label items, h => by
    obtain ⟨hlead, hlabel⟩ : Unbroken lead ∧ Unbroken label := h _ (Item.mem_members _)
    have hitems := drawnBy_renderItems indentWidth items fun i hi => h i (List.mem_cons_of_mem _ hi)
    have hlines := Schema.isLine_of_mem_blockLines hlabel hitems.isLine indentWidth
    have hnested := hitems.nested hlead hlabel
    rw [Item.render, Schema.frame_eq_unlines indentWidth label hitems.isLine]
    rw [Schema.blockLines, List.cons_append] at hlines hnested ⊢
    rw [Splice.attach_unlines lead hlines]
    exact (lines_unlines hnested.isLine).symm ▸ hnested

/-- Items are drawn row by row, one after the other. -/
theorem drawnBy_renderItems (indentWidth : Nat) : ∀ items : List Item,
    (∀ i ∈ membersOf items, i.IsPlain) →
    DrawnBy indentWidth ((renderItems indentWidth items).flatMap lines)
      fun depth shift => rowsOf depth shift items
  | [], _ => ⟨fun _ _ => rfl, nofun⟩
  | item :: items, h =>
    (Item.drawnBy indentWidth item fun i hi => h i (List.mem_append_left _ hi)).append
      (drawnBy_renderItems indentWidth items fun i hi => h i (List.mem_append_right _ hi))

end

/-- A block is drawn row by row. -/
theorem Block.render_eq_unlines (b : Block) (h : ∀ i ∈ membersOf b.items, i.IsPlain) :
    b.render indentWidth = unlines (b.rows.map (Row.draw indentWidth)) := by
  have hitems := drawnBy_renderItems indentWidth b.items h
  have hrows := hitems.rows 1 0
  rw [Nat.one_mul, Nat.add_zero] at hrows
  have hclosing : (Row.closing 0 0 b.label).map (Row.draw indentWidth) =
      [['|'], '|' :: ' ' :: b.label] := by
    simp [Row.closing, Row.draw, Row.column]
  have hbar : Row.draw indentWidth ⟨0, 0, ['|']⟩ = ['|'] := by
    simp [Row.draw, Row.column]
  rw [Block.render, Schema.frame_eq_unlines indentWidth b.label hitems.isLine, Block.rows,
    List.map_cons, List.map_append, hclosing, hbar, ← hrows]
  rfl

/-- No line breaks in a drawn block but between its rows. -/
theorem Block.not_mem_draw (b : Block) (h : ∀ i ∈ membersOf b.items, i.IsPlain)
    (hlabel : '\n' ∉ b.label) : ∀ line ∈ b.rows.map (Row.draw indentWidth), '\n' ∉ line := by
  have hitems := drawnBy_renderItems indentWidth b.items h
  have hrows := hitems.rows 1 0
  intro line hline
  rw [Block.rows, List.map_cons, List.map_append, ← hrows] at hline
  rcases List.mem_cons.1 hline with rfl | hline
  · simp [Row.draw]
  rcases List.mem_append.1 hline with hline | hline
  · obtain ⟨l, hl, rfl⟩ := List.mem_map.1 hline
    exact (isLine_indented (hitems.isLine l hl) _).no_feed
  · simp only [Row.closing, List.map_cons, List.map_nil, List.mem_cons, List.not_mem_nil,
      or_false] at hline
    rcases hline with rfl | rfl
    · simp [Row.draw]
    · simp [Row.draw, hlabel]

/-! ### Items of an expansion are plain -/

variable {ctx : Context}

/-- The names of structs are lines. -/
def NamesAreLines (c : Catalog) : Prop :=
  ∀ name ∈ c.structs.keys, IsLine name.toList

theorem NamesAreLines.of_contains (h : NamesAreLines ctx.catalog) {root : String}
    (hdefined : ctx.catalog.structs.contains root = true) : IsLine root.toList :=
  h root (Table.mem_keys_iff.2 hdefined)

/-- The names that scanning finds are lines. -/
theorem namesAreLines_run (steps : List Scan.Step) (hops : Option Nat) :
    NamesAreLines ((Scan.run steps).setMaxAliasHops hops) := by
  intro name hname
  obtain ⟨d, hget⟩ := Table.contains_eq_true_iff.1 (Table.mem_keys_iff.1 hname)
  have hheld : (Scan.Finding.struct name d).HeldBy (Scan.run steps) := hget
  exact isLine_of_isWord (isIdent_of_isIdentifier (Scan.wellNamed_of_heldBy_run hheld).1).isWord

/-- A word keeps its line when stars are put behind it. -/
theorem isLine_append_starsOf {name word : List Char} (hname : IsLine name) (hword : IsLine word) :
    IsLine (name ++ starsOf word) :=
  (hname.unbroken.append fun c hc => hword.unbroken c (List.mem_of_mem_drop hc)).isLine
    (List.append_ne_nil_of_left_ne_nil hname.ne_nil _)

theorem isLine_leafName {resolved : Resolved} (h : IsLine resolved.root.toList) (hasStar : Bool) :
    IsLine (leafName resolved hasStar) := by
  rw [leafName]
  split
  · have hstar : Unbroken ['*'] := by decide
    exact (h.unbroken.append hstar).isLine (List.append_ne_nil_of_left_ne_nil h.ne_nil _)
  · exact h

/-- A word that is settled without entering a struct becomes a line. -/
theorem isLine_of_verdict (hnames : NamesAreLines ctx.catalog) {depth : Nat}
    {word text : List Char} {rest : Declaration} {visited : List String} {issue : Option Problem}
    (hword : IsLine word) (hvisited : AllDefined ctx.catalog visited)
    (h : verdict ctx depth word rest visited = .settle text issue) : IsLine text := by
  cases verdict_eq_iff.1 h with
  | unnamed | unresolved | undefined => exact hword
  | visited hname hresolve hmem =>
    have hline := hnames.of_contains (hvisited _ hmem)
    exact isLine_append_starsOf (isLine_leafName hline _) hword
  | deep hname hresolve hfresh hdefined hdeep =>
    exact isLine_append_starsOf (isLine_leafName (hnames.of_contains hdefined) _) hword

/-- The name of a struct that could not be entered is a line. -/
theorem Performs.isLine_of_leaf (hnames : NamesAreLines ctx.catalog) {symbol label leaf : List Char}
    {depth : Nat} {run run' : Run} {cause : LeafCause}
    (hready : Opening.Ready ctx.catalog symbol run.visited)
    (h : Performs ctx (.enter symbol label depth) run (.entered (.leaf leaf cause)) run') :
    IsLine leaf := by
  obtain ⟨resolved, hresolve, hdefined, -⟩ := hready
  have hroot : ∀ resolved', ctx.catalog.resolve symbol = .ok resolved' →
      IsLine resolved'.root.toList := by
    intro resolved' hresolve'
    obtain rfl := Except.ok.inj (hresolve.symm.trans hresolve')
    exact hnames.of_contains hdefined
  cases h with
  | leaf hopening =>
    cases opens_of_opening_eq hopening with
    | unresolved hresolve' =>
      rw [hresolve] at hresolve'
      cases hresolve'
    | visited hresolve' => exact hroot _ hresolve'
    | undefined hresolve' => exact hroot _ hresolve'
    | unreadable hresolve' => exact hroot _ hresolve'

/-- What is settled of a declaration consists of lines, and a declaration is not empty. -/
def Task.OfLines : Task → Prop
  | .words _ done todo => (done ≠ [] ∨ todo ≠ []) ∧ ∀ text ∈ done, IsLine text
  | _ => True

/-- What is settled consists of lines wherever a declaration is flattened. -/
theorem Arises.ofLines (hnames : NamesAreLines ctx.catalog) {task sub : Task} {run before : Run}
    (h : Arises ctx task run sub before) (hready : task.Ready ctx.catalog run.visited)
    (hrun : AllDefined ctx.catalog run.visited) (hwords : task.OfWords) (hlines : task.OfLines) :
    sub.OfLines := by
  induction h with
  | self => exact hlines
  | body => exact trivial
  | first h =>
    exact ⟨.inr (h.ofWords hwords _ List.mem_cons_self).1, nofun⟩
  | behind => exact trivial
  | settle h hverdict ih =>
    have hword := h.ofWords hwords _ List.mem_cons_self
    have htext := isLine_of_verdict hnames (isLine_of_isWord hword) (h.allDefined hready hrun).2
      hverdict
    exact ⟨.inl (List.cons_ne_nil _ _), List.forall_mem_cons.2 ⟨htext, ih.2⟩⟩
  | enter => exact trivial
  | name h hverdict henter ih =>
    have hword := h.ofWords hwords _ List.mem_cons_self
    have hleaf := henter.isLine_of_leaf hnames (ready_of_verdict_eq_enter hverdict)
    exact ⟨.inl (List.cons_ne_nil _ _),
      List.forall_mem_cons.2 ⟨isLine_append_starsOf hleaf (isLine_of_isWord hword), ih.2⟩⟩

/-- What is put behind the body of a struct defined in place is part of the declaration. -/
theorem unbroken_declaratorOf {rest : List Char} (h : Unbroken rest) :
    Unbroken (declaratorOf rest) := by
  unfold declaratorOf
  split
  · dsimp only
    split
    · refine fun c hc => h c ?_
      have hmem := List.mem_reverse.1 (mem_of_mem_trim hc)
      exact List.mem_reverse.1 ((List.takeWhile_sublist _).mem hmem)
    · exact h
  · exact h

theorem unbroken_labelOf {label : List Char} (h : Unbroken label) (resolved : Resolved) :
    Unbroken (labelOf resolved label) := by
  rw [labelOf]
  split
  · decide
  · exact h

/-- An item that a declaration becomes is plain. -/
theorem Ends.isPlain (hnames : NamesAreLines ctx.catalog) {task : Task} {run : Run} {depth : Nat}
    {item : Item} (h : Ends ctx task run depth item) (hready : task.Ready ctx.catalog run.visited)
    (hrun : AllDefined ctx.catalog run.visited) (hwords : task.OfWords) (hlines : task.OfLines) :
    item.IsPlain := by
  cases h with
  | line h =>
    obtain ⟨hne, hdone⟩ := h.ofLines hnames hready hrun hwords hlines
    rw [or_iff_left fun h => h rfl] at hne
    exact isLine_joinWords (by simpa using hne) (by simpa using hdone)
  | @nest done word rest last b after h hverdict henter =>
    obtain ⟨-, hdone⟩ := h.ofLines hnames hready hrun hwords hlines
    have htodo := h.ofWords hwords
    have hrest : Unbroken (Declaration.text rest) := Unbroken.joinWords fun w hw =>
      (isLine_of_isWord (htodo w (List.mem_cons_of_mem _ hw))).unbroken
    have htext : Unbroken (Declaration.text (done.reverse ++ word :: rest)) := by
      refine Unbroken.joinWords fun w hw => ?_
      rcases List.mem_append.1 hw with hw | hw
      · exact (hdone w (List.mem_reverse.1 hw)).unbroken
      · exact (isLine_of_isWord (htodo w hw)).unbroken
    refine ⟨fun c hc => htext c (Splice.mem_of_mem_lead hc), ?_⟩
    cases henter with
    | block => exact unbroken_labelOf (unbroken_declaratorOf hrest) _

/-- The items of an expansion are plain. -/
theorem isPlain_of_mem_members (hnames : NamesAreLines ctx.catalog) {query : List Char}
    {e : Expansion} (hexpand : expand ctx query = .ok e) :
    ∀ item ∈ e.entered.members, item.IsPlain := by
  intro item hitem
  obtain ⟨depth, d, run, run', harises, hperforms⟩ := exists_arisesIn_of_mem_members hexpand hitem
  obtain ⟨⟨resolved, hresolve, hdefined⟩, -⟩ := performs_of_expand hexpand
  exact (Arises.ends harises hperforms).isPlain hnames
    ⟨resolved, hresolve, hdefined, List.not_mem_nil⟩ nofun trivial trivial

/-! ### Items and declarations -/

/-- The items of a block are what the declarations in the body of its struct have become in a query,
one for each, in order. -/
def ListsBody (ctx : Context) (query : List Char) (root : String) (items : List Item) : Prop :=
  ∃ definition text before, ctx.catalog.structs.get? root = some definition ∧
    (body ctx root definition before).1 = .ok text ∧
    List.Forall₂
      (fun d item => ∃ depth run run', ArisesIn ctx query (.words depth [] d) run ∧
        Performs ctx (.words depth [] d) run (.item item) run')
      (Declaration.all text) items

/-- Each declaration of a body becomes an item. -/
theorem Arises.forall₂_items {task : Task} {depth : Nat} {ds : List Declaration}
    {run before after : Run} {items : List Item}
    (h : Arises ctx task run (.declarations depth ds) before)
    (hperforms : Performs ctx (.declarations depth ds) before (.items items) after) :
    List.Forall₂
      (fun d item => ∃ depth mid mid', Arises ctx task run (.words depth [] d) mid ∧
        Performs ctx (.words depth [] d) mid (.item item) mid') ds items := by
  induction ds generalizing before items with
  | nil =>
    cases hperforms with
    | nil => exact .nil
  | cons d ds ih =>
    cases hperforms with
    | cons hitem hitems => exact .cons ⟨_, _, _, h.first, hitem⟩ (ih (h.behind hitem) hitems)

theorem Arises.listsBody {query symbol label : List Char} {depth : Nat} {before after : Run}
    {b : Block} (h : ArisesIn ctx query (.enter symbol label depth) before)
    (hperforms : Performs ctx (.enter symbol label depth) before (.entered (.block b)) after) :
    ListsBody ctx query b.root b.items := by
  cases hperforms with
  | block hopening hitems =>
    have hlist := Arises.forall₂_items (Arises.body h hopening) hitems
    cases opens_of_opening_eq hopening with
    | body _ _ hget hbody => exact ⟨_, _, _, hget, by rw [hbody], hlist⟩

/-- The items of each block of an expansion are what the declarations of its struct have become. -/
theorem listsBody_of_mem_members {query : List Char} {e : Expansion}
    (hexpand : expand ctx query = .ok e) {lead label : List Char} {root : String}
    {items : List Item} (hitem : .nested lead root label items ∈ e.entered.members) :
    ListsBody ctx query root items := by
  obtain ⟨depth, d, run, run', harises, hperforms⟩ := exists_arisesIn_of_mem_members hexpand hitem
  cases Arises.ends harises hperforms with
  | nest h hverdict henter => exact Arises.listsBody (h.enter hverdict) henter

/-! ### The width of an indentation -/

/-- A context that draws with another width. -/
def Context.withIndent (ctx : Context) (indentWidth : Nat) : Context :=
  { ctx with options := { ctx.options with indentWidth := indentWidth } }

theorem flattenWords_withIndent (ctx : Context) (indentWidth : Nat) (enter : Enter) (depth : Nat)
    (done todo : Declaration) (run : Run) :
    flattenWords (ctx.withIndent indentWidth) enter depth done todo run =
      flattenWords ctx enter depth done todo run := by
  induction todo generalizing done run with
  | nil => rfl
  | cons word rest ih =>
    have hword : flattenWord (ctx.withIndent indentWidth) enter depth word rest run =
        flattenWord ctx enter depth word rest run := rfl
    rw [flattenWords, flattenWords, hword]
    simp only [ih]

theorem flattenAll_withIndent (ctx : Context) (indentWidth : Nat) (enter : Enter) (depth : Nat)
    (ds : List Declaration) (run : Run) :
    flattenAll (ctx.withIndent indentWidth) enter depth ds run =
      flattenAll ctx enter depth ds run := by
  induction ds generalizing run with
  | nil => rfl
  | cons d ds ih =>
    rw [flattenAll, flattenAll]
    simp only [flattenWords_withIndent, ih]

theorem enterWithin_withIndent (ctx : Context) (indentWidth fuel : Nat) :
    enterWithin (ctx.withIndent indentWidth) fuel = enterWithin ctx fuel := by
  induction fuel with
  | zero => rfl
  | succ fuel ih =>
    have hopening : opening (ctx.withIndent indentWidth) = opening ctx := rfl
    rw [enterWithin, enterWithin, ih]
    funext symbol label depth run
    simp only [enterWith, hopening, flattenAll_withIndent]

/-- The width of an indentation makes no difference to what a query comes to. -/
theorem expand_withIndent (ctx : Context) (indentWidth : Nat) (query : List Char) :
    expand (ctx.withIndent indentWidth) query = expand ctx query := by
  have hcatalog : (ctx.withIndent indentWidth).catalog = ctx.catalog := rfl
  simp only [expand, enter, hcatalog, enterWithin_withIndent]

/-! ### The text of an expansion -/

/-- The block of a query is labelled with the query, or with a star. -/
theorem label_of_expand {query : List Char} {e : Expansion} (hexpand : expand ctx query = .ok e)
    {b : Block} (hb : e.entered = .block b) : b.label = ['*'] ∨ b.label = trim query := by
  obtain ⟨-, hperforms⟩ := performs_of_expand hexpand
  rw [hb] at hperforms
  cases hperforms with
  | block =>
    rw [labelOf]
    split
    · exact .inl rfl
    · exact .inr rfl

/-- **An expansion is drawn row by row.** The names that scanning finds are lines. Where the names
of structs are lines, an expansion into a block lists the declarations of each body that was read,
one item for each, and its text has one line for each row of the tree: the items of a block begin
one indentation to the right of the column in which it opens, its last two rows in that column, and
an inner block opens behind what stands in front of it. So wider indentations give the same lines,
each moved to the right by as much as is added for each block around it. -/
theorem text_drawn_by_rows :
    (∀ steps hops, NamesAreLines ((Scan.run steps).setMaxAliasHops hops)) ∧
    ∀ ctx : Context, NamesAreLines ctx.catalog → ∀ query e b, '\n' ∉ trim query →
      expand ctx query = .ok e → e.entered = .block b →
      (ListsBody ctx query b.root b.items ∧
        ∀ lead root label items, .nested lead root label items ∈ e.entered.members →
          ListsBody ctx query root items) ∧
      (∀ indentWidth, expand (ctx.withIndent indentWidth) query = .ok e ∧
        splitLines (e.text indentWidth).toList = b.rows.map (Row.draw indentWidth)) ∧
      ∀ indentWidth more,
        splitLines (e.text (indentWidth + more)).toList =
          List.zipWith (fun r line => List.replicate (r.depth * more) ' ' ++ line) b.rows
            (splitLines (e.text indentWidth).toList) ∧
        (splitLines (e.text (indentWidth + more)).toList).map (List.dropWhile (· == ' ')) =
          (splitLines (e.text indentWidth).toList).map (List.dropWhile (· == ' ')) := by
  refine ⟨namesAreLines_run, fun ctx hnames query e b hquery hexpand hb => ?_⟩
  have hplain := isPlain_of_mem_members hnames hexpand
  have hlabel : '\n' ∉ b.label := by
    rcases label_of_expand hexpand hb with h | h
    · rw [h]
      decide
    · rwa [h]
  -- There is no line feed in a row, so the text is cut where the rows were joined.
  have hlines : ∀ indentWidth, splitLines (e.text indentWidth).toList =
      b.rows.map (Row.draw indentWidth) := by
    intro indentWidth
    rw [hb] at hplain
    have hne : b.rows.map (Row.draw indentWidth) ≠ [] := List.cons_ne_nil _ _
    rw [Expansion.text, String.toList_ofList, hb, Entered.render, b.render_eq_unlines hplain,
      splitLines, unlines, List.splitOn_intercalate '\n' (b.not_mem_draw hplain hlabel) hne]
  refine ⟨⟨?_, fun lead root label items => listsBody_of_mem_members hexpand⟩,
    fun indentWidth => ⟨(expand_withIndent ctx indentWidth query).trans hexpand,
      hlines indentWidth⟩, fun indentWidth more => ⟨?_, ?_⟩⟩
  · obtain ⟨-, hperforms⟩ := performs_of_expand hexpand
    rw [hb] at hperforms
    exact Arises.listsBody .self hperforms
  · rw [hlines, hlines, List.zipWith_map_right, List.zipWith_self]
    exact List.map_congr_left fun r _ => r.draw_add indentWidth more
  · rw [hlines, hlines, List.map_map, List.map_map]
    exact List.map_congr_left fun r _ => (r.dropWhile_draw _).trans (r.dropWhile_draw _).symm

/-- The rows of a block whose second item is a block behind a word. -/
theorem text_drawn_by_rows_shape :
    ∃ e b, expand shapeContext "shape".toList = .ok e ∧ e.entered = .block b ∧
      b.rows = [⟨0, 0, "|".toList⟩, ⟨1, 0, "unsigned sides;".toList⟩, ⟨1, 0, "int |".toList⟩,
        ⟨2, 4, "int x;".toList⟩, ⟨1, 4, "|".toList⟩, ⟨1, 4, "| [3];".toList⟩, ⟨0, 0, "|".toList⟩,
        ⟨0, 0, "| shape".toList⟩] ∧
      splitLines (e.text 2).toList = b.rows.map (Row.draw 2) ∧
      splitLines (e.text 6).toList =
        List.zipWith (fun r line => List.replicate (r.depth * 4) ' ' ++ line) b.rows
          (splitLines (e.text 2).toList) := by
  have hidents : ∀ name ∈ shapeContext.catalog.structs.keys, IsIdent name.toList := by
    decide +kernel
  have hnames : NamesAreLines shapeContext.catalog := fun name hname =>
    isLine_of_isWord (hidents name hname).isWord
  have hrows : (expand shapeContext "shape".toList).map (fun e => e.entered.rows) =
      .ok [⟨0, 0, "|".toList⟩, ⟨1, 0, "unsigned sides;".toList⟩, ⟨1, 0, "int |".toList⟩,
        ⟨2, 4, "int x;".toList⟩, ⟨1, 4, "|".toList⟩, ⟨1, 4, "| [3];".toList⟩, ⟨0, 0, "|".toList⟩,
        ⟨0, 0, "| shape".toList⟩] := by
    decide +kernel
  cases hexpand : expand shapeContext "shape".toList with
  | error p =>
    rw [hexpand] at hrows
    cases hrows
  | ok e =>
    rw [hexpand] at hrows
    have hrows : e.entered.rows = _ := Except.ok.inj hrows
    cases hb : e.entered with
    | leaf name cause =>
      rw [hb] at hrows
      cases hrows
    | block b =>
      rw [hb] at hrows
      obtain ⟨-, hlines, hwider⟩ :=
        text_drawn_by_rows.2 shapeContext hnames "shape".toList e b (by decide +kernel) hexpand hb
      exact ⟨e, b, rfl, hb, hrows, (hlines 2).2, (hwider 2 4).1⟩

end Expansion

end StructUnfold
