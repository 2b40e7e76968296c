import StructUnfold.Expansion.Basic
import StructUnfold.Proofs.Expansion.Declaration

/-!
# Rewriting a declaration in place

A declaration can also be flattened in place: a cursor stands in its text, and each step looks for
the next token behind the cursor, rewrites it there and moves the cursor behind what it has become,
however long that is. What grows is the part of the text that has been passed. The part that has not
been passed gets shorter with each step, so the loop ends, and it comes to the same as flattening
the declaration word by word.

* `Cursor.step`, `Cursor.loop`: one step, and the steps up to a bound.
* `Cursor.unscanned_lt_of_step`: each step leaves less text to be passed.
* `Cursor.exists_loop_eq_some`: the loop ends on every text, whatever the tokens become.
* `Cursor.loop_text`: on a declaration the loop comes to `flattenWords`.
-/

namespace StructUnfold

namespace Expansion

open Text

/-- A text that is rewritten, and how many of its characters have been passed. -/
structure Cursor where
  /-- The text. -/
  text : List Char
  /-- Number of characters passed. -/
  pos : Nat

/-- What a step comes to. -/
inductive Advance where
  /-- The declaration has become this item. -/
  | ends (item : Item)
  /-- There may be further tokens. -/
  | goesOn (c : Cursor)

namespace Cursor

/-- Number of characters that have not been passed. -/
def unscanned (c : Cursor) : Nat :=
  c.text.length - c.pos

/-- The next token and the number of characters before it. -/
def token? (c : Cursor) : Option (Nat × List Char) :=
  let ahead := c.text.drop c.pos
  let token := (ahead.dropWhile isSpace).takeWhile fun ch => !isSpace ch
  if token.isEmpty then none else some (c.pos + (ahead.takeWhile isSpace).length, token)

/-- The text with `new` in the place of a token, passed up to the end of `new`. -/
def replace (c : Cursor) (start : Nat) (token new : List Char) : Cursor :=
  ⟨c.text.take start ++ new ++ c.text.drop (start + token.length), start + new.length⟩

/-- Rewrite the next token. -/
def step (ctx : Context) (enter : Enter) (depth : Nat) (c : Cursor) (run : Run) : Advance × Run :=
  match c.token? with
  | none => (.ends (.line c.text), run)
  | some (start, token) =>
    let remainder := c.text.drop (start + token.length)
    match verdict ctx depth token (words remainder) run.visited with
    | .settle text issue => (.goesOn (c.replace start token text), run.noteAll issue.toList)
    | .enter =>
      let symbol := symbolOf token (words remainder)
      match enter symbol (declaratorOf (trim remainder)) (depth + 1) run with
      | (.block b, run) =>
        (.ends (.nested (Splice.lead c.text (nameIn token)) b.root b.label b.items), run)
      | (.leaf leaf _, run) => (.goesOn (c.replace start token (leaf ++ starsOf token)), run)

/-- Rewrite tokens until the declaration is settled; none when that takes more than `n` steps. -/
def loop (ctx : Context) (enter : Enter) (depth : Nat) : Nat → Cursor → Run → Option (Item × Run)
  | 0, _, _ => none
  | n + 1, c, run =>
    match c.step ctx enter depth run with
    | (.ends item, run) => some (item, run)
    | (.goesOn c, run) => loop ctx enter depth n c run

/-! ### The loop ends -/

/-- A token is not empty and lies in what has not been passed. -/
theorem bounds_of_token?_eq_some {c : Cursor} {start : Nat} {token : List Char}
    (h : c.token? = some (start, token)) :
    0 < token.length ∧ c.pos ≤ start ∧ start + token.length ≤ c.text.length := by
  rw [token?] at h
  split at h
  · cases h
  · rename_i hne
    obtain ⟨rfl, rfl⟩ := Prod.mk.inj (Option.some.inj h)
    have htoken := List.length_pos_iff.2 fun hnil => hne (List.isEmpty_iff.2 hnil)
    refine ⟨htoken, Nat.le_add_right _ _, ?_⟩
    -- The token lies behind the white space that follows the cursor.
    have hgap := congrArg List.length
      (List.takeWhile_append_dropWhile (p := isSpace) (l := c.text.drop c.pos))
    have hle := (List.takeWhile_sublist (fun ch => !isSpace ch)
      (l := (c.text.drop c.pos).dropWhile isSpace)).length_le
    rw [List.length_append, List.length_drop] at hgap
    omega

/-- Replacing a token passes it, whatever takes its place. -/
theorem unscanned_replace_lt {c : Cursor} {start : Nat} {token : List Char} (new : List Char)
    (h : c.token? = some (start, token)) : (c.replace start token new).unscanned < c.unscanned := by
  obtain ⟨htoken, hpos, hend⟩ := bounds_of_token?_eq_some h
  rw [unscanned, unscanned, replace]
  simp only [List.length_append, List.length_take, List.length_drop]
  omega

/-- Each step leaves less text to be passed. -/
theorem unscanned_lt_of_step {ctx : Context} {enter : Enter} {depth : Nat} {c c' : Cursor}
    {run run' : Run} (h : c.step ctx enter depth run = (.goesOn c', run')) :
    c'.unscanned < c.unscanned := by
  rw [step] at h
  split at h
  · cases h
  · rename_i start token htoken
    dsimp only at h
    split at h
    · cases h
      exact unscanned_replace_lt _ htoken
    · split at h
      · cases h
      · cases h
        exact unscanned_replace_lt _ htoken

/-- The loop ends on every text, in no more steps than there are characters to be passed and one. -/
theorem exists_loop_eq_some (ctx : Context) (enter : Enter) (depth : Nat) (c : Cursor) (run : Run)
    {n : Nat} (hn : c.unscanned < n) : ∃ result, c.loop ctx enter depth n run = some result := by
  induction n generalizing c run with
  | zero => omega
  | succ n ih =>
    rw [loop]
    rcases hstep : c.step ctx enter depth run with ⟨advance, run'⟩
    cases advance with
    | ends item => exact ⟨_, rfl⟩
    | goesOn c' => exact ih c' run' (by have hlt := unscanned_lt_of_step hstep; omega)

/-! ### The loop on a declaration -/

/-- A word behind white space is the next token. -/
theorem token?_append (front : List Char) {gap word back : List Char}
    (hgap : ∀ c ∈ gap, isSpace c = true) (hword : IsWord word)
    (hback : ∀ c, back.head? = some c → isSpace c = true) :
    token? ⟨front ++ (gap ++ (word ++ back)), front.length⟩ =
      some (front.length + gap.length, word) := by
  obtain ⟨c, cs, rfl⟩ := List.exists_cons_of_ne_nil hword.ne_nil
  have hc : isSpace c = false := hword.no_space c List.mem_cons_self
  have htake : (gap ++ (c :: cs ++ back)).takeWhile isSpace = gap := by
    rw [List.takeWhile_append_of_pos hgap, List.cons_append,
      List.takeWhile_cons_of_neg (by simp [hc]), List.append_nil]
  have hdrop : (gap ++ (c :: cs ++ back)).dropWhile isSpace = c :: cs ++ back := by
    rw [List.dropWhile_append_of_pos hgap, List.cons_append,
      List.dropWhile_cons_of_neg (by simp [hc])]
  have htoken : (c :: cs ++ back).takeWhile (fun ch => !isSpace ch) = c :: cs := by
    rw [List.takeWhile_append_of_pos fun ch hch => by simp [hword.no_space ch hch]]
    cases back with
    | nil => simp
    | cons b bs => rw [List.takeWhile_cons_of_neg (by simp [hback b rfl]), List.append_nil]
  rw [token?]
  simp only [List.drop_left, hdrop, htoken, htake]
  rfl

theorem replace_append (front gap word back new : List Char) (pos : Nat) :
    replace ⟨front ++ (gap ++ (word ++ back)), pos⟩ (front.length + gap.length) word new =
      ⟨front ++ (gap ++ (new ++ back)), (front ++ (gap ++ new)).length⟩ := by
  have htake : (front ++ (gap ++ (word ++ back))).take (front.length + gap.length) =
      front ++ gap := by
    rw [← List.append_assoc, List.take_left' (by simp)]
  have hdrop : (front ++ (gap ++ (word ++ back))).drop
      (front.length + gap.length + word.length) = back := by
    rw [← List.append_assoc, ← List.append_assoc, List.drop_left' (by simp [Nat.add_assoc])]
  rw [replace, htake, hdrop]
  simp [Nat.add_assoc]

/-- A word of a declaration stands behind the words before it and at most one space. -/
theorem exists_gap (done : Declaration) :
    ∃ gap : List Char, (∀ c ∈ gap, isSpace c = true) ∧ ∀ (word : List Char) (rest : Declaration),
      Declaration.text (done ++ word :: rest) =
        Declaration.text done ++ (gap ++ (word ++ spaced rest)) := by
  cases done with
  | nil => exact ⟨[], by simp, fun word rest => by simp [Declaration.text, joinWords_cons]⟩
  | cons first others =>
    refine ⟨[' '], by simp [show isSpace ' ' = true from rfl], fun word rest => ?_⟩
    simp only [Declaration.text]
    rw [joinWords_append, spaced_cons, List.singleton_append]

theorem trim_spaced {ws : Declaration} (h : ∀ w ∈ ws, IsWord w) :
    trim (spaced ws) = Declaration.text ws := by
  cases ws with
  | nil => rfl
  | cons w ws =>
    rw [spaced_cons, ← joinWords_cons, trim_space_cons, trim_joinWords h, Declaration.text]

/-- Words that stand behind others are parted from them by white space. -/
theorem isSpace_of_head?_spaced {ws : Declaration} {c : Char} (hc : (spaced ws).head? = some c) :
    isSpace c = true := by
  cases ws with
  | nil => cases hc
  | cons w ws =>
    rw [spaced_cons, List.head?_cons, Option.some.injEq] at hc
    exact hc ▸ rfl

/-- On a declaration the loop comes to the same as flattening the words one by one. -/
theorem loop_text (ctx : Context) (enter : Enter) (depth : Nat) (done : Declaration)
    {todo : Declaration} (hwords : ∀ w ∈ todo, IsWord w) (run : Run) {n : Nat}
    (hn : todo.length < n) :
    loop ctx enter depth n
        ⟨Declaration.text (done.reverse ++ todo), (Declaration.text done.reverse).length⟩ run =
      some (flattenWords ctx enter depth done todo run) := by
  induction todo generalizing done run n with
  | nil =>
    obtain ⟨n, rfl⟩ : ∃ m, n = m + 1 := ⟨n - 1, by simp at hn; omega⟩
    have hnone : token? ⟨Declaration.text (done.reverse ++ []),
        (Declaration.text done.reverse).length⟩ = none := by
      simp [token?]
    rw [loop, step, hnone, flattenWords, List.append_nil]
  | cons word rest ih =>
    obtain ⟨n, rfl⟩ : ∃ m, n = m + 1 := ⟨n - 1, by simp at hn; omega⟩
    rw [List.length_cons, Nat.add_lt_add_iff_right] at hn
    have hword := hwords word List.mem_cons_self
    have hrest : ∀ w ∈ rest, IsWord w := fun w hw => hwords w (List.mem_cons_of_mem _ hw)
    obtain ⟨gap, hgap, htext⟩ := exists_gap done.reverse
    -- Whatever takes the place of the word, the cursor stands behind it in the text of the result.
    have hreplace : ∀ new : List Char,
        replace ⟨Declaration.text (done.reverse ++ word :: rest),
          (Declaration.text done.reverse).length⟩
          ((Declaration.text done.reverse).length + gap.length) word new =
        ⟨Declaration.text ((new :: done).reverse ++ rest),
          (Declaration.text (new :: done).reverse).length⟩ := by
      intro new
      have hnew := htext new []
      rw [spaced_nil, List.append_nil] at hnew
      rw [htext, replace_append, List.reverse_cons, List.append_assoc, List.singleton_append,
        htext, hnew]
    have hremainder : (Declaration.text (done.reverse ++ word :: rest)).drop
        ((Declaration.text done.reverse).length + gap.length + word.length) = spaced rest := by
      rw [htext, ← List.append_assoc, ← List.append_assoc,
        List.drop_left' (by simp [Nat.add_assoc])]
    have hback : ∀ c, (spaced rest).head? = some c → isSpace c = true := fun _ =>
      isSpace_of_head?_spaced
    have htoken := token?_append (Declaration.text done.reverse) hgap hword hback
    rw [← htext] at htoken
    rw [loop, step, htoken]
    simp only [hremainder, words_spaced hrest, trim_spaced hrest, hreplace]
    rw [flattenWords, flattenWord]
    -- Both ways read the same words now, so they come to the same verdict.
    cases verdict ctx depth word rest run.visited with
    | settle text issue => exact ih (text :: done) hrest _ hn
    | enter =>
      dsimp only
      rcases enter (symbolOf word rest) (declaratorOf (Declaration.text rest)) (depth + 1) run with
        ⟨entered, mid⟩
      cases entered with
      | block b => rfl
      | leaf leaf cause => exact ih ((leaf ++ starsOf word) :: done) hrest mid hn

/-- A declaration has no more words than characters. -/
theorem length_le_length_text {d : Declaration} (h : ∀ w ∈ d, IsWord w) :
    d.length ≤ (Declaration.text d).length := by
  have hspaced : ∀ ws : Declaration, ws.length ≤ (spaced ws).length := by
    intro ws
    induction ws with
    | nil => simp
    | cons w ws ih =>
      simp only [spaced_cons, List.length_cons, List.length_append]
      omega
  cases d with
  | nil => simp
  | cons w ws =>
    have hw := List.length_pos_iff.2 (h w List.mem_cons_self).ne_nil
    have hws := hspaced ws
    rw [Declaration.text, joinWords_cons, List.length_cons, List.length_append]
    omega

/-- A declaration of a body is flattened in place in no more steps than it has characters and
one. -/
theorem loop_of_mem_all (ctx : Context) (enter : Enter) (depth : Nat) {body : List Char}
    {d : Declaration} (hd : d ∈ Declaration.all body) (run : Run) :
    loop ctx enter depth ((Declaration.text d).length + 1) ⟨Declaration.text d, 0⟩ run =
      some (flattenWords ctx enter depth [] d run) := by
  have hwords : ∀ w ∈ d, IsWord w := fun w hw => Declaration.isWord_of_mem_all hd hw
  have hlength := length_le_length_text hwords
  have hloop := loop_text ctx enter depth [] hwords run
    (n := (Declaration.text d).length + 1) (by omega)
  simpa [Declaration.text] using hloop

end Cursor

end Expansion

end StructUnfold
