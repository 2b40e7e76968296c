import StructUnfold.Proofs.Source.Cursor

/-!
# Searching a window

Below a ceiling the cursor has a window of the bytes. Up to the end of the window it goes where it
would go without one: a comment whose marks both lie in the window is passed over all the same, and
of a comment that does not end in the window nothing is left to be found. So it finds what is found
in the characters of the whole text, or it comes to the end of the window.

* `Block.Cursor.PassesAlike`: what the end of the window does to a comment.
* `Block.Cursor.find_append_eq_ok_iff`: a window does not lead the search astray.
* `Block.Cursor.FindsIn`, `Block.Cursor.findsIn_drop`: what the search in a window comes to.
-/

namespace StructUnfold.Block.Cursor

open Text

section

variable {σ : Type} {skipComments : Bool} {next : σ → UInt8 → Option σ} {state : σ}
  {pos place : Nat} {b : UInt8} {rest window more : List UInt8}

/-- What is found lies in the window. -/
theorem le_of_find (h : find skipComments next state pos window = .ok place) :
    pos ≤ place ∧ place < pos + window.length := by
  fun_induction find skipComments next state pos window with
  | case1 => cases h
  | case2 state pos b rest place behind hpass ih =>
    obtain ⟨hlower, hupper⟩ := ih h
    obtain ⟨hlength, hle⟩ := add_length_of_pass hpass
    omega
  | case3 => cases h
  | case4 state pos b rest hpass hnext =>
    obtain rfl := Except.ok.inj h
    rw [List.length_cons]
    omega
  | case5 state pos b rest hpass state' hnext ih =>
    obtain ⟨hlower, hupper⟩ := ih h
    rw [List.length_cons]
    omega

/-- The mark behind a block comment that lies in the window is found without one. -/
theorem passBlock_append {pos : Nat} (h : passBlock pos window = some (place, rest))
    (more : List UInt8) : passBlock pos (window ++ more) = some (place, rest ++ more) := by
  fun_induction passBlock pos window with
  | case1 pos a b window hmark =>
    obtain ⟨rfl, rfl⟩ := Prod.mk.inj (Option.some.inj h)
    rw [List.cons_append, List.cons_append, passBlock, if_pos hmark]
  | case2 pos a b window hmark ih =>
    rw [List.cons_append, List.cons_append, passBlock, if_neg hmark]
    exact ih h
  | case3 => cases h

/-- One that does not lie in the window is not found before its end. -/
theorem le_of_passBlock_append {pos : Nat} (h : passBlock pos window = none)
    (hmore : passBlock pos (window ++ more) = some (place, rest)) :
    pos + window.length ≤ place := by
  fun_induction passBlock pos window with
  | case1 => cases h
  | case2 pos a b window hmark ih =>
    rw [List.cons_append, List.cons_append, passBlock, if_neg hmark] at hmore
    have hle := ih h hmore
    simp only [List.length_cons] at hle ⊢
    omega
  | case3 window pos hshort =>
    -- The window holds one byte at most, and a mark has two.
    have hle := (add_length_of_passBlock hmore).2
    have hlength : window.length ≤ 1 := by
      rcases window with _ | ⟨a, _ | ⟨b, tail⟩⟩
      · exact Nat.zero_le _
      · exact Nat.le_refl _
      · exact absurd rfl (hshort a b tail)
    omega

/-- What becomes of the cursor where it looks for a comment is the same without the window, or the
window cuts its way off and nothing in it is found any more. -/
inductive PassesAlike (window : List UInt8) (pos : Nat) (more : List UInt8) :
    Passing → Passing → Prop where
  /-- No comment begins. -/
  | none : PassesAlike window pos more .none .none
  /-- A comment lies in the window. -/
  | past (place : Nat) (rest : List UInt8) :
      PassesAlike window pos more (.past place rest) (.past place (rest ++ more))
  /-- A comment begins in the window and does not end in it. -/
  | cut {short long : Passing}
      (hshort : short = .unclosed ∨ (∃ place, short = .past place []) ∨
        short = .none ∧ window = [byte '/'])
      (hlong : long = .unclosed ∨ ∃ place rest, long = .past place rest ∧
        pos + window.length ≤ place) : PassesAlike window pos more short long

/-- A line comment that does not end in the window is not passed over before the end of it. -/
theorem passesAlike_line (pos : Nat) (tail more : List UInt8) :
    PassesAlike (byte '/' :: byte '/' :: tail) pos more
      (passComment pos (byte '/' :: byte '/' :: tail))
      (passComment pos (byte '/' :: byte '/' :: (tail ++ more))) := by
  rw [passComment, if_pos rfl, if_pos rfl, passComment, if_pos rfl, if_pos rfl]
  by_cases hend : tail.dropWhile (· != byte '\n') = []
  · have hline : tail.takeWhile (· != byte '\n') = tail := by
      have hparts := List.takeWhile_append_dropWhile (p := (· != byte '\n')) (l := tail)
      rwa [hend, List.append_nil] at hparts
    rw [hend, List.takeWhile_append, if_pos (by rw [hline]), hline]
    refine .cut (.inr (.inl ⟨_, rfl⟩)) (.inr ⟨_, _, rfl, ?_⟩)
    simp only [List.length_cons, List.length_append]
    omega
  · have hparts := congrArg List.length
      (List.takeWhile_append_dropWhile (p := (· != byte '\n')) (l := tail))
    have hpos := List.length_pos_iff.2 hend
    rw [List.length_append] at hparts
    rw [List.takeWhile_append, if_neg (by omega), List.dropWhile_append,
      if_neg (by simpa using hend)]
    exact .past _ _

theorem passesAlike (skipComments : Bool) (pos : Nat) (b : UInt8) (rest more : List UInt8) :
    PassesAlike (b :: rest) pos more (pass skipComments pos (b :: rest))
      (pass skipComments pos (b :: (rest ++ more))) := by
  by_cases hb : b = byte '/'
  · cases skipComments with
    | false => exact .none
    | true =>
      subst hb
      show PassesAlike _ _ _ (passComment pos _) (passComment pos _)
      cases rest with
      | nil =>
        -- The second byte of the opening mark lies behind the window.
        cases hlong : passComment pos (byte '/' :: ([] ++ more)) with
        | none => exact .none
        | unclosed => exact .cut (.inr (.inr ⟨rfl, rfl⟩)) (.inl rfl)
        | past place behind =>
          have hle := (@add_length_of_pass true _ _ _ _ hlong).2
          refine .cut (.inr (.inr ⟨rfl, rfl⟩)) (.inr ⟨place, behind, rfl, ?_⟩)
          rw [List.length_singleton]
          omega
      | cons d tail =>
        by_cases hline : d = byte '/'
        · subst hline
          exact passesAlike_line pos tail more
        · rw [List.cons_append, passComment, if_pos rfl, if_neg hline, passComment, if_pos rfl,
            if_neg hline]
          by_cases hstar : d = byte '*'
          · rw [if_pos hstar, if_pos hstar]
            cases hblock : passBlock (pos + 2) tail with
            | some found =>
              rw [passBlock_append hblock more]
              exact .past _ _
            | none =>
              cases hmore : passBlock (pos + 2) (tail ++ more) with
              | none => exact .cut (.inl rfl) (.inl rfl)
              | some found =>
                have hle := le_of_passBlock_append hblock hmore
                refine .cut (.inl rfl) (.inr ⟨found.1, found.2, rfl, ?_⟩)
                simp only [List.length_cons]
                omega
          · rw [if_neg hstar, if_neg hstar]
            exact .none
  · rw [pass_eq_none fun heq => absurd heq hb, pass_eq_none fun heq => absurd heq hb]
    exact .none

/-- Up to the end of a window the search goes as it would go without one. -/
theorem find_append_eq_ok_iff (hslash : ∀ state, next state (byte '/') = some state)
    (window more : List UInt8) (state : σ) (pos place : Nat) :
    find skipComments next state pos window = .ok place ↔
      find skipComments next state pos (window ++ more) = .ok place ∧
        place < pos + window.length := by
  -- By induction on the length of the window, as a comment is passed over as a whole.
  induction hn : window.length using Nat.strongRecOn generalizing window state pos with
  | ind n ih =>
    subst hn
    cases window with
    | nil =>
      rw [find_nil]
      constructor
      · nofun
      · rintro ⟨hfound, hlt⟩
        have hle := (le_of_find hfound).1
        exact absurd hlt (Nat.not_lt_of_le hle)
    | cons b rest =>
      have halike := passesAlike skipComments pos b rest more
      rw [List.cons_append]
      generalize hshort : pass skipComments pos (b :: rest) = short at halike
      generalize hlong : pass skipComments pos (b :: (rest ++ more)) = long at halike
      cases halike with
      | none =>
        rw [find_of_none hshort, find_of_none hlong]
        cases next state b with
        | none =>
          refine ⟨fun h => ⟨h, ?_⟩, And.left⟩
          obtain rfl := Except.ok.inj h
          exact Nat.lt_add_of_pos_right (Nat.succ_pos _)
        | some state' =>
          have hrest := ih rest.length (Nat.lt_succ_self _) rest state' (pos + 1) rfl
          rwa [Nat.add_assoc, Nat.add_comm 1] at hrest
      | past behind tail =>
        have hrest := ih tail.length (length_lt_of_pass hshort) tail state behind rfl
        rw [find_of_past hshort, find_of_past hlong]
        rwa [(add_length_of_pass hshort).1] at hrest
      -- The window ends within a comment, and in the whole text the comment ends behind it.
      | cut hcut hfar =>
        refine iff_of_false (fun h => ?_) fun ⟨h, hlt⟩ => ?_
        · rcases hcut with rfl | ⟨behind, rfl⟩ | ⟨rfl, hone⟩
          · rw [find_of_unclosed hshort] at h
            cases h
          · rw [find_of_past hshort, find_nil] at h
            cases h
          · obtain ⟨rfl, rfl⟩ := List.cons_eq_cons.1 hone
            rw [find_of_none hshort, hslash] at h
            dsimp only at h
            rw [find_nil] at h
            cases h
        · rcases hfar with rfl | ⟨behind, tail, rfl, hle⟩
          · rw [find_of_unclosed hlong] at h
            cases h
          · rw [find_of_past hlong] at h
            exact Nat.not_lt_of_le (Nat.le_trans hle (le_of_find h).1) hlt

end

section

variable {σ : Type} {next : σ → Char → Option σ} {nextByte : σ → UInt8 → Option σ}

/-- What the search in a window of the bytes of a text comes to. -/
inductive FindsIn (found : Except (Option Nat) (Nat × List Char)) (stop : Nat) (cut : Prop) :
    Except (Option Nat) Nat → Prop where
  /-- It finds what is found in the characters, if that lies before the end of the window. -/
  | found {place : Nat} {rest : List Char} (h : found = .ok (place, rest)) (hlt : place < stop) :
      FindsIn found stop cut (.ok place)
  /-- It finds nothing if it lies behind. -/
  | missed {place : Nat} {rest : List Char} {e : Option Nat} (h : found = .ok (place, rest))
      (hle : stop ≤ place) (hcut : cut) : FindsIn found stop cut (.error e)
  /-- It finds nothing if there is nothing, and breaks off in the same way if it reads it all. -/
  | absent {e e' : Option Nat} (h : found = .error e) (he : cut ∨ e' = e) :
      FindsIn found stop cut (.error e')

theorem findsIn_take (hreads : Reads next nextByte) (skipComments : Bool) (state : σ)
    (pos opened n : Nat) (cs : List Char) :
    FindsIn (seek skipComments next .code opened state pos cs) (pos + n) (n < byteSize cs)
      (find skipComments nextByte state pos ((encode cs).take n)) := by
  -- A slash alone changes no state, so it makes no difference where it ends the window.
  have hslash : ∀ state, nextByte state (byte '/') = some state := fun state => by
    rw [hreads.ascii state '/' rfl, hreads.passive state '/' (.inl rfl)]
  have hwhole := find_encode hreads skipComments state pos opened cs
  have hlength := length_encode cs
  by_cases hcut : n < byteSize cs
  · have hiff : ∀ place, find skipComments nextByte state pos ((encode cs).take n) = .ok place ↔
        find skipComments nextByte state pos (encode cs) = .ok place ∧ place < pos + n := by
      intro place
      rw [find_append_eq_ok_iff hslash _ ((encode cs).drop n), List.take_append_drop,
        List.length_take_of_le (by omega)]
    cases hseek : seek skipComments next .code opened state pos cs with
    | error e =>
      rw [hwhole, hseek] at hiff
      cases hfind : find skipComments nextByte state pos ((encode cs).take n) with
      | ok place => cases ((hiff place).1 hfind).1
      | error e' => exact .absent rfl (.inl hcut)
    | ok result =>
      rw [hwhole, hseek] at hiff
      by_cases hlt : result.1 < pos + n
      · rw [(hiff result.1).2 ⟨rfl, hlt⟩]
        exact .found rfl hlt
      · cases hfind : find skipComments nextByte state pos ((encode cs).take n) with
        | ok place =>
          obtain ⟨hok, hplace⟩ := (hiff place).1 hfind
          obtain rfl := Except.ok.inj hok
          exact absurd hplace hlt
        | error e' => exact .missed rfl (Nat.le_of_not_lt hlt) hcut
  · rw [List.take_of_length_le (by omega)]
    cases hseek : seek skipComments next .code opened state pos cs with
    | error e =>
      rw [hwhole, hseek]
      exact .absent rfl (.inr rfl)
    | ok result =>
      have hlt : result.1 < pos + n := by
        have hbound := (le_of_find (hwhole.trans (by rw [hseek]; rfl))).2
        omega
      rw [hwhole, hseek]
      exact .found rfl hlt

/-- The same for the window that the ceiling leaves of a text from `start` on, once the cursor is
behind `before`. The window may have come to its end there already. -/
theorem findsIn_drop (hreads : Reads next nextByte) (skipComments : Bool) (state : σ)
    (start opened maxScan : Nat) (before cs : List Char) :
    FindsIn (seek skipComments next .code opened state (start + byteSize before) cs)
      (start + maxScan) (maxScan < byteSize (before ++ cs))
      (find skipComments nextByte state (start + byteSize before)
        (((encode (before ++ cs)).take maxScan).drop (byteSize before))) := by
  rw [List.drop_take, encode_append, List.drop_left' (length_encode before), byteSize_append]
  by_cases hle : byteSize before ≤ maxScan
  · have hstop : start + byteSize before + (maxScan - byteSize before) = start + maxScan := by omega
    have hcut : maxScan - byteSize before < byteSize cs ↔
        maxScan < byteSize before + byteSize cs := by
      omega
    have hfinds := findsIn_take hreads skipComments state (start + byteSize before) opened
      (maxScan - byteSize before) cs
    rwa [hstop, hcut] at hfinds
  · have hcut : maxScan < byteSize before + byteSize cs := by omega
    rw [Nat.sub_eq_zero_of_le (by omega), List.take_zero, find_nil]
    cases hseek : seek skipComments next .code opened state (start + byteSize before) cs with
    | error e => exact .absent rfl (.inl hcut)
    | ok result =>
      obtain ⟨place, behind⟩ := result
      obtain ⟨front, c, -, hplace, -⟩ := exists_of_seek hseek
      exact .missed rfl (by omega) hcut

end

end StructUnfold.Block.Cursor
