import StructUnfold.Proofs.Comment.Blocks
import StructUnfold.Proofs.Comment.SameCode
import StructUnfold.Proofs.Comment.Search
import StructUnfold.Proofs.Comment.Strip

/-!
# Parts of texts that hold the same code

Parts of two texts are alike if they are the same once what their comments say is erased. Where one
of them begins with code, the other one begins with the same code; a search that passes over comments
comes to the same place in both; and what is left when their comments are taken away is the same.

## Main definitions

* `Alike`: characters with their kinds that are the same once they are erased.

## Main results

* `SameCode.alike`: what follows the same offset in texts that hold the same code is alike.
* `Alike.exists_spaces`: the same white space stands before parts that are alike.
* `Alike.seek`: a search comes to the same place.
* `Alike.strip_eq`: taking the comments away leaves the same.
* `Alike.start_eq`: what is left open begins at the same place.
-/

namespace StructUnfold.Comment

open Text Block

/-- Characters with their kinds that are the same once what their comments say is erased. -/
def Alike (m n : List (Char × Kind)) : Prop :=
  m.flatMap blot = n.flatMap blot

namespace Alike

variable {m n u v : List (Char × Kind)}

theorem symm (h : Alike m n) : Alike n m :=
  Eq.symm h

/-- Erasing keeps the number of bytes. -/
theorem byteSize_eq (h : Alike m n) : byteSize (m.map Prod.fst) = byteSize (n.map Prod.fst) := by
  rw [← byteSize_map_flatMap_blot m, ← byteSize_map_flatMap_blot n, h]

/-- What stands in the place of a character that is no code is no code. -/
theorem ne_of_blot {x : Char × Kind} (hx : x.2 ≠ .code) (c : Char) (l k : List (Char × Kind)) :
    blot x ++ l ≠ (c, .code) :: k := by
  intro heq
  cases hblot : blot x with
  | nil =>
    -- At least one byte is erased.
    have hsize := byteSize_blot x
    have hpos := x.1.utf8Size_pos
    rw [hblot, List.map_nil, byteSize_cons, byteSize_nil] at hsize
    omega
  | cons y r =>
    rw [hblot, List.cons_append] at heq
    have hy := (eq_star_or_eq_feed hx (hblot ▸ List.mem_cons_self)).1
    rw [(List.cons_eq_cons.1 heq).1] at hy
    exact hx hy.symm

/-- Code stands at the same place in both. -/
theorem exists_cons {c : Char} (h : Alike ((c, .code) :: m) n) :
    ∃ n', n = (c, .code) :: n' ∧ Alike m n' := by
  -- Code is not erased, so it is what the other part begins with once it is erased.
  rw [Alike, List.flatMap_cons, blot_code, List.singleton_append] at h
  cases n with
  | nil => cases h
  | cons x n =>
    obtain ⟨d, k⟩ := x
    by_cases hk : k = .code
    · subst hk
      rw [List.flatMap_cons, blot_code, List.singleton_append] at h
      obtain ⟨hc, hn⟩ := List.cons_eq_cons.1 h
      exact ⟨n, by rw [hc], hn⟩
    · exact absurd h.symm (ne_of_blot hk c _ _)

/-- Parts of the same size at the beginning are alike. -/
theorem of_append (h : Alike (u ++ m) (v ++ n))
    (hsize : byteSize (u.map Prod.fst) = byteSize (v.map Prod.fst)) : Alike u v := by
  have hnil : ∀ {a b z : List (Char × Kind)}, a.flatMap blot = b.flatMap blot ++ z →
      byteSize (a.map Prod.fst) = byteSize (b.map Prod.fst) → z = [] := by
    intro a b z heq hab
    rw [← byteSize_map_flatMap_blot a, heq, List.map_append, byteSize_append,
      byteSize_map_flatMap_blot] at hab
    have hz : byteSize (z.map Prod.fst) = 0 := by omega
    exact List.map_eq_nil_iff.1 (byteSize_eq_zero_iff.1 hz)
  -- The erased beginnings have one size as well, so neither of them goes beyond the other.
  rw [Alike, List.flatMap_append, List.flatMap_append] at h
  rcases List.append_eq_append_iff.1 h with ⟨z, hz, -⟩ | ⟨z, hz, -⟩
  · rw [hnil hz hsize.symm, List.append_nil] at hz
    exact hz.symm
  · rw [hnil hz hsize, List.append_nil] at hz
    exact hz

end Alike

/-- What stands behind the same offset in texts that hold the same code is alike. -/
theorem SameCode.alike {s t : List Char} (h : SameCode s t) {front front' m n : List (Char × Kind)}
    (hs : kinds s = front ++ m) (ht : kinds t = front' ++ n)
    (hsize : byteSize (front.map Prod.fst) = byteSize (front'.map Prod.fst)) : Alike m n := by
  have hrest : byteSize (m.map Prod.fst) = byteSize (n.map Prod.fst) := by
    have hall := h.size
    rw [← map_fst_kinds s, ← map_fst_kinds t, hs, ht, List.map_append, List.map_append,
      byteSize_append, byteSize_append, hsize] at hall
    exact Nat.add_left_cancel hall
  rw [Alike, flatMap_blot_eq_filterMap hs, flatMap_blot_eq_filterMap ht, hsize, hrest]
  exact List.filterMap_congr fun offset _ => h.blotAt_eq offset

/-! ### White space -/

/-- Behind a first character of code the rest is read like a text of its own. -/
theorem eq_kinds_of_cons_code {c : Char} {m : List (Char × Kind)}
    (h : (c, .code) :: m = kinds (c :: m.map Prod.fst)) : m = kinds (m.map Prod.fst) := by
  have hfront : kinds (c :: m.map Prod.fst) = [] ++ (c, .code) :: m := h.symm
  exact eq_kinds_of_code hfront

/-- What is read outside comments and no slash is code. -/
theorem code_of_ne_slash {c : Char} {k : Kind} {m : List (Char × Kind)}
    (h : (c, k) :: m = kinds (c :: m.map Prod.fst)) (hc : c ≠ '/') : k = .code := by
  rw [kinds, kindsFrom, step_of_ne_slash hc] at h
  exact (Prod.mk.inj (List.cons_eq_cons.1 h).1).2

/-- White space that is read outside comments is code. -/
theorem code_of_isAsciiSpace {c : Char} {k : Kind} {m : List (Char × Kind)}
    (h : (c, k) :: m = kinds (c :: m.map Prod.fst)) (hc : isAsciiSpace c = true) : k = .code := by
  refine code_of_ne_slash h ?_
  rintro rfl
  exact absurd hc (by decide)

/-- A brace that stands before one of two parts that are alike stands before the other one. -/
theorem Alike.exists_brace {m n : List (Char × Kind)} (h : Alike m n)
    (hm : m = kinds (m.map Prod.fst)) (hbrace : (m.map Prod.fst).head? = some '{') :
    ∃ m' n', m = ('{', .code) :: m' ∧ n = ('{', .code) :: n' ∧ Alike m' n' := by
  cases m with
  | nil => cases hbrace
  | cons x m =>
    obtain ⟨c, k⟩ := x
    obtain rfl : c = '{' := Option.some.inj hbrace
    obtain rfl := code_of_ne_slash hm (by decide)
    obtain ⟨n', rfl, hrest⟩ := h.exists_cons
    exact ⟨m, n', rfl, rfl, hrest⟩

/-- Before parts that are alike and begin outside comments the same white space stands, and it is
code. -/
theorem Alike.exists_spaces {m n : List (Char × Kind)} (h : Alike m n)
    (hm : m = kinds (m.map Prod.fst)) (hn : n = kinds (n.map Prod.fst)) :
    ∃ spaces m' n', m = spaces ++ m' ∧ n = spaces ++ n' ∧ Alike m' n' ∧
      m' = kinds (m'.map Prod.fst) ∧ n' = kinds (n'.map Prod.fst) ∧
      (∀ x ∈ spaces, isAsciiSpace x.1 = true) ∧
      (∀ x, m'.head? = some x → isAsciiSpace x.1 = false) ∧
      ∀ x, n'.head? = some x → isAsciiSpace x.1 = false := by
  induction m generalizing n with
  | nil =>
    have hnil : n = [] := by
      have hsize := h.byteSize_eq
      rw [List.map_nil, byteSize_nil] at hsize
      exact List.map_eq_nil_iff.1 (byteSize_eq_zero_iff.1 hsize.symm)
    subst hnil
    exact ⟨[], [], [], rfl, rfl, h, hm, hn, nofun, nofun, nofun⟩
  | cons x m ih =>
    obtain ⟨c, k⟩ := x
    by_cases hc : isAsciiSpace c = true
    · -- White space is code, so the other part begins with it too.
      obtain rfl := code_of_isAsciiSpace hm hc
      obtain ⟨n, rfl, hrest⟩ := h.exists_cons
      obtain ⟨spaces, m', n', rfl, rfl, halike, hm', hn', hall, hhead, hhead'⟩ :=
        ih hrest (eq_kinds_of_cons_code hm) (eq_kinds_of_cons_code hn)
      exact ⟨(c, .code) :: spaces, m', n', rfl, rfl, halike, hm', hn',
        List.forall_mem_cons.2 ⟨hc, hall⟩, hhead, hhead'⟩
    · refine ⟨[], _, n, rfl, rfl, h, hm, hn, nofun, ?_, ?_⟩
      · rintro _ ⟨⟩
        exact Bool.eq_false_iff.2 hc
      · -- White space before the other part would be code, and stand before this one as well.
        intro y hy
        obtain ⟨n, rfl⟩ := List.head?_eq_some_iff.1 hy
        obtain ⟨d, l⟩ := y
        refine Bool.eq_false_iff.2 fun hd => hc ?_
        obtain rfl := code_of_isAsciiSpace hn hd
        obtain ⟨m', heq, -⟩ := h.symm.exists_cons
        rw [(Prod.mk.inj (List.cons_eq_cons.1 heq).1).1]
        exact hd

/-- White space is cut off in front of what does not begin with any. -/
theorem cut_spaces {spaces m : List (Char × Kind)} (hall : ∀ x ∈ spaces, isAsciiSpace x.1 = true)
    (hhead : ∀ x, m.head? = some x → isAsciiSpace x.1 = false) :
    ((spaces ++ m).map Prod.fst).takeWhile isAsciiSpace = spaces.map Prod.fst ∧
      ((spaces ++ m).map Prod.fst).dropWhile isAsciiSpace = m.map Prod.fst := by
  have hspaces : ∀ c ∈ spaces.map Prod.fst, isAsciiSpace c = true := by
    intro c hc
    obtain ⟨x, hx, rfl⟩ := List.mem_map.1 hc
    exact hall x hx
  rw [List.map_append, List.takeWhile_append_of_pos hspaces, List.dropWhile_append_of_pos hspaces]
  cases m with
  | nil => exact ⟨List.append_nil _, rfl⟩
  | cons x m =>
    have hx : ¬isAsciiSpace x.1 = true := Bool.eq_false_iff.1 (hhead x rfl)
    rw [List.map_cons, List.takeWhile_cons_of_neg hx, List.dropWhile_cons_of_neg hx]
    exact ⟨List.append_nil _, rfl⟩

/-- The same white space stands before parts that are alike and begin outside comments. -/
theorem Alike.takeWhile_eq {m n : List (Char × Kind)} (h : Alike m n)
    (hm : m = kinds (m.map Prod.fst)) (hn : n = kinds (n.map Prod.fst)) :
    (m.map Prod.fst).takeWhile isAsciiSpace = (n.map Prod.fst).takeWhile isAsciiSpace := by
  obtain ⟨spaces, m', n', rfl, rfl, -, -, -, hall, hhead, hhead'⟩ := h.exists_spaces hm hn
  rw [(cut_spaces hall hhead).1, (cut_spaces hall hhead').1]

/-! ### Taking comments away -/

/-- The openings of comments are slashes. -/
def OpensBySlash (m : List (Char × Kind)) : Prop :=
  ∀ x ∈ m, x.2 = .opening → x.1 = '/'

theorem opensBySlash_kinds (text : List Char) : OpensBySlash (kinds text) := by
  intro x hx hopening
  obtain ⟨front, back, hkinds⟩ := List.append_of_mem hx
  obtain ⟨c, k⟩ := x
  obtain rfl : k = .opening := hopening
  exact (exists_of_opening hkinds).1

/-- Erasing what a comment says changes nothing when the comment is taken away. -/
theorem flatMap_space_blot {x : Char × Kind} (hx : x.2 = .opening → x.1 = '/') :
    (blot x).flatMap space = space x := by
  obtain ⟨c, k⟩ := x
  cases k with
  | code => rw [blot_code, List.flatMap_singleton]
  | opening =>
    obtain rfl : c = '/' := hx rfl
    rfl
  | inside =>
    -- The stars that a character is replaced by stand inside the comment as well.
    refine List.flatMap_eq_nil_iff.2 fun y hy => ?_
    have hinside := (eq_star_or_eq_feed (c := (c, .inside)) nofun hy).1
    rw [space, hinside]

/-- The same is left of parts that are alike when their comments are taken away. -/
theorem Alike.flatMap_space_eq {m n : List (Char × Kind)} (h : Alike m n) (hm : OpensBySlash m)
    (hn : OpensBySlash n) : m.flatMap space = n.flatMap space := by
  -- Erasing what comments say and then taking them away is taking them away at once.
  have herased : ∀ {l : List (Char × Kind)}, OpensBySlash l →
      (l.flatMap blot).flatMap space = l.flatMap space := by
    intro l hl
    rw [List.flatMap_assoc]
    exact List.flatMap_congr fun x hx => flatMap_space_blot (hl x hx)
  rw [← herased hm, ← herased hn, h]

/-- Behind white space the same is left when comments are taken away. -/
theorem Alike.strip_eq {m n : List (Char × Kind)} (h : Alike m n)
    (hm : m = kinds (m.map Prod.fst)) (hn : n = kinds (n.map Prod.fst)) :
    strip ((m.map Prod.fst).dropWhile isAsciiSpace) =
      strip ((n.map Prod.fst).dropWhile isAsciiSpace) := by
  obtain ⟨spaces, m', n', rfl, rfl, halike, hm', hn', hall, hhead, hhead'⟩ := h.exists_spaces hm hn
  rw [(cut_spaces hall hhead).2, (cut_spaces hall hhead').2, strip_eq_flatMap_space,
    strip_eq_flatMap_space, ← hm', ← hn']
  refine halike.flatMap_space_eq ?_ ?_
  · rw [hm']
    exact opensBySlash_kinds _
  · rw [hn']
    exact opensBySlash_kinds _

/-! ### Searches -/

/-- A search that stars and line feeds do not change comes to the same character in parts that are
alike, or to none in either. -/
theorem Alike.seek {σ : Type} {next : σ → Char → Option σ} {m n : List (Char × Kind)}
    (h : Alike m n) (hm : m = kinds (m.map Prod.fst)) (hn : n = kinds (n.map Prod.fst))
    (hstar : ∀ state, next state '*' = some state) (hfeed : ∀ state, next state '\n' = some state)
    (state : σ) (pos : Nat) :
    (∃ u c u' v d v', m = u ++ (c, .code) :: u' ∧ n = v ++ (d, .code) :: v' ∧ Alike u v ∧
      (∃ last, next last c = none) ∧ (∃ last, next last d = none) ∧
      seek true next .code 0 state pos (m.map Prod.fst) =
        .ok (pos + byteSize (u.map Prod.fst), u'.map Prod.fst) ∧
      seek true next .code 0 state pos (n.map Prod.fst) =
        .ok (pos + byteSize (u.map Prod.fst), v'.map Prod.fst)) ∨
    ∃ e e', seek true next .code 0 state pos (m.map Prod.fst) = .error e ∧
      seek true next .code 0 state pos (n.map Prod.fst) = .error e' := by
  have hend := seek_erasedFrom hstar hfeed .code 0 0 state pos (m.map Prod.fst)
  have hend' := seek_erasedFrom hstar hfeed .code 0 0 state pos (n.map Prod.fst)
  rw [← kinds, ← hm, erasedFrom_eq hm] at hend
  rw [← kinds, ← hn, erasedFrom_eq hn, ← h] at hend'
  -- Both searches are compared with the one search in the erased text.
  rcases hend with ⟨u, c, u', hu, hlast, hfound, herased⟩ | ⟨e, e', hfound, herased⟩
  · rcases hend' with ⟨v, d, v', hv, hlast', hfound', herased'⟩ | ⟨e, e', hfound', herased'⟩
    · -- The erased texts are one, so both searches go equally far.
      obtain ⟨hpos, -⟩ := Prod.mk.inj (Except.ok.inj (herased.symm.trans herased'))
      have hsize : byteSize (u.map Prod.fst) = byteSize (v.map Prod.fst) := by omega
      have halike : Alike u v := by
        rw [hu, hv] at h
        exact h.of_append hsize
      rw [← hsize] at hfound'
      exact .inl ⟨u, c, u', v, d, v', hu, hv, halike, hlast, hlast', hfound, hfound'⟩
    · rw [herased] at herased'
      cases herased'
  · rcases hend' with ⟨v, d, v', hv, -, hfound', herased'⟩ | ⟨f, f', hfound', herased'⟩
    · rw [herased] at herased'
      cases herased'
    · exact .inr ⟨e, f, hfound, hfound'⟩

/-- A comment that is left open is the last one that begins. -/
theorem exists_blotted_of_opensBlock {m : List (Char × Kind)} (hm : m = kinds (m.map Prod.fst))
    {pos start : Nat} (h : OpensBlock m pos start) :
    ∃ before behind, m.flatMap blot = before ++ ('*', .opening) :: behind ∧
      ('*', .opening) ∉ behind ∧ start = pos + byteSize (before.map Prod.fst) := by
  obtain ⟨front, rest, hparts, hopen, rfl⟩ := h
  have hkinds := hm.symm.trans hparts
  refine ⟨front.flatMap blot, (('*', .inside) :: rest).flatMap blot, ?_, ?_, ?_⟩
  · rw [hparts, List.flatMap_append, List.flatMap_cons]
    rfl
  · -- All that follows stands inside the comment, and what it is replaced by does so too.
    intro hmem
    obtain ⟨x, hx, hblot⟩ := List.mem_flatMap.1 hmem
    have hinside : x.2 = .inside := by
      rcases List.mem_cons.1 hx with rfl | hx
      · rfl
      · exact inside_of_opensBlock hkinds hopen x hx
    have hkind := (eq_star_or_eq_feed (hinside ▸ nofun) hblot).1
    rw [hinside] at hkind
    cases hkind
  · rw [byteSize_map_flatMap_blot]

/-- Comments that are left open behind the same offset in parts that are alike begin at the same
place. -/
theorem Alike.start_eq {m n : List (Char × Kind)} (h : Alike m n) (hm : m = kinds (m.map Prod.fst))
    (hn : n = kinds (n.map Prod.fst)) {pos start start' : Nat} (hstart : OpensBlock m pos start)
    (hstart' : OpensBlock n pos start') : start = start' := by
  obtain ⟨before, behind, heq, hlast, rfl⟩ := exists_blotted_of_opensBlock hm hstart
  obtain ⟨before', behind', heq', hlast', rfl⟩ := exists_blotted_of_opensBlock hn hstart'
  -- Were one of them to begin before the other one, it would not be the last.
  rw [Alike, heq, heq'] at h
  rcases List.append_eq_append_iff.1 h with ⟨z, rfl, hz⟩ | ⟨z, rfl, hz⟩
  · cases z with
    | nil => rw [List.append_nil]
    | cons x z =>
      rw [(List.cons_eq_cons.1 hz).2] at hlast
      exact absurd List.mem_append_cons_self hlast
  · cases z with
    | nil => rw [List.append_nil]
    | cons x z =>
      rw [(List.cons_eq_cons.1 hz).2] at hlast'
      exact absurd List.mem_append_cons_self hlast'

end StructUnfold.Comment
