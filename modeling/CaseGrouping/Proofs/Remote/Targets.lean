import CaseGrouping.Proofs.Remote.PercentCoding
import Mathlib.Data.List.TakeWhile
import Mathlib.Tactic.MkIffOfInductiveProp

/-! The target that is sent for an address in a folder. A text that stands for itself in an address
comes through as the last segment of the path, encoded, and a query after it stays a query.
-/

namespace CaseGrouping.Remote

-----------------------------------------------------------------------------------------
-- Ends
-----------------------------------------------------------------------------------------

/-- The end of an address, which is nothing or a query. -/
def IsEnd (cs : List Char) : Prop :=
  cs = [] ∨ cs.head? = some '?'

namespace IsEnd

variable {cs : List Char} {p : Char → Bool}

theorem filter (ends : IsEnd cs) (keeps : p '?') : IsEnd (cs.filter p) := by
  rcases ends with rfl | begins
  · exact .inl rfl
  · obtain ⟨rest, rfl⟩ := List.head?_eq_some_iff.mp begins
    exact .inr (by rw [List.filter_cons_of_pos keeps]; rfl)

theorem takeWhile (ends : IsEnd cs) (keeps : p '?') : IsEnd (cs.takeWhile p) := by
  rcases ends with rfl | begins
  · exact .inl rfl
  · obtain ⟨rest, rfl⟩ := List.head?_eq_some_iff.mp begins
    exact .inr (by rw [List.takeWhile_cons_of_pos keeps]; rfl)

/-- What is dropped at the other side does not matter. -/
theorem dropLast (ends : IsEnd cs) (keeps : p '?' = false)
    : IsEnd (cs.reverse.dropWhile p).reverse := by
  rcases ends with rfl | begins
  · exact .inl rfl
  · obtain ⟨rest, rfl⟩ := List.head?_eq_some_iff.mp begins
    refine .inr ?_
    rw [List.reverse_cons, List.dropWhile_append]
    split <;> simp [keeps]

end IsEnd

-----------------------------------------------------------------------------------------
-- Paths
-----------------------------------------------------------------------------------------

section Paths

variable {cs ds : List Char}

theorem segments_ne_nil (cs : List Char) : segments cs ≠ [] := by
  fun_cases segments cs <;> simp

/-- A slash separates segments, by induction on what is before it. -/
theorem segments_append (cs ds : List Char)
    : segments (cs ++ '/' :: ds) = segments cs ++ segments ds := by
  induction cs with
  | nil => rfl
  | cons c cs ih =>
      rw [List.cons_append, segments, segments, ih]
      split
      next => rfl
      next =>
        cases first : segments cs with
        | nil => exact absurd first (segments_ne_nil cs)
        | cons s more => rfl

/-- A text without separators is one segment, by induction on it. -/
theorem segments_of_single (slash : '/' ∉ cs) (backslash : '\\' ∉ cs) : segments cs = [cs] := by
  induction cs with
  | nil => rfl
  | cons c cs ih =>
      rw [List.mem_cons, not_or] at slash backslash
      have single : c ≠ '/' ∧ c ≠ '\\' := ⟨Ne.symm slash.1, Ne.symm backslash.1⟩
      rw [segments, if_neg (by simpa using single), ih slash.2 backslash.2]

/-- Dots are spelled out in a text without escapes, by induction along its reading. -/
theorem plainDots_of_not_escapes (plain : ¬Escapes cs) : plainDots cs = cs := by
  fun_induction plainDots cs with
  | case1 e rest dot ih =>
      refine absurd (escapes_cons.mpr (.inl ?_)) plain
      rcases dot with rfl | rfl <;> decide
  | case2 e rest other ih => rw [ih (mt Escapes.cons plain)]
  | case3 c rest other ih => rw [ih (mt Escapes.cons plain)]
  | case4 => rfl

/-- Segments before the last one are resolved without regard to it, by induction on them. -/
theorem resolveDots_append (before : List (List Char)) (last : List Char) (done : List (List Char))
    : resolveDots done (before ++ [last])
      = (addSegment (before.foldl (addSegment · · false) done) last true).reverse := by
  induction before generalizing done with
  | nil => rfl
  | cons s before ih =>
      have more : (before ++ [last]).isEmpty = false := by simp
      rw [List.cons_append, resolveDots, more, ih, List.foldl_cons]

theorem addSegment_of_plain {done : List (List Char)} {last : List Char} {isLast : Bool}
    (one : plainDots last ≠ ['.']) (two : plainDots last ≠ ['.', '.'])
    : addSegment done last isLast = last :: done := by
  unfold addSegment
  dsimp only
  split
  next dots => exact absurd dots one
  next dots => exact absurd dots two
  next => rfl

/-- The normal form of a path up to its last segment. -/
def normalDirectories (directories : List Char) : List Char :=
  ((segments directories).foldl (addSegment · · false) []).reverse.flatMap fun s =>
    '/' :: encodeWhere isEncodedInPath s

/-- The last segment of a path stays the last one. -/
theorem normalPath_append (slash : '/' ∉ ds) (backslash : '\\' ∉ ds) (plain : ¬Escapes ds)
    (one : ds ≠ ['.']) (two : ds ≠ ['.', '.'])
    : normalPath ('/' :: (cs ++ '/' :: ds))
      = normalDirectories cs ++ '/' :: encodeWhere isEncodedInPath ds := by
  have dots := plainDots_of_not_escapes plain
  rw [normalPath, List.drop_one, List.tail_cons, segments_append,
    segments_of_single slash backslash, resolveDots_append,
    addSegment_of_plain (by rwa [dots]) (by rwa [dots]), List.reverse_cons, List.flatMap_append]
  simp [normalDirectories]

end Paths

-----------------------------------------------------------------------------------------
-- Addresses
-----------------------------------------------------------------------------------------

/-- A text that can stand in an address as it is. -/
@[mk_iff]
structure IsSegment (text : String) : Prop where
  slash : '/' ∉ text.toList
  query : '?' ∉ text.toList
  fragment : '#' ∉ text.toList
  escapes : ¬Escapes text.toList

instance (text : String) : Decidable (IsSegment text) :=
  decidable_of_iff' _ (isSegment_iff text)

/-- A text of which no part is dropped or resolved either when the address is read. -/
@[mk_iff]
structure IsPlain (text : String) : Prop extends IsSegment text where
  backslash : '\\' ∉ text.toList
  controls : text.toList.all (0x20 ≤ ·.toNat)
  one : text ≠ "."
  two : text ≠ ".."

instance (text : String) : Decidable (IsPlain text) :=
  decidable_of_iff' _ (isPlain_iff text)

/-- A text without blanks, control characters, queries and fragments. -/
@[mk_iff]
structure IsBare (cs : List Char) : Prop where
  visible : cs.all (0x20 < ·.toNat)
  query : '?' ∉ cs
  fragment : '#' ∉ cs

instance (cs : List Char) : Decidable (IsBare cs) :=
  decidable_of_iff' _ (isBare_iff cs)

theorem IsBare.lt_of_mem {cs : List Char} {c : Char} (bare : IsBare cs) (member : c ∈ cs)
    : 0x20 < c.toNat :=
  of_decide_eq_true (List.all_eq_true.mp bare.visible c member)

theorem IsBare.append {cs ds : List Char} (first : IsBare cs) (second : IsBare ds)
    : IsBare (cs ++ ds) where
  visible := by rw [List.all_append, first.visible, second.visible]; rfl
  query := List.not_mem_append first.query second.query
  fragment := List.not_mem_append first.fragment second.fragment

/-- (IsFolder cs directories) says that an address has a scheme and an authority, and some
directories as its path.
-/
structure IsFolder (cs directories : List Char) : Prop where
  bare : IsBare cs
  parts
    : ∃ scheme authority,
        cs = scheme ++ ':' :: '/' :: '/' :: (authority ++ '/' :: (directories ++ ['/']))
        ∧ ':' ∉ scheme
        ∧ '/' ∉ authority
        ∧ '\\' ∉ authority

section Targets

variable {url text : String} {folder directories body query : List Char}

/-- Tabs and line breaks are control characters. -/
theorem filter_of_controls {cs : List Char} (controls : cs.all (0x20 ≤ ·.toNat))
    : cs.filter (fun c => c ≠ '\t' && c ≠ '\n' && c ≠ '\r') = cs := by
  refine List.filter_eq_self.mpr fun c member => ?_
  have bound : 0x20 ≤ c.toNat := of_decide_eq_true (List.all_eq_true.mp controls c member)
  have tab : c ≠ '\t' := fun same => absurd (same ▸ bound) (by decide)
  have line : c ≠ '\n' := fun same => absurd (same ▸ bound) (by decide)
  have other : c ≠ '\r' := fun same => absurd (same ▸ bound) (by decide)
  simp [tab, line, other]

/-- Cleaning drops nothing of an address that begins and ends with visible characters, and of a
query after it at most the end.
-/
theorem cleaned_eq (parts : url.toList = body ++ query) (ends : IsEnd query)
    (first : ∃ c, body.head? = some c ∧ 0x20 < c.toNat)
    (last : ∃ c, body.getLast? = some c ∧ 0x20 < c.toNat)
    (controls : body.all (0x20 ≤ ·.toNat))
    : ∃ query', IsEnd query' ∧ cleaned url = body ++ query' := by
  obtain ⟨c, begins, visible⟩ := first
  obtain ⟨d, finishes, visible'⟩ := last
  have front : (body ++ query).dropWhile (fun c => decide (c.toNat ≤ 0x20)) = body ++ query := by
    obtain ⟨rest, rfl⟩ := List.head?_eq_some_iff.mp begins
    exact List.dropWhile_cons_of_neg (by simpa using visible)
  have back : body.reverse.dropWhile (fun c => decide (c.toNat ≤ 0x20)) = body.reverse := by
    obtain ⟨rest, rfl⟩ := List.getLast?_eq_some_iff.mp finishes
    rw [List.reverse_append]
    exact List.dropWhile_cons_of_neg (by simpa using visible')
  have both : (query.reverse ++ body.reverse).dropWhile (fun c => decide (c.toNat ≤ 0x20))
      = query.reverse.dropWhile (fun c => decide (c.toNat ≤ 0x20)) ++ body.reverse := by
    rw [List.dropWhile_append]
    split
    next nothing => rw [List.isEmpty_iff.mp nothing, back, List.nil_append]
    next => rfl
  refine ⟨_, (ends.dropLast (p := fun c => decide (c.toNat ≤ 0x20)) (by decide)).filter
    (p := fun c => c ≠ '\t' && c ≠ '\n' && c ≠ '\r') (by decide), ?_⟩
  unfold cleaned
  dsimp only
  rw [parts, front, List.reverse_append, both, List.reverse_append, List.reverse_reverse,
    List.filter_append, filter_of_controls controls]

/-- A list is split where the first character with a property stands. -/
theorem splitBefore_append {p : Char → Bool} {before after : List Char}
    (lacks : ∀ c ∈ before, p c = false) (here : ∀ c, after.head? = some c → p c = true)
    : splitBefore p (before ++ after) = (before, after) := by
  have lacks : ∀ c ∈ before, (!p c) = true := fun c member => by rw [lacks c member]; rfl
  rw [splitBefore, List.takeWhile_append_of_pos lacks, List.dropWhile_append_of_pos lacks]
  cases after with
  | nil => simp
  | cons c after => simp [here c rfl]

theorem afterAuthority_eq {scheme authority rest : List Char} (named : ':' ∉ scheme)
    (plain : ∀ c ∈ authority, c ≠ '/' ∧ c ≠ '\\' ∧ c ≠ '?' ∧ c ≠ '#')
    : afterAuthority (scheme ++ ':' :: '/' :: '/' :: (authority ++ '/' :: rest)) = '/' :: rest := by
  rw [afterAuthority, splitBefore_append (fun c member => ?_) (by simp)]
  · change (splitBefore _ (authority ++ '/' :: rest)).2 = _
    rw [splitBefore_append (fun c member => ?_) (by simp)]
    simp [plain c member]
  · exact decide_eq_false fun same => named (same ▸ member)

/-- A path without queries and fragments is sent in its normal form, and what follows stays a
query.
-/
theorem target_of_path {r : Request} {path : List Char}
    (parts : afterAuthority (cleaned r.url) = path ++ query) (ends : IsEnd query)
    (question : '?' ∉ path) (fragment : '#' ∉ path)
    : ∃ query', IsEnd query' ∧ r.target.toList = normalPath path ++ query' := by
  let shown := query.takeWhile fun c => !decide (c = '#')
  have shown_ends : IsEnd shown := ends.takeWhile (by decide)
  have whole : (splitBefore (· = '#') (path ++ query)).1 = path ++ shown := by
    refine List.takeWhile_append_of_pos fun c member => ?_
    have other : c ≠ '#' := fun same => fragment (same ▸ member)
    simp [other]
  have split : splitBefore (· = '?') (path ++ shown) = (path, shown) := by
    refine splitBefore_append (fun c member => ?_) fun c begins => ?_
    · exact decide_eq_false fun same => question (same ▸ member)
    · rcases shown_ends with nothing | begins'
      · rw [nothing] at begins
        cases begins
      · rw [begins'] at begins
        cases begins
        rfl
  unfold Request.target
  rw [parts]
  generalize splitBefore (· = '#') (path ++ query) = first at whole
  obtain ⟨_, _⟩ := first
  obtain rfl := whole
  dsimp only
  rw [split, String.toList_ofList]
  cases shown with
  | nil => exact ⟨[], .inl rfl, rfl⟩
  | cons c rest => exact ⟨_, .inr rfl, rfl⟩

namespace IsFolder

theorem ne_nil (isFolder : IsFolder folder directories) : folder ≠ [] := by
  obtain ⟨scheme, authority, shape, _⟩ := isFolder.parts
  rw [shape]
  simp

/-- An address in a folder goes on with the directories. -/
theorem afterAuthority (isFolder : IsFolder folder directories) (rest : List Char)
    : afterAuthority (folder ++ rest) = '/' :: (directories ++ '/' :: rest) := by
  obtain ⟨scheme, authority, shape, named, slash, backslash⟩ := isFolder.parts
  have bare : ∀ c ∈ authority, c ≠ '/' ∧ c ≠ '\\' ∧ c ≠ '?' ∧ c ≠ '#' := by
    intro c member
    have listed : c ∈ folder := by rw [shape]; simp [member]
    exact ⟨fun same => slash (same ▸ member), fun same => backslash (same ▸ member),
      fun same => isFolder.bare.query (same ▸ listed),
      fun same => isFolder.bare.fragment (same ▸ listed)⟩
  have split : folder ++ rest
      = scheme ++ ':' :: '/' :: '/' :: (authority ++ '/' :: (directories ++ '/' :: rest)) := by
    rw [shape]
    simp
  rw [split, afterAuthority_eq named bare]

theorem directories_bare (isFolder : IsFolder folder directories)
    : '?' ∉ directories ∧ '#' ∉ directories := by
  obtain ⟨scheme, authority, shape, _⟩ := isFolder.parts
  have listed : ∀ c ∈ directories, c ∈ folder := fun c member => by rw [shape]; simp [member]
  exact ⟨mt (listed _) isFolder.bare.query, mt (listed _) isFolder.bare.fragment⟩

end IsFolder

/-- What is sent for a plain text in a folder: the directories as they always are, the text as the
last segment, and at most a query.
-/
theorem target_eq {r : Request} (isFolder : IsFolder folder directories) (plain : IsPlain text)
    (visible : ∃ c, text.toList.getLast? = some c ∧ 0x20 < c.toNat)
    (parts : r.url.toList = folder ++ (text.toList ++ query)) (ends : IsEnd query)
    : ∃ query',
        IsEnd query'
        ∧ r.target.toList
          = normalDirectories directories
            ++ '/' :: (encodeWhere isEncodedInPath text.toList ++ query') := by
  have first : ∃ c, (folder ++ text.toList).head? = some c ∧ 0x20 < c.toNat := by
    obtain ⟨c, rest, rfl⟩ := List.exists_cons_of_ne_nil isFolder.ne_nil
    exact ⟨c, rfl, isFolder.bare.lt_of_mem List.mem_cons_self⟩
  have last : ∃ c, (folder ++ text.toList).getLast? = some c ∧ 0x20 < c.toNat := by
    obtain ⟨c, last, visible⟩ := visible
    exact ⟨c, by rw [List.getLast?_append, last]; rfl, visible⟩
  have controls : (folder ++ text.toList).all (0x20 ≤ ·.toNat) := by
    rw [List.all_append, plain.controls, Bool.and_true]
    exact List.all_eq_true.mpr fun c member => decide_eq_true (isFolder.bare.lt_of_mem member).le
  rw [← List.append_assoc] at parts
  obtain ⟨query', ends', clean⟩ := cleaned_eq parts ends first last controls
  have after : Remote.afterAuthority (cleaned r.url)
      = '/' :: (directories ++ '/' :: text.toList) ++ query' := by
    rw [clean, List.append_assoc, isFolder.afterAuthority]
    simp
  have bare := isFolder.directories_bare
  obtain ⟨query'', ends'', sent⟩ := target_of_path after ends'
    (by simp [bare.1, plain.query]) (by simp [bare.2, plain.fragment])
  refine ⟨query'', ends'', ?_⟩
  rw [sent, normalPath_append plain.slash plain.backslash plain.escapes, List.append_assoc]
  · rfl
  · exact fun same => plain.one (String.toList_inj.mp same)
  · exact fun same => plain.two (String.toList_inj.mp same)

end Targets

end CaseGrouping.Remote
