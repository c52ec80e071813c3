/-
`Tokenizer` (`Util.cpp`): a string is copied, its separators are overwritten in
the copy, and the tokens are pointers into it. The pointers are offsets, what
they point at is read up to the next NUL, and to read past the copy is `none`.
The separators that are cut at in the source are blanks and signs, never a NUL.
Cutting gives the pieces of the string (`tokenizer_eq`), so that tokens joined
are cut into themselves (`tokenizer_joined`).
-/
import AtlasWow.Lib.Decimal
import Mathlib.Data.List.Forall2

namespace AtlasWow

/-- A `std::vector`, with its room. -/
structure StorageType where
  items : List Nat
  capacity : Nat
  fits : items.length ≤ capacity

namespace StorageType

def empty : StorageType := ⟨[], 0, le_rfl⟩

def reserve (v : StorageType) (n : Nat) : StorageType := ⟨v.items, max v.capacity n, v.fits.trans (Nat.le_max_left ..)⟩

/-- Without room for one more, there is made room for twice as many. -/
def pushBack (v : StorageType) (p : Nat) : StorageType where
  items := v.items ++ [p]
  capacity := if v.items.length < v.capacity then v.capacity else 2 * v.capacity + 1
  fits := by
    have hfits := v.fits
    rw [List.length_append, List.length_singleton]
    split <;> omega

@[simp] theorem items_reserve (v : StorageType) (n : Nat) : (v.reserve n).items = v.items := rfl

@[simp] theorem items_pushBack (v : StorageType) (p : Nat) : (v.pushBack p).items = v.items ++ [p] := rfl

end StorageType

structure Tokenizer where
  m_str : List Char
  m_storage : StorageType

namespace Tokenizer

/-- What a pointer into the copy points at. -/
def token (t : Tokenizer) (p : Nat) : List Char := (t.m_str.drop p).takeWhile (· ≠ '\x00')

def tokens (t : Tokenizer) : List (List Char) := t.m_storage.items.map t.token

variable (sep : Char) (keepEmptyStrings : Bool)

/-- `push_back(posold)`, if the token is kept. -/
def push (keep : Bool) (t : Tokenizer) (posold posnew : Nat) : Tokenizer :=
  if keep || posold ≠ posnew then { t with m_storage := t.m_storage.pushBack posold } else t

/-- The loop, with so many characters of the copy left from `posnew` on. -/
def loop : Nat → Nat → Nat → Tokenizer → Option Tokenizer
  | 0, _, _, _ => none
  | left + 1, posold, posnew, t =>
    match t.m_str[posnew]? with
    | none => none
    | some c =>
      if c = sep then
        let t := t.push keepEmptyStrings posold posnew
        loop left (posnew + 1) (posnew + 1) { t with m_str := t.m_str.set posnew '\x00' }
      -- Hack like, but the old code accepted these kind of broken strings
      else if c = '\x00' then some (t.push false posold posnew)
      else loop left posold (posnew + 1) t

end Tokenizer

open Tokenizer in
/-- The constructor. -/
def tokenizer (src : List Char) (sep : Char) (vectorReserve : Nat) (keepEmptyStrings : Bool) : Option Tokenizer :=
  let storage := if vectorReserve ≠ 0 then StorageType.empty.reserve vectorReserve else .empty
  loop sep keepEmptyStrings (src.length + 1) 0 0 ⟨src ++ ['\x00'], storage⟩

namespace Tokenizer

/-- The pieces that are made tokens. -/
def kept (keepEmptyStrings : Bool) (piece : List Char) : Bool := keepEmptyStrings || piece ≠ []

/-- A pointer into what the loop is through with, and its token. -/
def Holds (done : List Char) (p : Nat) (piece : List Char) : Prop :=
  ∃ a b, done = a ++ piece ++ '\x00' :: b ∧ a.length = p ∧ '\x00' ∉ piece

variable {sep : Char} {keepEmptyStrings keep : Bool} {t : Tokenizer} {done done' piece rest : List Char} {p : Nat}
  {pieces : List (List Char)}

theorem Holds.append (h : Holds done p piece) (rest : List Char) : Holds (done ++ rest) p piece := by
  obtain ⟨a, b, rfl, hp, hpiece⟩ := h
  exact ⟨a, b ++ rest, by simp, hp, hpiece⟩

/-- What is pointed at ends before the first NUL. -/
theorem Holds.token (h : Holds t.m_str p piece) : t.token p = piece := by
  obtain ⟨a, b, hstr, rfl, hpiece⟩ := h
  unfold Tokenizer.token
  have hchars : ∀ c ∈ piece, decide (c ≠ '\x00') = true := fun c hc => decide_eq_true fun h => hpiece (h ▸ hc)
  rw [hstr, List.append_assoc, List.drop_left, List.takeWhile_append_of_pos hchars, List.takeWhile_cons_of_neg (by simp),
    List.append_nil]

/-- The pointers so far, and their tokens. -/
abbrev Stored (done : List Char) (t : Tokenizer) (pieces : List (List Char)) : Prop :=
  List.Forall₂ (Holds done) t.m_storage.items pieces

theorem Stored.append (h : Stored done t pieces) (rest : List Char) : Stored (done ++ rest) t pieces :=
  List.Forall₂.imp (fun _ _ hp => hp.append rest) h

theorem Stored.tokens (h : Stored t.m_str t pieces) : t.tokens = pieces := by
  unfold Tokenizer.tokens
  rw [← List.forall₂_eq_eq_eq, List.forall₂_map_left_iff]
  exact List.Forall₂.imp (fun _ _ hp => hp.token) h

/-- A piece is pushed when its end is known. -/
theorem Stored.push (h : Stored done t pieces) (hpiece : '\x00' ∉ piece) (keep : Bool) (rest : List Char) :
    Stored (done ++ piece ++ '\x00' :: rest) (t.push keep done.length (done.length + piece.length))
      (pieces ++ [piece].filter (kept keep)) := by
  have hne : (keep || decide (done.length ≠ done.length + piece.length)) = kept keep piece := by
    unfold kept
    congr 2
    rw [← List.length_pos_iff]
    exact propext ⟨fun h => by omega, fun h => by omega⟩
  have hold : Stored (done ++ piece ++ '\x00' :: rest) t pieces := by
    rw [List.append_assoc]
    exact h.append _
  unfold Tokenizer.push
  rw [hne]
  by_cases hkeep : kept keep piece = true
  · rw [if_pos hkeep, List.filter_cons_of_pos hkeep, List.filter_nil]
    exact List.rel_append hold (.cons ⟨done, rest, rfl, rfl, hpiece⟩ .nil)
  · rw [if_neg hkeep, List.filter_cons_of_neg hkeep, List.filter_nil, List.append_nil]
    exact hold

@[simp] theorem m_str_push (t : Tokenizer) (keep : Bool) (posold posnew : Nat) : (t.push keep posold posnew).m_str = t.m_str := by
  unfold Tokenizer.push
  split <;> rfl

/-- The loop comes to the NUL, and stores the pieces that are kept: what it has seen since `posold` is a piece so far. -/
theorem loop_spec (hsep : sep ≠ '\x00') : ∀ {rest done piece : List Char} {t : Tokenizer} {pieces : List (List Char)},
    t.m_str = done ++ piece ++ (rest ++ ['\x00']) → '\x00' ∉ piece → '\x00' ∉ rest → Stored done t pieces →
    ∃ t', loop sep keep (rest.length + 1) done.length (done.length + piece.length) t = some t' ∧
      Stored t'.m_str t' (pieces ++ (tokenize sep piece rest).filter (kept keep)) := by
  intro rest
  induction rest with
  | nil =>
    intro done piece t pieces hstr hpiece _ hstored
    have hget : t.m_str[done.length + piece.length]? = some '\x00' := by
      rw [hstr, List.nil_append, ← List.length_append, List.getElem?_concat_length]
    refine ⟨t.push false done.length (done.length + piece.length), ?_, ?_⟩
    · unfold loop
      rw [hget]
      dsimp only
      rw [if_neg hsep.symm, if_pos rfl]
    · have hpush := hstored.push hpiece false []
      rw [m_str_push, hstr, List.nil_append, tokenize]
      -- the last piece is kept only if there is one
      by_cases hempty : piece = []
      · subst hempty
        simpa [kept] using hpush
      · simpa [kept, hempty] using hpush
  | cons c rest ih =>
    intro done piece t pieces hstr hpiece hrest hstored
    obtain ⟨hc, hrest⟩ := not_or.1 (mt List.mem_cons.2 hrest)
    have hget : t.m_str[done.length + piece.length]? = some c := by
      rw [hstr, ← List.length_append, List.getElem?_append_right le_rfl, Nat.sub_self]
      rfl
    unfold loop tokenize
    rw [hget]
    dsimp only
    by_cases hcut : c = sep
    · rw [if_pos hcut, if_pos hcut]
      have hset : (t.m_str.set (done.length + piece.length) '\x00') =
          (done ++ piece ++ ['\x00']) ++ [] ++ (rest ++ ['\x00']) := by
        rw [hstr, ← List.length_append, List.set_append_right _ _ le_rfl, Nat.sub_self]
        simp
      have hlength : done.length + piece.length + 1 = (done ++ piece ++ ['\x00']).length := by simp [Nat.add_assoc]
      obtain ⟨t', hrun, hall⟩ := ih (t := { t.push keep done.length (done.length + piece.length) with
        m_str := t.m_str.set (done.length + piece.length) '\x00' }) hset List.not_mem_nil hrest (hstored.push hpiece keep [])
      refine ⟨t', ?_, ?_⟩
      · rw [m_str_push, hlength, List.length_cons]
        exact hrun
      · rw [List.append_assoc, ← List.filter_append, List.singleton_append] at hall
        exact hall
    · rw [if_neg hcut, if_neg (Ne.symm hc), if_neg hcut]
      have hstr' : t.m_str = done ++ (piece ++ [c]) ++ (rest ++ ['\x00']) := by
        rw [hstr]
        simp
      have hpiece' : '\x00' ∉ piece ++ [c] := by
        simpa using ⟨hpiece, hc⟩
      obtain ⟨t', hrun, hall⟩ := ih hstr' hpiece' hrest hstored
      refine ⟨t', ?_, hall⟩
      rw [List.length_append, ← Nat.add_assoc] at hrun
      exact hrun

/-- A string is cut into its pieces. -/
theorem tokenizer_eq {src : List Char} (hsep : sep ≠ '\x00') (hsrc : '\x00' ∉ src) (vectorReserve : Nat) :
    (tokenizer src sep vectorReserve keep).map tokens =
      some ((tokenize sep [] src).filter (kept keep)) := by
  have hstart : ∀ storage : StorageType, storage.items = [] → Stored [] ⟨src ++ ['\x00'], storage⟩ [] := fun storage h => by
    show List.Forall₂ _ storage.items []
    rw [h]
    exact .nil
  unfold tokenizer
  obtain ⟨t, hrun, hall⟩ := @loop_spec sep keep hsep src [] [] _ [] (by simp) List.not_mem_nil hsrc
    (hstart (if vectorReserve ≠ 0 then StorageType.empty.reserve vectorReserve else .empty) (by split <;> rfl))
  dsimp only
  rw [show loop sep keep (src.length + 1) 0 0 _ = some t from hrun, Option.map_some, hall.tokens, List.nil_append]

/-- Tokens joined with a separator after each are cut into themselves, or into those that are not empty; whatever is
reserved for them. -/
theorem tokenizer_joined {ts : List (List Char)} (hsep : sep ≠ '\x00') (hts : ∀ token ∈ ts, sep ∉ token ∧ '\x00' ∉ token)
    (vectorReserve : Nat) :
    (tokenizer (ts.flatMap (· ++ [sep])) sep vectorReserve true).map tokens = some ts ∧
      (tokenizer (ts.flatMap (· ++ [sep])) sep vectorReserve false).map tokens = some (ts.filter (· ≠ [])) := by
  have hsrc : '\x00' ∉ ts.flatMap (· ++ [sep]) := by
    intro hmem
    obtain ⟨token, htoken, hin⟩ := List.mem_flatMap.1 hmem
    rcases List.mem_append.1 hin with hin | hin
    · exact (hts token htoken).2 hin
    · exact hsep (List.mem_singleton.1 hin).symm
  have hcut := tokenize_joined fun token htoken => (hts token htoken).1
  have hall : ts.filter (kept true) = ts := List.filter_eq_self.2 fun _ _ => rfl
  rw [tokenizer_eq hsep hsrc, tokenizer_eq hsep hsrc, hcut, hall]
  exact ⟨rfl, rfl⟩

/-- Tokens of which the first, two in a row and the last are empty, with room reserved for one. -/
theorem tokenizer_joined_empty : (tokenizer " a  b  ".toList ' ' 1 true).map tokens = some [[], ['a'], [], ['b'], []] ∧
    (tokenizer " a  b  ".toList ' ' 1 false).map tokens = some [['a'], ['b']] :=
  @tokenizer_joined ' ' [[], ['a'], [], ['b'], []] (by decide) (by decide) 1

end Tokenizer

end AtlasWow
