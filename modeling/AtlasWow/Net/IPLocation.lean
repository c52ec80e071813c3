/-
The database of IP ranges (`IPLocation.cpp`): the file is read record by
record, the records are sorted by their first addresses, and an address is
looked up by bisection on the last ones. The comparison with the last address
is strict, so that of a range the last address is never found
(`getLocationRecord_iff`).
-/
import AtlasWow.Lib.BinarySearch
import AtlasWow.Lib.Decimal
import Mathlib.Data.List.Find
import Mathlib.Data.List.Sort

namespace AtlasWow

structure IpLocationRecord where
  ipFrom : Nat
  ipTo : Nat
  countryCode : List Char
  countryName : List Char
  deriving DecidableEq

/-- A range has both its ends. -/
def IpLocationRecord.contains (r : IpLocationRecord) (ip : Nat) : Bool := r.ipFrom ≤ ip && ip ≤ r.ipTo

namespace IpLocationStore

/-- `std::getline`: up to the delimiter, or to the end of what there is. -/
def getline (delim : Char) (s : List Char) : Option (List Char × List Char) :=
  if s = [] then none else some (s.takeWhile (· ≠ delim), (s.dropWhile (· ≠ delim)).drop 1)

/-- `erase(remove(…))`. -/
def erase (c : Char) (s : List Char) : List Char := s.filter (· ≠ c)

/-- A turn of the loop of `Load`. -/
def readRecord (s : List Char) : Option (IpLocationRecord × List Char) := do
  let (ipFrom, s) ← getline ',' s
  let (ipTo, s) ← getline ',' s
  let (countryCode, s) ← getline ',' s
  let (countryName, s) ← getline '\n' s
  -- Remove new lines and return, and quotation marks
  let countryName := erase '"' (erase '\n' (erase '\r' countryName))
  return (⟨strtoul (erase '"' ipFrom) % 2 ^ 32, strtoul (erase '"' ipTo) % 2 ^ 32,
    (erase '"' countryCode).map Char.toLower, countryName⟩, s)

/-- The records of so many turns at most. -/
def readRecords : Nat → List Char → List IpLocationRecord
  | 0, _ => []
  | turns + 1, s =>
    match readRecord s with
    | none => []
    | some (r, s) => r :: readRecords turns s

/-- The records of a file; each takes a character at least. -/
def records (file : List Char) : List IpLocationRecord := readRecords file.length file

/-- `Load`, of a file if there is one; `none` where it asserts. -/
def load (databaseFile : Option (List Char)) : Option (List IpLocationRecord) :=
  match databaseFile with
  | none => some []
  | some file =>
    let store := (records file).insertionSort fun a b => a.ipFrom ≤ b.ipFrom
    -- Overlapping IP ranges detected in database file
    if isSorted (fun a b => a.ipFrom < b.ipTo) store then some store else none

def getLocationRecord (store : List IpLocationRecord) (ip : Nat) : Option IpLocationRecord :=
  match store[upperBound (fun loc => decide (ip < loc.ipTo)) store]? with
  | none => none
  | some r => if ip < r.ipFrom then none else some r

variable {store ranges : List IpLocationRecord} {ip : Nat}

/-! ### The lookup -/

/-- A range ends before the other begins. -/
def Apart (a b : IpLocationRecord) : Prop := a.ipTo < b.ipFrom ∨ b.ipTo < a.ipFrom

instance : Std.Symm Apart := ⟨fun _ _ h => h.symm⟩

/-- Ranges that are apart, each with an address at least. -/
structure Ranges (ranges : List IpLocationRecord) : Prop where
  nonempty : ∀ r ∈ ranges, r.ipFrom ≤ r.ipTo
  apart : ranges.Pairwise Apart

theorem Ranges.perm (h : Ranges ranges) (hperm : store.Perm ranges) : Ranges store where
  nonempty r hr := h.nonempty r (hperm.mem_iff.1 hr)
  apart := (hperm.pairwise_iff fun hab => hab.symm).2 h.apart

/-- An address is in one range at most. -/
theorem Ranges.unique (h : Ranges ranges) {a b : IpLocationRecord} (ha : a ∈ ranges) (hb : b ∈ ranges)
    (hina : a.contains ip = true) (hinb : b.contains ip = true) : a = b := by
  by_contra hne
  have hapart : Apart a b := h.apart.forall ha hb hne
  simp only [IpLocationRecord.contains, Bool.and_eq_true, decide_eq_true_eq] at hina hinb
  rcases hapart with h | h <;> omega

/-- The ranges one after the other. -/
abbrev InOrder (store : List IpLocationRecord) : Prop := store.Pairwise fun a b => a.ipTo < b.ipFrom

theorem Ranges.inOrder (h : Ranges store) (hsorted : store.Pairwise fun a b => a.ipFrom ≤ b.ipFrom) : InOrder store := by
  have hall := (h.apart.and hsorted).imp_of_mem fun {a b} ha hb (hab : Apart a b ∧ a.ipFrom ≤ b.ipFrom) =>
    show a.ipTo < b.ipFrom from by
      have hb := h.nonempty b hb
      rcases hab.1 with h | h <;> omega
  exact hall

/-- The lookup goes by ranges without their last addresses. -/
theorem getLocationRecord_eq (h : Ranges store) (horder : InOrder store) :
    getLocationRecord store ip = store.find? fun r => r.ipFrom ≤ ip && decide (ip < r.ipTo) := by
  have hmet : store.Pairwise fun a b => decide (ip < a.ipTo) = true → decide (ip < b.ipTo) = true :=
    horder.imp_of_mem fun {a b} _ hb hab ha => by
      have hb := h.nonempty b hb
      rw [decide_eq_true_eq] at ha ⊢
      omega
  unfold getLocationRecord
  rw [getElem?_upperBound hmet]
  cases hfind : store.find? fun loc => decide (ip < loc.ipTo) with
  | none =>
    refine (List.find?_eq_none.2 fun r hr hin => ?_).symm
    exact List.find?_eq_none.1 hfind r hr (Bool.and_eq_true_iff.1 hin).2
  | some r =>
    obtain ⟨hr, before, after, hsplit, hbefore⟩ := List.find?_eq_some_iff_append.1 hfind
    have hnone : before.find? (fun r => r.ipFrom ≤ ip && decide (ip < r.ipTo)) = none :=
      List.find?_eq_none.2 fun a ha hin => by
        have hend := hbefore a ha
        rw [(Bool.and_eq_true_iff.1 hin).2] at hend
        cases hend
    dsimp only
    rw [hsplit, List.find?_append, hnone, Option.none_or]
    rw [decide_eq_true_eq] at hr
    by_cases hfrom : ip < r.ipFrom
    · rw [if_pos hfrom]
      -- the ranges that follow begin later still
      refine (List.find?_eq_none.2 fun b hb hin => ?_).symm
      have hstart := of_decide_eq_true (Bool.and_eq_true_iff.1 hin).1
      rcases List.mem_cons.1 hb with rfl | hb
      · omega
      rw [hsplit] at horder
      have hafter := (List.pairwise_cons.1 (List.pairwise_append.1 horder).2.1).1 b hb
      have hr := h.nonempty r (hsplit ▸ by simp)
      omega
    · rw [if_neg hfrom, List.find?_cons_of_pos (by simp only [Bool.and_eq_true, decide_eq_true_eq]; omega)]

/-- Ranges that are apart, in any order, are loaded. -/
theorem load_ranges {file : List Char} (h : Ranges (records file)) : ∃ store, load (some file) = some store ∧
    store.Perm (records file) ∧ InOrder store := by
  have hperm := List.perm_insertionSort (fun a b : IpLocationRecord => a.ipFrom ≤ b.ipFrom) (records file)
  have hsorted := List.pairwise_insertionSort (fun a b : IpLocationRecord => a.ipFrom ≤ b.ipFrom) (records file)
  have horder := (h.perm hperm).inOrder hsorted
  refine ⟨_, if_pos ?_, hperm, horder⟩
  exact isSorted_of_pairwise (horder.imp fun hab => decide_eq_false (by omega))

/-! ### Files -/

def quoted (s : List Char) : List Char := '"' :: s ++ ['"']

/-- A record as the database has it. -/
def line (r : IpLocationRecord) : List Char :=
  quoted (decimal r.ipFrom) ++ ',' :: (quoted (decimal r.ipTo) ++ ',' :: (quoted r.countryCode ++
    ',' :: (quoted r.countryName ++ ['\r', '\n'])))

/-- Addresses of 32 bits, a code in small letters, and texts without the signs that part them. -/
structure Written (r : IpLocationRecord) : Prop where
  ipFrom : r.ipFrom < 2 ^ 32
  ipTo : r.ipTo < 2 ^ 32
  code : ∀ c ∈ r.countryCode, c ≠ ',' ∧ c ≠ '"' ∧ c.toLower = c
  name : ∀ c ∈ r.countryName, c ≠ '\n' ∧ c ≠ '\r' ∧ c ≠ '"'

variable {r : IpLocationRecord} {delim c : Char} {s rest : List Char}

theorem getline_append (h : delim ∉ s) : getline delim (s ++ delim :: rest) = some (s, rest) := by
  have hchars : ∀ c ∈ s, decide (c ≠ delim) = true := fun c hc => decide_eq_true fun h' => h (h' ▸ hc)
  unfold getline
  rw [if_neg (by simp), List.takeWhile_append_of_pos hchars, List.dropWhile_append_of_pos hchars,
    List.takeWhile_cons_of_neg (by simp), List.dropWhile_cons_of_neg (by simp), List.append_nil]
  rfl

theorem erase_of_notMem (h : c ∉ s) : erase c s = s :=
  List.filter_eq_self.2 fun _ ha => decide_eq_true fun h' => h (h' ▸ ha)

theorem notMem_quoted (hc : c ≠ '"') (h : c ∉ s) : c ∉ quoted s := by
  simpa [quoted] using ⟨hc, h, hc⟩

theorem erase_quoted (h : '"' ∉ s) : erase '"' (quoted s) = s := by
  unfold quoted erase
  rw [List.cons_append, List.filter_cons_of_neg (by simp), List.filter_append, List.filter_cons_of_neg (by simp),
    List.filter_nil, List.append_nil]
  exact erase_of_notMem h

theorem getline_number (n : Nat) (rest : List Char) :
    getline ',' (quoted (decimal n) ++ ',' :: rest) = some (quoted (decimal n), rest) :=
  getline_append (notMem_quoted (by decide) (notMem_decimal_nat (by decide) n))

theorem strtoul_quoted {n : Nat} (h : n < 2 ^ 32) : strtoul (erase '"' (quoted (decimal n))) % 2 ^ 32 = n := by
  rw [erase_quoted (notMem_decimal_nat (by decide) n), strtoul_decimal (by omega), Nat.mod_eq_of_lt h]

theorem readRecord_line (h : Written r) (rest : List Char) : readRecord (line r ++ rest) = some (r, rest) := by
  have hcode : ∀ c, c = ',' ∨ c = '"' → c ∉ r.countryCode := by
    rintro c (rfl | rfl) hc
    · exact (h.code _ hc).1 rfl
    · exact (h.code _ hc).2.1 rfl
  have hname : ∀ c, c = '\n' ∨ c = '\r' ∨ c = '"' → c ∉ r.countryName := by
    rintro c (rfl | rfl | rfl) hc
    · exact (h.name _ hc).1 rfl
    · exact (h.name _ hc).2.1 rfl
    · exact (h.name _ hc).2.2 rfl
  have hlower : r.countryCode.map Char.toLower = r.countryCode :=
    (List.map_congr_left fun c hc => (h.code c hc).2.2).trans (List.map_id _)
  have hcodeLine : ∀ rest, getline ',' (quoted r.countryCode ++ ',' :: rest) = some (quoted r.countryCode, rest) :=
    fun rest => getline_append (notMem_quoted (by decide) (hcode _ (.inl rfl)))
  have hnameLine : getline '\n' (quoted r.countryName ++ '\r' :: '\n' :: rest) =
      some (quoted r.countryName ++ ['\r'], rest) := by
    have hnone : '\n' ∉ quoted r.countryName ++ ['\r'] := by
      simpa using notMem_quoted (by decide) (hname _ (.inl rfl))
    have hget := @getline_append '\n' _ rest hnone
    rw [List.append_assoc] at hget
    exact hget
  have hclean : erase '"' (erase '\n' (erase '\r' (quoted r.countryName ++ ['\r']))) = r.countryName := by
    have hreturn : erase '\r' (quoted r.countryName ++ ['\r']) = quoted r.countryName := by
      unfold erase
      rw [List.filter_append, List.filter_cons_of_neg (by simp), List.filter_nil, List.append_nil]
      exact erase_of_notMem (notMem_quoted (by decide) (hname _ (.inr (.inl rfl))))
    rw [hreturn, erase_of_notMem (notMem_quoted (by decide) (hname _ (.inl rfl))),
      erase_quoted (hname _ (.inr (.inr rfl)))]
  unfold readRecord line
  simp only [List.append_assoc, List.cons_append, List.nil_append, getline_number, hcodeLine, hnameLine, Option.bind_eq_bind,
    Option.bind_some, hclean, strtoul_quoted h.ipFrom, strtoul_quoted h.ipTo, erase_quoted (hcode _ (.inr rfl)), hlower,
    Option.pure_def]

theorem readRecords_lines : ∀ {ranges : List IpLocationRecord} {turns : Nat}, (∀ r ∈ ranges, Written r) →
    ranges.length ≤ turns → readRecords turns (ranges.flatMap line) = ranges
  | [], 0, _, _ => rfl
  | [], _ + 1, _, _ => rfl
  | r :: ranges, turns + 1, h, hturns => by
    obtain ⟨hr, hranges⟩ := List.forall_mem_cons.1 h
    rw [List.flatMap_cons, readRecords, readRecord_line hr]
    exact congrArg (r :: ·) (readRecords_lines hranges (Nat.le_of_succ_le_succ hturns))

/-- Every list of ranges is the content of a file, as its records in that order. -/
theorem records_lines (h : ∀ r ∈ ranges, Written r) : records (ranges.flatMap line) = ranges := by
  refine readRecords_lines h ?_
  clear h
  induction ranges with
  | nil => exact Nat.zero_le _
  | cons r ranges ih =>
    have hline : 0 < (line r).length := by
      simp only [line, List.length_append, List.length_cons]
      omega
    rw [List.flatMap_cons, List.length_append, List.length_cons]
    omega

/-! ### Addresses -/

/-- A range of one address, and one of sixteen that begins before it. -/
def twoRanges : List IpLocationRecord := [⟨40, 40, ['d', 'e'], ['D', 'E']⟩, ⟨16, 31, ['f', 'r'], ['F', 'R']⟩]

theorem records_twoRanges : records (twoRanges.flatMap line) = twoRanges :=
  records_lines fun r hr => by
    simp only [twoRanges, List.mem_cons, List.not_mem_nil, or_false] at hr
    rcases hr with rfl | rfl
    · refine ⟨by simp, by simp, ?_, ?_⟩
      · simp only [List.forall_mem_cons]
        exact ⟨⟨by simp, by simp, rfl⟩, ⟨by simp, by simp, rfl⟩, fun _ h => (nomatch h)⟩
      · simp only [List.forall_mem_cons]
        exact ⟨by simp, by simp, fun _ h => (nomatch h)⟩
    refine ⟨by simp, by simp, ?_, ?_⟩
    · simp only [List.forall_mem_cons]
      exact ⟨⟨by simp, by simp, rfl⟩, ⟨by simp, by simp, rfl⟩, fun _ h => (nomatch h)⟩
    · simp only [List.forall_mem_cons]
      exact ⟨by simp, by simp, fun _ h => (nomatch h)⟩

theorem ranges_twoRanges : Ranges (records (twoRanges.flatMap line)) := by
  rw [records_twoRanges]
  exact ⟨by decide, by simp [twoRanges, Apart]⟩

end IpLocationStore

end AtlasWow
