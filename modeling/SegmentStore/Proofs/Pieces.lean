import Mathlib.Data.List.Induction

/-!
# Cutting a list into pieces of one size

Bytes are cut into chunks and rows into blocks in the same way: items are collected, and put away whenever
there are enough of them.

* `cut size xs` is the full pieces and what is left over, `pieces size xs` counts what is left as a piece
  of its own.
* `pieces_flatten` says that nothing is lost, `length_of_mem_pieces` and `length_getElem_pieces` how long
  the pieces are, `length_pieces` how many there are, and `flatten_drop_pieces` where each of them starts.
* `pieces_append` says where items that come later end up: in the piece that was being filled and those
  after it.
-/

namespace SegmentStore

variable {α : Type}

/-- One more item: it goes to the piece being filled, which is put away once it is full. -/
def cutStep (size : Nat) (s : List (List α) × List α) (x : α) : List (List α) × List α :=
  let current := s.2 ++ [x]
  if current.length = size then (s.1 ++ [current], []) else (s.1, current)

/-- The full pieces, and the piece being filled. -/
def cut (size : Nat) (xs : List α) : List (List α) × List α := xs.foldl (cutStep size) ([], [])

/-- The pieces of a list: all but the last are full, and none is empty. -/
def pieces (size : Nat) (xs : List α) : List (List α) :=
  (cut size xs).1 ++ if (cut size xs).2 = [] then [] else [(cut size xs).2]

variable {size : Nat}

theorem cut_concat (xs : List α) (x : α) : cut size (xs ++ [x]) = cutStep size (cut size xs) x := by
  simp [cut]

/-! ### Shape of the cut -/

theorem cutStep_flatten (size : Nat) (s : List (List α) × List α) (x : α) :
    (cutStep size s x).1.flatten ++ (cutStep size s x).2 = s.1.flatten ++ s.2 ++ [x] := by
  rw [cutStep]
  split
  · rw [List.flatten_concat, List.append_nil, List.append_assoc]
  · rw [List.append_assoc]

/-- Nothing is lost or moved. -/
theorem cut_flatten (size : Nat) (xs : List α) : (cut size xs).1.flatten ++ (cut size xs).2 = xs := by
  induction xs using List.reverseRecOn with
  | nil => rfl
  | append_singleton xs x ih => rw [cut_concat, cutStep_flatten, ih]

theorem length_of_mem_cut {xs c : List α} (hc : c ∈ (cut size xs).1) : c.length = size := by
  induction xs using List.reverseRecOn with
  | nil => simp [cut] at hc
  | append_singleton xs x ih =>
    rw [cut_concat, cutStep] at hc
    split at hc
    · rename_i hfull
      rcases List.mem_append.mp hc with hc | hc
      · exact ih hc
      · rw [List.mem_singleton.mp hc]
        exact hfull
    · exact ih hc

/-- The piece being filled has room for an item. -/
theorem length_cut_lt (hsize : 0 < size) (xs : List α) : (cut size xs).2.length < size := by
  induction xs using List.reverseRecOn with
  | nil => simpa [cut] using hsize
  | append_singleton xs x ih =>
    rw [cut_concat, cutStep]
    split
    · simpa using hsize
    · rename_i hroom
      rw [List.length_append, List.length_singleton] at hroom ⊢
      omega

/-- Full pieces stay as they are when more items come. -/
theorem cut_append (size : Nat) (xs more : List α) :
    ∃ later, (cut size (xs ++ more)).1 = (cut size xs).1 ++ later := by
  induction more using List.reverseRecOn with
  | nil => exact ⟨[], by simp⟩
  | append_singleton more x ih =>
    obtain ⟨later, hlater⟩ := ih
    rw [← List.append_assoc, cut_concat, cutStep]
    split
    · exact ⟨later ++ [(cut size (xs ++ more)).2 ++ [x]], by rw [hlater, List.append_assoc]⟩
    · exact ⟨later, hlater⟩

/-! ### All pieces -/
theorem pieces_flatten (size : Nat) (xs : List α) : (pieces size xs).flatten = xs := by
  rw [pieces, List.flatten_append]
  split
  · rename_i hempty
    have h := cut_flatten size xs
    rwa [hempty] at h
  · rw [List.flatten_singleton, cut_flatten]

/-- No piece is empty or longer than the size. -/
theorem length_of_mem_pieces (hsize : 0 < size) {xs c : List α} (hc : c ∈ pieces size xs) :
    0 < c.length ∧ c.length ≤ size := by
  rcases List.mem_append.mp hc with hc | hc
  · rw [length_of_mem_cut hc]
    exact ⟨hsize, Nat.le_refl size⟩
  · split at hc
    · simp at hc
    · rename_i hne
      rw [List.mem_singleton.mp hc]
      exact ⟨List.length_pos_iff.mpr hne, Nat.le_of_lt (length_cut_lt hsize xs)⟩

theorem length_flatten_of_length {xss : List (List α)} (h : ∀ c ∈ xss, c.length = size) :
    xss.flatten.length = size * xss.length := by
  induction xss with
  | nil => simp
  | cons c xss ih =>
    rw [List.flatten_cons, List.length_append, h c List.mem_cons_self,
      ih fun d hd => h d (List.mem_cons_of_mem c hd), List.length_cons, Nat.mul_succ, Nat.add_comm]

/-- The full pieces and what is left account for all items. -/
theorem length_cut (size : Nat) (xs : List α) :
    size * (cut size xs).1.length + (cut size xs).2.length = xs.length := by
  have h := congrArg List.length (cut_flatten size xs)
  rwa [List.length_append, length_flatten_of_length fun c hc => length_of_mem_cut hc] at h

/-- The number of pieces is the number of items over the size, rounded up. -/
theorem length_pieces (hsize : 0 < size) (xs : List α) :
    (pieces size xs).length = (xs.length + size - 1) / size := by
  have hall := length_cut size xs
  have hroom := length_cut_lt hsize xs
  have hcount : (pieces size xs).length
      = (cut size xs).1.length + if (cut size xs).2 = [] then 0 else 1 := by
    rw [pieces, List.length_append]
    split <;> rfl
  have hmul : ∀ k, (size * k + (size - 1)) / size = k := fun k => by
    rw [Nat.mul_add_div hsize, Nat.div_eq_of_lt (by omega), Nat.add_zero]
  rw [hcount]
  by_cases hempty : (cut size xs).2 = []
  · rw [if_pos hempty, Nat.add_zero]
    rw [hempty, List.length_nil, Nat.add_zero] at hall
    rw [← hall, Nat.add_sub_assoc hsize, hmul]
  · rw [if_neg hempty]
    have hpos := List.length_pos_iff.mpr hempty
    refine (Nat.div_eq_of_lt_le ?_ ?_).symm
    · rw [Nat.add_mul, Nat.one_mul, Nat.mul_comm]
      omega
    · rw [Nat.add_mul, Nat.add_mul, Nat.one_mul, Nat.mul_comm]
      omega

/-- What lies before a piece is full pieces. -/
theorem length_take_pieces {xs : List α} {i : Nat} (hi : i < (pieces size xs).length) :
    ((pieces size xs).take i).flatten.length = size * i := by
  have hfull : i ≤ (cut size xs).1.length := by
    rw [pieces, List.length_append] at hi
    split at hi <;> simp at hi <;> omega
  rw [pieces, List.take_append_of_le_length hfull,
    length_flatten_of_length fun c hc => length_of_mem_cut (List.mem_of_mem_take hc),
    List.length_take_of_le hfull]

/-- A piece and those behind it are the items that follow those before it. -/
theorem flatten_drop_pieces {xs : List α} {i : Nat} (hi : i < (pieces size xs).length) :
    ((pieces size xs).drop i).flatten = xs.drop (i * size) := by
  have hlength := length_take_pieces hi
  have hsplit : xs = ((pieces size xs).take i).flatten ++ ((pieces size xs).drop i).flatten := by
    rw [← List.flatten_append, List.take_append_drop, pieces_flatten]
  have hdrop := congrArg (List.drop (i * size)) hsplit
  rw [Nat.mul_comm, ← hlength, List.drop_left] at hdrop
  rw [Nat.mul_comm, ← hlength]
  exact hdrop.symm

/-- A piece is as long as the size, or as what is left. -/
theorem length_getElem_pieces (hsize : 0 < size) {xs : List α} {i : Nat}
    (hi : i < (pieces size xs).length) :
    (pieces size xs)[i].length = min size (xs.length - size * i) := by
  have hbefore := length_take_pieces hi
  have hle := (length_of_mem_pieces hsize (List.getElem_mem hi)).2
  have hsplit : xs.length
      = size * i + ((pieces size xs)[i].length + ((pieces size xs).drop (i + 1)).flatten.length) := by
    rw [← hbefore, ← List.length_append, ← List.length_append, ← List.flatten_cons,
      List.getElem_cons_drop, ← List.flatten_append, List.take_append_drop, pieces_flatten]
  by_cases hlast : i + 1 < (pieces size xs).length
  · have hnext := length_take_pieces hlast
    rw [List.take_add_one, List.getElem?_eq_getElem hi, List.flatten_append, List.length_append,
      hbefore, Nat.mul_succ] at hnext
    simp only [Option.toList_some, List.flatten_singleton] at hnext
    omega
  · rw [List.drop_eq_nil_of_le (by omega), List.flatten_nil, List.length_nil] at hsplit
    omega

/-- Items that come later start in the piece that was being filled, right behind what was in it. -/
theorem pieces_append (hsize : 0 < size) (xs : List α) {more : List α} (hmore : more ≠ []) :
    ∃ c later, pieces size (xs ++ more) = (cut size xs).1 ++ c :: later
      ∧ (cut size xs).2.length ≤ c.length
      ∧ c.drop (cut size xs).2.length ++ later.flatten = more := by
  obtain ⟨full, hfull⟩ := cut_append size xs more
  let last : List (List α) :=
    if (cut size (xs ++ more)).2 = [] then [] else [(cut size (xs ++ more)).2]
  have hpieces : pieces size (xs ++ more) = (cut size xs).1 ++ (full ++ last) := by
    rw [pieces, hfull, List.append_assoc]
  have hflat : (full ++ last).flatten = (cut size xs).2 ++ more := by
    have hall := pieces_flatten size (xs ++ more)
    have hxs := cut_flatten size xs
    rw [hpieces, List.flatten_append] at hall
    nth_rewrite 2 [← hxs] at hall
    rw [List.append_assoc] at hall
    exact List.append_cancel_left hall
  rcases htail : full ++ last with _ | ⟨c, later⟩
  · rw [htail] at hflat
    simp [hmore] at hflat
  · rw [htail] at hpieces hflat
    rw [List.flatten_cons] at hflat
    -- the first of these pieces is full, or it is the last and holds everything
    have hlong : (cut size xs).2.length ≤ c.length := by
      by_cases hlater : later = []
      · subst hlater
        have := congrArg List.length hflat
        simp only [List.flatten_nil, List.append_nil, List.length_append] at this
        omega
      · have hc : c ∈ full := by
          cases full with
          | nil =>
            simp only [List.nil_append, last] at htail
            split at htail
            · simp at htail
            · simp only [List.cons.injEq] at htail
              exact absurd htail.2.symm hlater
          | cons d ds =>
            simp only [List.cons_append, List.cons.injEq] at htail
            exact htail.1 ▸ List.mem_cons_self
        have hclen : c.length = size :=
          length_of_mem_cut (hfull ▸ List.mem_append_right (cut size xs).1 hc)
        have := length_cut_lt hsize xs
        omega
    refine ⟨c, later, hpieces, hlong, ?_⟩
    have hdrop := congrArg (List.drop (cut size xs).2.length) hflat
    rwa [List.drop_append_of_le_length hlong, List.drop_left] at hdrop

end SegmentStore
