import SegmentStore.Proofs.Decoding
import SegmentStore.Proofs.Pieces
import SegmentStore.Stream.Writer

/-!
# The chunks of a written stream

* `StreamWriter.chunkBytes` is a stream with chunks of the given contents.
* `StreamWriter.write_empty` says that a writer puts out the pieces of its data, however the data was
  handed over; `StreamWriter.finish_write` and `StreamWriter.position_write` are the finished stream and
  the place of the next byte.
-/

namespace SegmentStore

namespace StreamWriter

/-- The bytes of chunks with the given contents. -/
def chunkBytes (compress? : Option (Bytes → Bytes)) (cs : List Bytes) : Bytes :=
  cs.flatMap (chunkOf compress?)

variable {compress? : Option (Bytes → Bytes)}

theorem chunkBytes_nil : chunkBytes compress? [] = [] := rfl

theorem chunkBytes_append (cs ds : List Bytes) :
    chunkBytes compress? (cs ++ ds) = chunkBytes compress? cs ++ chunkBytes compress? ds :=
  List.flatMap_append

theorem chunkBytes_cons (c : Bytes) (cs : List Bytes) :
    chunkBytes compress? (c :: cs) = chunkOf compress? c ++ chunkBytes compress? cs :=
  List.flatMap_cons

/-- The writer has put out some chunks and is filling another. -/
structure Holds (w : StreamWriter) (s : List Bytes × Bytes) : Prop where
  output : w.output.toList = chunkBytes w.compress? s.1
  current : w.current.toList = s.2

theorem holds_writeByte {w : StreamWriter} {s : List Bytes × Bytes} (h : w.Holds s) (b : UInt8) :
    (w.writeByte b).Holds (cutStep w.bufferSize s b)
      ∧ (w.writeByte b).compress? = w.compress? ∧ (w.writeByte b).bufferSize = w.bufferSize := by
  have hcurrent : (w.current.push b).toList = s.2 ++ [b] := by rw [Array.toList_push, h.current]
  have hsize : (w.current.push b).size = (s.2 ++ [b]).length := by
    rw [← Array.length_toList, hcurrent]
  by_cases hfull : (s.2 ++ [b]).length = w.bufferSize
  · have hne : (w.current.push b).isEmpty = false := by simp [Array.isEmpty]
    refine ⟨⟨?_, ?_⟩, ?_, ?_⟩ <;> simp only [writeByte, cutStep, hsize, hfull, if_true, spill, hne]
    · simp only [Bool.false_eq_true, if_false, Array.toList_appendList, h.output, hcurrent,
        chunkBytes_append]
      simp [chunkBytes]
    all_goals simp
  · refine ⟨⟨?_, ?_⟩, ?_, ?_⟩ <;> simp only [writeByte, cutStep, hsize, hfull, if_false]
    · exact h.output
    · exact hcurrent

/-- After some bytes the writer has put out the chunks of the cut. -/
theorem holds_write {w : StreamWriter} {s : List Bytes × Bytes} (h : w.Holds s) (bs : Bytes) :
    (w.write bs).Holds (bs.foldl (cutStep w.bufferSize) s)
      ∧ (w.write bs).compress? = w.compress? ∧ (w.write bs).bufferSize = w.bufferSize := by
  induction bs generalizing w s with
  | nil => exact ⟨h, rfl, rfl⟩
  | cons b bs ih =>
    obtain ⟨hstep, hcompress, hsize⟩ := holds_writeByte h b
    obtain ⟨hrest, hcompress', hsize'⟩ := ih hstep
    rw [hsize] at hrest hsize'
    rw [hcompress] at hcompress'
    exact ⟨hrest, hcompress', hsize'⟩

theorem write_append (w : StreamWriter) (bs cs : Bytes) :
    w.write (bs ++ cs) = (w.write bs).write cs :=
  List.foldl_append

theorem write_singleton (w : StreamWriter) (b : UInt8) : w.write [b] = w.writeByte b := rfl

/-- The writer puts out the chunks of the cut. -/
theorem write_empty (compress? : Option (Bytes → Bytes)) (limit : Nat) (data : Bytes) :
    ((empty compress? limit).write data).Holds (cut (max limit 1) data)
      ∧ ((empty compress? limit).write data).compress? = compress? := by
  obtain ⟨h, hcompress, -⟩ := holds_write (w := empty compress? limit) (s := ([], [])) ⟨rfl, rfl⟩ data
  exact ⟨h, hcompress⟩

/-- The next byte will be found behind the full chunks, after what is in the chunk being filled. -/
theorem position_write (compress? : Option (Bytes → Bytes)) (limit : Nat) (data : Bytes) :
    ((empty compress? limit).write data).position
      = ((chunkBytes compress? (cut (max limit 1) data).1).length,
          (cut (max limit 1) data).2.length) := by
  obtain ⟨h, hcompress⟩ := write_empty compress? limit data
  rw [position, ← Array.length_toList, ← Array.length_toList, h.output, h.current, hcompress]

/-- A finished stream is the chunks of all its contents. -/
theorem finish_write (compress? : Option (Bytes → Bytes)) (limit : Nat) (data : Bytes) :
    ((empty compress? limit).write data).finish
      = chunkBytes compress? (pieces (max limit 1) data) := by
  obtain ⟨h, hcompress⟩ := write_empty compress? limit data
  have hempty : ((empty compress? limit).write data).current.isEmpty = true
      ↔ (cut (max limit 1) data).2 = [] := by
    rw [← h.current]
    simp [Array.isEmpty_iff]
  rw [finish, spill, pieces]
  by_cases hleft : (cut (max limit 1) data).2 = []
  · rw [if_pos (hempty.mpr hleft), if_pos hleft, h.output, hcompress, List.append_nil]
  · have hne := mt hempty.mp hleft
    rw [if_neg hne, if_neg hleft, chunkBytes_append, ← h.current, Array.toList_appendList, h.output,
      hcompress]
    simp [chunkBytes]

end StreamWriter

end SegmentStore
