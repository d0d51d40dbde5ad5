import Mathlib.Data.List.SplitLengths
import SegmentStore.Proofs.Chains
import SegmentStore.Proofs.Marks

/-!
# A column read from any of its blocks

A column is written value by value, and its zone map notes for each block where the streams of the column stand. Reading
from there on does not stop where the block ends: it goes on through the blocks and the chunks that follow.

* `ColumnReader.nextVectors` reads vectors one after the other, `ColumnReader.Yields` says what they give.
* `PlainReader.Over` says that a reader is one of the streams of a column that was written, wherever they stand in a file.
* `PlainReader.fits_of_readCells` says that no text is read that is too long to be written.
* `SegmentWriter.column_reads_back` puts these together: the blocks are as many as the rows fill, and each leads to its
  values and all that follow, exactly if all texts have a length that fits its word.
-/

namespace SegmentStore

open StreamWriter

/-! ### Vectors one after the other -/

namespace ColumnReader

/-- Reads vectors of the given sizes, up to the first that cannot be read. -/
def nextVectors (f : SegmentFile) (type : FieldType) :
    List Nat → ColumnReader → List (List Value) × Option StorageError
  | [], _ => ([], none)
  | n :: ns, r =>
    match r.nextVector f type n with
    | (.ok v, r) => (v.toList :: (nextVectors f type ns r).1, (nextVectors f type ns r).2)
    | (.error e, _) => ([], some e)

/-- Vectors of whatever sizes give the values `vs` in turn. One that wants more than are left meets the end of a stream. -/
structure Yields (r : ColumnReader) (f : SegmentFile) (type : FieldType) (vs : List Value) : Prop where
  within : ∀ ns, ns.sum ≤ vs.length → r.nextVectors f type ns = (ns.splitLengths vs, none)
  beyond : ∀ ns n, ns.sum ≤ vs.length → vs.length < ns.sum + n →
    r.nextVectors f type (ns ++ [n]) = (ns.splitLengths vs, some .streamEof)

end ColumnReader

namespace PlainReader

variable {f : SegmentFile} {compress? : Option (Bytes → Bytes)} {limit : Nat} {vs ahead : List Value} {r : PlainReader}

/-- A vector takes the values at the front, if there are so many. -/
theorem nextVector_ahead (h : r.Ahead f compress? limit vs ahead) {n : Nat} (hn : n ≤ ahead.length) :
    ∃ v s, (ColumnReader.plain r).nextVector f r.type n = (.ok v, .plain s) ∧ v.toList = ahead.take n
      ∧ s.Ahead f compress? limit vs (ahead.drop n) ∧ s.type = r.type := by
  rw [← List.take_append_drop n ahead] at h
  obtain ⟨v, s, hread, hv, -, hs, -, htype, -⟩ := readCells_ahead h (ColumnVector.holds_empty r.type)
    (ColumnVector.type_empty r.type)
  rw [List.length_take_of_le hn] at hread
  refine ⟨v, s, ?_, ColumnVector.toList_of_holds hv, hs, htype⟩
  rw [ColumnReader.nextVector, if_neg (fun hne => hne rfl), hread]

theorem nextVector_end (h : r.Ahead f compress? limit vs ahead) {n : Nat} (hn : ahead.length < n) :
    ∃ s, (ColumnReader.plain r).nextVector f r.type n = (.error .streamEof, .plain s) := by
  obtain ⟨s, hread, -, -⟩ := readCells_end h (ColumnVector.holds_empty r.type) (ColumnVector.type_empty r.type) hn
  refine ⟨s, ?_⟩
  rw [ColumnReader.nextVector, if_neg (fun hne => hne rfl), hread]

/-- What lies ahead is what is read. The induction is on the vectors. -/
theorem yields_of_ahead (h : r.Ahead f compress? limit vs ahead) : (ColumnReader.plain r).Yields f r.type ahead := by
  constructor
  · intro ns hns
    induction ns generalizing r ahead with
    | nil => rfl
    | cons n ns ih =>
      rw [List.sum_cons] at hns
      obtain ⟨v, s, hread, hv, hs, htype⟩ := nextVector_ahead h (n := n) (by omega)
      have hrest := ih hs (by rw [List.length_drop]; omega)
      rw [htype] at hrest
      rw [ColumnReader.nextVectors, hread, List.splitLengths_cons, ← hv]
      dsimp only
      rw [hrest]
  · intro ns n hns hn
    induction ns generalizing r ahead with
    | nil =>
      rw [List.sum_nil, Nat.zero_add] at hn
      obtain ⟨s, hread⟩ := nextVector_end h hn
      rw [List.nil_append, ColumnReader.nextVectors, hread]
      rfl
    | cons m ns ih =>
      rw [List.sum_cons] at hns hn
      obtain ⟨v, s, hread, hv, hs, htype⟩ := nextVector_ahead h (n := m) (by omega)
      have hrest := ih hs (by rw [List.length_drop]; omega) (by rw [List.length_drop]; omega)
      rw [htype] at hrest
      rw [List.cons_append, ColumnReader.nextVectors, hread, List.splitLengths_cons, ← hv]
      dsimp only
      rw [hrest]

end PlainReader

/-! ### Texts that are read -/

theorem StreamReader.length_of_readFrom {f : SegmentFile} {fuel n : Nat} {acc bs : Bytes} {s t : StreamReader}
    (h : s.readFrom f n acc fuel = (.ok bs, t)) : bs.length = acc.length + n := by
  induction fuel generalizing s n acc with
  | zero => cases h
  | succ fuel ih =>
    rw [readFrom_succ] at h
    have htake : (s.pending.take n).length ≤ n := List.length_take_le n s.pending
    split at h
    · rename_i hfull
      obtain ⟨hbs, -⟩ := Prod.mk.inj h
      rw [← Except.ok.inj hbs, List.length_append]
      omega
    · split at h
      · cases (Prod.mk.inj h).1
      · have hrest := ih h
        rw [List.length_append] at hrest
        omega

namespace PlainReader

variable {f : SegmentFile} {r s : PlainReader}

theorem length_of_readData {n : Nat} {bs : Bytes} (h : r.readData f n = (.ok bs, s)) : bs.length = n := by
  obtain ⟨hread, -⟩ := Prod.mk.inj h
  have hlength := StreamReader.length_of_readFrom (Prod.ext hread rfl : r.data.read f n = (.ok bs, _))
  rwa [List.length_nil, Nat.zero_add] at hlength

theorem fits_fixedValue (type : FieldType) (bs : Bytes) : (fixedValue type bs).Fits := by
  cases type <;> trivial

theorem fits_textValue {bs : Bytes} {v : Value} (hlength : bs.length < 2 ^ 32) (h : textValue bs = .ok v) : v.Fits := by
  rw [textValue] at h
  split at h
  · rename_i text htext
    obtain rfl := Except.ok.inj h
    show (Utf8.encode text).length < 2 ^ 32
    rwa [Utf8.encode_of_decode? htext]
  · cases h

/-- The length of a text that is read comes from a word. -/
theorem fits_of_readCell {v : Value} (h : r.readCell f = (.ok v, s)) : v.Fits := by
  rw [readCell] at h
  split at h
  · cases (Prod.mk.inj h).1
  rename_i isNull r₁ _
  split at h
  · cases (Prod.mk.inj h).1
  rename_i bs r₂ hbs
  split at h
  · rename_i htype
    split at h
    · cases (Prod.mk.inj h).1
    rename_i text r₃ htext
    -- the word before the text bounds what is read as the text, whatever it says
    have hsame : r₁.type = .varchar := by rwa [← (Prod.mk.inj hbs).2] at htype
    have hword := Decoder.leNat_lt bs
    rw [length_of_readData hbs, hsame] at hword
    have htextLength := length_of_readData htext
    obtain ⟨hvalue, -⟩ := Prod.mk.inj h
    split at hvalue
    · rw [← Except.ok.inj hvalue]
      trivial
    · exact fits_textValue (by rw [htextLength]; exact hword) hvalue
  · obtain ⟨hvalue, -⟩ := Prod.mk.inj h
    rw [← Except.ok.inj hvalue]
    split
    · trivial
    · exact fits_fixedValue _ bs

/-- All values of a vector that was read could be written. -/
theorem fits_of_readCells {n : Nat} {v w : ColumnVector} {items : List Value} (hv : v.Holds items)
    (hitems : ∀ x ∈ items, x.Fits) (h : r.readCells f n v = (.ok w, s)) : ∀ x ∈ w.toList, x.Fits := by
  induction n generalizing r v items with
  | zero =>
    obtain ⟨hw, -⟩ := Prod.mk.inj h
    rw [← Except.ok.inj hw, ColumnVector.toList_of_holds hv]
    exact hitems
  | succ n ih =>
    rw [readCells] at h
    split at h
    · cases (Prod.mk.inj h).1
    rename_i x r' hx
    split at h
    · cases (Prod.mk.inj h).1
    rename_i v' hpush
    obtain ⟨u, hu, hholds, -⟩ := ColumnVector.push_holds hv (ColumnVector.accepts_of_push hpush)
    obtain rfl := Except.ok.inj (hu.symm.trans hpush)
    apply ih hholds _ h
    intro y hy
    rcases List.mem_append.mp hy with hy | hy
    · exact hitems y hy
    · rw [List.mem_singleton.mp hy]
      exact fits_of_readCell hx

end PlainReader

theorem ColumnReader.Yields.fits {f : SegmentFile} {type : FieldType} {r : PlainReader} {vs : List Value}
    (h : (ColumnReader.plain r).Yields f type vs) : ∀ v ∈ vs, v.Fits := by
  have hall := h.within [vs.length] (by simp)
  rw [nextVectors, nextVector] at hall
  split at hall
  · rename_i v r' hread
    obtain ⟨hvectors, -⟩ := Prod.mk.inj hall
    rw [List.splitLengths_cons, List.take_length] at hvectors
    rw [← (List.cons.inj hvectors).1]
    split at hread
    · cases (Prod.mk.inj hread).1
    · obtain ⟨hcells, -⟩ := Prod.mk.inj hread
      exact PlainReader.fits_of_readCells (ColumnVector.holds_empty type) (List.forall_mem_nil _)
        (Prod.ext hcells rfl)
  · cases (Prod.mk.inj hall).2

/-! ### The blocks of a column -/

section Blocks

variable {size i : Nat} {rows : List (List Value)}

/-- The values from a block on are those of the rows from where it starts. -/
theorem flatten_drop_columnBlocks (j : Nat) (hi : i < (pieces size rows).length) :
    ((columnBlocks (pieces size rows) j).drop i).flatten = (rows.map (rowCell j)).drop (i * size) := by
  rw [columnBlocks, ← List.map_drop, ← columnBlocks, flatten_columnBlocks, flatten_drop_pieces hi, List.map_drop]

/-- A block starts before the rows end. -/
theorem drop_ne_nil_of_lt_pieces {j : Nat} (hsize : 0 < size) (hi : i < (pieces size rows).length) :
    (rows.map (rowCell j)).drop (i * size) ≠ [] := by
  rw [length_pieces hsize, Nat.lt_iff_add_one_le, Nat.le_div_iff_mul_le hsize, Nat.succ_mul] at hi
  rw [Ne, List.drop_eq_nil_iff, List.length_map]
  omega

end Blocks

/-! ### The streams of a column that was written -/

/-- The reader is one of a stream that stands somewhere in the file. Where its cursor is does not matter. -/
def StreamReader.Over (s : StreamReader) (f : SegmentFile) (o : WriterOptions) (stream : Bytes) : Prop :=
  ∃ offset, f.HasAt offset stream
    ∧ s.home = make (UInt64.ofNat offset) (UInt64.ofNat stream.length) o.decompressor? o.bufferSize.toNat

/-- The reader is one of the streams of a column that was written, of the nulls only if the column records them. -/
structure PlainReader.Over (r : PlainReader) (f : SegmentFile) (o : WriterOptions) (w : ColumnWriter) : Prop where
  type : r.type = w.column.type
  data : r.data.Over f o w.data.finish
  present : Option.Rel (fun p q => p.Over f o q.finish) r.present? w.present?

/-- The compression of the segment is undone when it is read. -/
def WriterOptions.Lossless (o : WriterOptions) : Prop :=
  Undoes o.compressor? o.decompressor? o.bufferSize.toNat

theorem StreamReader.Over.stores {s : StreamReader} {f : SegmentFile} {o : WriterOptions} {data : Bytes}
    (hlossless : o.Lossless) (hsize : f.size < 2 ^ 63)
    (h : s.Over f o ((empty o.compressor? o.bufferSize.toNat).write data).finish) :
    s.Stores f o.compressor? (pieces (max o.bufferSize.toNat 1) data) := by
  obtain ⟨offset, hheld, hhome⟩ := h
  rw [finish_write] at hheld hhome
  have hle := hheld.le_size
  have hoffset : s.offset = UInt64.ofNat offset := congrArg (·.offset) hhome
  have hlength : s.length = UInt64.ofNat (chunkBytes o.compressor?
      (pieces (max o.bufferSize.toNat 1) data)).length := congrArg (·.length) hhome
  have hdecompress : s.decompress? = o.decompressor? := congrArg (·.decompress?) hhome
  have hlimit : s.bufferSize = o.bufferSize.toNat := congrArg (·.bufferSize) hhome
  have hnarrow := o.bufferSize.toNat_lt
  have hoffsetNat : s.offset.toNat = offset := by rw [hoffset, Decoder.toNat_ofNat_u64 (by omega)]
  have hlengthNat := congrArg UInt64.toNat hlength
  rw [Decoder.toNat_ofNat_u64 (by omega)] at hlengthNat
  refine ⟨?_, hlengthNat, by omega, ?_, by omega, ?_⟩
  · rw [hoffsetNat]
    exact hheld
  · intro c hc
    rw [hlimit]
    exact (length_of_mem_pieces (by omega) hc).2
  · rw [hdecompress, hlimit]
    exact hlossless

namespace ColumnWriter

variable {w : ColumnWriter} {o : WriterOptions} {c : Column} {blocks : List (List Value)}

/-- A reader of the streams of a column has the values of all blocks. -/
theorem Holds.stores (hw : w.Holds o c blocks []) (hlossless : o.Lossless) {f : SegmentFile} (hsize : f.size < 2 ^ 63)
    (hfits : ∀ v ∈ blocks.flatten, v.Fits) {r : PlainReader} (hr : r.Over f o w) :
    r.Stores f o.compressor? o.bufferSize.toNat blocks.flatten
      ∧ r.present?.isSome = c.recordsNulls o := by
  have hdata := hw.data
  have hpresent := hw.present
  have haccepts := hw.accepts
  have hnulls := hw.nulls
  rw [List.append_nil] at hdata hpresent haccepts hnulls
  have htype : r.type = c.type := by rw [hr.type, hw.column]; rfl
  have hstream := hr.data
  rw [hdata] at hstream
  have hover := hr.present
  have hsome : r.present?.isSome = c.recordsNulls o := by
    rw [hpresent] at hover
    generalize r.present? = p? at hover
    cases hrecords : c.recordsNulls o <;> rw [hrecords] at hover <;> cases hover <;> rfl
  refine ⟨⟨?_, ?_, ?_, ?_, hfits⟩, hsome⟩
  · rw [htype]
    exact hstream.stores hlossless hsize
  · intro p hp
    have hrecords : c.recordsNulls o = true := by rw [← hsome, hp]; rfl
    rw [hp, hpresent, if_pos hrecords] at hover
    cases hover with
    | some hp => exact hp.stores hlossless hsize
  · intro hnone
    rw [hnone] at hsome
    exact hnulls hsome.symm
  · rw [htype]
    exact haccepts

/-- The entry of a block leads to its values and to those of all blocks behind it. -/
theorem Holds.seek (hw : w.Holds o c blocks []) (hlossless : o.Lossless) {f : SegmentFile} (hsize : f.size < 2 ^ 63)
    (hfits : ∀ v ∈ blocks.flatten, v.Fits) {r : PlainReader} (hr : r.Over f o w) {i : Nat} (hi : i < blocks.length)
    (hblock : (blocks.drop i).flatten ≠ []) {e : ZoneMapEntry} (he : w.zoneMap[i]? = some e) :
    ((ColumnReader.plain r).seek f e.positions).1 = .ok ()
      ∧ ((ColumnReader.plain r).seek f e.positions).2.Yields f w.column.type (blocks.drop i).flatten := by
  obtain ⟨hstores, hsome⟩ := hw.stores hlossless hsize hfits hr
  rw [← Array.getElem?_toList, hw.zoneMap, Column.getElem_zoneEntries blocks hi] at he
  have hsplit : blocks.flatten = (blocks.take i).flatten ++ (blocks.drop i).flatten := by
    rw [← List.flatten_append, List.take_append_drop]
  rw [hsplit] at hstores
  obtain ⟨s, hseek, hahead, -, htype, -⟩ := PlainReader.seek_ahead hstores hblock
  have htypes : s.type = w.column.type := htype.trans hr.type
  have hpositions : e.positions = startWords o.compressor? o.bufferSize.toNat r.present?.isSome r.type
      (blocks.take i).flatten := by
    rw [← Option.some.inj he, hsome, hr.type, hw.column]
    rfl
  rw [hpositions, ColumnReader.seek, hseek]
  refine ⟨rfl, ?_⟩
  rw [← htypes]
  exact PlainReader.yields_of_ahead hahead

end ColumnWriter

namespace SegmentWriter

variable {schema : TabletSchema} {cids : List ColumnId} {o : WriterOptions} {start w : SegmentWriter}
variable {rows : List (List Value)} {j : Nat} {cw : ColumnWriter}

/-- Each column holds the blocks into which the rows are cut. -/
theorem column_holds (hmade : make schema cids o = .ok start) (happended : start.appendAll rows = .ok w)
    (hcw : w.closed.columns[j]? = some cw) :
    0 < o.rowsPerBlock.toNat ∧ ∃ c, cw.Holds o c (columnBlocks (pieces o.rowsPerBlock.toNat rows) j) [] := by
  obtain ⟨cols, -, hstart, hrows, -⟩ := holds_make hmade
  have hclosed := holds_closed (holds_appendAll [] hstart happended)
  have hj : j < cols.length := by
    rw [← hclosed.length]
    exact (List.getElem?_eq_some_iff.mp hcw).1
  exact ⟨hrows, cols[j], hclosed.columns j cols[j] cw (List.getElem?_eq_getElem hj) hcw⟩

/-- A column of a segment that was written has a block for each so many rows, and one for those that are left. Over its
streams, wherever they stand in a file, the entry of a block leads to the first value of the block. From there vectors of
whatever sizes give the values of that block and of those behind it, and then the end of the stream. Only a text whose
length does not fit its word is not read back. -/
theorem column_reads_back (hmade : make schema cids o = .ok start) (happended : start.appendAll rows = .ok w)
    (hlossless : o.Lossless) (hcw : w.closed.columns[j]? = some cw) :
    cw.zoneMap.size = (rows.length + o.rowsPerBlock.toNat - 1) / o.rowsPerBlock.toNat
      ∧ ∀ (f : SegmentFile) (r : PlainReader), f.size < 2 ^ 63 → r.Over f o cw →
        ((∀ row ∈ rows, (rowCell j row).Fits)
          ↔ ∀ (i : Nat) (e : ZoneMapEntry), cw.zoneMap[i]? = some e →
            ((ColumnReader.plain r).seek f e.positions).1 = .ok ()
              ∧ ((ColumnReader.plain r).seek f e.positions).2.Yields f cw.column.type
                ((rows.map (rowCell j)).drop (i * o.rowsPerBlock.toNat))) := by
  obtain ⟨hpos, c, hholds⟩ := column_holds hmade happended hcw
  have hcount : cw.zoneMap.size = (pieces o.rowsPerBlock.toNat rows).length := by
    rw [← Array.length_toList, hholds.zoneMap, Column.length_zoneEntries, columnBlocks, List.length_map]
  refine ⟨hcount.trans (length_pieces hpos rows), fun f r hsize hr => ⟨?_, ?_⟩⟩
  · intro hfits i e he
    have hi : i < (pieces o.rowsPerBlock.toNat rows).length := hcount ▸ (Array.getElem?_eq_some_iff.mp he).1
    have hvalues : ∀ v ∈ (columnBlocks (pieces o.rowsPerBlock.toNat rows) j).flatten, v.Fits := by
      rw [flatten_columnBlocks, pieces_flatten]
      exact List.forall_mem_map.mpr hfits
    have hahead := flatten_drop_columnBlocks j hi
    have hblock : ((columnBlocks (pieces o.rowsPerBlock.toNat rows) j).drop i).flatten ≠ [] := by
      rw [hahead]
      exact drop_ne_nil_of_lt_pieces hpos hi
    rw [← hahead]
    exact hholds.seek hlossless hsize hvalues hr (by rwa [columnBlocks, List.length_map]) hblock he
  · intro hreads row hrow
    -- the first block is read, and with it all values of the column
    have hfirst : 0 < (pieces o.rowsPerBlock.toNat rows).length := by
      rw [length_pieces hpos]
      have hrows := List.length_pos_of_mem hrow
      exact Nat.div_pos (by omega) hpos
    obtain ⟨-, hyields⟩ := hreads 0 cw.zoneMap[0] (Array.getElem?_eq_getElem (hcount.symm ▸ hfirst))
    rw [Nat.zero_mul, List.drop_zero] at hyields
    exact hyields.fits _ (List.mem_map_of_mem hrow)

end SegmentWriter

/-! ### The keys of the small segment -/

namespace WrittenSegment

/-- A file of nothing but the streams of a column. -/
def streamFile (w : ColumnWriter) : SegmentFile :=
  ⟨.positioned, ⟨((w.present?.elim [] StreamWriter.finish) ++ w.data.finish).toArray⟩⟩

/-- A reader of these streams. -/
def streamReader (o : WriterOptions) (w : ColumnWriter) : PlainReader :=
  let make (offset : Nat) (stream : Bytes) : StreamReader :=
    .make (UInt64.ofNat offset) (UInt64.ofNat stream.length) o.decompressor? o.bufferSize.toNat
  ⟨w.column.uniqueId, w.column.type, w.present?.map fun q => make 0 q.finish,
    make (w.present?.elim [] StreamWriter.finish).length w.data.finish⟩

theorem over_streamReader (o : WriterOptions) (w : ColumnWriter) : (streamReader o w).Over (streamFile w) o w := by
  refine ⟨rfl, ⟨_, ⟨w.present?.elim [] StreamWriter.finish, [], ?_, rfl⟩, rfl⟩, ?_⟩
  · rw [List.append_nil]
    rfl
  · show Option.Rel _ (w.present?.map _) w.present?
    cases hpresent : w.present? with
    | none => exact .none
    | some q =>
      refine .some ⟨0, ⟨[], w.data.finish, ?_, rfl⟩, rfl⟩
      rw [List.nil_append, SegmentFile.toList, streamFile, hpresent]
      rfl

/-- Three keys in blocks of two, the second one null, from either block on. -/
theorem column_reads_back_keys :
    ∃ w, sample.writer.closed.columns[1]? = some w ∧ w.zoneMap.size = 2
      ∧ ∀ e, (w.zoneMap[0]? = some e →
          ((ColumnReader.plain (streamReader sampleOptions w)).seek (streamFile w) e.positions).2.Yields (streamFile w)
            w.column.type [.int32 7, .null, .int32 3])
        ∧ (w.zoneMap[1]? = some e →
          ((ColumnReader.plain (streamReader sampleOptions w)).seek (streamFile w) e.positions).2.Yields (streamFile w)
            w.column.type [.int32 3]) := by
  have hsize : (sample.writer.closed.columns[1]?).all (fun w => (streamFile w).size < 2 ^ 63) = true := by
    decide +kernel
  have hsome : (sample.writer.closed.columns[1]?).isSome = true := by decide +kernel
  obtain ⟨w, hw⟩ := Option.isSome_iff_exists.mp hsome
  rw [hw, Option.all_some, decide_eq_true_eq] at hsize
  obtain ⟨hcount, hreads⟩ := SegmentWriter.column_reads_back sample.made sample.accepted lossless_sample hw
  have hfits : ∀ row ∈ sample.rows, (rowCell 1 row).Fits := by simp [sample, sampleRows, rowCell, Value.Fits]
  have hread := (hreads (streamFile w) (streamReader sampleOptions w) hsize (over_streamReader _ w)).mp hfits
  exact ⟨w, hw, hcount, fun e => ⟨fun he => (hread 0 e he).2, fun he => (hread 1 e he).2⟩⟩

end WrittenSegment

end SegmentStore
