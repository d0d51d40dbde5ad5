import Mathlib.Data.List.Nodup
import SegmentStore.Proofs.Lz4
import SegmentStore.Proofs.Rows
import SegmentStore.Proofs.Zstandard

/-!
# Written segments

* `Column.content?` is what each stream of a column holds, `segmentStreams` the streams of a file in order.
* `SegmentWriter.namedStreams` are the streams that a writer puts out, `SegmentWriter.finish_streams` and
  `SegmentWriter.finish_bytes` what the header and the file make of them.
* `SegmentWriter.finish_eq` says that finishing gives the header of the streams of the rows, and their bytes.
* `WrittenSegment` is a segment together with the run of the writer that made it; its columns have distinct
  stable ids, and each of its blocks is a piece of the rows.
* `WrittenSegment.Fits` collects the sizes that the format relies on and the writer does not check.
* `WrittenSegment.Lossless` is what is assumed of the codecs of a segment. The standard ones have it, by
  `WrittenSegment.lossless_standard`.
* `WrittenSegment.sample` is a small segment, `WrittenSegment.runs` one with compressed chunks.
-/

namespace SegmentStore

open StreamWriter

/-- The chunks of a stream with the given content. -/
def WriterOptions.stream (o : WriterOptions) (content : Bytes) : Bytes :=
  chunkBytes o.compressor? (pieces (max o.bufferSize.toNat 1) content)

namespace Column

/-- What a stream of a column holds, given the blocks of the column, if it has that stream. -/
def content? (c : Column) (o : WriterOptions) (bs : List (List Value)) : StreamKind → Option Bytes
  | .rowIndex => some (ZoneMap.encode (c.zoneEntries o [] bs))
  | .bloomFilter => if c.hasBloom o then some (bloomBytes o bs) else none
  | .present => if c.recordsNulls o then some (bs.flatten.map Value.nullByte) else none
  | .data => some (bs.flatten.flatMap (Value.stored c.type))

/-- The streams of a column, in the order of the file. -/
def streams (c : Column) (o : WriterOptions) (bs : List (List Value)) : List (StreamKind × Bytes) :=
  StreamKind.all.filterMap fun kind => (c.content? o bs kind).map fun content =>
    (kind, o.stream content)

theorem mem_streams {c : Column} {o : WriterOptions} {bs : List (List Value)} {kind : StreamKind}
    {bytes : Bytes} :
    (kind, bytes) ∈ c.streams o bs ↔ ∃ content, c.content? o bs kind = some content
      ∧ o.stream content = bytes := by
  have hall : ∀ k : StreamKind, k ∈ StreamKind.all := by
    intro k
    cases k <;> simp [StreamKind.all]
  simp only [streams, List.mem_filterMap, Option.map_eq_some_iff, Prod.mk.injEq]
  constructor
  · rintro ⟨k, -, content, hcontent, rfl, hbytes⟩
    exact ⟨content, hcontent, hbytes⟩
  · rintro ⟨content, hcontent, hbytes⟩
    exact ⟨kind, hall kind, content, hcontent, rfl, hbytes⟩

/-- A column has at most one stream of each kind. -/
theorem map_fst_streams (c : Column) (o : WriterOptions) (bs : List (List Value)) :
    (c.streams o bs).map Prod.fst = StreamKind.all.filter fun kind => (c.content? o bs kind).isSome := by
  rw [streams]
  induction StreamKind.all with
  | nil => rfl
  | cons kind kinds ih =>
    cases hcontent : c.content? o bs kind with
    | none => simp [hcontent, ih]
    | some content => simp [hcontent, ih]

end Column

/-- A stream of a file: its column, its kind and its bytes. -/
abbrev NamedStream := UniqueId × StreamKind × Bytes

/-- What the header says about a stream. -/
def NamedStream.info (s : NamedStream) : StreamInfo := ⟨s.1, s.2.1, UInt64.ofNat s.2.2.length⟩

/-- The blocks of a column, from those of the rows. -/
def columnBlocks (blocks : List (List (List Value))) (j : Nat) : List (List Value) :=
  blocks.map (List.map (rowCell j))

theorem flatten_columnBlocks (blocks : List (List (List Value))) (j : Nat) :
    (columnBlocks blocks j).flatten = blocks.flatten.map (rowCell j) := by
  rw [columnBlocks, List.map_flatten]

/-- The streams of a file with the given columns and blocks of rows. -/
def segmentStreams (o : WriterOptions) (cols : List Column) (blocks : List (List (List Value))) :
    List NamedStream :=
  cols.zipIdx.flatMap fun (c, j) => (c.streams o (columnBlocks blocks j)).map fun s => (c.uniqueId, s)

/-- The header of a file with the given columns and blocks of rows. -/
def segmentHeader (o : WriterOptions) (cols : List Column) (blocks : List (List (List Value))) :
    SegmentHeader where
  magic := SegmentHeader.segmentMagic
  version := SegmentHeader.currentVersion
  rowCount := UInt64.ofNat blocks.flatten.length
  rowsPerBlock := o.rowsPerBlock
  compression := o.compression.tag
  bufferSize := o.bufferSize
  bloomHashes := o.bloomHashes
  bloomBits := o.bloomBits
  nullSupported := o.nullSupported
  columns := cols.map Column.stored
  streams := (segmentStreams o cols blocks).map NamedStream.info

/-- The file with the given columns and blocks of rows. -/
def segmentBytes (o : WriterOptions) (cols : List Column) (blocks : List (List (List Value))) : Bytes :=
  (segmentHeader o cols blocks).encode ++ (segmentStreams o cols blocks).flatMap fun s => s.2.2

theorem mem_segmentStreams {o : WriterOptions} {cols : List Column}
    {blocks : List (List (List Value))} {s : NamedStream} :
    s ∈ segmentStreams o cols blocks ↔ ∃ (j : Nat) (c : Column) (content : Bytes), cols[j]? = some c
      ∧ s.1 = c.uniqueId
      ∧ c.content? o (columnBlocks blocks j) s.2.1 = some content ∧ s.2.2 = o.stream content := by
  obtain ⟨uid, kind, bytes⟩ := s
  simp only [segmentStreams, List.mem_flatMap, List.mem_map, Prod.exists, Prod.mk.injEq,
    List.mk_mem_zipIdx_iff_getElem?]
  constructor
  · rintro ⟨c, j, hj, kind', bytes', hmem, rfl, rfl, rfl⟩
    obtain ⟨content, hcontent, hbytes⟩ := Column.mem_streams.mp hmem
    exact ⟨j, c, content, hj, rfl, hcontent, hbytes.symm⟩
  · rintro ⟨j, c, content, hj, rfl, hcontent, rfl⟩
    exact ⟨c, j, hj, kind, _, Column.mem_streams.mpr ⟨content, hcontent, rfl⟩, rfl, rfl, rfl⟩

namespace SegmentWriter

/-- The streams of the finished file. -/
def namedStreams (w : SegmentWriter) : List NamedStream :=
  w.closed.columns.flatMap fun c => (columnStreams w.options c).map fun e => (c.column.uniqueId, e)

theorem options_closed (w : SegmentWriter) : w.closed.options = w.options := by
  rw [closed]
  split <;> rfl

theorem finish_streams (w : SegmentWriter) :
    w.finish.1.streams = w.namedStreams.map NamedStream.info := by
  rw [namedStreams, ← options_closed]
  rfl

theorem finish_bytes (w : SegmentWriter) :
    w.finish.2 = w.finish.1.encode ++ w.namedStreams.flatMap fun s => s.2.2 := by
  rw [namedStreams, ← options_closed]
  rfl

/-- The streams that a column writer puts out are those of its column. -/
theorem columnStreams_eq {w : ColumnWriter} {o : WriterOptions} {c : Column} {bs : List (List Value)}
    (h : w.Holds o c bs []) : columnStreams o w = c.streams o bs := by
  have hpresent := h.present
  have hdata := h.data
  have hbloom := h.bloom
  rw [List.append_nil] at hpresent hdata
  rw [columnStreams, h.zoneMap, hpresent, hdata, hbloom, finish_write, indexStream, finish_write]
  simp only [Column.streams, StreamKind.all, List.filterMap_cons, List.filterMap_nil, Column.content?]
  cases c.hasBloom o <;> cases c.recordsNulls o <;>
    simp [WriterOptions.stream, indexStream, finish_write]

/-- A writer whose blocks are all put away gives the header and the file of its blocks. -/
theorem finish_eq {w : SegmentWriter} {o : WriterOptions} {cols : List Column}
    {blocks : List (List (List Value))} (h : w.closed.Holds o cols blocks []) :
    w.finish = (segmentHeader o cols blocks, segmentBytes o cols blocks) := by
  have hcolumn : ∀ (j : Nat) (c : Column) (cw : ColumnWriter), cols[j]? = some c →
      w.closed.columns[j]? = some cw →
      cw.column = c.stored ∧ columnStreams o cw = c.streams o (columnBlocks blocks j) := by
    intro j c cw hc hcw
    have hholds := h.columns j c cw hc hcw
    exact ⟨hholds.column, columnStreams_eq hholds⟩
  have hstored : w.closed.columns.map (·.column) = cols.map Column.stored := by
    refine List.ext_getElem (by simp [h.length]) fun j hj hj' => ?_
    rw [List.length_map] at hj hj'
    rw [List.getElem_map, List.getElem_map]
    exact (hcolumn j _ _ (List.getElem?_eq_getElem hj') (List.getElem?_eq_getElem hj)).1
  have hstreams : (w.closed.columns.flatMap fun cw =>
      (columnStreams o cw).map fun e => (cw.column.uniqueId, e.1, e.2)) = segmentStreams o cols blocks := by
    rw [segmentStreams, List.flatMap_def, List.flatMap_def]
    congr 1
    refine List.ext_getElem (by simp [h.length]) fun j hj hj' => ?_
    rw [List.length_map] at hj
    rw [List.length_map, List.length_zipIdx] at hj'
    obtain ⟨hcol, hstr⟩ := hcolumn j _ _ (List.getElem?_eq_getElem hj') (List.getElem?_eq_getElem hj)
    rw [List.getElem_map, List.getElem_map, List.getElem_zipIdx, hcol, hstr, Nat.zero_add]
    rfl
  have hcount := h.rowCount
  rw [List.append_nil] at hcount
  have hclosed : (if 0 < w.rowsInBlock then w.finishBlock else w) = w.closed := rfl
  simp only [finish, hclosed, h.options, hstored, hcount, segmentHeader, segmentBytes, ← hstreams]
  rfl

end SegmentWriter

/-! ### A segment and the run that wrote it -/

/-- Two positions of a table with distinct stable ids hold columns of different ids. -/
theorem TabletSchema.column?_inj {schema : TabletSchema} {a b : ColumnId} {c d : Column}
    (hdistinct : (schema.columns.map (·.uniqueId)).Nodup) (ha : schema.column? a = some c)
    (hb : schema.column? b = some d) (h : c.uniqueId = d.uniqueId) : a = b := by
  rw [column?] at ha hb
  have hlt : a.toNat < (schema.columns.map (·.uniqueId)).length := by
    rw [List.length_map]
    exact (List.getElem?_eq_some_iff.mp ha).1
  have hpos : a.toNat = b.toNat := by
    refine (List.getElem?_inj hlt hdistinct).mp ?_
    rw [List.getElem?_map, List.getElem?_map, ha, hb, Option.map_some, Option.map_some, h]
  exact UInt32.toNat_inj.mp hpos

/-- A finished segment: some distinct columns of a table, and rows that the writer has all taken. -/
structure WrittenSegment where
  schema : TabletSchema
  cids : List ColumnId
  options : WriterOptions
  rows : List (List Value)
  start : SegmentWriter
  writer : SegmentWriter
  distinctIds : (schema.columns.map (·.uniqueId)).Nodup
  distinctColumns : cids.Nodup
  made : SegmentWriter.make schema cids options = .ok start
  accepted : start.appendAll rows = .ok writer

namespace WrittenSegment

variable (s : WrittenSegment)

/-- The stored columns. -/
def cols : List Column := s.cids.filterMap s.schema.column?

/-- The rows of each block. -/
def blocks : List (List (List Value)) := pieces s.options.rowsPerBlock.toNat s.rows

/-- The rows of a block, none where there is no such block. -/
def block (b : Nat) : List (List Value) := s.blocks[b]?.getD []

/-- The values of a stored column in each block. -/
def columnBlocks (j : Nat) : List (List Value) := SegmentStore.columnBlocks s.blocks j

/-- The header of the file. -/
def header : SegmentHeader := s.writer.finish.1

/-- The file. -/
def bytes : Bytes := s.writer.finish.2

/-- The value of a row in a table column, its default where the segment does not store the column. -/
def cell (row : List Value) (cid : ColumnId) : Value :=
  ((s.cids.zip row).lookup cid).getD ((s.schema.column? cid).elim .null Column.default)

/-- The sizes that the format relies on: texts, the header and the number of blocks fit the words that
record them, and the file can be addressed. -/
structure Fits : Prop where
  texts : ∀ row ∈ s.rows, ∀ v ∈ row, v.Fits
  header : s.header.encodeBody.length < 2 ^ 32
  blocks : s.blocks.length < 2 ^ 32
  bytes : s.bytes.length < 2 ^ 63

/-- What the compressor of the segment makes of a chunk, its decompressor undoes. -/
def Lossless : Prop :=
  Undoes s.options.compressor? s.options.decompressor?
    s.options.bufferSize.toNat

variable {s}

theorem cids_map : s.cids.map s.schema.column? = s.cols.map some := by
  obtain ⟨cols, hcols, -⟩ := SegmentWriter.holds_make s.made
  have h : s.cols = cols := by
    have hid := congrArg (List.filterMap id) hcols
    rwa [List.filterMap_map, List.filterMap_map, Function.id_comp, Function.id_comp,
      List.filterMap_some] at hid
  rw [h, hcols]

theorem rowsPerBlock_pos (s : WrittenSegment) : 0 < s.options.rowsPerBlock.toNat := by
  obtain ⟨-, -, -, hpos, -⟩ := SegmentWriter.holds_make s.made
  exact hpos

theorem validParameters (h : s.options.bloomColumns ≠ []) :
    BloomFilter.validParameters s.options.bloomBits.toNat s.options.bloomHashes.toNat = true := by
  obtain ⟨-, -, -, -, hvalid⟩ := SegmentWriter.holds_make s.made
  exact hvalid h

/-- The writer of the segment, its last block put away, holds the blocks of the rows. -/
theorem holds (s : WrittenSegment) : s.writer.closed.Holds s.options s.cols s.blocks [] := by
  obtain ⟨cols, hcols, hstart, -, -⟩ := SegmentWriter.holds_make s.made
  obtain rfl : cols = s.cols := by
    have h := cids_map (s := s)
    rw [hcols] at h
    exact List.map_injective_iff.mpr (Option.some_injective Column) h
  have hall := SegmentWriter.holds_appendAll [] hstart s.accepted
  rw [List.nil_append] at hall
  exact SegmentWriter.holds_closed hall

theorem finish_eq (s : WrittenSegment) :
    s.writer.finish
      = (segmentHeader s.options s.cols s.blocks, segmentBytes s.options s.cols s.blocks) :=
  SegmentWriter.finish_eq s.holds

theorem header_eq (s : WrittenSegment) : s.header = segmentHeader s.options s.cols s.blocks := by
  rw [header, s.finish_eq]

theorem header_streams (s : WrittenSegment) :
    s.header.streams = (segmentStreams s.options s.cols s.blocks).map NamedStream.info := by
  rw [header_eq, segmentHeader]

/-- The streams stand behind the header. -/
theorem bytes_eq (s : WrittenSegment) :
    s.bytes = s.header.encode
      ++ (segmentStreams s.options s.cols s.blocks).flatMap fun t => t.2.2 := by
  rw [header_eq, bytes, s.finish_eq, segmentBytes]

/-! ### Columns -/

/-- A stored column is the table column at its place. -/
theorem getElem?_cols {j : Nat} {c : Column} :
    s.cols[j]? = some c ↔ ∃ cid, s.cids[j]? = some cid ∧ s.schema.column? cid = some c := by
  have h := congrArg (fun l => l[j]?) (cids_map (s := s))
  simp only [List.getElem?_map] at h
  cases hcid : s.cids[j]? with
  | none => simp [hcid] at h; simp [h]
  | some cid =>
    cases hc : s.cols[j]? with
    | none => simp [hcid, hc] at h
    | some d =>
      have hd : s.schema.column? cid = some d := by simpa [hcid, hc] using h
      simp [hd]

theorem length_cols : s.cols.length = s.cids.length := by
  have h := congrArg List.length (cids_map (s := s))
  rwa [List.length_map, List.length_map, eq_comm] at h

/-- A stored column has its place. -/
theorem exists_column {cid : ColumnId} (h : cid ∈ s.cids) :
    ∃ (j : Nat) (c : Column), s.cids[j]? = some cid ∧ s.cols[j]? = some c := by
  obtain ⟨j, hj⟩ := List.mem_iff_getElem?.mp h
  have hlt : j < s.cols.length := by
    rw [length_cols]
    exact (List.getElem?_eq_some_iff.mp hj).1
  exact ⟨j, _, hj, List.getElem?_eq_getElem hlt⟩

/-- The stored columns have distinct stable ids. -/
theorem nodup_cols (s : WrittenSegment) : (s.cols.map (·.uniqueId)).Nodup := by
  rw [cols, List.map_filterMap]
  refine s.distinctColumns.filterMap fun a b uid ha hb => ?_
  simp only [Option.mem_def, Option.map_eq_some_iff] at ha hb
  obtain ⟨c, hc, rfl⟩ := ha
  obtain ⟨d, hd, hid⟩ := hb
  exact TabletSchema.column?_inj s.distinctIds hc hd hid.symm

theorem length_row {row : List Value} (hrow : row ∈ s.rows) : row.length = s.cids.length := by
  have hflat : row ∈ s.blocks.flatten ++ [] := by
    rw [List.append_nil, blocks, pieces_flatten]
    exact hrow
  rw [s.holds.widths row hflat, length_cols]

/-- The values of a stored column are of its type, and null only where nulls are recorded. -/
theorem accepts_cell {row : List Value} {j : Nat} {c : Column} (hrow : row ∈ s.rows)
    (hc : s.cols[j]? = some c) :
    c.type.accepts (rowCell j row) = true
      ∧ (c.recordsNulls s.options = false → (rowCell j row).isNull = false) := by
  have hj := (List.getElem?_eq_some_iff.mp hc).1
  rw [← s.holds.length] at hj
  have hcolumn := s.holds.columns j c _ hc (List.getElem?_eq_getElem hj)
  have hmem : rowCell j row ∈ (s.blocks.map (List.map (rowCell j))).flatten ++ [] := by
    rw [List.append_nil, ← List.map_flatten, blocks, pieces_flatten]
    exact List.mem_map_of_mem hrow
  exact ⟨hcolumn.accepts _ hmem, fun hnulls => hcolumn.nulls hnulls _ hmem⟩

/-- Looking a key up in two lists side by side finds the item at its place. -/
theorem lookup_zip {α β : Type} [DecidableEq α] {xs : List α} {ys : List β} {j : Nat} {x : α}
    (hxs : xs.Nodup) (hlength : ys.length = xs.length) (hx : xs[j]? = some x) :
    (xs.zip ys).lookup x = ys[j]? := by
  induction xs generalizing ys j with
  | nil => simp at hx
  | cons a xs ih =>
    obtain ⟨ha, hxs⟩ := List.nodup_cons.mp hxs
    cases ys with
    | nil => simp at hlength
    | cons y ys =>
      cases j with
      | zero =>
        obtain rfl : a = x := by simpa using hx
        simp
      | succ j =>
        have hx : xs[j]? = some x := by simpa using hx
        have hne : (x == a) = false := by
          rw [beq_eq_false_iff_ne]
          rintro rfl
          exact ha (List.mem_of_getElem? hx)
        rw [List.zip_cons_cons, List.lookup_cons, hne]
        exact ih hxs (by simpa using hlength) hx

/-- A stored column has its values in the place where it stands among the stored ones. -/
theorem cell_stored {row : List Value} {j : Nat} {cid : ColumnId} (hrow : row ∈ s.rows)
    (hcid : s.cids[j]? = some cid) : s.cell row cid = rowCell j row := by
  have hlength := length_row hrow
  have hj : j < row.length := hlength ▸ (List.getElem?_eq_some_iff.mp hcid).1
  rw [cell, rowCell, lookup_zip s.distinctColumns hlength hcid, List.getElem?_eq_getElem hj]
  rfl

theorem lookup_absent {row : List Value} {cid : ColumnId} (hcid : cid ∉ s.cids) :
    (s.cids.zip row).lookup cid = none := by
  rw [List.lookup_eq_none_iff]
  rintro ⟨a, v⟩ hmem
  have ha := (List.of_mem_zip hmem).1
  simpa using fun h : cid = a => hcid (h ▸ ha)

theorem cell_absent {row : List Value} {cid : ColumnId} {c : Column} (hcid : cid ∉ s.cids)
    (hc : s.schema.column? cid = some c) : s.cell row cid = c.default := by
  rw [cell, lookup_absent hcid, hc]
  rfl

/-- The standard codecs lose nothing, whatever the size of the chunks. -/
theorem lossless_standard (hcodecs : s.options.codecs = .standard) : s.Lossless := by
  have hlimit := s.options.bufferSize.toNat_lt
  rw [Lossless, WriterOptions.compressor?, WriterOptions.decompressor?, WriterOptions.codec?, hcodecs]
  cases s.options.compression with
  | none => exact undoes_none none _
  | lz4 => exact Lz4.undoes hlimit
  | zstd => exact Zstd.undoes (by omega)

/-! ### A small segment -/

/-- The table of the small segment. -/
def sampleSchema : TabletSchema :=
  ⟨[⟨10, "key", .int32, true, true, .none, none⟩,
    ⟨20, "value", .float64, false, false, .none, none⟩,
    ⟨30, "note", .varchar, false, false, .none, some (.string "new")⟩]⟩

/-- Blocks of two rows in chunks of four bytes, with bloom filters for the values. -/
def sampleOptions : WriterOptions := ⟨2, .none, 4, true, [20], 64, 2, .standard⟩

/-- A writer of the values and the keys. -/
def sampleWriter : SegmentWriter :=
  let columns := ([1, 0] : List ColumnId).filterMap sampleSchema.column?
  ⟨sampleOptions, columns.map (SegmentWriter.columnWriter sampleOptions), 0, 0⟩

/-- Three rows, one with a null key. The notes are not stored. -/
def sampleRows : List (List Value) :=
  [[.float64 .zero, .int32 7], [.float64 ⟨0x3FF0000000000000⟩, .null],
    [.float64 ⟨0x4000000000000000⟩, .int32 3]]

/-- A segment of two blocks. -/
def sample : WrittenSegment where
  schema := sampleSchema
  cids := [1, 0]
  options := sampleOptions
  rows := sampleRows
  start := sampleWriter
  writer := sampleWriter.appendRows sampleRows
  distinctIds := by decide
  distinctColumns := by decide
  made := rfl
  accepted := SegmentWriter.appendAll_eq (by decide +kernel)

theorem fits_sample : sample.Fits where
  texts := by simp [sample, sampleRows, Value.Fits]
  header := by decide +kernel
  blocks := by decide +kernel
  bytes := by decide +kernel

theorem lossless_sample : sample.Lossless := lossless_standard rfl

/-! ### A compressed segment -/

/-- Keys only. -/
def runsSchema : TabletSchema := ⟨[⟨10, "key", .int32, true, false, .none, none⟩]⟩

/-- Blocks of six rows, in chunks of as many bytes as six keys have, which are compressed. -/
def runsOptions : WriterOptions := ⟨6, .zstd, 24, true, [], 4096, 4, .standard⟩

theorem nodup_runsColumns : ([0] : List ColumnId).Nodup := List.nodup_singleton 0

/-- A writer of the keys. -/
def runsWriter : SegmentWriter :=
  ⟨runsOptions, (([0] : List ColumnId).filterMap runsSchema.column?).map (SegmentWriter.columnWriter runsOptions), 0, 0⟩

/-- Three keys, each over and over. All bytes of a key are the same. -/
def runsRows : List (List Value) :=
  .replicate 6 [.int32 0] ++ (.replicate 6 [.int32 0x01010101] ++ .replicate 5 [.int32 (-1)])

/-- A segment of three blocks, the last one short. -/
def runs : WrittenSegment where
  schema := runsSchema
  cids := [0]
  options := runsOptions
  rows := runsRows
  start := runsWriter
  writer := runsWriter.appendRows runsRows
  distinctIds := by decide
  distinctColumns := nodup_runsColumns
  made := rfl
  accepted := SegmentWriter.appendAll_eq (by decide +kernel)

theorem fits_runs : runs.Fits where
  texts := by simp [runs, runsRows, Value.Fits]
  header := by decide +kernel
  blocks := by decide +kernel
  bytes := by decide +kernel

theorem lossless_runs : runs.Lossless := lossless_standard rfl

-- a chunk of keys has a payload of 17 bytes, which is marked as compressed
example : ∃ rest, StreamWriter.chunkOf runs.options.compressor? (.replicate 24 0) = 17 :: 0 :: 0 :: 0 :: 1 :: rest :=
  ⟨_, by rfl⟩

end WrittenSegment

end SegmentStore
