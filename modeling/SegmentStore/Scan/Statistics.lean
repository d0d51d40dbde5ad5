import SegmentStore.Stream.Reader

/-!
# Counters of scans

* `ScanStatistics` counts rows, blocks and bytes. Scans that belong together share one.
-/

namespace SegmentStore

/-- What scans have done so far. -/
structure ScanStatistics where
  /-- Rows of blocks that a delete removed as a whole. -/
  rowsDeleted : Nat
  /-- Rows of blocks that a zone map or a bloom filter ruled out. -/
  rowsRuledOut : Nat
  blocksLoaded : Nat
  rowsRead : Nat
  /-- Bytes of chunks as stored, and as content. -/
  traffic : Traffic
  deriving DecidableEq

namespace ScanStatistics

def zero : ScanStatistics := ⟨0, 0, 0, 0, .zero⟩

def addTraffic (s : ScanStatistics) (t : Traffic) : ScanStatistics :=
  { s with traffic := s.traffic.add t }

def addFiltered (s : ScanStatistics) (deleted ruledOut : Nat) : ScanStatistics :=
  { s with rowsDeleted := s.rowsDeleted + deleted, rowsRuledOut := s.rowsRuledOut + ruledOut }

/-- One more block, of the given number of rows. -/
def addBlock (s : ScanStatistics) (rows : Nat) : ScanStatistics :=
  { s with blocksLoaded := s.blocksLoaded + 1, rowsRead := s.rowsRead + rows }

end ScanStatistics

end SegmentStore
