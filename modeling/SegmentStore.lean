import SegmentStore.Main
import SegmentStore.Proofs.Accounting
import SegmentStore.Proofs.AddedColumns
import SegmentStore.Proofs.Aggregated
import SegmentStore.Proofs.BloomPruning
import SegmentStore.Proofs.Building
import SegmentStore.Proofs.ColumnBlocks
import SegmentStore.Proofs.Comparisons
import SegmentStore.Proofs.Confinement
import SegmentStore.Proofs.Corruption
import SegmentStore.Proofs.Covering
import SegmentStore.Proofs.Deletes
import SegmentStore.Proofs.Documents
import SegmentStore.Proofs.Driving
import SegmentStore.Proofs.Forgetting
import SegmentStore.Proofs.Handover
import SegmentStore.Proofs.Marks
import SegmentStore.Proofs.Overflows
import SegmentStore.Proofs.Pins
import SegmentStore.Proofs.Placement
import SegmentStore.Proofs.PrefixCode
import SegmentStore.Proofs.Probes
import SegmentStore.Proofs.Refusals
import SegmentStore.Proofs.Retrying
import SegmentStore.Proofs.Safety
import SegmentStore.Proofs.Sharing
import SegmentStore.Proofs.Tightness
import SegmentStore.Proofs.Tiling
import SegmentStore.Proofs.Truncation
import SegmentStore.Proofs.Widening
import SegmentStore.Proofs.Windows
