import RowMapping.Session.Run
import RowMapping.Proofs.Registry.ColumnCache
import RowMapping.Proofs.Registry.RowCache
import RowMapping.Proofs.Registry.RowResolution
import RowMapping.Proofs.Mapper.NullLaw
import RowMapping.Proofs.Mapper.Parallel
import RowMapping.Proofs.Registry.Stocked
import RowMapping.Proofs.Schema.Tabled
import RowMapping.Proofs.Mapper.Batches
import RowMapping.Proofs.Mapper.Flattening
import RowMapping.Proofs.Mapper.Recovery
import RowMapping.Proofs.Mapper.Coupled
import RowMapping.Proofs.Session.Lockstep
import RowMapping.Proofs.Session.Quiet
import RowMapping.Proofs.Session.Isolation
import RowMapping.Proofs.Registry.Settling
import RowMapping.Proofs.Mapper.Bearing
import RowMapping.Proofs.Mapper.Reuse
import RowMapping.Proofs.Text.Lowered
import RowMapping.Proofs.Mapper.Cycles
import RowMapping.Proofs.Mapper.Failures
import RowMapping.Proofs.Mapper.Rearranged
import RowMapping.Proofs.Session.Traces
import RowMapping.Proofs.Session.RowByRow
import RowMapping.Proofs.Mapper.Leftovers
import RowMapping.Proofs.Mapper.Scoped
import RowMapping.Proofs.Session.Switched
import RowMapping.Proofs.Mapper.Strictness
import RowMapping.Proofs.Types.Nullable
import RowMapping.Proofs.Registry.Nullable
import RowMapping.Proofs.Mapper.OwnColumn
import RowMapping.Proofs.Mapper.Delivered
import RowMapping.Proofs.Mapper.SubObjects
import RowMapping.Proofs.Session.Children
import RowMapping.Proofs.Mapper.Calls
import RowMapping.Proofs.Mapper.Unset
import RowMapping.Proofs.Registry.Arrays
import RowMapping.Proofs.Mapper.Tuples
import RowMapping.Proofs.Mapper.NamedColumns
import RowMapping.Proofs.Registry.Served
