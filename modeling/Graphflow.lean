import Graphflow.Transaction.Progress
import Graphflow.Transaction.Snapshot
import Graphflow.Storage.ListsMetadata
import Graphflow.Storage.SmallListHeaders
import Graphflow.Wal.RoundTrip
import Graphflow.Database.UpdatedLists
import Graphflow.Overflow.RoundTrip
import Graphflow.Common.CSVBlocks
import Graphflow.Index.WriteView
import Graphflow.Overflow.Cursors
import Graphflow.OrderBy.KeyBlocks
import Graphflow.OrderBy.ParallelMergeRun
import Graphflow.Aggregate.Grouping
import Graphflow.TaskSystem.Batches
import Graphflow.Processor.SkipLimitSlice
import Graphflow.Processor.Intersect
import Graphflow.Storage.BufferPoolCalls
import Graphflow.Common.DateParts
import Graphflow.Common.TimestampText
import Graphflow.Overflow.SequentialScan
import Graphflow.Storage.RelIDs
import Graphflow.Common.CSVListText
import Graphflow.Storage.SavedStatistics
import Graphflow.Storage.CopiedListPartition
import Graphflow.Common.DateArithmetic
import Graphflow.Common.IntervalText
import Graphflow.OrderBy.TieComparator
import Graphflow.Function.Division
import Graphflow.Storage.BuiltPageLists
import Graphflow.Common.GfStringMemory
import Graphflow.Function.Find
import Graphflow.Storage.StatisticsByTable
import Graphflow.Function.CompareValues
import Graphflow.Result.CopyList
import Graphflow.Storage.NullBits
import Graphflow.Storage.DiskArrayReadBack
import Graphflow.Storage.BufferedDiskArray
import Graphflow.Processor.Filter
import Graphflow.Processor.VarLengthExtend
import Graphflow.Processor.SemiMasker
