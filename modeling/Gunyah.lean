import Gunyah.Error
import Gunyah.Lib.Word
import Gunyah.Lib.Bytes
import Gunyah.Lib.Bitmap
import Gunyah.Lib.Span
import Gunyah.Lib.LinkedList
import Gunyah.Allocator.Freelist
import Gunyah.Allocator.FreelistSpec
import Gunyah.Allocator.Heap
import Gunyah.Allocator.Exact
import Gunyah.Memdb.Owner
import Gunyah.Memextent.Mapping
import Gunyah.Memextent.DeriveBasic
import Gunyah.Memextent.DonateSparse
import Gunyah.Memextent.UpdateAccessSparse
import Gunyah.Cspace.Twolevel
import Gunyah.Cspace.Invariant
import Gunyah.Cspace.Tables
import Gunyah.Cspace.Accounting
import Gunyah.Cspace.System
import Gunyah.Cspace.CapId
import Gunyah.Lib.GracePeriod
import Gunyah.Rcu.Bitmap
import Gunyah.Rcu.Invariant
import Gunyah.Rcu.Batches
import Gunyah.Gpt.Pte
import Gunyah.Gpt.Write
import Gunyah.Gpt.Spec
import Gunyah.Gpt.Path
import Gunyah.Gpt.Clean
import Gunyah.Gpt.Block
import Gunyah.Gpt.Step
import Gunyah.Gpt.Refinement
import Gunyah.Gpt.Failure
import Gunyah.Gpt.Read
import Gunyah.Memextent.MapSparse
import Gunyah.Ipc.Msgqueue
import Gunyah.Timer.Queue
import Gunyah.Timer.Migration
import Gunyah.Psci.Model
import Gunyah.Psci.Accounting
import Gunyah.Psci.Calls
import Gunyah.Scheduler.Fprr
import Gunyah.Scheduler.System
import Gunyah.Scheduler.SystemSpec
import Gunyah.Scheduler.SystemInv
import Gunyah.Scheduler.SystemRun
import Gunyah.Vgic.SelectLr
import Gunyah.Pgtable.Walk
import Gunyah.Pgtable.Unmap
