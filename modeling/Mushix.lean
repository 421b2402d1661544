import Mushix.Xhci.EventDispatch
import Mushix.Xhci.RingGuarantees
import Mushix.Executor
import Mushix.Allocator.Header
import Mushix.Uefi
import Mushix.BootServices
import Mushix.Allocator.Blocks
import Mushix.Allocator.FirstFit
import Mushix.Allocator.Refinement
import Mushix.Allocator.Seeding
import Mushix.Allocator.MemoryMap
import Mushix.Allocator.HeapSystem
import Mushix.Allocator.Carving
import Mushix.Allocator.Clients
import Mushix.Allocator.Boxes
import Mushix.Allocator.Contents
import Mushix.Allocator.Reuse
import Mushix.Allocator.Fragmentation
import Mushix.Lib.Radix
import Mushix.Paging.PageTable
import Mushix.Paging.Walk
import Mushix.Paging.Tree
import Mushix.Paging.Demand
import Mushix.Paging.Populate
import Mushix.Paging.CreateMapping
import Mushix.Paging.LastMapping
import Mushix.Paging.AnyCall
import Mushix.Paging.ForeignTables
import Mushix.Paging.StrayStores
import Mushix.Paging.InitPaging
import Mushix.Paging.PresentTables
import Mushix.Paging.HeapTables
import Mushix.Iter
import Mushix.Lib.Cursor
import Mushix.Slice
import Mushix.Xhci.Descriptor
import Mushix.Xhci.DescriptorStream
import Mushix.Xhci.StageTrb
import Mushix.Bits
import Mushix.Xhci.Registers
import Mushix.Xhci.Command
import Mushix.Xhci.Context
import Mushix.Xhci.Driver
import Mushix.Pci.Config
import Mushix.Pci.Bar0
import Mushix.Safe
import Mushix.Xhci.MassStorage
import Mushix.Xhci.DriverSafe
import Mushix.Lib.LastMatch
import Mushix.Xhci.EndpointScan
import Mushix.Xhci.BulkEndpoints
import Mushix.Xhci.ContextEntries
import Mushix.Xhci.Port
import Mushix.Xhci.EnableSlot
import Mushix.Xhci.SectorRead
import Mushix.Xhci.Scratchpad
import Mushix.Xhci.ScratchpadRoom
import Mushix.Lib.WriteToClear
import Mushix.Xhci.Status
import Mushix.Xhci.ControllerReset
import Mushix.Xhci.ControllerMemory
import Mushix.Xhci.ControllerNew
import Mushix.Xhci.PortReset
import Mushix.Pci.Command
import Mushix.Pci.ConfigMemory
import Mushix.Acpi
import Mushix.Pci.Probe
import Mushix.Serial
import Mushix.Lib.Utf8
import Mushix.Lib.Utf16
import Mushix.Xhci.StringDescriptor
import Mushix.Xhci.DriverRun
import Mushix.Lib.Runs
import Mushix.Xhci.AsciiStrings
import Mushix.Xhci.EventPoll
import Mushix.Xhci.RingContents
import Mushix.Duration
import Mushix.Lib.Rounding
import Mushix.Hpet
import Mushix.Timeout
import Mushix.I64
import Mushix.Graphics.Bitmap
import Mushix.Graphics.Rect
import Mushix.Graphics.Line
import Mushix.Lib.Fields
import Mushix.Xhci.ContextFields
import Mushix.Uint
import Mushix.VolatileFields
import Mushix.Print
import Mushix.Lib.Stack
import Mushix.X86.Machine
import Mushix.X86.Interrupt
import Mushix.Lib.Packed
import Mushix.X86.Descriptor
import Mushix.X86.Processor
import Mushix.X86.Exceptions
import Mushix.Mutex
import Mushix.Graphics.Font
import Mushix.Graphics.Text
import Mushix.Console
import Mushix.Ends
import Mushix.Xhci.ControlStage
import Mushix.Xhci.RingUse
import Mushix.Xhci.RingAssignment
import Mushix.Xhci.DriverInvariant
