import Bpcp.Lib.Comparison
import Bpcp.Lib.CString
import Bpcp.Lib.FloatValue
import Bpcp.Lib.Keyed
import Bpcp.Lib.MachineInt
import Bpcp.Lib.Decimal
import Bpcp.Lib.LinkedList
import Bpcp.Lib.RingFamily
import Bpcp.Lib.Machine
import Bpcp.Lib.Counter
import Bpcp.Lib.Buffer
import Bpcp.Lib.Nibble
import Bpcp.Lib.Forest
import Bpcp.Lib.FilledArray
import Bpcp.Lib.Dealing
import Bpcp.Lib.Run
import Bpcp.Lib.TrialDivision
import Bpcp.Lib.SlotTable
import Bpcp.Lib.BubbleSort
import Bpcp.Purc.Variant
import Bpcp.Purc.Equal
import Bpcp.Purc.ByteSequence
import Bpcp.Purc.Cast
import Bpcp.Purc.Compare
import Bpcp.Purc.CompareEqual
import Bpcp.Purc.CompareOrder
import Bpcp.Purc.Stringify
import Bpcp.Purc.CompareMethod
import Bpcp.Purc.Diff
import Bpcp.Purc.UniqueKey
import Bpcp.Purc.StringifyStream
import Bpcp.Purc.StringifyAgree
import Bpcp.Purc.StringifyBytes
import Bpcp.Purc.MakeWithPrintf
import Bpcp.Purc.NumerifyBytes
import Bpcp.Purc.ListHead
import Bpcp.Purc.ListSwap
import Bpcp.Purc.ListMove
import Bpcp.Purc.ListRuns
import Bpcp.Purc.ListLoops
import Bpcp.Purc.AvlLoops
import Bpcp.Purc.Heap
import Bpcp.Purc.HeapAccount
import Bpcp.Purc.HeapTypes
import Bpcp.Purc.HeapCleanup
import Bpcp.Purc.References
import Bpcp.Purc.ReferenceRuns
import Bpcp.Purc.SerializeAlloc
import Bpcp.Purc.LoadDvobj
import Bpcp.Purc.DvobjRuns
import Bpcp.Purc.Tree
import Bpcp.Purc.TreePreOrder
import Bpcp.Purc.TreePostOrder
import Bpcp.Purc.TreeLoops
import Bpcp.Purc.TreeMirror
import Bpcp.Purc.TreeLevels
import Bpcp.Samples.SortedArray
import Bpcp.Samples.KeyIds
import Bpcp.Samples.SplitArray
import Bpcp.Samples.SplitBalance
import Bpcp.Samples.SplitSort
import Bpcp.Samples.PrimeFactors
import Bpcp.Samples.PrimeCases
import Bpcp.Samples.Primes
import Bpcp.Samples.Str2Key
import Bpcp.Samples.PerfectHash
import Bpcp.Samples.ReplaceChar
import Bpcp.Samples.SortThreeIntegers
import Bpcp.Samples.BubbleSort
import Bpcp.MiniGUI.Rwops
import Bpcp.MiniGUI.Rle
import Bpcp.MiniGUI.RleBounds
import Bpcp.MiniGUI.RleDecode
import Bpcp.MiniGUI.Bmp
import Bpcp.MiniGUI.BmpOffset
import Bpcp.MiniGUI.BmpSave
import Bpcp.MiniGUI.BmpHeaders
import Bpcp.MiniGUI.BmpRows
import Bpcp.MiniGUI.BmpRoundTrip
import Bpcp.MiniGUI.BmpPalette
import Bpcp.MiniGUI.CompositorTable
import Bpcp.MiniGUI.Compositor
import Bpcp.MiniGUI.CompositorSelected
import Bpcp.MiniGUI.CompositorLifeCycle
import Bpcp.MiniGUI.CompositorLookup
import Bpcp.MiniGUI.CompositeLayer
import Bpcp.MiniGUI.CompositePasses
import Bpcp.MiniGUI.CompositeRuns
import Bpcp.MiniGUI.CompositeFrames
import Bpcp.MiniGUI.Mginit
import Bpcp.MiniGUI.MginitRuns
import Bpcp.MiniGUI.LayerTransit
import Bpcp.MiniGUI.MemRwops
import Bpcp.MiniGUI.UnixToMac
import Bpcp.MiniGUI.Webp
import Bpcp.MiniGUI.WebpFeed
import Bpcp.Foobar.Bin2cInput
import Bpcp.Foobar.Bin2cArray
import Bpcp.Foobar.Bin2cNames
import Bpcp.Foobar.Bin2c
import Bpcp.Foobar.Bin2cOutput
import Bpcp.Purc.ObjectMemory
import Bpcp.Purc.ObjectRuns
import Bpcp.Purc.ObjectTable
import Bpcp.Purc.ObjectPromises
import Bpcp.Purc.ObjectFills
import Bpcp.MiniGUI.MemBytes
