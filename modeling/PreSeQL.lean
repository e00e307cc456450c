import PreSeQL.Pager.HandOut
import PreSeQL.Pager.OpenDb
import PreSeQL.Pager.Mapping
import PreSeQL.Pager.ReadOnly
import PreSeQL.Compiler.Transactions
import PreSeQL.Journal.Rollback
import PreSeQL.Journal.Exits
import PreSeQL.Journal.Discipline
import PreSeQL.Compiler.InsertCode
import PreSeQL.Compiler.Parser
import PreSeQL.Compiler.Printing
import PreSeQL.Compiler.Lexing
import PreSeQL.Compiler.Literals
import PreSeQL.Index.Lookup
import PreSeQL.Index.SlotLayout
import PreSeQL.Index.SlotOrder
import PreSeQL.Index.Iterator
import PreSeQL.Index.RefCount
import PreSeQL.Index.Failure
import PreSeQL.Index.Descent
import PreSeQL.Index.Destroy
import PreSeQL.Journal.Corruption
import PreSeQL.Compiler.Report
import PreSeQL.Compiler.Decoding
import PreSeQL.Client.Lines
import PreSeQL.Algorithm.Draining
import PreSeQL.Pager.Neighbour
import PreSeQL.Pager.NewPages
import PreSeQL.Index.Vacuum
import PreSeQL.Index.HandedOut
import PreSeQL.Pager.Loading
import PreSeQL.Journal.Append
import PreSeQL.Compiler.Buffers
import PreSeQL.Compiler.LineNumbers
import PreSeQL.Index.KeyOrder
import PreSeQL.VmEngine.Halting
import PreSeQL.Allocator.Replay
import PreSeQL.Allocator.Limits
import PreSeQL.Algorithm.RadixProgram
import PreSeQL.Pager.TrackerHeap
import PreSeQL.Client.Leaks
