import OpenAgentOS.Agent.SingleExecution
import OpenAgentOS.Fs.CrashAtomicity
import OpenAgentOS.Ipc.Refinement
import OpenAgentOS.Svc.Client
import OpenAgentOS.Tool.FileTools
import OpenAgentOS.Vm.LoadConflict
import OpenAgentOS.Vm.Isolation
import OpenAgentOS.Ipc.Labels
import OpenAgentOS.Agent.Delivery
import OpenAgentOS.Svc.Services
import OpenAgentOS.Svc.Answering
import OpenAgentOS.Lib.Scan
import OpenAgentOS.Tool.Policy
import OpenAgentOS.Net.Routes
import OpenAgentOS.Tool.AuditTrail
import OpenAgentOS.Tool.Dispatch
import OpenAgentOS.Tool.LlmMediation
import OpenAgentOS.Net.Egress
import OpenAgentOS.Svc.StoragePrivacy
import OpenAgentOS.Net.Frame
import OpenAgentOS.Net.Tcp
import OpenAgentOS.Lib.SeqNum
import OpenAgentOS.Net.TcpStream
import OpenAgentOS.Net.Handshake
import OpenAgentOS.Net.Dns
import OpenAgentOS.Net.DnsLookup
import OpenAgentOS.Lib.CopyOnWrite
import OpenAgentOS.Vm.PageMap
import OpenAgentOS.Lib.Lines
import OpenAgentOS.Tool.AuditLog
import OpenAgentOS.Tool.AuditRuns
import OpenAgentOS.Tool.FileQuota
import OpenAgentOS.Fs.FileMap
import OpenAgentOS.Tool.Session
import OpenAgentOS.Tool.NamespaceHome
import OpenAgentOS.Agent.Allowance
import OpenAgentOS.Fs.Corruption
import OpenAgentOS.Fs.Migration
import OpenAgentOS.Vm.Trees
import OpenAgentOS.Vm.HeapPages
import OpenAgentOS.Vm.HeapRefines
import OpenAgentOS.Lib.Cells
import OpenAgentOS.Vm.HeapCow
import OpenAgentOS.Vm.UserCheck
import OpenAgentOS.Vm.X86
import OpenAgentOS.Vm.X86Heap
import OpenAgentOS.Vm.HeapPorts
import OpenAgentOS.Svc.Codec
import OpenAgentOS.Svc.SharedStatics
import OpenAgentOS.Lib.Layout
import OpenAgentOS.Ota.Package
import OpenAgentOS.Ota.Signing
import OpenAgentOS.Ota.Confinement
import OpenAgentOS.Tool.PolicyLoad
import OpenAgentOS.Lib.BoundedSet
import OpenAgentOS.Tool.PolicyTables
import OpenAgentOS.Lib.Span
import OpenAgentOS.Ota.Bounds
import OpenAgentOS.Tool.Compaction
import OpenAgentOS.Tool.UserStrings
import OpenAgentOS.Vm.ElfImage
import OpenAgentOS.Vm.ElfBounds
import OpenAgentOS.Agent.ConcurrentCreate
import OpenAgentOS.Vm.WriteXorExecute
import OpenAgentOS.Tool.PathOwners
import OpenAgentOS.Tool.SessionRefusals
import OpenAgentOS.Tool.SessionRead
import OpenAgentOS.Agent.FailedReceive
import OpenAgentOS.Agent.RecvResults
import OpenAgentOS.Agent.FailedCreate
import OpenAgentOS.Ipc.Summary
import OpenAgentOS.Fs.HostileDisk
import OpenAgentOS.Tool.ReadBuffer
import OpenAgentOS.Vm.Hardware
import OpenAgentOS.Vm.HeapCopy
import OpenAgentOS.Ota.Catalog
import OpenAgentOS.Ota.CatalogInstall
import OpenAgentOS.Lib.Reads
import OpenAgentOS.Net.Dhcp
import OpenAgentOS.Net.DatagramBounds
import OpenAgentOS.Lib.Chunks
import OpenAgentOS.Net.DnsQuery
