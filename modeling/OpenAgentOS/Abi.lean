import Mathlib.Algebra.Ring.Int.Defs
import Mathlib.Algebra.Ring.Nat
import Mathlib.Tactic.Common

/-!
# Constants of the system-call interface (include/agentos.h)

The kernel and the user library share one header. Its sizes, error codes,
message types and capability bits are collected here under the header's own
words. Error codes are the negative integers system calls return; a
non-negative result means success.
-/

namespace OpenAgentOS

/-! ## Sizes -/

/-- `MAX_AGENTS`: slots of the agent table. -/
abbrev maxAgents : Nat := 12

/-- `MSG_CAPACITY`: slots of the normal mailbox ring. -/
abbrev msgCapacity : Nat := 16

/-- `MSG_STEER_CAPACITY`: slots of the priority mailbox ring. -/
abbrev msgSteerCapacity : Nat := 4

/-- `MSG_PAYLOAD_SIZE`: bytes of a message payload, terminator included. -/
abbrev msgPayloadSize : Nat := 224

/-! Numerals are indices of arrays of these sizes, and of others that the sources use. -/

instance : NeZero maxAgents := ⟨by decide⟩
instance : NeZero msgCapacity := ⟨by decide⟩
instance : NeZero msgSteerCapacity := ⟨by decide⟩
instance neZero_eight : NeZero 8 := ⟨by decide⟩
instance neZero_64 : NeZero 64 := ⟨by decide⟩
instance neZero_512 : NeZero 512 := ⟨by decide⟩

/-! ## Error codes -/

abbrev eperm : Int := -1
abbrev einval : Int := -2
abbrev enoent : Int := -3
abbrev enospc : Int := -4
abbrev eagain : Int := -5
abbrev enodev : Int := -6
abbrev eio : Int := -7
abbrev etimedout : Int := -8
abbrev efault : Int := -9

/-! ## Capability bits -/

/-- `(1u << n)`. -/
abbrev capBit (n : Nat) : UInt32 := UInt32.ofNat (2 ^ n)

abbrev capLog : UInt32 := capBit 0
abbrev capMath : UInt32 := capBit 1
abbrev capSpawn : UInt32 := capBit 2
abbrev capSend : UInt32 := capBit 3
abbrev capRecv : UInt32 := capBit 4
abbrev capLlm : UInt32 := capBit 5
abbrev capFs : UInt32 := capBit 6
abbrev capTime : UInt32 := capBit 7
abbrev capSvcStorage : UInt32 := capBit 8
abbrev capNet : UInt32 := capBit 9
abbrev capGpio : UInt32 := capBit 10
abbrev capSvcLlm : UInt32 := capBit 11
abbrev capSvcNet : UInt32 := capBit 12
abbrev capDisplay : UInt32 := capBit 13
abbrev capInput : UInt32 := capBit 14
abbrev capSvcConsole : UInt32 := capBit 17

/-! ## Tools -/

abbrev toolRead : Int := 3
abbrev toolWrite : Int := 4
abbrev toolLlm : Int := 5
abbrev toolHttp : Int := 11

/-- The tools `tool_dispatch` and `policy_exempt` treat apart. -/
abbrev toolInput : Int := 15
abbrev toolConsole : Int := 16
abbrev toolAudit : Int := 19
abbrev toolNamespace : Int := 20
abbrev toolQuota : Int := 21
abbrev toolFleet : Int := 22
abbrev toolPolicy : Int := 23
abbrev toolRemote : Int := 24
abbrev toolMesh : Int := 25

/-! ## Message types

A type is any C `int`: `agent_send` forwards what the sender passes. -/

abbrev msgResult : Int := 2
abbrev msgSteer : Int := 0x8001
abbrev msgFollowup : Int := 0x8002
abbrev msgSummary : Int := 0x8003
abbrev msgPipelineDone : Int := 0x8004
abbrev msgFsRead : Int := 0x8010
abbrev msgFsWrite : Int := 0x8011
abbrev msgFsRsp : Int := 0x8012
abbrev msgLlmReq : Int := 0x8020
abbrev msgLlmRsp : Int := 0x8021
abbrev msgHttpReq : Int := 0x8022
abbrev msgHttpRsp : Int := 0x8023
abbrev msgDisplayReq : Int := 0x8024
abbrev msgDisplayRsp : Int := 0x8025
abbrev msgInputRsp : Int := 0x8027

/-! ## Services -/

abbrev displayAgentId : Int := 8

end OpenAgentOS
