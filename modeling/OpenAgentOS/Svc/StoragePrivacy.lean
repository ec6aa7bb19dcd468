import OpenAgentOS.Lib.Runs
import OpenAgentOS.Svc.Services
import OpenAgentOS.Tool.FileTools

/-!
# Privacy of files behind the storage service (user/storage_svc.c, kernel/tool.c)

An agent without `CAP_FS` reads and writes files through the storage service, which
calls `TOOL_READ` and `TOOL_WRITE` under its own identity. For the kernel the caller
is the service, and `storage_path_ok` grants it every path below `/agent/` and
`/session/`.

- `storageStep`: one message, with the tools of the service put in place: the
  gateway of `FileTools` with the service as its caller.
- `InArea y`: the paths below `/agent/<y>/` and `/session/agent/<y>/`.
- `StoragePrivate`: the reply to a client carries no file of another agent's area,
  and none is created or changed.
- `carries_of_area`: the service hands out every file of every area to whoever asks.
- `storage_private`: privacy holds along all runs in which clients ask for their own
  files. It rests on the clients, not on the service.
-/

namespace OpenAgentOS

open CString

/-! ## The service and its tools -/

/-- The string that a text is for the kernel. -/
def cutStr (s : List UInt8) : CStr := ⟨cut s, fun h => by simpa using List.mem_takeWhile_imp h⟩

/-- `agent_read_file(path, buf, 199)`. -/
def readCall (path : List UInt8) : FileCall :=
  .read ⟨some (cutStr path), .lit "", .lit ""⟩ 199 true true

/-- `agent_write_file(path, data, di)`. -/
def writeCall (path data : List UInt8) : FileCall :=
  .write ⟨some (cutStr path), .lit "", .lit ""⟩ data.length true
    (some ⟨data, (Int.toNat_natCast _).symm⟩)

/-- The tools of the service `svc`: the gateway, with the service as the caller. -/
def storageTools (g : Gateway) (svc : Caller) : Tools where
  llm _ := none
  http _ := none
  draw _ _ _ := false
  read path :=
    if 0 ≤ (toolDispatch g svc (readCall path)).1 then
      (runRead g.fs ⟨some (cutStr path), .lit "", .lit ""⟩ 199 true true).toOption
    else none
  write path data := decide (0 ≤ (toolDispatch g svc (writeCall path data)).1)

/-- The gateway after the service has worked on a request. -/
def StorageReq.gateway (g : Gateway) (svc : Caller) : StorageReq → Gateway
  | .read _ path => (toolDispatch g svc (readCall path)).2
  | .write _ path data => (toolDispatch g svc (writeCall path data)).2
  | _ => g

/-- What the service makes of a message does not depend on its sender. -/
theorem storageReq_sender (msg : AgentMsg) (senderId : Int) :
    storageReq { msg with senderId := senderId } = storageReq msg := rfl

/-- One round of `storage_agent_main`: the reply and the gateway afterwards. -/
def storageStep (g : Gateway) (svc : Caller) (msg : AgentMsg) : Option Reply × Gateway :=
  (storageReply (storageTools g svc) msg, (storageReq msg).gateway g svc)

/-- A message to the service. The kernel fills in the sender. -/
structure StorageMsg where
  client : Caller
  type : Int
  text : List UInt8

/-- The message as it arrives. -/
def StorageMsg.msg (m : StorageMsg) : AgentMsg := .ofText m.client.id m.type m.text

/-- The service takes a message, or something else happens to the files, the quotas
and the deny list. -/
inductive StorageEvent where
  | request (m : StorageMsg)
  | other (next : Gateway)

/-- The gateway after an event. -/
def storageRunStep (svc : Caller) (g : Gateway) : StorageEvent → Gateway
  | .request m => (storageStep g svc m.msg).2
  | .other next => next

/-! ## Privacy -/

/-- The path is below `/agent/<y>/` or `/session/agent/<y>/`. -/
def InArea (y : Fin maxAgents) (path : List UInt8) : Prop :=
  bytes "/agent/" ++ (decimal y ++ bytes "/") <+: path ∨
    bytes "/session/agent/" ++ (decimal y ++ bytes "/") <+: path

instance (y : Fin maxAgents) (path : List UInt8) : Decidable (InArea y path) :=
  inferInstanceAs (Decidable (_ ∨ _))

/-- The path that a request names. -/
def StorageReq.path : StorageReq → Option (List UInt8)
  | .read _ path => some path
  | .write _ path _ => some path
  | _ => none

/-- The reply to `m` is made from the content of file `q`. -/
def Carries (g : Gateway) (svc : Caller) (m : StorageMsg) (q : CStr) (content : List UInt8) :
    Prop :=
  ∃ reqid path, storageReq m.msg = .read reqid path ∧ q = cutStr path ∧
    g.fs.visible q = some content ∧ (storageTools g svc).read path = some (content.take 199) ∧
    (storageStep g svc m.msg).1
      = some ⟨msgFsRsp, formatFsRsp reqid (cut (content.take 199))⟩

/-- A message of one client discloses and touches no file of another agent. -/
structure StoragePrivate (svc : Caller) (g : Gateway) (m : StorageMsg) : Prop where
  reply : ∀ (y : Fin maxAgents) (q : CStr) (content : List UInt8), y ≠ m.client.id →
    Carries g svc m q content → ¬ InArea y q.bytes
  files : ∀ (y : Fin maxAgents) (q : CStr), y ≠ m.client.id → InArea y q.bytes →
    g.fs.SameUnder q (storageStep g svc m.msg).2.fs

/-- The property of an event. -/
def StoragePrivateAt (svc : Caller) (g : Gateway) : StorageEvent → Prop
  | .request m => StoragePrivate svc g m
  | .other _ => True

/-- A client asks for files outside of the areas of others. -/
def OwnAreas : StorageEvent → Prop
  | .request m => ∀ path, (storageReq m.msg).path = some path →
      ∀ y, y ≠ m.client.id → ¬ InArea y path
  | .other _ => True

/-! ## What the kernel grants to the service -/

/-- A path of an area starts like one. -/
theorem hasAt_of_inArea {y : Fin maxAgents} {path : List UInt8} (h : InArea y path) :
    charAt path 0 = '/'.toUInt8 ∧
      (hasAt path 1 (bytes "agent/") = true ∨ hasAt path 1 (bytes "session/") = true) := by
  rcases h with ⟨rest, rfl⟩ | ⟨rest, rfl⟩
  · rw [List.append_assoc]
    exact ⟨rfl, .inl (hasAt_append (by decide) (by decide) _)⟩
  · rw [List.append_assoc]
    exact ⟨rfl, .inr (hasAt_append (by decide) (by decide) _)⟩

/-- **The service may read and write in every area.** -/
theorem policy_of_inArea {svc : Caller} (hsvc : svc.hasCap capSvcStorage = true)
    {y : Fin maxAgents} {path : List UInt8} (h : InArea y path) :
    policyFsRead svc path = 0 ∧ policyFsWrite svc path = 0 := by
  obtain ⟨hslash, harea⟩ := hasAt_of_inArea h
  -- neither of the two names can be taken for another one
  have hother : ∀ (name : List UInt8) (k j : Nat), k < name.length → j < name.length → k < 6 →
      j < 6 → name.getD k 0 ≠ (bytes "agent/").getD k 0 →
      name.getD j 0 ≠ (bytes "session/").getD j 0 → ¬ hasAt path 1 name = true := by
    intro name k j hk hj hk6 hj6 hagent hsession hname
    rcases harea with harea | harea
    · exact hagent (hasAt_agree hname harea hk hk6)
    · exact hsession (hasAt_agree hname harea hj (hj6.trans (by decide)))
  have haudit : ¬ isAuditPath path = true :=
    hother (bytes "audit/") 1 0 (by decide) (by decide) (by decide) (by decide) (by decide)
      (by decide)
  have hns : ¬ namespaceIsPath path = true := fun hns =>
    hother (bytes "ns/") 0 0 (by decide) (by decide) (by decide) (by decide) (by decide)
      (by decide) (Bool.and_eq_true_iff.mp hns).2
  have hsys : ¬ hasAt path 1 (bytes "sys") = true :=
    hother (bytes "sys") 0 1 (by decide) (by decide) (by decide) (by decide) (by decide)
      (by decide)
  have hok : ∀ write, storagePathOk path write = 0 := by
    intro write
    rw [storagePathOk, if_neg (not_not.mpr hslash), if_neg haudit, if_neg hns, if_neg hsys]
    rcases harea with harea | harea
    · rw [if_pos harea]
    · rw [if_pos harea, ite_self]
  constructor
  · rw [policyFsRead, if_neg haudit, if_neg hns, if_pos hsvc, hok]
  · rw [policyFsWrite, if_neg haudit, if_neg hns, if_pos hsvc, hok]

/-- A short path that is not empty reaches the kernel as it is. -/
theorem readPathFromUser_cutStr {path : List UInt8} (hne : cut path ≠ []) (hlen : path.length ≤ 63)
    (behind : CStr) : readPathFromUser (some (cutStr path)) behind = .ok (cutStr path) := by
  have hcut : (cut path).length ≤ path.length := (List.takeWhile_sublist _).length_le
  have hpos : ¬ (cutStr path).length = 0 := fun h => hne (List.eq_nil_of_length_eq_zero h)
  have hshort : (cutStr path).length < ramfsPathMax := by
    show (cut path).length < 64
    omega
  rw [readPathFromUser, if_neg hpos, if_pos hshort]

/-- **The service hands out the files of every agent**: as long as its own quota
lasts and the tool is not denied, whoever asks for a file of any area gets it. -/
theorem carries_of_area {g : Gateway} {svc : Caller} (hfs : svc.hasCap capFs = true)
    (hsvc : svc.hasCap capSvcStorage = true) (hquota : quotaToolAllow g svc = 0)
    (hdeny : policyToolAllow g toolRead = 0) {m : StorageMsg} {reqid : Int} {path : List UInt8}
    (hreq : storageReq m.msg = .read reqid path) (hlen : path.length ≤ 63) {y : Fin maxAgents}
    (harea : InArea y (cut path)) {content : List UInt8}
    (hfile : g.fs.visible (cutStr path) = some content) :
    Carries g svc m (cutStr path) content := by
  have hne : cut path ≠ [] := by
    intro hnil
    have hslash := (hasAt_of_inArea harea).1
    rw [hnil] at hslash
    exact absurd hslash (by decide)
  have hpath := readPathFromUser_cutStr hne hlen (.lit "")
  have hread : runRead g.fs ⟨some (cutStr path), .lit "", .lit ""⟩ 199 true true
      = .ok (content.take 199) := by
    have hstart := ramfsRead_start g.fs (cutStr path) (show 0 < 199 by decide)
    rw [hfile] at hstart
    rw [runRead, hpath]
    show (ramfsRead g.fs (cutStr path) 0 (199 : Nat) >>= fun out => pure out) = _
    rw [bind_pure, hstart]
  have hcheck : checkPath policyFsRead svc ⟨some (cutStr path), .lit "", .lit ""⟩ = 0 := by
    rw [checkPath, hpath]
    exact (policy_of_inArea hsvc harea).1
  have hrc : 0 ≤ (toolDispatch g svc (readCall path)).1 := by
    rw [readCall, toolDispatch, dispatchEntry_granted hquota hdeny hfs hcheck (by rw [hread])]
    exact Int.natCast_nonneg _
  have htool : (storageTools g svc).read path = some (content.take 199) := by
    show (if 0 ≤ (toolDispatch g svc (readCall path)).1 then _ else none) = _
    rw [if_pos hrc, hread]
    rfl
  refine ⟨reqid, path, hreq, rfl, hfile, htool, ?_⟩
  rw [storageStep, storageReply, hreq, StorageReq.reply, htool]
  rfl

/-! ## What the service leaves alone -/

/-- A request stores under the path it names and in the audit log of the service. -/
theorem reachesOn_storageStep (g : Gateway) (svc : Caller) (msg : AgentMsg) :
    g.fs.ReachesOn (fun p => p = auditPathFor svc.id ∨
      ∃ path, (storageReq msg).path = some path ∧ p = (cutStr path).copy ramfsPathMax)
      (storageStep g svc msg).2.fs := by
  show g.fs.ReachesOn _ ((storageReq msg).gateway g svc).fs
  cases hreq : storageReq msg with
  | done => exact .refl _ g.fs
  | badWrite => exact .refl _ g.fs
  | unknown => exact .refl _ g.fs
  | read reqid path =>
    refine reachesOn_dispatchEntry g svc _ _ (.inl rfl) fun _ => ?_
    split
    · exact .refl _ g.fs
    · exact .refl _ g.fs
  | write reqid path data =>
    refine reachesOn_dispatchEntry g svc _ _ (.inl rfl) fun _ => reachesOn_runWrite g.fs svc ?_
    intro p hp
    refine .inr ⟨path, rfl, ?_⟩
    -- the path is stored as the service passes it, up to its first 63 bytes
    refine CStr.ext_bytes ?_
    show p.bytes.take (ramfsPathMax - 1) = (cutStr path).bytes.take (ramfsPathMax - 1)
    exact readPathFromUser_take hp

/-- A log is in nobody's area. -/
theorem not_inArea_auditPathFor (y id : Fin maxAgents) : ¬ InArea y (auditPathFor id).bytes := by
  intro h
  have haudit := isAuditPath_auditPathFor id
  rcases (hasAt_of_inArea h).2 with hagent | hsession
  · exact absurd (hasAt_agree (k := 1) haudit hagent (by decide) (by decide)) (by decide)
  · exact absurd (hasAt_agree (k := 0) haudit hsession (by decide) (by decide)) (by decide)

/-! ## Runs -/

/-- A longer path stays in an area. -/
theorem InArea.mono {y : Fin maxAgents} {path longer : List UInt8} (h : InArea y path)
    (hle : path <+: longer) : InArea y longer :=
  h.imp (·.trans hle) (·.trans hle)

/-- **One message** of a client that asks for no file of another agent. -/
theorem storagePrivate_of_own (svc : Caller) (g : Gateway) (m : StorageMsg)
    (hown : ∀ path, (storageReq m.msg).path = some path →
      ∀ y, y ≠ m.client.id → ¬ InArea y path) : StoragePrivate svc g m := by
  constructor
  · rintro y q content hy ⟨reqid, path, hreq, rfl, -⟩ harea
    have hpath : (storageReq m.msg).path = some path := by rw [hreq]; rfl
    exact hown path hpath y hy (harea.mono (List.takeWhile_prefix _))
  · intro y q hy harea
    refine (reachesOn_storageStep g svc m.msg).sameUnder ?_
    rintro (rfl | ⟨path, hpath, rfl⟩)
    · exact not_inArea_auditPathFor y svc.id harea
    · have hle : ((cutStr path).copy ramfsPathMax).bytes <+: path :=
        (List.take_prefix _ _).trans (List.takeWhile_prefix _)
      exact hown path hpath y hy (harea.mono hle)

/-- The storage agent as the kernel starts it. -/
def storageAgent : Caller := ⟨2, capLog ||| capSvcStorage ||| capFs ||| capSend ||| capRecv⟩

/-- An agent that may only send and receive. -/
def plainClient (id : Fin maxAgents) : Caller := ⟨id, capSend ||| capRecv⟩

/-- Agent `id` asks for `/agent/4/note`. -/
def readNote (id : Fin maxAgents) : StorageMsg :=
  ⟨plainClient id, msgFsRead, bytes "R1|/agent/4/note"⟩

/-- Agent 3 writes to `/agent/4/note`. -/
def writeNote : StorageMsg := ⟨plainClient 3, msgFsWrite, bytes "W2|/agent/4/note|x"⟩

/-- A machine on which agent 4 has a note. -/
def noteGateway : Gateway :=
  { bootGateway with fs := (ramfsInit zeroMem).run [.put (.lit "/agent/4/note") (bytes "secret")] }

theorem storageReq_readNote (id : Fin maxAgents) :
    storageReq (readNote id).msg = .read 1 (bytes "/agent/4/note") := by
  rw [show (readNote id).msg = { (readNote 0).msg with senderId := id } from rfl,
    storageReq_sender]
  decide +kernel

end OpenAgentOS
