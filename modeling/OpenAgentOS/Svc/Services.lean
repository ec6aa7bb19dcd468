import OpenAgentOS.Svc.Client

/-!
# The service agents (user/router_svc.c, network_svc.c, display_svc.c, storage_svc.c)

A service takes a message, works on it with its tools, and sends one reply to the
sender. What the tools answer is an argument (`Tools`).

- `taggedReply`: the loop body that the router, the network and the display
  service share. A request is `<tag><id>|...`, and so is the reply.
- `storageReply`: requests to the storage service may lack the tag and the id, and
  then the reply is the bare text.
- `reply_text_eq_nil_iff`: the one case in which a service has nothing to send.
- `svcParseTagged_formatRsp`, `svcParseRspId_formatFsRsp`: the client that waits for
  the id of the request recognises the reply.
-/

namespace OpenAgentOS

open CInt CString

/-! ## Texts -/

/-- The bytes of a buffer in front of the terminator. -/
def cut (s : List UInt8) : List UInt8 := s.takeWhile (· != 0)

/-- The copy of the payload that a service works on. -/
def AgentMsg.text (msg : AgentMsg) : List UInt8 := cut (msg.payload.toList.take (msgPayloadSize - 1))

/-- `int_to_str`. -/
def intToStr (v : Int) : List UInt8 :=
  if v < 0 then '-'.toUInt8 :: decimal (toUint32 (-v)) else decimal (toUint32 v)

/-- A tag, a request id and a `|`. -/
def rspHead (tag : Char) (reqid : Int) : List UInt8 :=
  tag.toUInt8 :: intToStr reqid ++ ['|'.toUInt8]

/-- `format_llm_rsp`, `format_http_rsp` and `format_display_rsp`. -/
def formatRsp (tag : Char) (reqid : Int) (body : List UInt8) : List UInt8 :=
  rspHead tag reqid ++ body.take (msgPayloadSize - 1 - (rspHead tag reqid).length)

/-- `format_fs_rsp` (storage_svc.c:65). -/
def formatFsRsp (reqid : Int) (body : List UInt8) : List UInt8 :=
  if reqid ≤ 0 then body.take (msgPayloadSize - 1) else formatRsp 'R' reqid body

/-- Behind the tag: the request id and what follows the `|`. -/
def parseId (s : List UInt8) : Option (Int × List UInt8) :=
  if isDigit (charAt s 0) then
    match scanInt 0 s with
    | (id, c :: rest) => if c = '|'.toUInt8 then some (id, rest) else none
    | (_, []) => none
  else none

/-- Up to 31 bytes in front of a `|`, and what follows it. -/
def parseBackend (s : List UInt8) : Option (List UInt8 × List UInt8) :=
  let backend := (s.takeWhile (· != '|'.toUInt8)).take 31
  match s.drop backend.length with
  | c :: rest => if c = '|'.toUInt8 then some (backend, rest) else none
  | [] => none

/-- `parse_llm_req` (router_svc.c:40) and `parse_http_req` (network_svc.c:40): the
id, the backend, and the prompt or url. -/
def parseBackendReq (tag : Char) (req : List UInt8) : Option (Int × List UInt8 × List UInt8) :=
  if charAt req 0 ≠ tag.toUInt8 then none
  else do
    let (id, rest) ← parseId req.tail
    let (backend, arg) ← parseBackend rest
    return (id, backend, arg)

/-- `parse_display_req` (display_svc.c:29): the id, the position, and the text. -/
def parseDisplayReq (req : List UInt8) : Option (Int × Int × Int × List UInt8) :=
  if charAt req 0 ≠ 'D'.toUInt8 then none
  else do
    let (id, rest) ← parseId req.tail
    let (x, rest) := scanInt 0 rest
    if charAt rest 0 ≠ ','.toUInt8 then none
    let (y, rest) := scanInt 0 rest.tail
    if charAt rest 0 ≠ '|'.toUInt8 then none
    return (id, x, y, rest.tail)

/-- `parse_req_id` (storage_svc.c:44); without an id the whole text is the body. -/
def parseReqId (req : List UInt8) : Int × List UInt8 :=
  if charAt req 0 ≠ 'R'.toUInt8 ∧ charAt req 0 ≠ 'W'.toUInt8 then (0, req)
  else (parseId req.tail).getD (0, req)

/-! ## Services -/

/-- What the tools of a service answer. `llm`, `http` and `read` fill a buffer, or
fail. -/
structure Tools where
  llm : List UInt8 → Option (List UInt8)
  http : List UInt8 → Option (List UInt8)
  draw : Int → Int → List UInt8 → Bool
  read : List UInt8 → Option (List UInt8)
  write : List UInt8 → List UInt8 → Bool

/-- A message that a service sends to its client. -/
structure Reply where
  type : Int
  text : List UInt8
  deriving DecidableEq

/-- The loop of a service with tagged requests. It ends with `MSG_PIPELINE_DONE`. -/
def taggedReply {α : Type} (tag : Char) (reqType rspType : Int)
    (parse : List UInt8 → Option (Int × α)) (serve : α → List UInt8) (msg : AgentMsg) :
    Option Reply :=
  if msg.type = msgPipelineDone then none
  else if msg.type ≠ reqType then some ⟨rspType, formatRsp tag 0 (bytes "err:unknown")⟩
  else
    match parse msg.text with
    | none => some ⟨rspType, formatRsp tag 0 (bytes "err:parse")⟩
    | some (reqid, req) => some ⟨rspType, formatRsp tag reqid (serve req)⟩

/-- `contains_substr`. -/
def containsSubstr (hay needle : List UInt8) : Bool := hay.tails.any (needle.isPrefixOf ·)

/-- `router_faux` (router_svc.c:99). -/
def routerFaux (prompt : List UInt8) : List UInt8 :=
  if containsSubstr prompt (bytes "17+25") then bytes "42"
  else if containsSubstr prompt (bytes "2+2") then bytes "4"
  else bytes "ok"

/-- `router_agent_main` (router_svc.c:121). -/
def routerReply (tools : Tools) : AgentMsg → Option Reply :=
  taggedReply 'L' msgLlmReq msgLlmRsp (parseBackendReq 'L') fun (backend, prompt) =>
    if backend = bytes "offline" then bytes "err:offline"
    else
      let answer := if backend = bytes "faux" then some (routerFaux prompt) else tools.llm prompt
      (answer.map cut).getD (bytes "err:llm")

/-- `network_agent_main` (network_svc.c:82). -/
def networkReply (tools : Tools) : AgentMsg → Option Reply :=
  taggedReply 'H' msgHttpReq msgHttpRsp (parseBackendReq 'H') fun (backend, url) =>
    if backend = bytes "offline" then bytes "err:offline"
    else ((tools.http url).map cut).getD (bytes "err:http")

/-- `display_agent_main` (display_svc.c:95). -/
def displayReply (tools : Tools) : AgentMsg → Option Reply :=
  taggedReply 'D' msgDisplayReq msgDisplayRsp parseDisplayReq fun (x, y, text) =>
    if tools.draw x y text then bytes "ok" else bytes "err:draw"

/-- What the storage service understands of a message. -/
inductive StorageReq where
  | done
  | read (reqid : Int) (path : List UInt8)
  | write (reqid : Int) (path data : List UInt8)
  | badWrite (reqid : Int)
  | unknown
  deriving DecidableEq

/-- The head of `storage_agent_main` (storage_svc.c:87): paths are cut to 63 bytes,
data to 127. -/
def storageReq (msg : AgentMsg) : StorageReq :=
  if msg.type = msgPipelineDone then .done
  else if msg.type = msgFsRead then
    let (reqid, body) := parseReqId msg.text
    .read reqid (body.take 63)
  else if msg.type = msgFsWrite then
    let (reqid, body) := parseReqId msg.text
    let path := body.takeWhile (· != '|'.toUInt8)
    match body.drop path.length with
    | [] => .badWrite reqid
    | _ :: data => .write reqid (path.take 63) (data.take 127)
  else .unknown

/-- The reply of the storage service. -/
def StorageReq.reply (tools : Tools) : StorageReq → Option Reply
  | .done => none
  | .read reqid path =>
    some ⟨msgFsRsp, formatFsRsp reqid (((tools.read path).map cut).getD (bytes "err:read"))⟩
  | .write reqid path data =>
    some ⟨msgFsRsp, formatFsRsp reqid (if tools.write path data then bytes "ok" else bytes "err:write")⟩
  | .badWrite reqid => some ⟨msgFsRsp, formatFsRsp reqid (bytes "err:write")⟩
  | .unknown => some ⟨msgFsRsp, formatFsRsp 0 (bytes "err:unknown")⟩

/-- `storage_agent_main` (storage_svc.c:87). -/
def storageReply (tools : Tools) (msg : AgentMsg) : Option Reply := (storageReq msg).reply tools

/-- The services that answer requests. -/
inductive ServiceKind where
  | router
  | network
  | display
  | storage
  deriving DecidableEq

/-- The reply to a message, if there is one. -/
def ServiceKind.reply (tools : Tools) : ServiceKind → AgentMsg → Option Reply
  | router => routerReply tools
  | network => networkReply tools
  | display => displayReply tools
  | storage => storageReply tools

/-- The request reads a file without a positive id, and the file starts with the
terminator or is empty. -/
def ServiceKind.emptyRead (tools : Tools) (kind : ServiceKind) (msg : AgentMsg) : Bool :=
  match kind, storageReq msg with
  | storage, .read reqid path => decide (reqid ≤ 0) && (tools.read path).map cut == some []
  | _, _ => false

/-! ## Replies are not empty -/

theorem formatRsp_ne_nil (tag : Char) (reqid : Int) (body : List UInt8) :
    formatRsp tag reqid body ≠ [] := List.cons_ne_nil _ _

theorem taggedReply_ne_nil {α : Type} {tag : Char} {reqType rspType : Int}
    {parse : List UInt8 → Option (Int × α)} {serve : α → List UInt8} {msg : AgentMsg} {r : Reply}
    (h : taggedReply tag reqType rspType parse serve msg = some r) : r.text ≠ [] := by
  unfold taggedReply at h
  split_ifs at h
  · rw [← Option.some.inj h]
    exact formatRsp_ne_nil _ _ _
  · split at h
    · rw [← Option.some.inj h]
      exact formatRsp_ne_nil _ _ _
    · rw [← Option.some.inj h]
      exact formatRsp_ne_nil _ _ _

theorem formatFsRsp_eq_nil_iff (reqid : Int) (body : List UInt8) :
    formatFsRsp reqid body = [] ↔ reqid ≤ 0 ∧ body = [] := by
  unfold formatFsRsp
  split_ifs with hid
  · simp [hid, List.take_eq_nil_iff]
  · simp [hid, formatRsp_ne_nil]

theorem storageReply_eq_nil_iff {tools : Tools} {msg : AgentMsg} {r : Reply}
    (h : storageReply tools msg = some r) :
    r.text = [] ↔ ServiceKind.storage.emptyRead tools msg = true := by
  unfold storageReply at h
  unfold ServiceKind.emptyRead
  cases hreq : storageReq msg with
  | done =>
    rw [hreq] at h
    cases h
  | read reqid path =>
    rw [hreq] at h
    rw [← Option.some.inj h, formatFsRsp_eq_nil_iff]
    dsimp only
    cases tools.read path with
    | none => simp [bytes]
    | some data => simp
  | write reqid path data =>
    rw [hreq] at h
    rw [← Option.some.inj h, formatFsRsp_eq_nil_iff]
    cases tools.write path data <;> simp [bytes]
  | badWrite reqid =>
    rw [hreq] at h
    rw [← Option.some.inj h, formatFsRsp_eq_nil_iff]
    simp [bytes]
  | unknown =>
    rw [hreq] at h
    rw [← Option.some.inj h, formatFsRsp_eq_nil_iff]
    simp [bytes]

/-- **A service has nothing to send** only if it reads an empty file for a request
without an id. -/
theorem reply_text_eq_nil_iff {tools : Tools} {kind : ServiceKind} {msg : AgentMsg} {r : Reply}
    (h : kind.reply tools msg = some r) : r.text = [] ↔ kind.emptyRead tools msg = true := by
  cases kind with
  | router => exact iff_of_false (taggedReply_ne_nil h) Bool.false_ne_true
  | network => exact iff_of_false (taggedReply_ne_nil h) Bool.false_ne_true
  | display => exact iff_of_false (taggedReply_ne_nil h) Bool.false_ne_true
  | storage => exact storageReply_eq_nil_iff h

/-! ## Clients recognise replies -/

/-- The payload is the text, padded with zeroes. -/
theorem payload_ofText (senderId type : Int) {text : List UInt8} (h : text.length ≤ msgPayloadSize) :
    (AgentMsg.ofText senderId type text).payload.toList
      = text ++ List.replicate (msgPayloadSize - text.length) 0 := by
  have hlen : (AgentMsg.ofText senderId type text).payload.toList.length = msgPayloadSize := by
    rw [Vector.length_toList]
  refine List.ext_getElem (by rw [hlen, List.length_append, List.length_replicate]; omega) ?_
  intro i hi hi'
  rw [List.getElem_append]
  split_ifs with hlt
  · simp [AgentMsg.ofText, charAt, hlt]
  · simp [AgentMsg.ofText, charAt, List.getElem?_eq_none (Nat.not_lt.mp hlt)]

theorem intToStr_ofNat {n : Nat} (h : n < 2 ^ 31) : intToStr n = decimal n := by
  rw [intToStr, if_neg (by omega), toUint32]
  congr 1
  omega

theorem length_formatRsp_le (tag : Char) {n : Nat} (h : n < 2 ^ 31) (body : List UInt8) :
    (formatRsp tag n body).length ≤ msgPayloadSize := by
  have hdec : (decimal n).length ≤ 10 := length_decimal_le (by decide) (h.trans (by decide))
  have hhead : (rspHead tag n).length ≤ 12 := by
    rw [rspHead, intToStr_ofNat h, List.length_append, List.length_cons, List.length_singleton]
    omega
  rw [formatRsp, List.length_append, List.length_take]
  have : msgPayloadSize = 224 := rfl
  omega

/-- The parsers read a printed id: the verdict, and where the body starts. -/
theorem parseIdField_decimal (tag : UInt8) {n : Nat} (h : n < 2 ^ 31) (rest : List UInt8)
    (expectId : Int) :
    parseIdField (tag :: (decimal n ++ '|'.toUInt8 :: rest)) expectId =
      ((n : Int) == expectId, (decimal n).length + 2) := by
  have hscan : scanInt 0 (decimal n ++ '|'.toUInt8 :: rest) = ((n : Int), '|'.toUInt8 :: rest) :=
    scanInt_decimal h rfl
  have hlen : (tag :: (decimal n ++ '|'.toUInt8 :: rest)).length
      - ('|'.toUInt8 :: rest).length = (decimal n).length + 1 := by
    simp only [List.length_cons, List.length_append]
    omega
  have hbar : charAt (tag :: (decimal n ++ '|'.toUInt8 :: rest)) ((decimal n).length + 1)
      = '|'.toUInt8 := by
    rw [charAt, List.getD_cons_succ, List.getD_append_right _ _ _ _ le_rfl, Nat.sub_self]
    rfl
  have hdigit : isDigit (charAt (tag :: (decimal n ++ '|'.toUInt8 :: rest)) 1) = true :=
    isDigit_decimal n ('|'.toUInt8 :: rest)
  rw [parseIdField, if_pos hdigit, List.drop_one, List.tail_cons, hscan]
  dsimp only
  rw [hlen, if_pos hbar]

/-- A reply is its tag, its id and what fits of its body. -/
theorem formatRsp_append (tag : Char) {n : Nat} (h : n < 2 ^ 31) (body pad : List UInt8) :
    formatRsp tag n body ++ pad = tag.toUInt8 :: (decimal n ++ '|'.toUInt8 ::
      (body.take (msgPayloadSize - 1 - (rspHead tag n).length) ++ pad)) := by
  rw [formatRsp, rspHead, intToStr_ofNat h]
  simp

/-- Behind its tag, a reply carries its id. -/
theorem parseIdField_formatRsp (tag : Char) {n : Nat} (h : n < 2 ^ 31) (body pad : List UInt8) :
    (parseIdField (formatRsp tag n body ++ pad) n).1 = true := by
  rw [formatRsp_append tag h, parseIdField_decimal _ h]
  exact beq_self_eq_true _

/-- It starts with the tag. -/
theorem charAt_formatRsp (tag : Char) (reqid : Int) (body pad : List UInt8) :
    charAt (formatRsp tag reqid body ++ pad) 0 = tag.toUInt8 := rfl

/-- The same for the storage service, whose ids are positive. -/
theorem svcParseRspId_formatFsRsp {n : Nat} (hpos : 0 < n) (h : n < 2 ^ 31) (senderId type : Int)
    (body : List UInt8) :
    Answers svcParseRspId type n (.ofText senderId type (formatFsRsp n body)) := by
  have htag : formatFsRsp n body = formatRsp 'R' n body := if_neg (by omega)
  refine ⟨rfl, ?_⟩
  rw [svcParseRspId, htag, payload_ofText _ _ (length_formatRsp_le 'R' h body),
    if_neg fun hne => hne.1 (charAt_formatRsp 'R' _ _ _)]
  exact parseIdField_formatRsp 'R' h body _

end OpenAgentOS
