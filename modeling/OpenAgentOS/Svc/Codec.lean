import OpenAgentOS.Svc.Services

/-!
# Requests and replies on the wire (user/agent_svc.c, libagent.h, the services)

A client prints its request into a payload, and the service reads it back; the reply goes the
other way. Numbers are printed in decimal and fields are separated by `|`.

- `RpcRequest`, `RpcRequest.build`: the requests, and the texts that `agent_svc_read`,
  `agent_svc_write`, `agent_svc_llm`, `agent_svc_http` and `agent_svc_display` send.
- `RpcRequest.Parsed`: the service reads the id and the fields from a message.
- `RpcRequest.ReplyRead`: the reply fits, and the client takes it for the id it was formatted
  for and no other, with the body that was sent as far as it fits.
- `rpc_codec_iff`: both hold iff the data of a write request contains no NUL. A message is a
  string, so the service sees the data in front of the first NUL only, while
  `agent_svc_write` returns the full length.
-/

namespace OpenAgentOS

open CInt CString

/-- The separator of fields. -/
abbrev bar : UInt8 := '|'.toUInt8

/-! ## Requests -/

/-- `svc_append_int` (libagent.h:167): the buffer up to the new position, or failure. -/
def svcAppendInt (buf : List UInt8) (maxlen : Nat) (val : Int) : Option (List UInt8) :=
  if val < 0 then none
  else if maxlen - 1 < buf.length + (decimal (toUint32 val)).length then none
  else some (buf ++ decimal (toUint32 val))

/-- The request of `agent_svc_read` (agent_svc.c:42). -/
def agentSvcReadReq (reqid : Int) (path : CStr) : Option (List UInt8) :=
  match svcAppendInt ['R'.toUInt8] msgPayloadSize reqid with
  | none => none
  | some req =>
    if msgPayloadSize - 2 ≤ req.length then none
    else some (req ++ [bar] ++ path.bytes.take (msgPayloadSize - 1 - (req.length + 1)))

/-- The request of `agent_svc_write` (agent_svc.c:79), with `len` bytes of data. -/
def agentSvcWriteReq (reqid : Int) (path : CStr) (data : List UInt8) : Option (List UInt8) :=
  match svcAppendInt ['W'.toUInt8] msgPayloadSize reqid with
  | none => none
  | some req =>
    if msgPayloadSize ≤ req.length + data.length + 3 then none
    else
      let req := req ++ [bar]
      let req := req ++ path.bytes.take (msgPayloadSize - data.length - 2 - req.length)
      if msgPayloadSize ≤ req.length + data.length + 2 then none
      else some (req ++ [bar] ++ data.take (msgPayloadSize - 1 - (req.length + 1)))

/-- The common part of `agent_svc_llm` and `agent_svc_http`. -/
def backendReq (tag : Char) (reqid : Int) (arg backend : CStr) : Option (List UInt8) :=
  if backend.length = 0 ∨ 16 < backend.length then none
  else
    match svcAppendInt [tag.toUInt8] msgPayloadSize reqid with
    | none => none
    | some req =>
      if msgPayloadSize ≤ req.length + backend.length + arg.length + 3 then none
      else
        let req := req ++ [bar] ++ backend.bytes ++ [bar]
        some (req ++ arg.bytes.take (msgPayloadSize - 1 - req.length))

/-- The request of `agent_svc_llm` (agent_svc.c:137). -/
def agentSvcLlmReq (reqid : Int) (prompt backend : CStr) : Option (List UInt8) :=
  backendReq 'L' reqid prompt backend

/-- The request of `agent_svc_http` (agent_svc.c:209), which refuses an empty url. -/
def agentSvcHttpReq (reqid : Int) (url backend : CStr) : Option (List UInt8) :=
  if url.length = 0 then none else backendReq 'H' reqid url backend

/-- The request of `agent_svc_display` (agent_svc.c:280). -/
def agentSvcDisplayReq (reqid : Int) (text : CStr) (x y : Int) : Option (List UInt8) :=
  if text.length = 0 then none
  else
    match svcAppendInt ['D'.toUInt8] msgPayloadSize reqid with
    | none => none
    | some req =>
      match svcAppendInt (req ++ [bar]) msgPayloadSize x with
      | none => none
      | some req =>
        match svcAppendInt (req ++ [','.toUInt8]) msgPayloadSize y with
        | none => none
        | some req =>
          let req := req ++ [bar]
          if msgPayloadSize ≤ req.length + text.length then none
          else some (req ++ text.bytes.take (msgPayloadSize - 1 - req.length))

/-- A call of a client function. -/
inductive RpcRequest where
  | read (path : CStr)
  | write (path : CStr) (data : List UInt8)
  | llm (prompt backend : CStr)
  | http (url backend : CStr)
  | display (text : CStr) (x y : Int)

namespace RpcRequest

/-- The text that is sent, if the request fits into a message. -/
def build (reqid : Int) : RpcRequest → Option (List UInt8)
  | read path => agentSvcReadReq reqid path
  | write path data => agentSvcWriteReq reqid path data
  | llm prompt backend => agentSvcLlmReq reqid prompt backend
  | http url backend => agentSvcHttpReq reqid url backend
  | display text x y => agentSvcDisplayReq reqid text x y

/-- The type of the message. -/
def type : RpcRequest → Int
  | read _ => msgFsRead
  | write _ _ => msgFsWrite
  | llm _ _ => msgLlmReq
  | http _ _ => msgHttpReq
  | display _ _ _ => msgDisplayReq

/-- The arguments that the services provide for. -/
def Within : RpcRequest → Prop
  | read path => path.length ≤ 63 ∧ bar ∉ path.bytes
  | write path data => path.length ≤ 63 ∧ bar ∉ path.bytes ∧ data.length ≤ 127
  | llm _ backend => backend.length ≤ 16 ∧ bar ∉ backend.bytes
  | http _ backend => backend.length ≤ 16 ∧ bar ∉ backend.bytes
  | display _ x y => (0 ≤ x ∧ x < 2 ^ 31) ∧ 0 ≤ y ∧ y < 2 ^ 31

/-- The client function sends the request: a backend, a url and a display text are not empty,
and all fields fit into a message. For a backend the code asks for one byte more than needed. -/
def Fits (n : Nat) : RpcRequest → Prop
  | read _ => True
  | write _ _ => True
  | llm prompt backend => 0 < backend.length ∧
      (decimal n).length + backend.length + prompt.length + 4 < msgPayloadSize
  | http url backend => 0 < url.length ∧ 0 < backend.length ∧
      (decimal n).length + backend.length + url.length + 4 < msgPayloadSize
  | display text x y => 0 < text.length ∧ (decimal n).length + (decimal x.toNat).length +
      (decimal y.toNat).length + text.length + 4 < msgPayloadSize

/-- The service reads the request from the message: the id and all fields. -/
def Parsed (reqid : Int) (msg : AgentMsg) : RpcRequest → Prop
  | read path => storageReq msg = .read reqid path.bytes
  | write path data => storageReq msg = .write reqid path.bytes data
  | llm prompt backend => parseBackendReq 'L' msg.text = some (reqid, backend.bytes, prompt.bytes)
  | http url backend => parseBackendReq 'H' msg.text = some (reqid, backend.bytes, url.bytes)
  | display text x y => parseDisplayReq msg.text = some (reqid, x, y, text.bytes)

/-- The letter in front of a reply. -/
def replyTag : RpcRequest → Char
  | read _ => 'R'
  | write _ _ => 'R'
  | llm _ _ => 'L'
  | http _ _ => 'H'
  | display _ _ _ => 'D'

/-- The reply that the service formats. -/
def reply (reqid : Int) (body : List UInt8) : RpcRequest → List UInt8
  | read _ => formatFsRsp reqid body
  | write _ _ => formatFsRsp reqid body
  | llm _ _ => formatRsp 'L' reqid body
  | http _ _ => formatRsp 'H' reqid body
  | display _ _ _ => formatRsp 'D' reqid body

/-- The parser that the client gives to `svc_recv_match`. -/
def matcher : RpcRequest → MatchId
  | read _ => svcParseRspId
  | write _ _ => svcParseRspId
  | llm _ _ => svcParseLlmRsp
  | http _ _ => svcParseHttpRsp
  | display _ _ _ => svcParseDisplayRsp

/-- The reply for an id fits, is accepted exactly when that id is expected, and the client then
reads the body as far as it fits behind the id. -/
def ReplyRead (reqid : Int) (req : RpcRequest) (msg : AgentMsg) (body : CStr) : Prop :=
  (req.reply reqid body.bytes).length ≤ msgPayloadSize - 1 ∧
  (∀ expectId, (req.matcher msg.payload expectId).1 = true ↔ expectId = reqid) ∧
  cut (msg.payload.toList.drop (req.matcher msg.payload reqid).2) =
    body.bytes.take (msgPayloadSize - 1 - (rspHead req.replyTag reqid).length)

/-- The data of a write request has no NUL. -/
def NulFree : RpcRequest → Prop
  | write _ data => (0 : UInt8) ∉ data
  | _ => True

end RpcRequest

/-! ## Texts -/

theorem cut_append {s : List UInt8} (h : (0 : UInt8) ∉ s) (t : List UInt8) :
    cut (s ++ t) = s ++ cut t := by
  have hall : ∀ c ∈ s, (c != 0) = true := fun c hc => bne_iff_ne.mpr fun h0 => h (h0 ▸ hc)
  rw [cut, List.takeWhile_append_of_pos hall]
  rfl

theorem cut_eq_self {s : List UInt8} (h : (0 : UInt8) ∉ s) : cut s = s := by
  have happend := cut_append h []
  rwa [List.append_nil, show cut [] = [] from rfl, List.append_nil] at happend

theorem zero_not_mem_cut (s : List UInt8) : (0 : UInt8) ∉ cut s := fun h =>
  absurd (List.mem_takeWhile_imp h) (by decide)

theorem cut_eq_self_iff (s : List UInt8) : cut s = s ↔ (0 : UInt8) ∉ s := by
  constructor
  · intro h
    rw [← h]
    exact zero_not_mem_cut s
  · exact cut_eq_self

/-- Zeroes behind a text do not change it. -/
theorem cut_zeros (s : List UInt8) (n : Nat) : cut (s ++ List.replicate n 0) = cut s := by
  induction s with
  | nil =>
    cases n with
    | zero => rfl
    | succ n => rfl
  | cons c s ih =>
    rw [List.cons_append, cut, cut, List.takeWhile_cons, List.takeWhile_cons]
    split_ifs
    · exact congrArg (c :: ·) ih
    · rfl

/-- What a service gets of a text that fits. -/
theorem text_ofText (senderId type : Int) {text : List UInt8}
    (h : text.length ≤ msgPayloadSize - 1) : (AgentMsg.ofText senderId type text).text = cut text := by
  have hlen : text.length ≤ msgPayloadSize := Nat.le_trans h (by decide)
  rw [AgentMsg.text, payload_ofText senderId type hlen, List.take_append, List.take_of_length_le h,
    List.take_replicate, cut_zeros]

theorem charAt_cons_zero (c : UInt8) (s : List UInt8) : charAt (c :: s) 0 = c := rfl

theorem bar_not_digit : isDigit bar = false := by decide

/-- **A printed id is read back**, behind the tag and in front of the separator. -/
theorem parseId_decimal {n : Nat} (h : n < 2 ^ 31) (rest : List UInt8) :
    parseId (decimal n ++ bar :: rest) = some ((n : Int), rest) := by
  have hscan : scanInt 0 (decimal n ++ bar :: rest) = ((n : Int), bar :: rest) :=
    scanInt_decimal h bar_not_digit
  rw [parseId, if_pos (isDigit_decimal n (bar :: rest)), hscan]
  rfl

/-- The backend is read up to the separator. -/
theorem parseBackend_bar {backend : List UInt8} (hlen : backend.length ≤ 16) (hbar : bar ∉ backend)
    (rest : List UInt8) : parseBackend (backend ++ bar :: rest) = some (backend, rest) := by
  have hall : ∀ c ∈ backend, (c != bar) = true :=
    fun c hc => bne_iff_ne.mpr fun h => hbar (h ▸ hc)
  have htake : ((backend ++ bar :: rest).takeWhile (· != bar)).take 31 = backend := by
    rw [List.takeWhile_append_of_pos hall, List.takeWhile_cons_of_neg (by decide), List.append_nil,
      List.take_of_length_le (by omega)]
  rw [parseBackend, htake, List.drop_left]
  rfl

/-! ## What is sent -/

section Build

variable {n : Nat} (hn : n < 2 ^ 31)

include hn

theorem length_decimal_id : (decimal n).length ≤ 10 :=
  length_decimal_le (by decide) (Nat.lt_trans hn (by decide))

/-- Numbers are printed as long as there is room. -/
theorem svcAppendInt_eq {buf : List UInt8} (hlen : buf.length ≤ 213) :
    svcAppendInt buf msgPayloadSize n = some (buf ++ decimal n) := by
  have hdigits := length_decimal_id hn
  have hval : toUint32 (n : Int) = n := by
    rw [toUint32]
    omega
  have hroom : msgPayloadSize - 1 = 223 := rfl
  rw [svcAppendInt, if_neg (by omega), hval, if_neg (by omega)]

theorem agentSvcReadReq_eq {path : CStr} (hpath : path.length ≤ 63) :
    agentSvcReadReq n path = some ('R'.toUInt8 :: (decimal n ++ bar :: path.bytes)) := by
  have hdigits := length_decimal_id hn
  have hsize : msgPayloadSize = 224 := rfl
  have hlen : path.bytes.length ≤ 63 := hpath
  rw [agentSvcReadReq, svcAppendInt_eq hn (by decide)]
  dsimp only
  rw [if_neg (by simp only [List.length_append, List.length_singleton]; omega),
    List.take_of_length_le (by simp only [List.length_append, List.length_singleton]; omega)]
  simp

theorem agentSvcWriteReq_eq {path : CStr} {data : List UInt8} (hpath : path.length ≤ 63)
    (hdata : data.length ≤ 127) :
    agentSvcWriteReq n path data =
      some ('W'.toUInt8 :: (decimal n ++ bar :: (path.bytes ++ bar :: data))) := by
  have hdigits := length_decimal_id hn
  have hsize : msgPayloadSize = 224 := rfl
  have hlen : path.bytes.length ≤ 63 := hpath
  rw [agentSvcWriteReq, svcAppendInt_eq hn (by decide)]
  dsimp only
  rw [if_neg (by simp only [List.length_append, List.length_singleton]; omega),
    List.take_of_length_le (l := path.bytes)
      (by simp only [List.length_append, List.length_singleton]; omega),
    if_neg (by simp only [List.length_append, List.length_singleton]; omega),
    List.take_of_length_le (by simp only [List.length_append, List.length_singleton]; omega)]
  simp

/-- A request that names a backend, if it is sent. -/
theorem backendReq_some {tag : Char} {arg backend : CStr} {text : List UInt8}
    (h : backendReq tag n arg backend = some text) :
    text = tag.toUInt8 :: (decimal n ++ bar :: (backend.bytes ++ bar :: arg.bytes)) ∧
      text.length ≤ msgPayloadSize - 1 := by
  have hsize : msgPayloadSize = 224 := rfl
  rw [backendReq, svcAppendInt_eq hn (Nat.le_of_ble_eq_true rfl)] at h
  dsimp only at h
  split_ifs at h with hback hroom
  have harg : arg.length = arg.bytes.length := rfl
  have hbackend : backend.length = backend.bytes.length := rfl
  rw [List.take_of_length_le (by
    simp only [List.length_append, List.length_singleton] at hroom ⊢
    omega)] at h
  obtain rfl := Option.some.inj h
  refine ⟨by simp, ?_⟩
  simp only [List.length_append, List.length_singleton] at hroom ⊢
  omega

theorem agentSvcDisplayReq_some {text : CStr} {x y : Nat} (hx : x < 2 ^ 31) (hy : y < 2 ^ 31)
    {req : List UInt8} (h : agentSvcDisplayReq n text x y = some req) :
    req = 'D'.toUInt8 ::
      (decimal n ++ bar :: (decimal x ++ ','.toUInt8 :: (decimal y ++ bar :: text.bytes))) ∧
      req.length ≤ msgPayloadSize - 1 := by
  have hsize : msgPayloadSize = 224 := rfl
  have hdigits := length_decimal_id hn
  have hxdigits := length_decimal_id hx
  rw [agentSvcDisplayReq, svcAppendInt_eq hn (by decide)] at h
  dsimp only at h
  rw [svcAppendInt_eq hx (by simp only [List.length_append, List.length_singleton]; omega)] at h
  dsimp only at h
  rw [svcAppendInt_eq hy (by simp only [List.length_append, List.length_singleton]; omega)] at h
  dsimp only at h
  split_ifs at h with hempty hroom
  have htext : text.length = text.bytes.length := rfl
  rw [List.take_of_length_le (by
    simp only [List.length_append, List.length_singleton] at hroom ⊢
    omega)] at h
  obtain rfl := Option.some.inj h
  refine ⟨by simp, ?_⟩
  simp only [List.length_append, List.length_singleton] at hroom ⊢
  omega

end Build

/-! ## What is read -/

section Read

variable {n : Nat} (hn : n < 2 ^ 31)

include hn

theorem parseReqId_decimal {tag : UInt8} (htag : tag = 'R'.toUInt8 ∨ tag = 'W'.toUInt8)
    (rest : List UInt8) : parseReqId (tag :: (decimal n ++ bar :: rest)) = ((n : Int), rest) := by
  rw [parseReqId, charAt_cons_zero, if_neg (fun h => htag.elim h.1 h.2), List.tail_cons,
    parseId_decimal hn]
  rfl

omit hn in
theorem zero_not_mem_head {tag : UInt8} (htag : tag ≠ 0) (n : Nat) {rest : List UInt8}
    (hrest : (0 : UInt8) ∉ rest) : (0 : UInt8) ∉ tag :: (decimal n ++ bar :: rest) := by
  intro hmem
  rcases List.mem_cons.mp hmem with h | h
  · exact htag h.symm
  rcases List.mem_append.mp h with h | h
  · exact zero_not_mem_decimal n h
  rcases List.mem_cons.mp h with h | h
  · exact absurd h (by decide)
  · exact hrest h

theorem parsed_read (senderId : Int) {path : CStr} (hpath : path.length ≤ 63) :
    storageReq (.ofText senderId msgFsRead ('R'.toUInt8 :: (decimal n ++ bar :: path.bytes))) =
      .read n path.bytes := by
  have hdigits := length_decimal_id hn
  have hlen : path.bytes.length ≤ 63 := hpath
  have htext : ('R'.toUInt8 :: (decimal n ++ bar :: path.bytes)).length ≤ msgPayloadSize - 1 := by
    rw [show msgPayloadSize - 1 = 223 from rfl]
    simp only [List.length_cons, List.length_append]
    omega
  have htype : (AgentMsg.ofText senderId msgFsRead
      ('R'.toUInt8 :: (decimal n ++ bar :: path.bytes))).type = msgFsRead := rfl
  rw [storageReq, htype, if_neg (by decide), if_pos rfl, text_ofText _ _ htext,
    cut_eq_self (zero_not_mem_head (by decide) n path.nul_free), parseReqId_decimal hn (.inl rfl)]
  dsimp only
  rw [List.take_of_length_le hlen]

/-- A write request is read up to the first NUL of its data. -/
theorem parsed_write (senderId : Int) {path : CStr} {data : List UInt8}
    (hpath : path.length ≤ 63) (hbar : bar ∉ path.bytes) (hdata : data.length ≤ 127) :
    storageReq (.ofText senderId msgFsWrite
      ('W'.toUInt8 :: (decimal n ++ bar :: (path.bytes ++ bar :: data)))) =
        .write n path.bytes (cut data) := by
  have hdigits := length_decimal_id hn
  have hlen : path.bytes.length ≤ 63 := hpath
  have htext : ('W'.toUInt8 :: (decimal n ++ bar :: (path.bytes ++ bar :: data))).length
      ≤ msgPayloadSize - 1 := by
    rw [show msgPayloadSize - 1 = 223 from rfl]
    simp only [List.length_cons, List.length_append]
    omega
  have hcut : cut ('W'.toUInt8 :: (decimal n ++ bar :: (path.bytes ++ bar :: data))) =
      'W'.toUInt8 :: (decimal n ++ bar :: (path.bytes ++ bar :: cut data)) := by
    have hfree : (0 : UInt8) ∉ 'W'.toUInt8 :: (decimal n ++ bar :: (path.bytes ++ [bar])) := by
      refine zero_not_mem_head (by decide) n fun h => ?_
      rcases List.mem_append.mp h with h | h
      · exact path.nul_free h
      · exact absurd (List.mem_singleton.mp h) (by decide)
    have happend := cut_append hfree data
    simpa using happend
  have htype : (AgentMsg.ofText senderId msgFsWrite
      ('W'.toUInt8 :: (decimal n ++ bar :: (path.bytes ++ bar :: data)))).type = msgFsWrite := rfl
  have hall : ∀ c ∈ path.bytes, (c != bar) = true :=
    fun c hc => bne_iff_ne.mpr fun h => hbar (h ▸ hc)
  have hpathRead : (path.bytes ++ bar :: cut data).takeWhile (· != bar) = path.bytes := by
    rw [List.takeWhile_append_of_pos hall, List.takeWhile_cons_of_neg (by decide), List.append_nil]
  have hcutlen : (cut data).length ≤ 127 :=
    Nat.le_trans (List.takeWhile_prefix _).length_le hdata
  rw [storageReq, htype, if_neg (by decide), if_neg (by decide), if_pos rfl,
    text_ofText _ _ htext, hcut, parseReqId_decimal hn (.inr rfl)]
  dsimp only
  rw [hpathRead, List.drop_left]
  dsimp only
  rw [List.take_of_length_le hlen, List.take_of_length_le hcutlen]

theorem parsed_backend {tag : Char} (senderId type : Int) (htag : tag.toUInt8 ≠ 0)
    {arg backend : CStr} (hlen : backend.length ≤ 16) (hbar : bar ∉ backend.bytes)
    {text : List UInt8} (hbuild : backendReq tag n arg backend = some text) :
    parseBackendReq tag (AgentMsg.ofText senderId type text).text =
      some ((n : Int), backend.bytes, arg.bytes) := by
  obtain ⟨rfl, hfits⟩ := backendReq_some hn hbuild
  have hfree : (0 : UInt8) ∉ backend.bytes ++ bar :: arg.bytes := by
    intro h
    rcases List.mem_append.mp h with h | h
    · exact backend.nul_free h
    rcases List.mem_cons.mp h with h | h
    · exact absurd h (by decide)
    · exact arg.nul_free h
  rw [text_ofText _ _ hfits, cut_eq_self (zero_not_mem_head htag n hfree), parseBackendReq,
    charAt_cons_zero, if_neg (not_not.mpr rfl), List.tail_cons, parseId_decimal hn]
  show (parseBackend (backend.bytes ++ bar :: arg.bytes)).bind _ = _
  rw [parseBackend_bar hlen hbar]
  rfl

theorem parsed_display (senderId type : Int) {text : CStr} {x y : Nat} (hx : x < 2 ^ 31)
    (hy : y < 2 ^ 31) {req : List UInt8} (hbuild : agentSvcDisplayReq n text x y = some req) :
    parseDisplayReq (AgentMsg.ofText senderId type req).text =
      some ((n : Int), (x : Int), (y : Int), text.bytes) := by
  obtain ⟨rfl, hfits⟩ := agentSvcDisplayReq_some hn hx hy hbuild
  have hfree : (0 : UInt8) ∉ decimal x ++ ','.toUInt8 :: (decimal y ++ bar :: text.bytes) := by
    intro h
    rcases List.mem_append.mp h with h | h
    · exact zero_not_mem_decimal x h
    · exact zero_not_mem_head (by decide) y text.nul_free h
  have hxscan : scanInt 0 (decimal x ++ ','.toUInt8 :: (decimal y ++ bar :: text.bytes)) =
      ((x : Int), ','.toUInt8 :: (decimal y ++ bar :: text.bytes)) := scanInt_decimal hx rfl
  have hyscan : scanInt 0 (decimal y ++ bar :: text.bytes) = ((y : Int), bar :: text.bytes) :=
    scanInt_decimal hy rfl
  rw [text_ofText _ _ hfits, cut_eq_self (zero_not_mem_head (by decide) n hfree), parseDisplayReq,
    charAt_cons_zero, if_neg (not_not.mpr rfl), List.tail_cons, parseId_decimal hn]
  simp only [Option.bind_eq_bind, Option.bind_some, hxscan, charAt_cons_zero, List.tail_cons, hyscan]
  rfl

end Read

/-! ## Replies -/

namespace RpcRequest

variable {n : Nat} (hn : n < 2 ^ 31)

theorem reply_eq (hpos : 0 < n) (req : RpcRequest) (body : List UInt8) :
    req.reply n body = formatRsp req.replyTag n body := by
  have hfs : formatFsRsp n body = formatRsp 'R' n body := if_neg (by omega)
  cases req with
  | read path => exact hfs
  | write path data => exact hfs
  | llm prompt backend => rfl
  | http url backend => rfl
  | display text x y => rfl

/-- All parsers read the id of a reply with the right tag. -/
theorem matcher_eq (req : RpcRequest) {payload : Vector UInt8 msgPayloadSize}
    (htag : charAt payload.toList 0 = req.replyTag.toUInt8) (expectId : Int) :
    req.matcher payload expectId = parseIdField payload.toList expectId := by
  have hrsp : charAt payload.toList 0 = 'R'.toUInt8 →
      svcParseRspId payload expectId = parseIdField payload.toList expectId := by
    intro hr
    rw [svcParseRspId, if_neg fun hne => hne.1 hr]
  cases req with
  | read path => exact hrsp htag
  | write path data => exact hrsp htag
  | llm prompt backend => exact if_pos htag
  | http url backend => exact if_pos htag
  | display text x y => exact if_pos htag

include hn

theorem length_rspHead (tag : Char) : (rspHead tag n).length = (decimal n).length + 2 := by
  rw [rspHead, intToStr_ofNat hn]
  simp

/-- **Replies are read back**, by the client that waits for them only. -/
theorem replyRead (hpos : 0 < n) (req : RpcRequest) (senderId type : Int) (body : CStr) :
    req.ReplyRead n (.ofText senderId type (req.reply n body.bytes)) body := by
  have hdigits := length_decimal_id hn
  have hsize : msgPayloadSize = 224 := rfl
  have hlen : (req.reply n body.bytes).length ≤ msgPayloadSize - 1 := by
    rw [req.reply_eq hpos, formatRsp, List.length_append, length_rspHead hn, List.length_take]
    omega
  have hpayload := payload_ofText senderId type (Nat.le_trans hlen (by decide))
  obtain ⟨msg, hmsg⟩ : ∃ msg, AgentMsg.ofText senderId type (req.reply n body.bytes) = msg :=
    ⟨_, rfl⟩
  obtain ⟨zeros, hzeros⟩ : ∃ zeros, msgPayloadSize - (req.reply n body.bytes).length = zeros :=
    ⟨_, rfl⟩
  rw [hmsg, hzeros, req.reply_eq hpos, formatRsp_append _ hn] at hpayload
  rw [hmsg]
  have hmatch : ∀ expectId, req.matcher msg.payload expectId =
      ((n : Int) == expectId, (decimal n).length + 2) := by
    intro expectId
    rw [req.matcher_eq (by rw [hpayload, charAt_cons_zero]), hpayload, parseIdField_decimal _ hn]
  refine ⟨hlen, fun expectId => ?_, ?_⟩
  · rw [hmatch, beq_iff_eq]
    exact eq_comm
  · rw [hmatch, hpayload, length_rspHead hn]
    -- behind the head stand the body and the padding
    have hdrop : ∀ rest : List UInt8, (req.replyTag.toUInt8 :: (decimal n ++ '|'.toUInt8 :: rest)).drop
        ((decimal n).length + 2) = rest := by
      intro rest
      rw [List.drop_succ_cons, List.drop_append, List.drop_eq_nil_of_le (Nat.le_succ _),
        Nat.add_sub_cancel_left]
      rfl
    have hfree : (0 : UInt8) ∉ body.bytes.take (msgPayloadSize - 1 - ((decimal n).length + 2)) :=
      fun h => body.nul_free (List.mem_of_mem_take h)
    rw [hdrop, cut_zeros, cut_eq_self hfree]

end RpcRequest

/-! ## Both directions -/

/-- Requests that fit are sent. -/
theorem RpcRequest.exists_build {n : Nat} (hn : n < 2 ^ 31) {req : RpcRequest}
    (hwithin : req.Within) (hfits : req.Fits n) : ∃ text, req.build n = some text := by
  have hsize : msgPayloadSize = 224 := rfl
  have hbackend : ∀ (tag : Char) (arg backend : CStr), 0 < backend.length → backend.length ≤ 16 →
      (decimal n).length + backend.length + arg.length + 4 < msgPayloadSize →
      ∃ text, backendReq tag n arg backend = some text := by
    intro tag arg backend hpos hle hroom
    refine Option.isSome_iff_exists.mp ?_
    rw [backendReq, if_neg (by omega), svcAppendInt_eq hn (Nat.le_of_ble_eq_true rfl)]
    dsimp only
    rw [if_neg (by simp only [List.length_append, List.length_singleton]; omega)]
    rfl
  cases req with
  | read path => exact ⟨_, agentSvcReadReq_eq hn hwithin.1⟩
  | write path data => exact ⟨_, agentSvcWriteReq_eq hn hwithin.1 hwithin.2.2⟩
  | llm prompt backend => exact hbackend 'L' prompt backend hfits.1 hwithin.1 hfits.2
  | http url backend =>
    obtain ⟨text, htext⟩ := hbackend 'H' url backend hfits.2.1 hwithin.1 hfits.2.2
    refine ⟨text, ?_⟩
    show agentSvcHttpReq n url backend = some text
    rw [agentSvcHttpReq, if_neg (Nat.pos_iff_ne_zero.mp hfits.1), htext]
  | display text x y =>
    obtain ⟨⟨hx, hxlt⟩, hy, hylt⟩ := hwithin
    obtain ⟨x, rfl⟩ := Int.eq_ofNat_of_zero_le hx
    obtain ⟨y, rfl⟩ := Int.eq_ofNat_of_zero_le hy
    have hxnat : x < 2 ^ 31 := by omega
    have hynat : y < 2 ^ 31 := by omega
    have hxdigits := length_decimal_id hxnat
    have hdigits := length_decimal_id hn
    obtain ⟨hpos, hroom⟩ := hfits
    rw [Int.toNat_natCast, Int.toNat_natCast] at hroom
    refine Option.isSome_iff_exists.mp ?_
    show (agentSvcDisplayReq n text x y).isSome = true
    rw [agentSvcDisplayReq, if_neg (Nat.pos_iff_ne_zero.mp hpos), svcAppendInt_eq hn (by decide)]
    dsimp only
    rw [svcAppendInt_eq hxnat (by simp only [List.length_append, List.length_singleton]; omega)]
    dsimp only
    rw [svcAppendInt_eq hynat (by simp only [List.length_append, List.length_singleton]; omega)]
    dsimp only
    rw [if_neg (by simp only [List.length_append, List.length_singleton]; omega)]
    rfl

/-- A request that was sent is read back by its service, but for data with a NUL. -/
theorem RpcRequest.parsed_iff {n : Nat} (hn : n < 2 ^ 31) {req : RpcRequest}
    (hwithin : req.Within) {text : List UInt8} (hbuild : req.build n = some text)
    (senderId : Int) : req.Parsed n (.ofText senderId req.type text) ↔ req.NulFree := by
  cases req with
  | read path =>
    obtain rfl := Option.some.inj ((agentSvcReadReq_eq hn hwithin.1).symm.trans hbuild)
    exact iff_of_true (parsed_read hn senderId hwithin.1) trivial
  | write path data =>
    obtain ⟨hpath, hbar, hdata⟩ := hwithin
    obtain rfl := Option.some.inj ((agentSvcWriteReq_eq hn hpath hdata).symm.trans hbuild)
    show storageReq _ = _ ↔ (0 : UInt8) ∉ data
    rw [← cut_eq_self_iff]
    have hparsed := parsed_write hn senderId hpath hbar hdata
    constructor
    · intro h
      exact (StorageReq.write.inj (hparsed.symm.trans h)).2.2
    · intro h
      rw [h] at hparsed
      exact hparsed
  | llm prompt backend =>
    exact iff_of_true (parsed_backend hn senderId _ (by decide) hwithin.1 hwithin.2 hbuild) trivial
  | http url backend =>
    have hbuild' : backendReq 'H' n url backend = some text := by
      have h : agentSvcHttpReq n url backend = some text := hbuild
      rw [agentSvcHttpReq] at h
      split_ifs at h
      exact h
    exact iff_of_true (parsed_backend hn senderId _ (by decide) hwithin.1 hwithin.2 hbuild') trivial
  | display text' x y =>
    obtain ⟨⟨hx, hxlt⟩, hy, hylt⟩ := hwithin
    obtain ⟨x, rfl⟩ := Int.eq_ofNat_of_zero_le hx
    obtain ⟨y, rfl⟩ := Int.eq_ofNat_of_zero_le hy
    exact iff_of_true (parsed_display hn senderId _ (by omega) (by omega) hbuild) trivial

/-- **The codec is correct iff write data has no NUL**: a request that fits is sent, the service
reads it back, and the client reads the reply for its id and no other. -/
theorem rpc_codec_iff (n : Nat) (hpos : 0 < n) (hn : n < 2 ^ 31) (req : RpcRequest)
    (hwithin : req.Within) (hfits : req.Fits n) (client service type : Int) (body : CStr) :
    (∃ text, req.build n = some text ∧ req.Parsed n (.ofText client req.type text) ∧
      req.ReplyRead n (.ofText service type (req.reply n body.bytes)) body) ↔ req.NulFree := by
  constructor
  · rintro ⟨text, hbuild, hparsed, -⟩
    exact (RpcRequest.parsed_iff hn hwithin hbuild client).mp hparsed
  · intro hfree
    obtain ⟨text, hbuild⟩ := RpcRequest.exists_build hn hwithin hfits
    exact ⟨text, hbuild, (RpcRequest.parsed_iff hn hwithin hbuild client).mpr hfree,
      RpcRequest.replyRead hn hpos req service type body⟩

/-- Request 7 writes `hi` to `/a`. -/
theorem rpc_codec_write_hi :
    ∃ text, (RpcRequest.write (.lit "/a") (bytes "hi")).build 7 = some text ∧
      (RpcRequest.write (.lit "/a") (bytes "hi")).Parsed 7 (.ofText 4 msgFsWrite text) ∧
      (RpcRequest.write (.lit "/a") (bytes "hi")).ReplyRead 7
        (.ofText 1 msgFsRsp (formatFsRsp 7 (bytes "ok"))) (.lit "ok") :=
  (rpc_codec_iff 7 (by decide) (by decide) (.write (.lit "/a") (bytes "hi"))
    ⟨by decide, by decide, by decide⟩ trivial 4 1 msgFsRsp (.lit "ok")).mpr
    (show (0 : UInt8) ∉ bytes "hi" by decide)

/-- Request 7 writes the three bytes `x`, NUL, `y` to `/a`; the service reads `x`. -/
theorem not_rpc_codec_nul :
    agentSvcWriteReq 7 (.lit "/a") [0x78, 0, 0x79] = some (bytes "W7|/a|" ++ [0x78, 0, 0x79]) ∧
    storageReq (.ofText 4 msgFsWrite (bytes "W7|/a|" ++ [0x78, 0, 0x79])) =
      .write 7 (bytes "/a") [0x78] ∧
    ¬ ∃ text, (RpcRequest.write (.lit "/a") [0x78, 0, 0x79]).build 7 = some text ∧
      (RpcRequest.write (.lit "/a") [0x78, 0, 0x79]).Parsed 7 (.ofText 4 msgFsWrite text) := by
  have hbuild : agentSvcWriteReq 7 (.lit "/a") [0x78, 0, 0x79] =
      some (bytes "W7|/a|" ++ [0x78, 0, 0x79]) := by decide +kernel
  have hread : storageReq (.ofText 4 msgFsWrite (bytes "W7|/a|" ++ [0x78, 0, 0x79])) =
      .write 7 (bytes "/a") [0x78] := by decide +kernel
  refine ⟨hbuild, hread, ?_⟩
  rintro ⟨text, htext, hparsed⟩
  obtain rfl := Option.some.inj (hbuild.symm.trans htext)
  exact absurd (hread.symm.trans hparsed) (by decide)

end OpenAgentOS
