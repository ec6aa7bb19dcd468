import OpenAgentOS.Ipc.Refinement

/-!
# The summary of a compaction (kernel/ipc.c)

`msgbox_compact` writes the number and the types of the messages that it drops into the payload of one
message. The writers stop silently at the end of the payload, and the loop over the types stops eight
bytes before that.

- `summaryText`: the text that the summary is for.
- `Written`: a payload under construction holds a text, and nothing behind it. Every writer appends to
  it while there is room.
- `compactSummary_eq`: 16 types of 10 digits fit, so the text is always complete.
-/

namespace OpenAgentOS

open CInt CString

/-- The entry of one message. -/
def typeText (msg : AgentMsg) : List UInt8 := 't'.toUInt8 :: decimal (toUint32 msg.type)

/-- `compact:`, the number of messages, `;`, and their types, separated by commas. -/
def summaryText (dropped : List AgentMsg) : List UInt8 :=
  bytes "compact:" ++ decimal dropped.length ++ bytes ";" ++
    List.intercalate [','.toUInt8] (dropped.map typeText)

/-- The payload holds the text, and zeroes behind it. -/
structure Written (b : PayloadBuf) (text : List UInt8) : Prop where
  pos : b.pos = text.length
  fits : text.length < msgPayloadSize
  dst : ∀ (i : Nat) (h : i < msgPayloadSize), b.dst[i] = charAt text i

section

variable {b : PayloadBuf} {text : List UInt8}

theorem toUint32_lt (x : Int) : toUint32 x < 2 ^ 32 := by
  unfold toUint32
  omega

theorem written_nil : Written ⟨Vector.replicate msgPayloadSize 0, 0⟩ [] :=
  ⟨rfl, by decide, fun _ h => Vector.getElem_replicate h⟩

/-- `payload_putc` with room. -/
theorem Written.putc (h : Written b text) (hroom : text.length < 223) (c : UInt8) :
    Written (payloadPutc msgPayloadSize b c) (text ++ [c]) := by
  have hpos := h.pos
  rw [payloadPutc, if_pos (by rw [hpos]; exact hroom)]
  refine ⟨by rw [List.length_append, hpos]; rfl, ?_, fun i hi => ?_⟩
  · rw [List.length_append]
    exact Nat.succ_lt_succ hroom
  dsimp only
  rw [Vector.getElem_setIfInBounds hi, hpos, charAt, h.dst i hi, charAt]
  split_ifs with heq
  · rw [← heq, List.getD_append_right _ _ _ _ (Nat.le_refl _), Nat.sub_self]
    rfl
  · by_cases hlt : i < text.length
    · rw [List.getD_append _ _ _ _ hlt]
    · rw [List.getD_eq_default _ _ (by omega),
        List.getD_eq_default _ _ (by rw [List.length_append, List.length_singleton]; omega)]

/-- `payload_put_uint` and the like: some bytes with room. -/
theorem Written.foldl_putc (h : Written b text) (more : List UInt8)
    (hroom : text.length + more.length ≤ 223) :
    Written (more.foldl (payloadPutc msgPayloadSize) b) (text ++ more) := by
  induction more generalizing b text with
  | nil => rw [List.append_nil]; exact h
  | cons c more ih =>
    rw [List.length_cons] at hroom
    rw [List.foldl_cons, ← List.singleton_append, ← List.append_assoc]
    refine ih (h.putc (by omega) c) ?_
    rw [List.length_append, List.length_singleton]
    omega

/-- `payload_puts` puts one byte after the other. -/
theorem payloadPuts_eq (cap : Nat) (b : PayloadBuf) (s : List UInt8) :
    payloadPuts cap b s = s.foldl (payloadPutc cap) b := by
  induction s generalizing b with
  | nil => rfl
  | cons c s ih =>
    rw [payloadPuts, List.foldl_cons, payloadPutc]
    split_ifs with hroom
    · exact ih _
    · -- a full payload stays as it is
      clear ih
      induction s with
      | nil => rfl
      | cons c s ih => rw [List.foldl_cons, payloadPutc, if_neg hroom, ← ih]

theorem length_typeText_le (msg : AgentMsg) : (typeText msg).length ≤ 11 := by
  have hdigits : (decimal (toUint32 msg.type)).length ≤ 10 :=
    length_decimal_le (by decide) (Nat.lt_trans (toUint32_lt _) (by decide))
  rw [typeText, List.length_cons]
  omega

/-- One entry. -/
theorem Written.putType (h : Written b text) (hroom : text.length + 11 ≤ 223) (msg : AgentMsg) :
    Written (payloadPutUint msgPayloadSize (payloadPutc msgPayloadSize b 't'.toUInt8)
      (toUint32 msg.type)) (text ++ typeText msg) := by
  have hlen := length_typeText_le msg
  rw [payloadPutUint, ← List.foldl_cons, ← typeText]
  exact h.foldl_putc _ (by omega)

/-- **The loop over the types**: with 12 bytes for each entry it runs to the end. -/
theorem Written.putTypes (h : Written b text) {msgs : List AgentMsg}
    (hroom : text.length + 12 * msgs.length ≤ 223) :
    Written (payloadPutTypes false b msgs)
      (text ++ (msgs.map fun msg => ','.toUInt8 :: typeText msg).flatten) := by
  induction msgs generalizing b text with
  | nil => rw [List.map_nil, List.flatten_nil, List.append_nil]; exact h
  | cons msg msgs ih =>
    rw [List.length_cons] at hroom
    have hlen := length_typeText_le msg
    have hcomma := h.putc (by omega) ','.toUInt8
    have hentry := hcomma.putType (by rw [List.length_append, List.length_singleton]; omega) msg
    rw [payloadPutTypes, if_pos (by rw [h.pos]; simp only [msgPayloadSize]; omega)]
    rw [List.map_cons, List.flatten_cons, ← List.append_assoc, ← List.singleton_append (l := typeText msg),
      ← List.append_assoc]
    refine ih hentry ?_
    rw [List.length_append, List.length_append, List.length_singleton]
    omega

end

/-- Entries and commas. -/
theorem intercalate_types (msg : AgentMsg) (msgs : List AgentMsg) :
    List.intercalate [','.toUInt8] ((msg :: msgs).map typeText) =
      typeText msg ++ (msgs.map fun msg => ','.toUInt8 :: typeText msg).flatten := by
  induction msgs generalizing msg with
  | nil => rw [List.map_singleton, List.intercalate_singleton, List.map_nil, List.flatten_nil,
      List.append_nil]
  | cons msg' msgs ih =>
    rw [List.map_cons, List.map_cons, List.intercalate_cons_cons, ← List.map_cons, ih, List.map_cons,
      List.flatten_cons, List.append_assoc]
    rfl

section

variable {dropped : List AgentMsg}

/-- What stands in front of the types. -/
def summaryHead (count : Nat) : List UInt8 := bytes "compact:" ++ decimal count ++ bytes ";"

theorem length_summaryHead {count : Nat} (h : count ≤ 16) : (summaryHead count).length ≤ 11 := by
  have hcount : (decimal count).length ≤ 2 := length_decimal_le (by decide) (Nat.lt_of_le_of_lt h (by decide))
  rw [summaryHead, List.length_append, List.length_append]
  show 8 + (decimal count).length + 1 ≤ 11
  omega

theorem written_summaryHead {count : Nat} (h : count ≤ 16) :
    Written (payloadPuts msgPayloadSize (payloadPutUint msgPayloadSize
      (payloadPuts msgPayloadSize ⟨Vector.replicate msgPayloadSize 0, 0⟩ (bytes "compact:"))
      (toUint32 count)) (bytes ";")) (summaryHead count) := by
  have hsmall : toUint32 count = count := by
    unfold toUint32
    omega
  have hcount : (decimal count).length ≤ 2 := length_decimal_le (by decide) (Nat.lt_of_le_of_lt h (by decide))
  have hname := written_nil.foldl_putc (bytes "compact:") (by decide)
  have hnumber := hname.foldl_putc (decimal count)
    (by show 8 + (decimal count).length ≤ 223; omega)
  rw [payloadPuts_eq, payloadPuts_eq, payloadPutUint, hsmall]
  refine hnumber.foldl_putc _ ?_
  rw [List.length_append]
  show 8 + (decimal count).length + 1 ≤ 223
  omega

/-- The payload that `msgbox_compact` makes. -/
theorem written_summary (hlen : dropped.length ≤ 16) :
    ∃ b, Written b (summaryText dropped) ∧ (compactSummary dropped).payload = b.dst := by
  have hstart := written_summaryHead hlen
  have hhead := length_summaryHead hlen
  refine ⟨_, ?_, rfl⟩
  rw [summaryText, ← summaryHead]
  cases dropped with
  | nil =>
    rw [List.map_nil, List.intercalate_nil, List.append_nil]
    exact hstart
  | cons msg msgs =>
    have htype := length_typeText_le msg
    have hentry := hstart.putType (by omega) msg
    rw [List.length_cons] at hlen
    rw [payloadPutTypes, if_pos (by rw [hstart.pos]; simp only [msgPayloadSize]; omega),
      if_pos rfl, intercalate_types, ← List.append_assoc]
    refine hentry.putTypes ?_
    rw [List.length_append]
    omega

/-- **The summary is complete** for as many messages as a queue has. -/
theorem compactSummary_eq (hlen : dropped.length ≤ msgCapacity) :
    compactSummary dropped = .ofText 0 msgSummary (summaryText dropped) ∧
      (summaryText dropped).length < msgPayloadSize := by
  obtain ⟨b, hb, hpayload⟩ := written_summary hlen
  refine ⟨?_, hb.fits⟩
  have hdst : b.dst = Vector.ofFn fun i : Fin msgPayloadSize => charAt (summaryText dropped) i :=
    Vector.ext fun i hi => by rw [hb.dst i hi, Vector.getElem_ofFn]
  rw [hdst] at hpayload
  rw [AgentMsg.ofText, ← hpayload]
  rfl

end

/-- **A compaction loses no type.** In a mailbox with `n` normal messages, for every `keep` below `n`
(a negative one counts as 0), the queue is afterwards one summary and the messages that are kept. The summary has the complete text
about the `n - keep` oldest messages as its payload, which ends before the payload does. -/
theorem msgboxCompact_summary {box : Msgbox} (hcount : box.normal.count ≤ msgCapacity) {keep : Int}
    (hkeep : keep.toNat < box.normal.count) :
    let drop := box.normal.count - keep.toNat
    let dropped := box.normal.contents.take drop
    dropped.length = drop ∧
      (msgboxCompact box keep).2.normal.contents =
        .ofText 0 msgSummary (summaryText dropped) :: box.normal.contents.drop drop ∧
      (summaryText dropped).length < msgPayloadSize := by
  intro drop dropped
  have hclamp : clampKeep keep = keep.toNat := by
    rw [clampKeep]
    split_ifs <;> omega
  have hdropped : dropped.length = drop := by
    rw [List.length_take, RingBuffer.length_contents]
    omega
  obtain ⟨hsummary, hfits⟩ := compactSummary_eq (show dropped.length ≤ msgCapacity by omega)
  refine ⟨hdropped, ?_, hfits⟩
  rw [msgboxCompact]
  dsimp only
  rw [hclamp, if_neg (by omega)]
  dsimp only
  rw [RingBuffer.contents_rebuild, ← hsummary]
  · rfl
  · rw [List.length_cons, List.length_drop, List.length_map, List.length_range]
    omega

/-- Two messages, of which one has a negative type. -/
def typedBox : Msgbox :=
  ⟨⟨fun i => .ofText 1 (if i = 0 then -1 else 5) [120], 0, 2, 2⟩, ⟨fun _ => .ofText 0 0 [], 0, 0, 0⟩⟩

theorem msgboxCompact_summary_two :
    (msgboxCompact typedBox 0).2.normal.contents =
      [.ofText 0 msgSummary (bytes "compact:2;t4294967295,t5")] := by
  have htext : summaryText (typedBox.normal.contents.take 2) = bytes "compact:2;t4294967295,t5" := by
    decide +kernel
  rw [← htext]
  exact (msgboxCompact_summary (show typedBox.normal.count ≤ msgCapacity by decide)
    (show (0 : Int).toNat < typedBox.normal.count by decide)).2.1

end OpenAgentOS
