import OpenAgentOS.Net.Dhcp
import OpenAgentOS.Net.Dns

/-!
# Which bytes of a datagram are read (kernel/netstack.c)

`udp_handle` hands the payload and its length to `dhcp_handle` or `dns_handle`; behind
the payload there is whatever an earlier frame has left in `rx_frame`.

- `dnsParse`: the parser of `dns_handle` as a computation that reads the payload.
  `run_dnsParse`: its result is `dnsAnswer`. `dnsParse_within`: it stays in the payload.
- `OptionAt`: the places at which the walk over DHCP options sees an option.
- `udpReads_lt_iff`: the byte behind the payload is read exactly if the walk comes to an
  option 53 whose two header bytes end the payload.
-/

namespace OpenAgentOS

/-! ## The parser of `dns_handle` -/

/-- Two bytes, the higher first. -/
def readBe16 (i : Nat) : Reads UInt8 UInt16 :=
  .read i fun a => .read (i + 1) fun b => .done (be16 [a, b] 0)

/-- The loop over the labels of a name (netstack.c:505). -/
def readName (len : Nat) : Nat → Nat → Reads UInt8 Nat
  | 0, pos => .done pos
  | fuel + 1, pos =>
    if pos < len then
      .read pos fun head =>
        if head = 0 then .done pos
        else .read pos fun label => readName len fuel (pos + 1 + label.toNat)
    else .done pos

/-- The record behind the name of the first answer (netstack.c:518). -/
def readAnswer (len pos : Nat) : Reads UInt8 (Option UInt32) :=
  if len < pos + 10 then .done none
  else
    .read pos fun high =>
      if high ≠ 0 then .done none
      else
        .read (pos + 1) fun low =>
          if low ≠ 1 then .done none
          else
            (readBe16 (pos + 8)).bind fun rdlen =>
              if rdlen ≠ 4 ∨ len < pos + 14 then .done none
              else (readBe32 (pos + 10)).bind fun ip => .done (some ip)

/-- The parser of `dns_handle` (netstack.c:492). -/
def dnsParse (len : Nat) : Reads UInt8 (Option UInt32) :=
  if len < 12 then .done none
  else
    .read 0 fun high =>
      if high ≠ 0x12 then .done none
      else
        .read 1 fun low =>
          if low ≠ 0x34 then .done none
          else
            (readBe16 6).bind fun ancount =>
              if ancount = 0 then .done none
              else
                (readName len len 12).bind fun stop =>
                  if len ≤ stop + 5 then .done none
                  else
                    .read (stop + 5) fun head =>
                      if head &&& 0xc0 = 0xc0 then readAnswer len (stop + 5 + 2)
                      else (readName len len (stop + 5)).bind fun stop => readAnswer len (stop + 1)

section Within

variable {len : Nat} {mem : Nat → UInt8}

theorem readBe16_within {i : Nat} (h : i + 1 < len) : (readBe16 i).Within len mem := by
  simp only [readBe16, Reads.within_read_iff]
  exact ⟨by omega, h, Reads.within_done _⟩

theorem readBe32_within {i : Nat} (h : i + 3 < len) : (readBe32 i).Within len mem := by
  simp only [readBe32, Reads.within_read_iff]
  exact ⟨by omega, by omega, by omega, h, Reads.within_done _⟩

theorem readName_within (fuel : Nat) : ∀ pos, (readName len fuel pos).Within len mem := by
  induction fuel with
  | zero => exact fun pos => Reads.within_done pos
  | succ fuel ih =>
    intro pos
    rw [readName]
    split_ifs with hpos
    · rw [Reads.within_read_iff]
      refine ⟨hpos, ?_⟩
      split_ifs with hzero
      · exact Reads.within_done pos
      · exact Reads.within_read_iff.mpr ⟨hpos, ih _⟩
    · exact Reads.within_done pos

theorem readAnswer_within (pos : Nat) : (readAnswer len pos).Within len mem := by
  rw [readAnswer]
  split_ifs with hshort
  · exact Reads.within_done none
  rw [Reads.within_read_iff]
  refine ⟨by omega, ?_⟩
  split_ifs with hhigh
  · exact Reads.within_done none
  rw [Reads.within_read_iff]
  refine ⟨by omega, ?_⟩
  split_ifs with hlow
  · exact Reads.within_done none
  rw [Reads.within_bind_iff]
  refine ⟨readBe16_within (by omega), ?_⟩
  split_ifs with hrdlen
  · exact Reads.within_done none
  exact Reads.within_bind_iff.mpr ⟨readBe32_within (by omega), Reads.within_done _⟩

/-- **The parser of `dns_handle` stays in the payload.** -/
theorem dnsParse_within (len : Nat) (mem : Nat → UInt8) : (dnsParse len).Within len mem := by
  rw [dnsParse]
  split_ifs with hshort
  · exact Reads.within_done none
  rw [Reads.within_read_iff]
  refine ⟨by omega, ?_⟩
  split_ifs with hhigh
  · exact Reads.within_done none
  rw [Reads.within_read_iff]
  refine ⟨by omega, ?_⟩
  split_ifs with hlow
  · exact Reads.within_done none
  rw [Reads.within_bind_iff]
  refine ⟨readBe16_within (by omega), ?_⟩
  split_ifs with hcount
  · exact Reads.within_done none
  rw [Reads.within_bind_iff]
  refine ⟨readName_within len 12, ?_⟩
  split_ifs with hquestion
  · exact Reads.within_done none
  rw [Reads.within_read_iff]
  refine ⟨by omega, ?_⟩
  split_ifs with hpointer
  · exact readAnswer_within _
  · exact Reads.within_bind_iff.mpr ⟨readName_within len _, readAnswer_within _⟩

end Within

/-! ### The result -/

section Result

variable (p : List UInt8)

/-- The payload with zeros behind it. -/
abbrev padded : Nat → UInt8 := Reads.arrayOf p fun _ => 0

theorem run_readName (fuel : Nat) : ∀ pos, (readName p.length fuel pos).run (padded p) = skipName p fuel pos := by
  induction fuel with
  | zero => exact fun pos => rfl
  | succ fuel ih =>
    intro pos
    rw [readName, skipName]
    by_cases hpos : pos < p.length
    · rw [if_pos hpos, Reads.run_read]
      by_cases hzero : padded p pos = 0
      · rw [if_pos hzero, if_neg fun h => h.2 hzero]
        rfl
      · rw [if_neg hzero, if_pos ⟨hpos, hzero⟩, Reads.run_read]
        exact ih _
    · rw [if_neg hpos, if_neg fun h => hpos h.1]
      rfl

theorem run_readAnswer (pos : Nat) : (readAnswer p.length pos).run (padded p) = answerAddress p pos := by
  rw [readAnswer, answerAddress]
  by_cases hshort : p.length < pos + 10
  · rw [if_pos hshort, if_pos hshort]
    rfl
  rw [if_neg hshort, if_neg hshort, Reads.run_read]
  by_cases hhigh : padded p pos ≠ 0
  · rw [if_pos hhigh, if_pos (.inl hhigh)]
    rfl
  rw [if_neg hhigh, Reads.run_read]
  by_cases hlow : padded p (pos + 1) ≠ 1
  · rw [if_pos hlow, if_pos (.inr hlow)]
    rfl
  have htype : ¬ (byteAt p pos ≠ 0 ∨ byteAt p (pos + 1) ≠ 1) := not_or.mpr ⟨hhigh, hlow⟩
  rw [if_neg hlow, if_neg htype, Reads.run_bind]
  show Reads.run _ (if be16 p (pos + 8) ≠ 4 ∨ p.length < pos + 14 then _ else _) = _
  split_ifs with hrdlen
  · rfl
  · rfl

/-- The result of the parser is the answer of the model over lists, whatever is behind
the payload. -/
theorem run_dnsParse (behind : Buf) :
    (dnsParse p.length).run (Reads.arrayOf p behind) = dnsAnswer p := by
  rw [Reads.run_arrayOf (dnsParse_within p.length (padded p)), dnsParse, dnsAnswer]
  by_cases hshort : p.length < 12
  · rw [if_pos hshort, if_pos hshort]
    rfl
  rw [if_neg hshort, if_neg hshort, Reads.run_read]
  by_cases hhigh : padded p 0 ≠ 0x12
  · rw [if_pos hhigh, if_pos (.inl hhigh)]
    rfl
  rw [if_neg hhigh, Reads.run_read]
  by_cases hlow : padded p 1 ≠ 0x34
  · rw [if_pos hlow, if_pos (.inr hlow)]
    rfl
  have hid : ¬ (byteAt p 0 ≠ 0x12 ∨ byteAt p 1 ≠ 0x34) := not_or.mpr ⟨hhigh, hlow⟩
  rw [if_neg hlow, if_neg hid, Reads.run_bind]
  show Reads.run _ (if be16 p 6 = 0 then _ else _) = _
  by_cases hcount : be16 p 6 = 0
  · rw [if_pos hcount, if_pos hcount]
    rfl
  rw [if_neg hcount, if_neg hcount, Reads.run_bind, run_readName]
  show Reads.run _ (if p.length ≤ questionEnd p then _ else _) = _
  by_cases hquestion : p.length ≤ questionEnd p
  · rw [if_pos hquestion, if_pos hquestion]
    rfl
  rw [if_neg hquestion, if_neg hquestion, Reads.run_read, answerStart]
  show Reads.run _ (if byteAt p (questionEnd p) &&& 0xc0 = 0xc0 then _ else _) = _
  split_ifs with hpointer
  · exact run_readAnswer p _
  · rw [Reads.run_bind, run_readAnswer]
    exact congrArg (fun n => answerAddress p (n + 1)) (run_readName p _ _)

end Result

/-! ## The options of a DHCP packet -/

/-- The walk over the options comes from `pos` to `q`. -/
inductive OptionAt (p : List UInt8) : Nat → Nat → Prop
  | here (pos : Nat) : OptionAt p pos pos
  | next {pos q : Nat} (hpos : pos + 1 < p.length) (hend : byteAt p pos ≠ 255)
      (hlen : byteAt p (pos + 1) ≠ 0) (hrest : OptionAt p (pos + 2 + (byteAt p (pos + 1)).toNat) q) :
      OptionAt p pos q

/-- At `q` there is the header of an option 53 with a value, and it ends the payload. -/
structure CutOption (p : List UInt8) (q : Nat) : Prop where
  last : q + 2 = p.length
  code : byteAt p q = 53
  value : byteAt p (q + 1) ≠ 0

/-- A walk stays where it is, or takes one step first. -/
theorem optionAt_iff {p : List UInt8} {pos q : Nat} :
    OptionAt p pos q ↔ q = pos ∨ pos + 1 < p.length ∧ byteAt p pos ≠ 255 ∧ byteAt p (pos + 1) ≠ 0 ∧
      OptionAt p (pos + 2 + (byteAt p (pos + 1)).toNat) q := by
  constructor
  · rintro (_ | ⟨hpos, hend, hlen, hrest⟩)
    · exact .inl rfl
    · exact .inr ⟨hpos, hend, hlen, hrest⟩
  · rintro (rfl | ⟨hpos, hend, hlen, hrest⟩)
    · exact .here q
    · exact .next hpos hend hlen hrest

section Options

variable {p : List UInt8} {behind : Buf}

theorem arrayOf_eq_byteAt {i : Nat} (h : i < p.length) : Reads.arrayOf p behind i = byteAt p i := by
  rw [Reads.arrayOf_of_lt h, byteAt, List.getD_eq_getElem _ _ h]

/-- The only read that nothing guards is the one of the value. -/
theorem dhcpMsgType_within_iff {pos : Nat} (hpos : pos + 1 < p.length) (msgType : UInt8) :
    (dhcpMsgType (byteAt p pos) (byteAt p (pos + 1)) (pos + 2) msgType).Within p.length
        (Reads.arrayOf p behind) ↔ ¬ CutOption p pos := by
  have hvalue : 1 ≤ byteAt p (pos + 1) ↔ byteAt p (pos + 1) ≠ 0 := by
    rw [UInt8.le_iff_toNat_le, ne_eq, ← UInt8.toNat_inj]
    exact Nat.one_le_iff_ne_zero
  rw [dhcpMsgType]
  split_ifs with hopt
  · rw [Reads.within_read_iff]
    constructor
    · rintro ⟨hlt, -⟩ hcut
      have := hcut.last
      omega
    · intro hcut
      refine ⟨?_, Reads.within_done _⟩
      by_contra hlt
      exact hcut ⟨by omega, hopt.1, hvalue.mp hopt.2⟩
  · refine ⟨fun _ hcut => hopt ⟨hcut.code, hvalue.mpr hcut.value⟩, fun _ => Reads.within_done _⟩

/-- The walk reads in the payload exactly if it comes to no option that is cut. -/
theorem dhcpOptions_within_iff (fuel : Nat) : ∀ (pos : Nat) (msgType : UInt8), p.length ≤ pos + fuel →
    ((dhcpOptions p.length fuel pos msgType).Within p.length (Reads.arrayOf p behind) ↔
      ∀ q, OptionAt p pos q → ¬ CutOption p q) := by
  -- Where the walk ends there is only one place to look at.
  have hstop : ∀ {pos : Nat}, (pos + 1 < p.length → byteAt p pos = 255) → ∀ q, OptionAt p pos q →
      ¬ CutOption p q := by
    intro pos hend q hq hcut
    rcases optionAt_iff.mp hq with rfl | ⟨hpos, hmore, -⟩
    · have hlast := hcut.last
      have hcode := hcut.code
      rw [hend (by omega)] at hcode
      exact absurd hcode (by decide)
    · exact hmore (hend hpos)
  induction fuel with
  | zero =>
    intro pos msgType hfuel
    exact ⟨fun _ => hstop fun hpos => by omega, fun _ => Reads.within_done _⟩
  | succ fuel ih =>
    intro pos msgType hfuel
    rw [dhcpOptions]
    by_cases hpos : pos + 1 < p.length
    · have hthere : pos < p.length := by omega
      rw [if_pos hpos, Reads.within_read_iff, arrayOf_eq_byteAt hthere]
      by_cases hend : byteAt p pos = 255
      · rw [if_pos hend]
        exact ⟨fun _ => hstop fun _ => hend, fun _ => ⟨hthere, Reads.within_done _⟩⟩
      rw [if_neg hend, Reads.within_read_iff, Reads.within_read_iff, Reads.within_bind_iff,
        arrayOf_eq_byteAt hthere, arrayOf_eq_byteAt hpos, dhcpMsgType_within_iff hpos]
      by_cases hlen : byteAt p (pos + 1) = 0
      · rw [if_pos hlen]
        constructor
        · rintro ⟨-, -, -, hcut, -⟩ q hq
          rcases optionAt_iff.mp hq with rfl | ⟨-, -, hmore, -⟩
          · exact hcut
          · exact absurd hlen hmore
        · exact fun h => ⟨hthere, hthere, hpos, h pos (.here pos), Reads.within_done _⟩
      · rw [if_neg hlen, ih _ _ (by omega)]
        constructor
        · rintro ⟨-, -, -, hcut, hrest⟩ q hq
          rcases optionAt_iff.mp hq with rfl | ⟨-, -, -, hmore⟩
          · exact hcut
          · exact hrest q hmore
        · exact fun h => ⟨hthere, hthere, hpos, h pos (.here pos),
            fun q hq => h q (.next hpos hend hlen hq)⟩
    · rw [if_neg hpos]
      exact ⟨fun _ => hstop fun h => absurd h hpos, fun _ => Reads.within_done _⟩

/-- The header fields that `dhcp_handle` asks for. -/
structure DhcpHeader (p : List UInt8) : Prop where
  long : 240 ≤ p.length
  op : byteAt p 0 = 2
  xid : be32 p 4 = dhcpXid.toUInt32

theorem run_readBe32_arrayOf {i : Nat} (h : i + 3 < p.length) :
    (readBe32 i).run (Reads.arrayOf p behind) = be32 p i := by
  simp only [readBe32, Reads.run_read, Reads.run_done,
    arrayOf_eq_byteAt (show i < p.length by omega), arrayOf_eq_byteAt (show i + 1 < p.length by omega),
    arrayOf_eq_byteAt (show i + 2 < p.length by omega), arrayOf_eq_byteAt h]
  rfl

/-- **The parser of `dhcp_handle` stays in the payload** exactly if there is no option 53 without a
byte for its value. -/
theorem dhcpParse_within_iff :
    (dhcpParse p.length).Within p.length (Reads.arrayOf p behind) ↔
      ¬ (DhcpHeader p ∧ ∃ q, OptionAt p 236 q ∧ CutOption p q) := by
  rw [dhcpParse]
  by_cases hshort : p.length < 240
  · rw [if_pos hshort]
    exact ⟨fun _ h => absurd h.1.long (by omega), fun _ => Reads.within_done _⟩
  have hthere : 0 < p.length := by omega
  rw [if_neg hshort, Reads.within_read_iff, arrayOf_eq_byteAt hthere]
  by_cases hop : byteAt p 0 ≠ 2
  · rw [if_pos hop]
    exact ⟨fun _ h => hop h.1.op, fun _ => ⟨hthere, Reads.within_done _⟩⟩
  rw [if_neg hop, Reads.within_bind_iff, run_readBe32_arrayOf (by omega)]
  by_cases hxid : be32 p 4 ≠ dhcpXid.toUInt32
  · rw [if_pos hxid]
    exact ⟨fun _ h => hxid h.1.xid, fun _ => ⟨hthere, readBe32_within (by omega), Reads.within_done _⟩⟩
  rw [if_neg hxid, Reads.within_bind_iff, Reads.within_bind_iff,
    dhcpOptions_within_iff p.length 236 0 (by omega)]
  have hheader : DhcpHeader p := ⟨by omega, not_not.mp hop, not_not.mp hxid⟩
  constructor
  · rintro ⟨-, -, -, hwalk, -⟩ ⟨-, q, hq, hcut⟩
    exact hwalk q hq hcut
  · intro h
    exact ⟨hthere, readBe32_within (by omega), readBe32_within (by omega),
      fun q hq hcut => h ⟨hheader, q, hq, hcut⟩, Reads.within_done _⟩

end Options

/-! ## Datagrams -/

/-- The bytes of the payload that the handlers of `udp_handle` (netstack.c:564) read. -/
def udpReads (d : Datagram) (behind : Buf) : List Nat :=
  if d.dport = 68 ∧ d.sport = 67 then
    (dhcpParse d.payload.length).trace (Reads.arrayOf d.payload behind)
  else if d.dport = 49153 ∧ d.sport = 53 then
    (dnsParse d.payload.length).trace (Reads.arrayOf d.payload behind)
  else []

/-- **Only bytes of the payload are read**, unless a reply for the DHCP client ends with the header
of an option 53. -/
theorem udpReads_lt_iff (d : Datagram) (behind : Buf) :
    (∀ i ∈ udpReads d behind, i < d.payload.length) ↔
      ¬ (d.dport = 68 ∧ d.sport = 67 ∧ DhcpHeader d.payload ∧
        ∃ q, OptionAt d.payload 236 q ∧ CutOption d.payload q) := by
  rw [udpReads]
  split_ifs with hdhcp hdns
  · rw [and_iff_right hdhcp.1, and_iff_right hdhcp.2]
    exact dhcpParse_within_iff
  · exact iff_of_true (dnsParse_within _ _) fun h => hdhcp ⟨h.1, h.2.1⟩
  · exact iff_of_true (fun _ h => absurd h List.not_mem_nil) fun h => hdhcp ⟨h.1, h.2.1⟩

/-- A reply of 241 bytes: an option of one byte at 236, and the header of option 53 at its end. -/
def cutReply : List UInt8 :=
  [2, 1, 6, 0] ++ be32Bytes dhcpXid.toUInt32 ++ List.replicate 228 0 ++ [12, 1, 0, 53, 1]

theorem not_udpReads_lt :
    ¬ ∀ (frame : List UInt8) (d : Datagram) (behind : Buf), frameDatagram frame = some d →
        ∀ i ∈ udpReads d behind, i < d.payload.length := by
  intro h
  have hframe : frameDatagram (datagramFrame netGwHost ⟨67, 68, cutReply⟩) =
      some ⟨67, 68, cutReply⟩ := by decide +kernel
  have hread : 241 ∈ udpReads ⟨67, 68, cutReply⟩ fun _ => 0 := by decide +kernel
  exact absurd (h _ _ _ hframe 241 hread) (by decide +kernel)

end OpenAgentOS
