import OpenAgentOS.Lib.Bytes
import OpenAgentOS.Lib.Chunks
import OpenAgentOS.Net.Dns

/-!
# The packet of a query (kernel/netstack.c)

`dns_send_query` writes the labels of a host name to a static buffer of 512 bytes. The
byte for the length of a label is left out at first and filled in behind the label.

- `dnsSendQuery`: the stores of the function in their order.
- `dnsSendQuery_slice`: the bytes that are sent are `dnsQuery`; `dnsSendQuery_inside`:
  no store goes behind the last one.
- `HostName`: a name of at most 63 bytes, by its labels.
- `dnsSendQuery_encodes`: the packet of a host name names exactly this host, and
  `dns_handle` skips the question in every response that repeats it.
-/

namespace OpenAgentOS

/-! ## Stores -/

/-- A store: where, and which bytes. -/
abbrev Store := Nat × List UInt8

/-- The buffer behind some stores. -/
def writeAll (b : Buf) (log : List Store) : Buf := log.foldl (fun b st => b.write st.1 st.2) b

/-- The stores of the loop over labels (netstack.c:473), and `pos` behind it. -/
def labelStores : Nat → List UInt8 → Nat → List Store × Nat
  | 0, _, pos => ([], pos)
  | _, [], pos => ([], pos)
  | fuel + 1, c :: cs, pos =>
    let label := ((c :: cs).takeWhile (· != 46)).take 63
    let rest := (c :: cs).drop label.length
    let r := labelStores fuel (if rest.head? = some 46 then rest.tail else rest) (pos + 1 + label.length)
    ((pos + 1, label) :: (pos, [UInt8.ofNat label.length]) :: r.1, r.2)

/-- `dns_send_query` (netstack.c:455): its stores, and the length that is sent. -/
def dnsSendQuery (host : List UInt8) : List Store × Nat :=
  let r := labelStores host.length host 12
  ((0, [0x12, 0x34, 0x01, 0x00, 0x00, 0x01, 0x00, 0x00, 0x00, 0x00, 0x00, 0x00]) ::
    (r.1 ++ [(r.2, [0, 0, 1, 0, 1])]), r.2 + 5)

section Stores

variable {b : Buf} {pre : List UInt8}

theorem writeAll_cons (st : Store) (log : List Store) :
    writeAll b (st :: log) = writeAll (b.write st.1 st.2) log := rfl

theorem writeAll_append (log more : List Store) :
    writeAll b (log ++ more) = writeAll (writeAll b log) more := List.foldl_append ..

/-- A store right behind a text makes it longer. -/
theorem slice_write_append (h : b.slice 0 pre.length = pre) (xs : List UInt8) :
    (b.write pre.length xs).slice 0 (pre ++ xs).length = pre ++ xs := by
  refine Buf.slice_eq_of_getD fun i hi => ?_
  rw [Nat.zero_add, Buf.write]
  rcases Nat.lt_or_ge i pre.length with hpre | hxs
  · rw [if_neg (by omega), List.getD_append _ _ _ _ hpre, List.getD_eq_getElem _ _ hpre]
    have hbyte := Buf.getElem_slice b 0 pre.length i (by rw [Buf.length_slice]; exact hpre)
    rw [Nat.zero_add] at hbyte
    rw [← hbyte]
    exact List.getElem_of_eq h _
  · rw [List.length_append] at hi
    rw [if_pos ⟨hxs, hi⟩, List.getD_append_right _ _ _ _ hxs]

/-- The length of a label is filled in behind the label. -/
theorem write_patched (pos : Nat) (x : UInt8) (xs : List UInt8) :
    (b.write (pos + 1) xs).write pos [x] = b.write pos (x :: xs) := by
  funext i
  simp only [Buf.write, List.length_cons, List.length_nil]
  rcases Nat.lt_trichotomy i pos with hlt | rfl | hgt
  · rw [if_neg (by omega), if_neg (by omega), if_neg (by omega)]
  · rw [if_pos (by omega), if_pos (by omega), Nat.sub_self]
    rfl
  · rw [if_neg (by omega)]
    by_cases hin : i < pos + 1 + xs.length
    · rw [if_pos (by omega), if_pos (by omega), show i - pos = i - (pos + 1) + 1 by omega,
        List.getD_cons_succ]
    · rw [if_neg (by omega), if_neg (by omega)]

/-- The loop appends the labels. -/
theorem labelStores_slice (fuel : Nat) : ∀ (host pre : List UInt8) (b : Buf),
    b.slice 0 pre.length = pre →
      (labelStores fuel host pre.length).2 = (pre ++ dnsLabels fuel host).length ∧
      (writeAll b (labelStores fuel host pre.length).1).slice 0 (pre ++ dnsLabels fuel host).length =
        pre ++ dnsLabels fuel host := by
  induction fuel with
  | zero =>
    intro host pre b h
    rw [dnsLabels, List.append_nil]
    exact ⟨rfl, h⟩
  | succ fuel ih =>
    rintro (_ | ⟨c, cs⟩) pre b h
    · rw [show dnsLabels (fuel + 1) [] = [] from rfl, List.append_nil]
      exact ⟨rfl, h⟩
    rw [labelStores, dnsLabels]
    generalize ((c :: cs).takeWhile (· != 46)).take 63 = label
    dsimp only
    generalize (if ((c :: cs).drop label.length).head? = some 46 then
      ((c :: cs).drop label.length).tail else (c :: cs).drop label.length) = next
    -- The label with its length is part of what is already there for the next turn.
    have hlabel := slice_write_append h (UInt8.ofNat label.length :: label)
    have hassoc : pre ++ UInt8.ofNat label.length :: (label ++ dnsLabels fuel next) =
        (pre ++ UInt8.ofNat label.length :: label) ++ dnsLabels fuel next := by simp
    have hlen : pre.length + 1 + label.length = (pre ++ UInt8.ofNat label.length :: label).length := by
      rw [List.length_append, List.length_cons]
      omega
    rw [writeAll_cons, writeAll_cons, write_patched, hassoc, hlen]
    exact ih next _ _ hlabel

/-- No store of the loop goes behind its last `pos`. -/
theorem labelStores_inside (fuel : Nat) : ∀ (host : List UInt8) (pos : Nat),
    pos ≤ (labelStores fuel host pos).2 ∧
      ∀ st ∈ (labelStores fuel host pos).1, st.1 + st.2.length ≤ (labelStores fuel host pos).2 := by
  induction fuel with
  | zero => exact fun host pos => ⟨Nat.le_refl pos, fun st hst => absurd hst List.not_mem_nil⟩
  | succ fuel ih =>
    rintro (_ | ⟨c, cs⟩) pos
    · exact ⟨Nat.le_refl pos, fun st hst => absurd hst List.not_mem_nil⟩
    rw [labelStores]
    generalize ((c :: cs).takeWhile (· != 46)).take 63 = label
    dsimp only
    generalize (if ((c :: cs).drop label.length).head? = some 46 then
      ((c :: cs).drop label.length).tail else (c :: cs).drop label.length) = next
    obtain ⟨hpos, hinside⟩ := ih next (pos + 1 + label.length)
    refine ⟨by omega, ?_⟩
    rintro st (_ | ⟨_, _ | ⟨_, hst⟩⟩)
    · exact hpos
    · exact Nat.le_trans (Nat.succ_le_succ (Nat.le_add_right pos 0)) (by omega)
    · exact hinside st hst

end Stores

/-- **The bytes that are sent** for a host. -/
theorem dnsSendQuery_slice (host : List UInt8) (pkt : Buf) :
    (dnsSendQuery host).2 = (dnsQuery host).length ∧
      (writeAll pkt (dnsSendQuery host).1).slice 0 (dnsQuery host).length = dnsQuery host := by
  have hempty : pkt.slice 0 ([] : List UInt8).length = [] := rfl
  have hheader := slice_write_append hempty
    [0x12, 0x34, 0x01, 0x00, 0x00, 0x01, 0x00, 0x00, 0x00, 0x00, 0x00, 0x00]
  obtain ⟨hpos, hlabels⟩ := labelStores_slice host.length host _ _ hheader
  have hquery := slice_write_append hlabels [0, 0, 1, 0, 1]
  rw [← hpos] at hquery
  have hassoc : dnsQuery host = [0x12, 0x34, 0x01, 0x00, 0x00, 0x01, 0x00, 0x00, 0x00, 0x00, 0x00, 0x00] ++
      dnsLabels host.length host ++ [0, 0, 1, 0, 1] := by
    rw [dnsQuery, dnsQuestion, List.append_assoc]
  rw [dnsSendQuery, hassoc]
  constructor
  · rw [List.length_append]
    exact congrArg (· + 5) hpos
  · rw [writeAll_cons, writeAll_append]
    exact hquery

theorem dnsSendQuery_inside (host : List UInt8) {st : Store} (hst : st ∈ (dnsSendQuery host).1) :
    st.1 + st.2.length ≤ (dnsQuery host).length := by
  obtain ⟨hlen, -⟩ := dnsSendQuery_slice host fun _ => 0
  obtain ⟨hpos, hinside⟩ := labelStores_inside host.length host 12
  rw [← hlen]
  simp only [dnsSendQuery, List.mem_cons, List.mem_append, List.not_mem_nil, or_false] at hst ⊢
  rcases hst with rfl | hst | rfl
  · exact Nat.le_trans hpos (Nat.le_add_right _ 5)
  · exact Nat.le_trans (hinside st hst) (Nat.le_add_right _ 5)
  · exact Nat.le_refl _

/-! ## Questions -/

/-- The loop of `dns_handle` over a name is a walk. -/
theorem walk_iff_skipName {p : List UInt8} {q : Nat} (fuel : Nat) : ∀ pos, p.length ≤ pos + fuel →
    (Chunks.Walk p pos q ↔ skipName p fuel pos = q) := by
  induction fuel with
  | zero =>
    intro pos hpos
    rw [Chunks.walk_stop_iff fun h => absurd h (by omega), skipName]
    exact eq_comm
  | succ fuel ih =>
    intro pos hpos
    rw [skipName]
    by_cases hgo : pos < p.length ∧ byteAt p pos ≠ 0
    · rw [if_pos hgo, Chunks.walk_skip_iff hgo.1 hgo.2]
      exact ih _ (by omega)
    · rw [if_neg hgo, Chunks.walk_stop_iff fun h => not_not.mp fun hbyte => hgo ⟨h, hbyte⟩]
      exact eq_comm

/-- The place behind a question is the same in every packet that starts with it. -/
theorem questionEnd_echo {head : List UInt8} (hhead : head.length = 12) {labels : List (List UInt8)}
    (hsized : Chunks.Sized labels) (type cls : UInt16) (rest : List UInt8) :
    questionEnd (head ++ (Chunks.encode labels ++ 0 :: (be16Bytes type ++ be16Bytes cls ++ rest))) =
      12 + (Chunks.encode labels).length + 5 := by
  have hzero : (head ++ (Chunks.encode labels ++ 0 :: (be16Bytes type ++ be16Bytes cls ++ rest))).getD
      (head.length + (Chunks.encode labels).length) 0 = 0 := by
    rw [← List.append_assoc, ← List.length_append, Chunks.getD_append]
    rfl
  have hwalk := (Chunks.walk_encode_iff hsized head _).mpr (.stop fun _ => hzero)
  rw [hhead] at hwalk
  rw [questionEnd, (walk_iff_skipName _ 12 (Nat.le_add_left _ _)).mp hwalk]

/-- A host name by its labels. -/
structure HostName where
  labels : List (List UInt8)
  labels_ne_nil : labels ≠ []
  label_ne_nil : ∀ label ∈ labels, label ≠ []
  dot_notin : ∀ label ∈ labels, (46 : UInt8) ∉ label
  short : ([46].intercalate labels).length ≤ 63

/-- The text of a name: its labels with dots between them. -/
def HostName.text (h : HostName) : List UInt8 := [46].intercalate h.labels

/-- A turn of the loop takes a label. -/
theorem dnsLabels_label {label : List UInt8} (hne : label ≠ []) (hdot : (46 : UInt8) ∉ label)
    (hshort : label.length ≤ 63) {rest : List UInt8} (hrest : rest = [] ∨ rest.head? = some 46)
    (fuel : Nat) :
    dnsLabels (fuel + 1) (label ++ rest) =
      UInt8.ofNat label.length :: (label ++ dnsLabels fuel rest.tail) := by
  have htake : ((label ++ rest).takeWhile (· != 46)).take 63 = label := by
    have hin : ∀ c ∈ label, (c != 46) = true := by
      intro c hc
      refine bne_iff_ne.mpr ?_
      rintro rfl
      exact hdot hc
    rw [List.takeWhile_append_of_pos hin]
    rcases hrest with rfl | hhead
    · rw [List.takeWhile_nil, List.append_nil, List.take_of_length_le hshort]
    · obtain ⟨tail, rfl⟩ := List.head?_eq_some_iff.mp hhead
      rw [List.takeWhile_cons_of_neg (by decide), List.append_nil, List.take_of_length_le hshort]
  obtain ⟨c, cs, hcons⟩ := List.exists_cons_of_ne_nil hne
  have hnext : (if ((label ++ rest).drop label.length).head? = some 46 then
      ((label ++ rest).drop label.length).tail else (label ++ rest).drop label.length) = rest.tail := by
    rw [List.drop_left]
    rcases hrest with rfl | hhead
    · rfl
    · rw [if_pos hhead]
  rw [hcons, List.cons_append] at htake hnext ⊢
  rw [dnsLabels, htake, ← hcons]
  rw [hcons, hnext]

/-- **The labels that are written** for a name are its labels. -/
theorem dnsLabels_intercalate {labels : List (List UInt8)} (hne : ∀ label ∈ labels, label ≠ [])
    (hdot : ∀ label ∈ labels, (46 : UInt8) ∉ label) {fuel : Nat} (hfuel : labels.length ≤ fuel)
    (hshort : ([46].intercalate labels).length ≤ 63) :
    dnsLabels fuel ([46].intercalate labels) = Chunks.encode labels := by
  induction labels generalizing fuel with
  | nil =>
    cases fuel with
    | zero => rfl
    | succ fuel => rfl
  | cons label labels ih =>
    obtain ⟨fuel, rfl⟩ : ∃ n, fuel = n + 1 := ⟨fuel - 1, by rw [List.length_cons] at hfuel; omega⟩
    have hlabel := hne label List.mem_cons_self
    have hnodot := hdot label List.mem_cons_self
    -- Behind the label there is nothing, or a dot and the other labels.
    obtain ⟨rest, hsplit, hrest, htail⟩ : ∃ rest, [46].intercalate (label :: labels) = label ++ rest ∧
        (rest = [] ∨ rest.head? = some 46) ∧ rest.tail = [46].intercalate labels := by
      cases labels with
      | nil => exact ⟨[], by simp [List.intercalate], .inl rfl, rfl⟩
      | cons next labels =>
        exact ⟨46 :: [46].intercalate (next :: labels), by simp [List.intercalate], .inr rfl, rfl⟩
    rw [hsplit, List.length_append] at hshort
    rw [hsplit, dnsLabels_label hlabel hnodot (by omega) hrest, htail,
      ih (fun l hl => hne l (List.mem_cons_of_mem _ hl)) (fun l hl => hdot l (List.mem_cons_of_mem _ hl))
        (by rw [List.length_cons] at hfuel; omega)
        (by rw [← htail, List.length_tail]; omega)]
    rfl

/-- The bytes of a name: one more than its text has for the first length. -/
theorem length_encode_labels {labels : List (List UInt8)} (hne : labels ≠ []) :
    (Chunks.encode labels).length = ([46].intercalate labels).length + 1 := by
  induction labels with
  | nil => exact absurd rfl hne
  | cons label labels ih =>
    cases labels with
    | nil => simp [Chunks.encode, List.intercalate]
    | cons next labels =>
      have hnext := ih (by simp)
      rw [Chunks.encode_cons, List.length_cons, List.length_append, hnext]
      simp [List.intercalate]

/-- Every label has a byte of its own. -/
theorem length_labels_le {labels : List (List UInt8)} (hne : ∀ label ∈ labels, label ≠ []) :
    labels.length ≤ ([46].intercalate labels).length := by
  induction labels with
  | nil => exact Nat.le_refl 0
  | cons label labels ih =>
    have hlabel := List.length_pos_iff.mpr (hne label List.mem_cons_self)
    have hrest := ih fun l hl => hne l (List.mem_cons_of_mem _ hl)
    cases labels with
    | nil => simpa [List.intercalate, Nat.one_le_iff_ne_zero] using hne label List.mem_cons_self
    | cons next labels =>
      simp [List.intercalate] at hrest ⊢
      omega

theorem HostName.sized (h : HostName) : Chunks.Sized h.labels := by
  intro label hlabel
  have hlen : label.length ≤ ([46].intercalate h.labels).length := by
    have := (List.sublist_flatten_of_mem hlabel).length_le
    have hmem := length_encode_labels h.labels_ne_nil
    rw [Chunks.encode, List.flatMap_def] at hmem
    have hchunk := (List.sublist_flatten_of_mem (List.mem_map_of_mem
      (f := fun c : List UInt8 => UInt8.ofNat c.length :: c) hlabel)).length_le
    rw [hmem, List.length_cons] at hchunk
    omega
  have hshort := h.short
  exact ⟨List.length_pos_iff.mpr (h.label_ne_nil label hlabel), by omega⟩

/-- The question for a host name. -/
theorem dnsQuestion_text (h : HostName) :
    dnsQuestion h.text = Chunks.encode h.labels ++ 0 :: (be16Bytes 1 ++ be16Bytes 1 ++ []) := by
  rw [dnsQuestion, HostName.text, dnsLabels_intercalate h.label_ne_nil h.dot_notin
    (length_labels_le h.label_ne_nil) h.short]
  rfl

/-- The bytes of the question for a host name: at most 69. -/
theorem length_dnsQuestion_text (h : HostName) : (dnsQuestion h.text).length = h.text.length + 6 := by
  rw [dnsQuestion_text, List.length_append, length_encode_labels h.labels_ne_nil]
  rfl

/-- **The query for a host name.** The stores are inside the buffer; a header with one
question is sent, then labels that spell the name, a zero, type A and class IN; and where a
packet repeats the question behind its header, `dns_handle` goes on behind it. -/
theorem dnsSendQuery_encodes (h : HostName) (pkt : Buf) :
    let query := (writeAll pkt (dnsSendQuery h.text).1).slice 0 (dnsSendQuery h.text).2
    (∀ st ∈ (dnsSendQuery h.text).1, st.1 + st.2.length ≤ 512) ∧
    (query.take 12).length = 12 ∧ be16 query 4 = 1 ∧
    ((Chunks.decode query.length (query.drop 12)).map fun r => ([46].intercalate r.1, r.2)) =
      some (h.text, be16Bytes 1 ++ be16Bytes 1) ∧
    ∀ (header : Vector UInt8 12) (answers : List UInt8),
      questionEnd (header.toList ++ query.drop 12 ++ answers) =
        (header.toList ++ query.drop 12).length := by
  intro query
  obtain ⟨hlen, hslice⟩ := dnsSendQuery_slice h.text pkt
  have hquery : query = dnsQuery h.text := by rw [← hslice, ← hlen]
  have hquestion := length_dnsQuestion_text h
  have hdrop : query.drop 12 = dnsQuestion h.text := by
    rw [hquery]
    rfl
  have hlength : query.length = h.text.length + 18 := by
    rw [hquery, dnsQuery, List.length_append, hquestion, Nat.add_comm]
    rfl
  have hshort : h.text.length ≤ 63 := h.short
  refine ⟨fun st hst => ?_, ?_, ?_, ?_, fun header answers => ?_⟩
  · have hinside := dnsSendQuery_inside h.text hst
    rw [← hquery, hlength] at hinside
    omega
  · rw [List.length_take, hlength]
    omega
  · rw [hquery]
    exact (by decide : (0 : UInt16) <<< 8 ||| 1 = 1)
  · have hfuel : h.labels.length < query.length := by
      have := length_labels_le h.label_ne_nil
      rw [hlength]
      exact Nat.lt_of_le_of_lt this (Nat.lt_add_of_pos_right (by decide))
    rw [hdrop, dnsQuestion_text, Chunks.decode_encode h.sized _ hfuel]
    rfl
  · have hend := questionEnd_echo header.length_toList h.sized 1 1 answers
    rw [hdrop, List.length_append, hquestion, header.length_toList, dnsQuestion_text]
    rw [length_encode_labels h.labels_ne_nil] at hend
    simpa [HostName.text, Nat.add_assoc] using hend

end OpenAgentOS
