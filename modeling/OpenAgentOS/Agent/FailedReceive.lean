import OpenAgentOS.Agent.Table
import OpenAgentOS.Ipc.Refinement
import OpenAgentOS.Lib.BoundedQueue

/-!
# A receive that fails (kernel/agent.c)

`agent_recv` takes the message out of the inbox first and copies it to the user then. If that fails
it pushes the message again, like a new one: behind the others, and behind what other harts have
pushed meanwhile.

- `agentRecvCall`: the whole call, with the messages that arrive between its two halves.
- `Mailbox.Sorted`: messages are in the queue that their type selects, in every inbox (`sorted_run`).
- `sameReplies_iff`: two inboxes answer all later calls alike exactly if they hold the same.
- `agentRecv_failed_iff`: when a call that returns `EFAULT` can be noticed later.
-/

namespace OpenAgentOS

open BoundedQueue

/-! ## The call -/

/-- Messages are pushed one after the other, whether there is room or not. -/
def msgboxPushAll (box : Msgbox) (msgs : List AgentMsg) : Msgbox :=
  msgs.foldl (fun box msg => (msgboxPush box msg).2) box

/-- Other harts push into the inbox of agent `cur`. -/
def Kernel.pushAll (k : Kernel) (cur : Fin maxAgents) (msgs : List AgentMsg) : Kernel :=
  k.setAgent cur { k.agents cur with inbox := msgboxPushAll (k.agents cur).inbox msgs }

/-- `agent_recv` (agent.c:266) from its start to its end. Other harts push `between` while the message
is neither in the inbox nor at the user; `fault` says that `copy_to_user` fails. -/
def agentRecvCall (k : Kernel) (cur : Fin maxAgents) (null fault : Bool) (between : List AgentMsg) :
    Int × Kernel :=
  match agentRecv k cur null with
  | .error rc => (rc, k.pushAll cur between)
  | .ok (msg, k) =>
    let k := k.pushAll cur between
    if fault then (efault, agentRecvUndo k cur msg) else (msg.type, k)

/-! ## Inboxes -/

namespace Mailbox

variable {m m' : Mailbox}

/-- Messages are in the queue that their type selects. -/
structure Sorted (m : Mailbox) : Prop where
  steer : ∀ msg ∈ m.steer, msg.type = msgSteer
  normal : ∀ msg ∈ m.normal, msg.type ≠ msgSteer

theorem push_steer (m : Mailbox) (msg : AgentMsg) :
    (m.push msg).2.steer =
      if msg.type = msgSteer then offer msgSteerCapacity m.steer msg else m.steer := by
  rw [push, offer]
  split_ifs <;> rfl

theorem push_normal (m : Mailbox) (msg : AgentMsg) :
    (m.push msg).2.normal =
      if msg.type = msgSteer then m.normal else offer msgCapacity m.normal msg := by
  rw [push, offer]
  split_ifs <;> rfl

theorem mem_offer {cap : Nat} {q : List AgentMsg} {x y : AgentMsg} (h : y ∈ offer cap q x) :
    y ∈ q ∨ y = x := by
  rw [offer] at h
  split_ifs at h
  · rw [List.mem_append, List.mem_singleton] at h
    exact h
  · exact .inl h

theorem Sorted.push (h : m.Sorted) (msg : AgentMsg) : (m.push msg).2.Sorted := by
  constructor
  · intro x hx
    rw [push_steer] at hx
    split_ifs at hx with htype
    · rcases mem_offer hx with hx | rfl
      · exact h.steer x hx
      · exact htype
    · exact h.steer x hx
  · intro x hx
    rw [push_normal] at hx
    split_ifs at hx with htype
    · exact h.normal x hx
    · rcases mem_offer hx with hx | rfl
      · exact h.normal x hx
      · exact htype

theorem sorted_empty : empty.Sorted := ⟨nofun, nofun⟩

/-- What is popped is the front of all messages. -/
theorem pop_eq (m : Mailbox) :
    m.pop.1 = ((m.steer ++ m.normal).head?.elim (.error eagain) .ok) ∧
      m.pop.2.steer ++ m.pop.2.normal = (m.steer ++ m.normal).tail := by
  obtain ⟨steer, normal, hs, hn⟩ := m
  cases steer with
  | cons s ss => exact ⟨rfl, rfl⟩
  | nil =>
    cases normal with
    | cons n ns => exact ⟨rfl, rfl⟩
    | nil => exact ⟨rfl, rfl⟩

theorem Sorted.pop (h : m.Sorted) : m.pop.2.Sorted := by
  obtain ⟨steer, normal, hs, hn⟩ := m
  cases steer with
  | cons s ss => exact ⟨fun x hx => h.steer x (.tail _ hx), h.normal⟩
  | nil =>
    cases normal with
    | cons n ns => exact ⟨h.steer, fun x hx => h.normal x (.tail _ hx)⟩
    | nil => exact h

theorem Sorted.compact (h : m.Sorted) (keep : Int) : (m.compact keep).2.Sorted := by
  rw [Mailbox.compact, keepLast]
  split_ifs with hmany
  · refine ⟨h.steer, fun x hx => ?_⟩
    rcases List.mem_cons.mp hx with rfl | hx
    · exact show msgSummary ≠ msgSteer by decide
    · exact h.normal x (List.mem_of_mem_drop hx)
  · exact h

/-- **Every inbox is sorted**: one call, and a run of calls. -/
theorem Sorted.call (h : m.Sorted) (c : MsgboxCall) : (m.call c).2.Sorted := by
  cases c with
  | init => exact sorted_empty
  | push msg => exact h.push msg
  | pop => exact h.pop
  | compact keep => exact h.compact keep

theorem sorted_run (h : m.Sorted) (cs : List MsgboxCall) : (runCalls Mailbox.call m cs).2.Sorted := by
  induction cs generalizing m with
  | nil => exact h
  | cons c cs ih => exact ih (h.call c)

/-- The order of service determines a sorted mailbox. -/
theorem Sorted.eq_of_append (h : m.Sorted) (h' : m'.Sorted)
    (heq : m.steer ++ m.normal = m'.steer ++ m'.normal) : m = m' := by
  have hsteer {q : Mailbox} (hq : q.Sorted) :
      (q.steer ++ q.normal).filter (fun x => x.type = msgSteer) = q.steer := by
    rw [List.filter_append, List.filter_eq_self.mpr fun x hx => decide_eq_true (hq.steer x hx),
      List.filter_eq_nil_iff.mpr fun x hx => by simpa using hq.normal x hx, List.append_nil]
  have hfirst : m.steer = m'.steer := by rw [← hsteer h, heq, hsteer h']
  rw [hfirst] at heq
  exact Mailbox.ext hfirst (List.append_cancel_left heq)

end Mailbox

/-- Messages are pushed one after the other. -/
def Mailbox.pushAll (m : Mailbox) (msgs : List AgentMsg) : Mailbox :=
  msgs.foldl (fun m msg => (m.push msg).2) m

namespace Mailbox

variable {m m' : Mailbox}

theorem Sorted.pushAll (h : m.Sorted) (msgs : List AgentMsg) : (m.pushAll msgs).Sorted := by
  induction msgs generalizing m with
  | nil => exact h
  | cons msg msgs ih => exact ih (h.push msg)

theorem pushAll_steer (m : Mailbox) (msgs : List AgentMsg) :
    (m.pushAll msgs).steer =
      offerAll msgSteerCapacity m.steer (msgs.filter fun x => x.type = msgSteer) := by
  induction msgs generalizing m with
  | nil => rfl
  | cons msg msgs ih =>
    rw [pushAll, List.foldl_cons]
    refine (ih _).trans ?_
    rw [push_steer, List.filter_cons]
    by_cases htype : msg.type = msgSteer
    · rw [if_pos htype, if_pos (decide_eq_true htype)]
      rfl
    · rw [if_neg htype, if_neg (by simpa using htype)]

theorem pushAll_normal (m : Mailbox) (msgs : List AgentMsg) :
    (m.pushAll msgs).normal =
      offerAll msgCapacity m.normal (msgs.filter fun x => ¬ x.type = msgSteer) := by
  induction msgs generalizing m with
  | nil => rfl
  | cons msg msgs ih =>
    rw [pushAll, List.foldl_cons]
    refine (ih _).trans ?_
    rw [push_normal, List.filter_cons]
    by_cases htype : msg.type = msgSteer
    · rw [if_pos htype, if_neg (by simpa using htype)]
    · rw [if_neg htype, if_pos (decide_eq_true htype)]
      rfl

/-- Taking messages out, one after the other, gives the queues in the order of service. -/
theorem pops_eq (m : Mailbox) (n : Nat) :
    (runCalls Mailbox.call m (List.replicate n .pop)).1 =
      (serve (m.steer ++ m.normal) n).map fun front => .message (front.elim (.error eagain) .ok) := by
  induction n generalizing m with
  | zero => rfl
  | succ n ih =>
    obtain ⟨hfront, hrest⟩ := pop_eq m
    rw [List.replicate_succ, serve, List.map_cons, ← hrest, ← ih, ← hfront]
    rfl

end Mailbox

/-- **What can be noticed later**: two sorted inboxes give the same replies to all later calls exactly
if they hold the same messages. -/
theorem sameReplies_iff {box box' : Msgbox} {m m' : Mailbox} (h : Refines box m) (h' : Refines box' m')
    (hs : m.Sorted) (hs' : m'.Sorted) :
    (∀ later, (runCalls Msgbox.call box later).1 = (runCalls Msgbox.call box' later).1) ↔ m = m' := by
  constructor
  · intro hsame
    refine hs.eq_of_append hs' (serve_inj fun n => ?_)
    have hpops := hsame (List.replicate n .pop)
    rw [(refines_runCalls h _).1, (refines_runCalls h' _).1, Mailbox.pops_eq, Mailbox.pops_eq] at hpops
    refine List.map_injective_iff.mpr (fun front front' heq => ?_) hpops
    cases front <;> cases front' <;> simp_all
  · rintro rfl later
    rw [(refines_runCalls h _).1, (refines_runCalls h' _).1]

/-! ## The message that comes back -/

/-- The queue that is served next. -/
def served (steer normal : List AgentMsg) : List AgentMsg := if steer = [] then normal else steer

/-- Its capacity. -/
def servedCap (steer : List AgentMsg) : Nat := if steer = [] then msgCapacity else msgSteerCapacity

/-- The messages that compete with the next one: those behind it, and those of its kind that arrive. -/
def rivals (steer normal between : List AgentMsg) : List AgentMsg :=
  (served steer normal).tail ++ between.filter fun x => x.type = msgSteer ↔ steer ≠ []

section

variable {m m' : Mailbox} {msg : AgentMsg} {between : List AgentMsg}

/-- **A message is popped and pushed back**: when that changes nothing. -/
theorem Mailbox.pushBack_eq_iff (hs : m.Sorted) (hpop : m.pop = (.ok msg, m')) :
    ((m'.pushAll between).push msg).2 = m.pushAll between ↔
      ∀ x ∈ (rivals m.steer m.normal between).take (servedCap m.steer), x = msg := by
  obtain ⟨steer, normal, hsle, hnle⟩ := m
  rw [Mailbox.ext_iff, push_steer, push_normal, pushAll_steer, pushAll_steer, pushAll_normal,
    pushAll_normal, rivals, servedCap, served]
  cases steer with
  | cons s ss =>
    have htype : s.type = msgSteer := hs.steer s List.mem_cons_self
    cases hpop
    simp only [htype, if_true, and_true, List.cons_ne_nil, if_false, List.tail_cons, ne_eq,
      not_false_eq_true, iff_true]
    exact offer_offerAll_iff hsle
  | nil =>
    cases normal with
    | nil => cases hpop
    | cons n ns =>
      have htype : n.type ≠ msgSteer := hs.normal n List.mem_cons_self
      cases hpop
      simp only [htype, if_true, if_false, true_and, List.tail_cons, ne_eq, not_true_eq_false, iff_false]
      exact offer_offerAll_iff hnle

/-- **A message is popped and not pushed back**: when that changes nothing. -/
theorem Mailbox.pop_eq_iff (hpop : m.pop = (.ok msg, m')) :
    m'.pushAll between = m.pushAll between ↔
      servedCap m.steer ≤ (rivals m.steer m.normal between).length ∧
        ∀ x ∈ (rivals m.steer m.normal between).take (servedCap m.steer), x = msg := by
  obtain ⟨steer, normal, hsle, hnle⟩ := m
  rw [Mailbox.ext_iff, pushAll_steer, pushAll_steer, pushAll_normal, pushAll_normal, rivals, servedCap,
    served]
  cases steer with
  | cons s ss =>
    cases hpop
    simp only [and_true, List.cons_ne_nil, if_false, List.tail_cons, ne_eq, not_false_eq_true, iff_true]
    exact offerAll_iff hsle
  | nil =>
    cases normal with
    | nil => cases hpop
    | cons n ns =>
      cases hpop
      simp only [if_true, true_and, List.tail_cons, ne_eq, not_true_eq_false, iff_false]
      exact offerAll_iff hnle

theorem Mailbox.head?_served (hpop : m.pop = (.ok msg, m')) :
    (served m.steer m.normal).head? = some msg := by
  obtain ⟨steer, normal, hsle, hnle⟩ := m
  cases steer with
  | cons s ss => cases hpop; rfl
  | nil =>
    cases normal with
    | cons n ns => cases hpop; rfl
    | nil => cases hpop

theorem Mailbox.head?_served_of_error {rc : Int} (hpop : m.pop = (.error rc, m')) :
    (served m.steer m.normal).head? = none := by
  obtain ⟨steer, normal, hsle, hnle⟩ := m
  cases steer with
  | cons s ss => cases hpop
  | nil =>
    cases normal with
    | cons n ns => cases hpop
    | nil => rfl

end

/-! ## The call -/

/-- A box that calls have made of any memory. -/
def IsInbox (box : Msgbox) : Prop :=
  ∃ mem cs, box = (runCalls Msgbox.call (msgboxInit mem) cs).2

theorem IsInbox.sorted {box : Msgbox} (h : IsInbox box) : ∃ m, Refines box m ∧ m.Sorted := by
  obtain ⟨mem, cs, rfl⟩ := h
  exact ⟨_, (refines_runCalls (refines_init mem) cs).2, Mailbox.sorted_run Mailbox.sorted_empty cs⟩

theorem refines_pushAll {box : Msgbox} {m : Mailbox} (h : Refines box m) (msgs : List AgentMsg) :
    Refines (msgboxPushAll box msgs) (m.pushAll msgs) := by
  induction msgs generalizing box m with
  | nil => exact h
  | cons msg msgs ih => exact ih (refines_push h msg).2

section

variable {k : Kernel} {cur : Fin maxAgents} {null fault : Bool} {between : List AgentMsg}

/-- A call that takes no message out. -/
theorem agentRecvCall_of_error {rc : Int} (h : agentRecv k cur null = .error rc) :
    agentRecvCall k cur null fault between = (rc, k.pushAll cur between) := by
  rw [agentRecvCall, h]

/-- Without the capability or a pointer, `agent_recv` is refused. -/
theorem agentRecv_refused (h : ¬ ((k.agents cur).hasCap capRecv = true ∧ null = false)) :
    ∃ rc, rc ≠ efault ∧ agentRecv k cur null = .error rc := by
  rw [agentRecv]
  by_cases hcap : (k.agents cur).hasCap capRecv = true
  · cases null with
    | true =>
      rw [hcap]
      exact ⟨einval, by decide, rfl⟩
    | false => exact absurd ⟨hcap, rfl⟩ h
  · rw [Bool.not_eq_true] at hcap
    rw [hcap]
    exact ⟨eperm, by decide, rfl⟩

theorem msgboxPop_of_empty {box : Msgbox} (h : msgboxEmpty box = true) :
    msgboxPop box = (.error eagain, box) := by
  rw [msgboxEmpty, Bool.and_eq_true, beq_iff_eq, beq_iff_eq] at h
  rw [msgboxPop, if_neg (by omega), if_pos h.1]

/-- With the capability and a pointer, `agent_recv` pops. -/
theorem agentRecv_eq (hcap : (k.agents cur).hasCap capRecv = true) :
    agentRecv k cur false = match msgboxPop (k.agents cur).inbox with
      | (.error _, _) => .error eagain
      | (.ok msg, box) => .ok (msg, k.setAgent cur { k.agents cur with inbox := box }) := by
  rw [agentRecv]
  dsimp only
  rw [hcap, if_neg (by decide), if_neg (by decide)]
  by_cases hempty : msgboxEmpty (k.agents cur).inbox = true
  · rw [if_pos hempty, msgboxPop_of_empty hempty]
  · refine (if_neg hempty).trans ?_
    rcases msgboxPop (k.agents cur).inbox with ⟨_ | _, _⟩ <;> rfl

/-- A call that takes a message out. -/
theorem agentRecvCall_of_pop (fault : Bool) (between : List AgentMsg) (hcap : (k.agents cur).hasCap capRecv = true) {msg : AgentMsg}
    {box : Msgbox} (hpop : msgboxPop (k.agents cur).inbox = (.ok msg, box)) :
    (agentRecvCall k cur false fault between).1 = (if fault then efault else msg.type) ∧
      ((agentRecvCall k cur false fault between).2.agents cur).inbox =
        if fault then (msgboxPush (msgboxPushAll box between) msg).2 else msgboxPushAll box between := by
  rw [agentRecvCall, agentRecv_eq hcap, hpop]
  cases fault with
  | true =>
    simp only [if_true, agentRecvUndo, Kernel.pushAll, Kernel.setAgent_agents, Function.update_self,
      and_self]
  | false =>
    simp only [Bool.false_eq_true, if_false, Kernel.pushAll, Kernel.setAgent_agents,
      Function.update_self, and_self]

/-- **A receive that fails.** It is as if the call had not been made, for all later calls on the inbox,
exactly if the message that was popped finds only messages equal to it in its queue. (A message whose
type is `EFAULT` makes a call return that without failing.) -/
theorem agentRecv_failed_iff (hbox : IsInbox (k.agents cur).inbox) :
    ((agentRecvCall k cur null fault between).1 = efault →
        ∀ later,
          (runCalls Msgbox.call ((agentRecvCall k cur null fault between).2.agents cur).inbox later).1 =
            (runCalls Msgbox.call ((k.pushAll cur between).agents cur).inbox later).1) ↔
      ((k.agents cur).hasCap capRecv = true → null = false →
        let steer := (k.agents cur).inbox.steer.contents
        let normal := (k.agents cur).inbox.normal.contents
        ∀ msg, (served steer normal).head? = some msg → fault = true ∨ msg.type = efault →
          (fault = false → servedCap steer ≤ (rivals steer normal between).length) ∧
            ∀ x ∈ (rivals steer normal between).take (servedCap steer), x = msg) := by
  obtain ⟨m, hm, hsorted⟩ := hbox.sorted
  have hafter : ((k.pushAll cur between).agents cur).inbox =
      msgboxPushAll (k.agents cur).inbox between := by
    rw [Kernel.pushAll, Kernel.setAgent_agents, Function.update_self]
  -- a refused call takes nothing out, and returns another code
  by_cases hok : (k.agents cur).hasCap capRecv = true ∧ null = false
  swap
  · obtain ⟨rc, hrc, hrecv⟩ := agentRecv_refused hok
    rw [agentRecvCall_of_error hrecv]
    exact ⟨fun _ hcap hnull => absurd ⟨hcap, hnull⟩ hok, fun _ heq => absurd heq hrc⟩
  obtain ⟨hcap, rfl⟩ := hok
  simp only [hcap, true_imp_iff, hm.steer_eq, hm.normal_eq]
  obtain ⟨hres, hrest⟩ := refines_pop hm
  rcases hpop : m.pop with ⟨rc | msg, m'⟩
  · have hnone : (served m.steer m.normal).head? = none := Mailbox.head?_served_of_error hpop
    have hrecv : agentRecv k cur false = .error eagain := by
      rw [hpop] at hres
      rw [agentRecv_eq hcap, ← Prod.mk.eta (p := msgboxPop _), hres]
    rw [agentRecvCall_of_error hrecv, hnone]
    exact ⟨fun _ _ hsome => absurd hsome.symm (Option.some_ne_none _), fun _ heq => absurd heq (show eagain ≠ efault by decide)⟩
  · have hhead := Mailbox.head?_served hpop
    rw [hpop] at hres hrest
    obtain ⟨hrc, hinbox⟩ := agentRecvCall_of_pop fault between hcap (Prod.ext hres rfl)
    have hleft := refines_pushAll hrest between
    have hsorted' : m'.Sorted := by
      have hsorted' := hsorted.pop
      rw [hpop] at hsorted'
      exact hsorted'
    rw [hrc, hinbox, hafter, hhead]
    simp only [Option.some.injEq, forall_eq']
    cases fault with
    | true =>
      simp only [if_true, true_imp_iff, true_or, Bool.true_eq_false, false_imp_iff, true_and]
      rw [sameReplies_iff (refines_push hleft msg).2 (refines_pushAll hm between)
        ((hsorted'.pushAll between).push msg) (hsorted.pushAll between)]
      exact Mailbox.pushBack_eq_iff hsorted hpop
    | false =>
      simp only [Bool.false_eq_true, if_false, false_or, true_imp_iff]
      rw [sameReplies_iff hleft (refines_pushAll hm between) (hsorted'.pushAll between)
        (hsorted.pushAll between), Mailbox.pop_eq_iff hpop]

end

/-- An inbox after some messages, in memory that held nothing. -/
def inboxOf (msgs : List AgentMsg) : Msgbox :=
  (runCalls Msgbox.call
    (msgboxInit ⟨⟨fun _ => .ofText 0 0 [], 0, 0, 0⟩, ⟨fun _ => .ofText 0 0 [], 0, 0, 0⟩⟩)
    (msgs.map .push)).2

/-- A table in which every agent may receive, and has this inbox. -/
def receivers (box : Msgbox) : Kernel where
  agents := fun _ => ⟨.running, none, capRecv, box, 0, none⟩
  ipcCount := fun _ => 0

theorem agentRecv_failed_single :
    let k := receivers (inboxOf [.ofText 1 msgResult [97]])
    (agentRecvCall k 3 false true []).1 = efault ∧
      ∀ later, (runCalls Msgbox.call ((agentRecvCall k 3 false true []).2.agents 3).inbox later).1 =
        (runCalls Msgbox.call ((k.pushAll 3 []).agents 3).inbox later).1 := by
  have hrc : (agentRecvCall (receivers (inboxOf [.ofText 1 msgResult [97]])) 3 false true []).1 =
      efault := by decide +kernel
  have hrivals : rivals (inboxOf [.ofText 1 msgResult [97]]).steer.contents
      (inboxOf [.ofText 1 msgResult [97]]).normal.contents [] = [] := by decide +kernel
  have hinbox : IsInbox (inboxOf [.ofText 1 msgResult [97]]) := ⟨_, _, rfl⟩
  -- the inbox is not looked into any more
  obtain ⟨box, hbox⟩ : ∃ box, inboxOf [.ofText 1 msgResult [97]] = box := ⟨_, rfl⟩
  rw [hbox] at hrc hrivals hinbox ⊢
  refine ⟨hrc, (agentRecv_failed_iff hinbox).mpr (fun _ _ => ?_) hrc⟩
  intro steer normal msg _ _
  rw [show rivals steer normal [] = [] from hrivals, List.take_nil]
  exact ⟨nofun, fun x hx => absurd hx List.not_mem_nil⟩

/-- **A failed receive that is noticed**: of two messages, the second is delivered first. -/
theorem not_agentRecv_failed :
    let k := receivers (inboxOf [.ofText 1 msgResult [97], .ofText 1 msgResult [98]])
    (agentRecvCall k 3 false true []).1 = efault ∧
      (runCalls Msgbox.call ((agentRecvCall k 3 false true []).2.agents 3).inbox [.pop]).1 =
        [.message (.ok (.ofText 1 msgResult [98]))] ∧
      (runCalls Msgbox.call ((k.pushAll 3 []).agents 3).inbox [.pop]).1 =
        [.message (.ok (.ofText 1 msgResult [97]))] := by
  refine ⟨?_, ?_, ?_⟩
  · decide +kernel
  · rfl
  · rfl

end OpenAgentOS
