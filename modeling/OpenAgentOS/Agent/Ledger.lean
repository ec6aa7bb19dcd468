import OpenAgentOS.Agent.Machine
import OpenAgentOS.Ipc.Labels

/-!
# A ledger of messages

The ledger numbers the messages that a send accepted and follows each of them. It
is kept from the notes of the steps (`Machine.note`) alone, next to the machine.

A slot is used for one agent after the other, its *incarnations*. A message is
addressed to the incarnation that was in the slot when it was sent, and a hart
runs the incarnation that was there when it dispatched the slot.

- `Mail`: the part of a machine that messages depend on, and `MailStep`, what a
  step may do to it if no message is to be lost.
- `Ledger.apply`: how a note is entered.
- `Ledger.Accounted`: what may have become of a message.
- `Sound`: the ledger agrees with the mailboxes, and every message is accounted
  for. Every `MailStep` keeps this (`MailStep.sound`).
-/

namespace OpenAgentOS

open Function

/-! ## Mail -/

/-- Mailboxes, the slots that are free for a new agent, and for every hart the slot
it serves and the message that its `agent_recv` is about to push back. -/
structure Mail where
  inbox : Fin maxAgents → Msgbox
  free : Fin maxAgents → Bool
  server : Fin maxHarts → Option (Fin maxAgents)
  holding : Fin maxHarts → Option AgentMsg

/-- A hart that stops serving its slot holds nothing. -/
def Mail.Serves (p p' : Mail) : Prop :=
  ∀ h, p'.server h = p.server h ∨ p'.server h = none ∧ p'.holding h = none

/-- Also, no slot becomes free. -/
structure Mail.Calm (p p' : Mail) : Prop where
  free : ∀ i, p'.free i = true → p.free i = true
  serves : p.Serves p'

/-- **A step that loses no message**, taken on hart `h`. A message is accepted only
by a slot that is not free, a slot that some hart serves is not used again, and a
message that is pushed back finds room. -/
inductive MailStep (p : Mail) (h : Fin maxHarts) : Note → Mail → Prop
  | quiet {p' : Mail} (hcalm : p.Calm p') (hinbox : p'.inbox = p.inbox)
      (hholding : p'.holding = p.holding) : MailStep p h .quiet p'
  | recreated {p' : Mail} (i : Fin maxAgents) (hfree : p.free i = true)
      (hapart : ∀ h, p.server h ≠ some i) (hcalm : p.Calm p')
      (hinbox : p'.inbox = update p.inbox i (msgboxInit (p.inbox i)))
      (hholding : p'.holding = p.holding) : MailStep p h (.recreated i) p'
  | ended {p' : Mail} (i : Fin maxAgents) (hfree : ∀ j, j ≠ i → p'.free j = true → p.free j = true)
      (hserves : p.Serves p') (hinbox : p'.inbox = p.inbox)
      (hholding : p'.holding = p.holding) : MailStep p h (.ended i) p'
  | accepted {p' : Mail} (i : Fin maxAgents) (msg : AgentMsg) {box : Msgbox}
      (hfree : p.free i = false) (hpush : msgboxPush (p.inbox i) msg = (0, box))
      (hcalm : p.Calm p') (hinbox : p'.inbox = update p.inbox i box)
      (hholding : p'.holding = p.holding) : MailStep p h (.accepted i msg) p'
  | popped {p' : Mail} (i : Fin maxAgents) (msg : AgentMsg) {box : Msgbox} (fault : Bool)
      (hserver : p.server h = some i) (hserver' : p'.server h = some i)
      (hpop : msgboxPop (p.inbox i) = (.ok msg, box)) (hheld : p.holding h = none)
      (hcalm : p.Calm p') (hinbox : p'.inbox = update p.inbox i box)
      (hholding : p'.holding = update p.holding h (if fault then some msg else none)) :
      MailStep p h (.popped i msg fault) p'
  | givenBack {p' : Mail} (i : Fin maxAgents) (msg : AgentMsg) {box : Msgbox}
      (hserver : p.server h = some i) (hheld : p.holding h = some msg)
      (hpush : msgboxPush (p.inbox i) msg = (0, box))
      (hcalm : p.Calm p') (hinbox : p'.inbox = update p.inbox i box)
      (hholding : p'.holding = update p.holding h none) :
      MailStep p h (.givenBack i msg) p'
  | compacted {p' : Mail} (i : Fin maxAgents) (keep : Int) (hserver : p.server h = some i)
      (hcalm : p.Calm p')
      (hinbox : p'.inbox = update p.inbox i (msgboxCompact (p.inbox i) keep).2)
      (hholding : p'.holding = p.holding) : MailStep p h (.compacted i keep) p'
  | dispatched {p' : Mail} (i : Fin maxAgents) (hheld : p.holding h = none)
      (hfree : ∀ j, p'.free j = true → p.free j = true)
      (hserver : p'.server = update p.server h (some i)) (hinbox : p'.inbox = p.inbox)
      (hholding : p'.holding = p.holding) : MailStep p h (.dispatched i) p'

/-! ## The ledger -/

/-- A message and the incarnation to which it was sent. -/
structure Sent where
  target : Fin maxAgents
  epoch : Nat
  msg : AgentMsg

/-- What is known of messages; a message is named by its place in `sent`.

- `labels`: which messages are in which mailbox.
- `epoch`: the incarnation that is in a slot. `running`: the one a hart runs.
- `held`: the message that the `agent_recv` of a hart has popped and not returned.
- `received`: messages with what `agent_recv` returned and to whom.
- `folded`: messages with the slot and the incarnation that compacted its inbox.
- `ended`: slots and incarnations that exited or were destroyed, with how many
  messages had been sent before. -/
structure Ledger where
  sent : List Sent
  labels : Fin maxAgents → Labels
  epoch : Fin maxAgents → Nat
  running : Fin maxHarts → Nat
  held : Fin maxHarts → Option Nat
  received : List (Option Nat × Sent)
  folded : List (Option Nat × Fin maxAgents × Nat)
  ended : List (Fin maxAgents × Nat × Nat)

namespace Ledger

/-- Before the first message. -/
def init : Ledger where
  sent := []
  labels := fun _ => .empty
  epoch := fun _ => 0
  running := fun _ => 0
  held := fun _ => none
  received := []
  folded := []
  ended := []

/-- Enter what a step on hart `h` meant. -/
def apply (L : Ledger) (h : Fin maxHarts) : Note → Ledger
  | .quiet => L
  | .recreated i =>
    { L with
      labels := update L.labels i .empty
      epoch := update L.epoch i (L.epoch i + 1) }
  | .ended i => { L with ended := (i, L.epoch i, L.sent.length) :: L.ended }
  | .accepted i msg =>
    { L with
      sent := L.sent ++ [⟨i, L.epoch i, msg⟩]
      labels := update L.labels i ((L.labels i).push msg.type (some L.sent.length)) }
  | .popped i msg fault =>
    let t := (L.labels i).pop.1
    { L with
      labels := update L.labels i (L.labels i).pop.2
      held := if fault then update L.held h t else L.held
      received := if fault then L.received else (t, ⟨i, L.running h, msg⟩) :: L.received }
  | .givenBack i msg =>
    { L with
      labels := update L.labels i ((L.labels i).push msg.type (L.held h))
      held := update L.held h none }
  | .dropped _ => { L with held := update L.held h none }
  | .compacted i keep =>
    { L with
      labels := update L.labels i ((L.labels i).compact keep)
      folded := ((L.labels i).folded keep).map (fun t => (t, i, L.running h)) ++ L.folded }
  | .dispatched i => { L with running := update L.running h (L.epoch i) }

/-- The incarnation ended after message `n` was sent. -/
def EndedAfter (L : Ledger) (n : Nat) (i : Fin maxAgents) (epoch : Nat) : Prop :=
  ∃ count, (i, epoch, count) ∈ L.ended ∧ n < count

/-- **What may have become of a message**: it is still in the inbox of its
incarnation, or that incarnation received it, or folded it into a summary, or ended
after it was sent. -/
inductive Accounted (L : Ledger) (n : Nat) (s : Sent) : Prop
  | queued (hepoch : L.epoch s.target = s.epoch) (hmem : (L.labels s.target).Mem n)
  | received (hmem : (some n, s) ∈ L.received)
  | folded (hmem : (some n, s.target, s.epoch) ∈ L.folded)
  | ended (hend : L.EndedAfter n s.target s.epoch)

/-- A label of slot `i` stands for a message sent to its present incarnation. -/
def Stands (L : Ledger) (i : Fin maxAgents) (t : Option Nat) (msg : AgentMsg) : Prop :=
  ∀ n, t = some n → L.sent[n]? = some ⟨i, L.epoch i, msg⟩

/-- Hart `h` is about to push message `n` back into the inbox of its incarnation. -/
structure InHand (L : Ledger) (p : Mail) (n : Nat) (s : Sent) (h : Fin maxHarts) : Prop where
  held : L.held h = some n
  holding : p.holding h = some s.msg
  server : p.server h = some s.target

end Ledger

/-- **The ledger is sound.** -/
structure Sound (p : Mail) (L : Ledger) : Prop where
  labelled : ∀ i, Labelled (L.Stands i) (p.inbox i) (L.labels i)
  running : ∀ h i, p.server h = some i → L.running h = L.epoch i
  held : ∀ h msg, p.holding h = some msg → ∃ i, p.server h = some i ∧ L.Stands i (L.held h) msg
  past : ∀ (n : Nat) (s : Sent), L.sent[n]? = some s → s.epoch ≤ L.epoch s.target
  closed : ∀ i, p.free i = true → ∀ (n : Nat) msg, L.sent[n]? = some ⟨i, L.epoch i, msg⟩ →
    L.EndedAfter n i (L.epoch i)
  accounted : ∀ (n : Nat) s, L.sent[n]? = some s → L.Accounted n s ∨ ∃ h, L.InHand p n s h

/-! ## Every step keeps the ledger sound -/

namespace Mail.Serves

variable {p p' : Mail} (hserves : p.Serves p') {h : Fin maxHarts} {i : Fin maxAgents}
include hserves

theorem before (hi : p'.server h = some i) : p.server h = some i := by
  rcases hserves h with heq | ⟨hnone, -⟩
  · rw [← heq, hi]
  · cases hnone.symm.trans hi

theorem after {msg : AgentMsg} (hheld : p'.holding h = some msg) : p'.server h = p.server h := by
  rcases hserves h with heq | ⟨-, hnone⟩
  · exact heq
  · cases hnone.symm.trans hheld

end Mail.Serves

namespace Ledger

variable {L L' : Ledger} {p p' : Mail} {n : Nat} {s : Sent} {i : Fin maxAgents}

/-- Nothing that was entered is lost; what was in a mailbox has to be looked at. -/
theorem Accounted.grow (hs : L.Accounted n s) (hreceived : L.received ⊆ L'.received)
    (hfolded : L.folded ⊆ L'.folded) (hended : L.ended ⊆ L'.ended)
    (hqueued : L.epoch s.target = s.epoch → (L.labels s.target).Mem n → L'.Accounted n s) :
    L'.Accounted n s := by
  rcases hs with ⟨hepoch, hmem⟩ | hmem | hmem | ⟨count, hmem, hlt⟩
  · exact hqueued hepoch hmem
  · exact .received (hreceived hmem)
  · exact .folded (hfolded hmem)
  · exact .ended ⟨count, hended hmem, hlt⟩

theorem Stands.mono {t : Option Nat} {msg : AgentMsg} (ht : L.Stands i t msg)
    (hsent : ∀ (n : Nat) s, L.sent[n]? = some s → L'.sent[n]? = some s) (hepoch : L'.epoch i = L.epoch i) :
    L'.Stands i t msg := by
  intro n hn
  rw [hepoch]
  exact hsent n _ (ht n hn)

/-- A message in hand stays there. -/
theorem InHand.keep {h : Fin maxHarts} (hs : L.InHand p n s h) (hserves : p.Serves p')
    (hheld : L'.held h = L.held h) (hholding : p'.holding h = p.holding h) : L'.InHand p' n s h := by
  have hmsg : p'.holding h = some s.msg := hholding.trans hs.holding
  exact ⟨hheld.trans hs.held, hmsg, (hserves.after hmsg).trans hs.server⟩

/-- A message keeps its number. -/
theorem sent_concat (L : Ledger) (x : Sent) (hs : L.sent[n]? = some s) :
    (L.sent ++ [x])[n]? = some s := by
  rw [List.getElem?_append_left (List.getElem?_eq_some_iff.mp hs).1]
  exact hs

/-- The messages after one more. -/
theorem of_sent_concat {x : Sent} (hs : (L.sent ++ [x])[n]? = some s) :
    L.sent[n]? = some s ∨ n = L.sent.length ∧ s = x := by
  rw [List.getElem?_append] at hs
  split_ifs at hs with hlt
  · exact .inl hs
  · obtain ⟨hlt', hx⟩ := List.getElem?_eq_some_iff.mp hs
    have hn : n = L.sent.length := by
      rw [List.length_singleton] at hlt'
      omega
    subst hn
    simp only [Nat.sub_self, List.getElem_cons_zero] at hx
    exact .inr ⟨rfl, hx.symm⟩

end Ledger

section Steps

/-- One mailbox and its labels change. -/
theorem labelled_update {R : Fin maxAgents → Option Nat → AgentMsg → Prop}
    {inbox : Fin maxAgents → Msgbox} {labels : Fin maxAgents → Labels} {i : Fin maxAgents}
    {box : Msgbox} {l : Labels} (hi : Labelled (R i) box l)
    (hne : ∀ j, Labelled (R j) (inbox j) (labels j)) (j : Fin maxAgents) :
    Labelled (R j) (update inbox i box j) (update labels i l j) := by
  by_cases hj : j = i
  · subst hj
    rw [update_self, update_self]
    exact hi
  · rw [update_of_ne hj, update_of_ne hj]
    exact hne j

variable {L : Ledger} {p p' : Mail} {h : Fin maxHarts} {i : Fin maxAgents} {msg : AgentMsg}

/-- A step that changes no mailbox. -/
theorem Sound.quiet (hL : Sound p L) (hcalm : p.Calm p') (hinbox : p'.inbox = p.inbox)
    (hholding : p'.holding = p.holding) : Sound p' L where
  labelled i := by
    rw [hinbox]
    exact hL.labelled i
  running h i hi := hL.running h i (hcalm.serves.before hi)
  held h msg hmsg := by
    rw [hcalm.serves.after hmsg]
    exact hL.held h msg (hholding ▸ hmsg)
  past := hL.past
  closed i hi := hL.closed i (hcalm.free i hi)
  accounted n s hs := by
    rcases hL.accounted n s hs with hacc | ⟨h, hhand⟩
    · exact .inl hacc
    · exact .inr ⟨h, hhand.keep hcalm.serves rfl (by rw [hholding])⟩

/-- A new agent in a slot: what was sent to the old one has been accounted for. -/
theorem Sound.recreated (hL : Sound p L) (hfree : p.free i = true)
    (hapart : ∀ h, p.server h ≠ some i) (hcalm : p.Calm p')
    (hinbox : p'.inbox = update p.inbox i (msgboxInit (p.inbox i)))
    (hholding : p'.holding = p.holding) : Sound p' (L.apply h (.recreated i)) where
  labelled j := by
    rw [hinbox]
    unfold Ledger.apply
    by_cases hj : j = i
    · subst hj
      rw [update_self]
      simp only [update_self]
      exact labelled_init _ _
    · rw [update_of_ne hj]
      simp only [update_of_ne hj]
      refine (hL.labelled j).mono fun t msg ht => ht.mono (fun _ _ hs => hs) ?_
      exact update_of_ne hj _ _
  running h' j hj := by
    have hserver := hcalm.serves.before hj
    have hne : j ≠ i := by
      rintro rfl
      exact hapart h' hserver
    refine (hL.running h' j hserver).trans ?_
    exact (update_of_ne hne _ _).symm
  held h' msg hmsg := by
    obtain ⟨j, hserver, hstands⟩ := hL.held h' msg (hholding ▸ hmsg)
    have hne : j ≠ i := by
      rintro rfl
      exact hapart h' hserver
    refine ⟨j, (hcalm.serves.after hmsg).trans hserver, hstands.mono (fun _ _ hs => hs) ?_⟩
    exact update_of_ne hne _ _
  past n s hs := by
    refine (hL.past n s hs).trans ?_
    dsimp only [Ledger.apply]
    rw [update_apply]
    split_ifs with htarget
    · rw [htarget]
      exact Nat.le_succ _
    · exact le_rfl
  closed j hj n msg hs := by
    dsimp only [Ledger.apply] at hs ⊢
    by_cases hne : j = i
    · -- the new incarnation has not been sent anything
      subst hne
      have hpast := hL.past n _ hs
      simp only [update_self] at hpast
      omega
    · rw [update_of_ne hne] at hs ⊢
      exact hL.closed j (hcalm.free j hj) n msg hs
  accounted n s hs := by
    rcases hL.accounted n s hs with hacc | ⟨h', hhand⟩
    · refine .inl (hacc.grow (fun _ hx => hx) (fun _ hx => hx) (fun _ hx => hx) fun hepoch hmem => ?_)
      by_cases htarget : s.target = i
      · refine .ended ?_
        have hclosed := hL.closed i hfree n s.msg
        rw [← htarget, hepoch] at hclosed
        exact hclosed hs
      · refine .queued ?_ ?_
        · exact (update_of_ne htarget _ _).trans hepoch
        · dsimp only [Ledger.apply]
          rw [update_of_ne htarget]
          exact hmem
    · exact .inr ⟨h', hhand.keep hcalm.serves rfl (by rw [hholding])⟩

/-- The end of an agent. -/
theorem Sound.ended (hL : Sound p L) (hfree : ∀ j, j ≠ i → p'.free j = true → p.free j = true)
    (hserves : p.Serves p') (hinbox : p'.inbox = p.inbox) (hholding : p'.holding = p.holding) :
    Sound p' (L.apply h (.ended i)) where
  labelled j := by
    rw [hinbox]
    exact hL.labelled j
  running h j hj := hL.running h j (hserves.before hj)
  held h msg hmsg := by
    rw [hserves.after hmsg]
    exact hL.held h msg (hholding ▸ hmsg)
  past := hL.past
  closed j hj n msg hs := by
    by_cases hne : j = i
    · subst hne
      exact ⟨_, List.mem_cons_self, (List.getElem?_eq_some_iff.mp hs).1⟩
    · obtain ⟨count, hmem, hlt⟩ := hL.closed j (hfree j hne hj) n msg hs
      exact ⟨count, List.mem_cons_of_mem _ hmem, hlt⟩
  accounted n s hs := by
    rcases hL.accounted n s hs with hacc | ⟨h', hhand⟩
    · exact .inl (hacc.grow (fun _ hx => hx) (fun _ hx => hx)
        (fun _ hx => List.mem_cons_of_mem _ hx) fun hepoch hmem => .queued hepoch hmem)
    · exact .inr ⟨h', hhand.keep hserves rfl (by rw [hholding])⟩

/-- A message that was accepted. -/
theorem Sound.accepted {box : Msgbox} (hL : Sound p L) (hfree : p.free i = false)
    (hpush : msgboxPush (p.inbox i) msg = (0, box)) (hcalm : p.Calm p')
    (hinbox : p'.inbox = update p.inbox i box) (hholding : p'.holding = p.holding) :
    Sound p' (L.apply h (.accepted i msg)) := by
  have hsent (n : Nat) (s : Sent) (hs : L.sent[n]? = some s) :
      (L.apply h (.accepted i msg)).sent[n]? = some s := L.sent_concat _ hs
  have hnew : (L.apply h (.accepted i msg)).Stands i (some L.sent.length) msg := by
    intro n hn
    rw [← Option.some.inj hn]
    exact List.getElem?_concat_length
  have hbox (j : Fin maxAgents) :
      Labelled ((L.apply h (.accepted i msg)).Stands j) (p.inbox j) (L.labels j) :=
    (hL.labelled j).mono fun t msg ht => ht.mono hsent rfl
  have hmem {n : Nat} {j : Fin maxAgents} (hmem : (L.labels j).Mem n) :
      ((L.apply h (.accepted i msg)).labels j).Mem n := by
    by_cases hj : j = i
    · subst hj
      dsimp only [Ledger.apply]
      rw [update_self]
      exact Labels.mem_push.mpr (.inl hmem)
    · dsimp only [Ledger.apply]
      rw [update_of_ne hj]
      exact hmem
  constructor
  case labelled =>
    rw [hinbox]
    exact labelled_update ((hbox i).push hpush hnew) hbox
  case running =>
    intro h j hj
    exact hL.running h j (hcalm.serves.before hj)
  case held =>
    intro h msg' hmsg
    obtain ⟨j, hserver, hstands⟩ := hL.held h msg' (hholding ▸ hmsg)
    exact ⟨j, (hcalm.serves.after hmsg).trans hserver, hstands.mono hsent rfl⟩
  case past =>
    intro n s hs
    rcases Ledger.of_sent_concat hs with hs | ⟨-, rfl⟩
    · exact hL.past n s hs
    · exact le_rfl
  case closed =>
    intro j hj n msg' hs
    rcases Ledger.of_sent_concat hs with hs | ⟨-, heq⟩
    · exact hL.closed j (hcalm.free j hj) n msg' hs
    · -- the message was accepted by a slot that is not free
      have hji : j = i := congrArg Sent.target heq
      cases (hji ▸ hfree).symm.trans (hcalm.free j hj)
  case accounted =>
    intro n s hs
    rcases Ledger.of_sent_concat hs with hs | ⟨rfl, rfl⟩
    · rcases hL.accounted n s hs with hacc | ⟨h', hhand⟩
      · exact .inl (hacc.grow (fun _ hx => hx) (fun _ hx => hx) (fun _ hx => hx)
          fun hepoch hold => .queued hepoch (hmem hold))
      · exact .inr ⟨h', hhand.keep hcalm.serves rfl (by rw [hholding])⟩
    · refine .inl (.queued rfl ?_)
      dsimp only [Ledger.apply]
      rw [update_self]
      exact Labels.mem_push.mpr (.inr rfl)

/-- A message that was taken out of the inbox by the incarnation that owns it. -/
theorem Sound.popped {box : Msgbox} {fault : Bool} (hL : Sound p L) (hserver : p.server h = some i)
    (hserver' : p'.server h = some i) (hpop : msgboxPop (p.inbox i) = (.ok msg, box))
    (hheld : p.holding h = none) (hcalm : p.Calm p')
    (hinbox : p'.inbox = update p.inbox i box)
    (hholding : p'.holding = update p.holding h (if fault then some msg else none)) :
    Sound p' (L.apply h (.popped i msg fault)) := by
  obtain ⟨hstands, hbox⟩ := (hL.labelled i).pop hpop
  have hrunning := hL.running h i hserver
  -- other harts hold what they held
  have hother {h' : Fin maxHarts} (hne : h' ≠ h) :
      p'.holding h' = p.holding h' ∧ (L.apply h (.popped i msg fault)).held h' = L.held h' := by
    refine ⟨by rw [hholding, update_of_ne hne], ?_⟩
    dsimp only [Ledger.apply]
    split_ifs
    · exact update_of_ne hne _ _
    · rfl
  constructor
  case labelled =>
    rw [hinbox]
    exact labelled_update hbox hL.labelled
  case running =>
    intro h j hj
    exact hL.running h j (hcalm.serves.before hj)
  case held =>
    intro h' msg' hmsg
    by_cases hne : h' = h
    · subst hne
      rw [hholding, update_self] at hmsg
      split_ifs at hmsg with hfault
      obtain rfl := Option.some.inj hmsg
      refine ⟨i, hserver', ?_⟩
      dsimp only [Ledger.apply]
      rw [if_pos hfault, update_self]
      exact hstands
    · obtain ⟨heq, hlabel⟩ := hother hne
      obtain ⟨j, hj, hold⟩ := hL.held h' msg' (heq ▸ hmsg)
      rw [hlabel]
      exact ⟨j, (hcalm.serves.after hmsg).trans hj, hold⟩
  case past => exact hL.past
  case closed =>
    intro j hj
    exact hL.closed j (hcalm.free j hj)
  case accounted =>
    intro n s hs
    rcases hL.accounted n s hs with hacc | ⟨h', hhand⟩
    · -- only the message that was popped left its mailbox
      by_cases hthis : s.target = i ∧ L.epoch s.target = s.epoch ∧ (L.labels i).pop.1 = some n
      · obtain ⟨rfl, hepoch, hlabel⟩ := hthis
        have hmsg : s = ⟨s.target, L.epoch s.target, msg⟩ :=
          Option.some.inj (hs.symm.trans (hstands n hlabel))
        cases fault with
        | true =>
          refine .inr ⟨h, ?_, ?_, hserver'⟩
          · dsimp only [Ledger.apply]
            rw [if_pos rfl, update_self]
            exact hlabel
          · rw [hholding, update_self, hmsg]
            rfl
        | false =>
          refine .inl (.received ?_)
          dsimp only [Ledger.apply]
          rw [hlabel, hrunning, ← hmsg]
          exact List.mem_cons_self
      · refine .inl (hacc.grow ?_ (fun _ hx => hx) (fun _ hx => hx) fun hepoch hmem => ?_)
        · dsimp only [Ledger.apply]
          split_ifs
          · exact fun _ hx => hx
          · exact fun _ hx => List.mem_cons_of_mem _ hx
        · refine .queued hepoch ?_
          dsimp only [Ledger.apply]
          rw [update_apply]
          split_ifs with htarget
          · rw [htarget] at hmem
            rcases Labels.mem_pop.mp hmem with hlabel | hrest
            · exact absurd ⟨htarget, hepoch, hlabel⟩ hthis
            · exact hrest
          · exact hmem
    · have hne : h' ≠ h := by
        rintro rfl
        cases hheld.symm.trans hhand.holding
      obtain ⟨heq, hlabel⟩ := hother hne
      exact .inr ⟨h', hhand.keep hcalm.serves hlabel heq⟩

/-- A message that was pushed back. -/
theorem Sound.givenBack {box : Msgbox} (hL : Sound p L) (hserver : p.server h = some i)
    (hheld : p.holding h = some msg) (hpush : msgboxPush (p.inbox i) msg = (0, box))
    (hcalm : p.Calm p') (hinbox : p'.inbox = update p.inbox i box)
    (hholding : p'.holding = update p.holding h none) :
    Sound p' (L.apply h (.givenBack i msg)) := by
  obtain ⟨j, hj, hstands⟩ := hL.held h msg hheld
  obtain rfl : i = j := Option.some.inj (hserver.symm.trans hj)
  have hother {h' : Fin maxHarts} (hne : h' ≠ h) :
      p'.holding h' = p.holding h' ∧ (L.apply h (.givenBack i msg)).held h' = L.held h' :=
    ⟨by rw [hholding, update_of_ne hne], update_of_ne hne _ _⟩
  constructor
  case labelled =>
    rw [hinbox]
    exact labelled_update ((hL.labelled i).push hpush hstands) hL.labelled
  case running =>
    intro h j hj
    exact hL.running h j (hcalm.serves.before hj)
  case held =>
    intro h' msg' hmsg
    have hne : h' ≠ h := by
      rintro rfl
      rw [hholding, update_self] at hmsg
      cases hmsg
    obtain ⟨heq, hlabel⟩ := hother hne
    obtain ⟨j, hj, hold⟩ := hL.held h' msg' (heq ▸ hmsg)
    rw [hlabel]
    exact ⟨j, (hcalm.serves.after hmsg).trans hj, hold⟩
  case past => exact hL.past
  case closed =>
    intro j hj
    exact hL.closed j (hcalm.free j hj)
  case accounted =>
    intro n s hs
    rcases hL.accounted n s hs with hacc | ⟨h', hhand⟩
    · refine .inl (hacc.grow (fun _ hx => hx) (fun _ hx => hx) (fun _ hx => hx) fun hepoch hmem => ?_)
      refine .queued hepoch ?_
      dsimp only [Ledger.apply]
      rw [update_apply]
      split_ifs with htarget
      · rw [htarget] at hmem
        exact Labels.mem_push.mpr (.inl hmem)
      · exact hmem
    · by_cases hne : h' = h
      · -- this is the message; it was sent to the present incarnation
        subst hne
        obtain rfl : i = s.target := Option.some.inj (hserver.symm.trans hhand.server)
        have hepoch : L.epoch s.target = s.epoch :=
          congrArg Sent.epoch (Option.some.inj ((hstands n hhand.held).symm.trans hs))
        refine .inl (.queued hepoch ?_)
        dsimp only [Ledger.apply]
        rw [update_self]
        exact Labels.mem_push.mpr (.inr hhand.held)
      · obtain ⟨heq, hlabel⟩ := hother hne
        exact .inr ⟨h', hhand.keep hcalm.serves hlabel heq⟩

/-- Compaction by the incarnation that owns the inbox. -/
theorem Sound.compacted {keep : Int} (hL : Sound p L) (hserver : p.server h = some i)
    (hcalm : p.Calm p')
    (hinbox : p'.inbox = update p.inbox i (msgboxCompact (p.inbox i) keep).2)
    (hholding : p'.holding = p.holding) : Sound p' (L.apply h (.compacted i keep)) := by
  have hrunning := hL.running h i hserver
  constructor
  case labelled =>
    rw [hinbox]
    exact labelled_update ((hL.labelled i).compact (fun _ => nofun) keep) hL.labelled
  case running =>
    intro h j hj
    exact hL.running h j (hcalm.serves.before hj)
  case held =>
    intro h' msg hmsg
    rw [hcalm.serves.after hmsg]
    exact hL.held h' msg (hholding ▸ hmsg)
  case past => exact hL.past
  case closed =>
    intro j hj
    exact hL.closed j (hcalm.free j hj)
  case accounted =>
    intro n s hs
    rcases hL.accounted n s hs with hacc | ⟨h', hhand⟩
    · refine .inl (hacc.grow (fun _ hx => hx) ?_ (fun _ hx => hx) fun hepoch hmem => ?_)
      · exact fun _ hx => List.mem_append_right _ hx
      · by_cases htarget : s.target = i
        · subst htarget
          rcases Labels.mem_compact.mp hmem with hfold | hrest
          · refine .folded (List.mem_append_left _ (List.mem_map.mpr ⟨some n, hfold, ?_⟩))
            rw [hrunning, hepoch]
          · refine .queued hepoch ?_
            dsimp only [Ledger.apply]
            rw [update_self]
            exact hrest
        · refine .queued hepoch ?_
          dsimp only [Ledger.apply]
          rw [update_of_ne htarget]
          exact hmem
    · exact .inr ⟨h', hhand.keep hcalm.serves rfl (by rw [hholding])⟩

/-- A hart that dispatches a slot runs the incarnation that is there. -/
theorem Sound.dispatched (hL : Sound p L) (hheld : p.holding h = none)
    (hfree : ∀ j, p'.free j = true → p.free j = true)
    (hserver : p'.server = update p.server h (some i)) (hinbox : p'.inbox = p.inbox)
    (hholding : p'.holding = p.holding) : Sound p' (L.apply h (.dispatched i)) := by
  -- the harts that hold a message serve the same slot as before
  have hsame {h' : Fin maxHarts} {msg : AgentMsg} (hmsg : p.holding h' = some msg) :
      p'.server h' = p.server h' := by
    have hne : h' ≠ h := by
      rintro rfl
      cases hheld.symm.trans hmsg
    rw [hserver, update_of_ne hne]
  constructor
  case labelled =>
    intro j
    rw [hinbox]
    exact hL.labelled j
  case running =>
    intro h' j hj
    dsimp only [Ledger.apply]
    by_cases hne : h' = h
    · subst hne
      rw [hserver, update_self] at hj
      rw [update_self, Option.some.inj hj]
    · rw [hserver, update_of_ne hne] at hj
      rw [update_of_ne hne]
      exact hL.running h' j hj
  case held =>
    intro h' msg hmsg
    rw [hholding] at hmsg
    obtain ⟨j, hj, hstands⟩ := hL.held h' msg hmsg
    exact ⟨j, (hsame hmsg).trans hj, hstands⟩
  case past => exact hL.past
  case closed =>
    intro j hj
    exact hL.closed j (hfree j hj)
  case accounted =>
    intro n s hs
    rcases hL.accounted n s hs with hacc | ⟨h', hhand⟩
    · exact .inl (hacc.grow (fun _ hx => hx) (fun _ hx => hx) (fun _ hx => hx)
        fun hepoch hmem => .queued hepoch hmem)
    · refine .inr ⟨h', hhand.held, by rw [hholding, hhand.holding], ?_⟩
      exact (hsame hhand.holding).trans hhand.server

/-- **Every step** that loses no message keeps the ledger sound. -/
theorem MailStep.sound {note : Note} (hstep : MailStep p h note p') (hL : Sound p L) :
    Sound p' (L.apply h note) := by
  cases hstep with
  | quiet hcalm hinbox hholding => exact hL.quiet hcalm hinbox hholding
  | recreated i hfree hapart hcalm hinbox hholding =>
    exact hL.recreated hfree hapart hcalm hinbox hholding
  | ended i hfree hserves hinbox hholding => exact hL.ended hfree hserves hinbox hholding
  | accepted i msg hfree hpush hcalm hinbox hholding =>
    exact hL.accepted hfree hpush hcalm hinbox hholding
  | popped i msg fault hserver hserver' hpop hheld hcalm hinbox hholding =>
    exact hL.popped hserver hserver' hpop hheld hcalm hinbox hholding
  | givenBack i msg hserver hheld hpush hcalm hinbox hholding =>
    exact hL.givenBack hserver hheld hpush hcalm hinbox hholding
  | compacted i keep hserver hcalm hinbox hholding =>
    exact hL.compacted hserver hcalm hinbox hholding
  | dispatched i hheld hfree hserver hinbox hholding =>
    exact hL.dispatched hheld hfree hserver hinbox hholding

end Steps

end OpenAgentOS
