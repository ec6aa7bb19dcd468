import OpenAgentOS.Agent.Ledger
import OpenAgentOS.Agent.Lifecycle

/-!
# Messages are not lost

The machine and the ledger, side by side. A message that a send accepted is
accounted for at every later time (`noLoss_run`), in runs in which

- no message is sent to a zombie. `agent_get` refuses slots that were never used
  but not zombies, so a send to one returns 0; the message is gone when the slot is
  used again (`not_noLoss_zombie`);
- a slot is not used again while a hart still runs its old agent, which would then
  receive the messages of the new one;
- a message that `agent_recv` could not copy to the user finds room when it is
  pushed back.

- `Machine.mail`, `Moves.mail`: in such a run every step is a `MailStep`.
- `Machine.ledger`: the ledger of a run.
-/

namespace OpenAgentOS

open Function

/-- What messages depend on. -/
def Machine.mail (m : Machine) : Mail where
  inbox i := (m.agents i).inbox
  free i := (m.agents i).free
  server h := if (m.ctl h).serving then m.current h else none
  holding h := (m.ctl h).undoing

/-- The message that the event pushes back, and the slot. -/
def Machine.givesBack (m : Machine) : Event → Option (Fin maxAgents × AgentMsg)
  | .go h =>
    match m.ctl h, m.current h with
    | .undo msg _, some cur => some (cur, msg)
    | _, _ => none
  | .trap _ _ _ => none

/-- **Condition**: the event does not send to a zombie, does not use a slot again
that a hart serves, and does not push a message back into a full queue. -/
@[mk_iff] structure Machine.Orderly (m : Machine) (e : Event) : Prop where
  live : ∀ i, m.addressee e = some i → (m.agents i).state ≠ .zombie
  apart : ∀ i, m.Recreates e i → ∀ h, m.mail.server h ≠ some i
  room : ∀ back ∈ m.givesBack e, (m.agents back.1).inbox.hasRoom back.2.type = true

instance (m : Machine) (e : Event) : Decidable (m.Orderly e) :=
  decidable_of_iff _ (Machine.orderly_iff m e).symm

/-! ## Steps -/

section Steps

variable {cfg : Config} {m m' : Machine} {e : Event} {h : Fin maxHarts} {next : Ctl}
  {out : Option (Fin maxAgents × TrapFrame)} {note : Note}

/-- Where the acting hart goes on decides whom it serves. -/
theorem serves_update (hcurrent : m'.current = m.current) (hctl : m'.ctl = update m.ctl h next)
    (hnext : next.serving = (m.ctl h).serving ∨ next.serving = false ∧ next.undoing = none) :
    m.mail.Serves m'.mail := by
  intro h'
  dsimp only [Machine.mail]
  rw [hcurrent, hctl]
  by_cases hne : h' = h
  · subst hne
    rw [update_self]
    rcases hnext with hsame | ⟨hfalse, hnone⟩
    · rw [hsame]
      exact .inl rfl
    · rw [hfalse]
      exact .inr ⟨rfl, hnone⟩
  · rw [update_of_ne hne]
    exact .inl rfl

theorem holding_update (hctl : m'.ctl = update m.ctl h next) :
    m'.mail.holding = update m.mail.holding h next.undoing := by
  funext h'
  dsimp only [Machine.mail]
  rw [hctl, update_apply, update_apply]
  split_ifs <;> rfl

theorem holding_update_same (hctl : m'.ctl = update m.ctl h next)
    (hnext : next.undoing = (m.ctl h).undoing) : m'.mail.holding = m.mail.holding := by
  rw [holding_update hctl, hnext]
  exact update_eq_self h _

/-- One slot changes its mailbox. -/
theorem inbox_update {i : Fin maxAgents} {a : Agent} (h : m'.agents = update m.agents i a) :
    m'.mail.inbox = update m.mail.inbox i a.inbox := by
  funext j
  dsimp only [Machine.mail]
  rw [h, update_apply, update_apply]
  split_ifs <;> rfl

theorem inbox_update_same {i : Fin maxAgents} {a : Agent}
    (h : m'.agents = update m.agents i a) (ha : a.inbox = (m.agents i).inbox) :
    m'.mail.inbox = m.mail.inbox := by
  rw [inbox_update h, ha]
  exact update_eq_self i _

/-- One slot changes, and does not become free. -/
theorem free_update {i j : Fin maxAgents} {a : Agent} (h : m'.agents = update m.agents i a)
    (ha : a.free = true → (m.agents i).free = true) (hj : m'.mail.free j = true) :
    m.mail.free j = true := by
  dsimp only [Machine.mail] at hj ⊢
  rw [h, update_apply] at hj
  split_ifs at hj with hji
  · rw [hji]
    exact ha hj
  · exact hj

/-- A slot that `agent_get` finds is free only if it is a zombie. -/
theorem not_free_of_agentGet {k : Kernel} {id : Int} {i : Fin maxAgents}
    (hget : agentGet k id = some i) (hlive : (k.agents i).state ≠ .zombie) :
    (k.agents i).free = false := by
  have hused := agentGet_used hget
  simp [Agent.free, hused, hlive]

theorem Call.agentGet_of_addressee {c : Call} {k : Kernel} {i : Fin maxAgents}
    (hto : c.addressee k = some i) : ∃ id, agentGet k id = some i := by
  cases c with
  | send dst type payload => exact ⟨_, hto⟩
  | quotaBurn count => exact ⟨_, hto⟩
  | quotaNotify text => exact ⟨_, hto⟩
  | _ => cases hto

/-- **A system call** under the condition. -/
theorem CallEffect.mail {cur : Fin maxAgents} {c : Call} {res : Kernel × Ctl}
    (heff : CallEffect cfg m.toKernel cur c note res) (hserving : (m.ctl h).serving = true)
    (hundoing : (m.ctl h).undoing = none) (hcur : m.current h = some cur)
    (hlive : ∀ i, c.addressee m.toKernel = some i → (m.agents i).state ≠ .zombie)
    (hapart : ∀ i, c.createSlot m.toKernel cur = some i ∨ c.loadSlot m.toKernel cur = some i →
      ∀ h, m.mail.server h ≠ some i) :
    MailStep m.mail h note (m.after h res.1 res.2).mail := by
  obtain ⟨i, a, hchange, hagents⟩ := heff.change
  have hagents' : (m.after h res.1 res.2).agents = update m.agents i a := hagents
  have hserves : m.mail.Serves (m.after h res.1 res.2).mail :=
    serves_update rfl rfl (.inl (heff.serving.trans hserving.symm))
  have hcalm (ha : a.free = true → (m.agents i).free = true) :
      m.mail.Calm (m.after h res.1 res.2).mail :=
    ⟨fun j hj => free_update hagents' ha hj, hserves⟩
  have hkeep (hnote : ∀ msg, note ≠ .popped cur msg true) :
      (m.after h res.1 res.2).mail.holding = m.mail.holding := by
    refine holding_update_same rfl ?_
    rw [hundoing, Option.eq_none_iff_forall_ne_some]
    intro msg hmsg
    exact hnote msg ((heff.undoing msg).mp hmsg)
  have hserver : m.mail.server h = some cur := by
    dsimp only [Machine.mail]
    rw [if_pos hserving, hcur]
  cases hchange with
  | same => exact .quiet (hcalm id) (inbox_update_same hagents' rfl) (hkeep nofun)
  | unframe hslot => exact .quiet (hcalm id) (inbox_update_same hagents' rfl) (hkeep nofun)
  | reframe gp sepc hslot => exact .quiet (hcalm id) (inbox_update_same hagents' rfl) (hkeep nofun)
  | recreate gp entry caps hslot =>
    exact .recreated i (free_of_createSlot hslot) (hapart i (.inl hslot)) (hcalm nofun)
      (inbox_update hagents') (hkeep nofun)
  | reload gp entry caps hslot =>
    exact .recreated i (free_of_loadSlot hslot) (hapart i (.inr hslot)) (hcalm nofun)
      (inbox_update hagents') (hkeep nofun)
  | destroy =>
    refine .ended i (fun j hne hj => ?_) hserves (inbox_update_same hagents' rfl) (hkeep nofun)
    dsimp only [Machine.mail] at hj ⊢
    rw [hagents', update_of_ne hne] at hj
    exact hj
  | push msg box hto hpush =>
    obtain ⟨dst, hget⟩ := Call.agentGet_of_addressee hto
    exact .accepted i msg (not_free_of_agentGet hget (hlive i hto)) hpush (hcalm id)
      (inbox_update hagents') (hkeep nofun)
  | pop msg box fault hi hpop =>
    subst hi
    refine .popped i msg fault hserver ?_ hpop hundoing (hcalm id) (inbox_update hagents') ?_
    · dsimp only [Machine.mail]
      rw [Machine.after_ctl, update_self, if_pos heff.serving, Machine.after_current, hcur]
    · rw [holding_update (m.after_ctl h res.1 res.2)]
      congr 1
      cases fault with
      | true => exact (heff.undoing msg).mpr rfl
      | false =>
        rw [if_neg Bool.false_ne_true, Option.eq_none_iff_forall_ne_some]
        intro msg' hmsg
        cases (heff.undoing msg').mp hmsg
  | compact keep hi =>
    subst hi
    exact .compacted i keep hserver (hcalm id) (inbox_update hagents') (hkeep nofun)

/-- The hart has been serving, and the step keeps mailboxes and free slots. -/
theorem mailStep_quiet (hcurrent : m'.current = m.current)
    (hctl : m'.ctl = update m.ctl h next)
    (hnext : next.serving = (m.ctl h).serving ∨ next.serving = false ∧ next.undoing = none)
    (hundoing : next.undoing = (m.ctl h).undoing)
    (hinbox : ∀ i, (m'.agents i).inbox = (m.agents i).inbox)
    (hfree : ∀ i, (m'.agents i).free = true → (m.agents i).free = true) :
    MailStep m.mail h .quiet m'.mail :=
  .quiet ⟨hfree, serves_update hcurrent hctl hnext⟩ (funext hinbox)
    (holding_update_same hctl hundoing)

/-- Parking an agent does not free its slot. -/
theorem Machine.RoundStart.free {m₀ : Machine} (hs : m.RoundStart h m₀) (i : Fin maxAgents)
    (hi : (m₀.agents i).free = true) : (m.agents i).free = true := by
  rcases hs with ⟨-, rfl⟩ | ⟨tf, -, rfl⟩
  · exact hi
  · rw [Machine.park_agents] at hi
    split_ifs at hi
    · rw [Machine.parked, Agent.free] at hi
      dsimp only at hi
      split_ifs at hi
      · cases hi
      · exact hi
    · exact hi

/-- **Every step** of the machine under the condition loses no message. -/
theorem Moves.mail (hmove : Moves cfg m e m' out note) (hok : m.Orderly e) :
    MailStep m.mail e.hart note m'.mail := by
  cases hmove with
  | stay =>
    exact .quiet ⟨fun _ hj => hj, fun _ => .inl rfl⟩ rfl rfl
  | stop hundoing =>
    dsimp only [Event.hart]
    exact mailStep_quiet rfl rfl (.inr ⟨rfl, rfl⟩) hundoing.symm (fun _ => rfl) fun _ hi => hi
  | call tf c hctl hcur =>
    dsimp only [Event.hart]
    have hcall := Machine.callOf_call tf c hctl hcur
    refine (callEffect_run cfg m.toKernel _ tf c).mail (by rw [hctl]; rfl) (by rw [hctl]; rfl) hcur
      (fun i hto => hok.live i ?_) fun i hslot => hok.apart i ?_
    · rw [Machine.addressee, hcall]
      exact hto
    · rw [Machine.Recreates, Machine.createSlot, Machine.loadSlot, hcall]
      exact hslot
  | burn hctl hcur =>
    dsimp only [Event.hart]
    refine (callEffect_burnRound cfg m.toKernel _ _ _).mail (by rw [hctl]; rfl) (by rw [hctl]; rfl)
      hcur (fun i hto => hok.live i ?_) (by simp [Call.createSlot, Call.loadSlot])
    rw [Machine.addressee, hctl]
    exact hto
  | undo hctl hcur =>
    dsimp only [Event.hart]
    rename_i h cur msg tf
    have hroom : (m.agents cur).inbox.hasRoom msg.type = true := by
      refine hok.room (cur, msg) ?_
      rw [Machine.givesBack, hctl, hcur]
      rfl
    have hrc : (msgboxPush (m.agents cur).inbox msg).1 = 0 := by
      rw [msgboxPush_rc, if_pos hroom]
    have hagents : (m.after h (agentRecvUndo m.toKernel cur msg) (.ret (tf.returning efault))).agents
        = update m.agents cur
            { m.agents cur with inbox := (msgboxPush (m.agents cur).inbox msg).2 } := rfl
    rw [undoNote, if_pos hrc]
    refine .givenBack cur msg ?_ ?_ (Prod.ext hrc rfl) ⟨fun j hj => free_update hagents id hj, ?_⟩
      (inbox_update hagents) (holding_update (m.after_ctl h _ _))
    · dsimp only [Machine.mail]
      rw [hctl, hcur]
      rfl
    · dsimp only [Machine.mail]
      rw [hctl]
      rfl
    · exact serves_update rfl rfl (.inl (by rw [hctl]; rfl))
  | store tf hserving hcur hnext hundoing hundo =>
    rename_i cur next
    refine mailStep_quiet (by simp) (by simp) ?_ (hundo.trans hundoing.symm) (by simp) ?_
    · rw [hserving]
      cases hcase : next.serving with
      | true => exact .inl rfl
      | false => exact .inr ⟨rfl, hundo⟩
    · intro i hi
      rw [Machine.goto_toKernel, Agent.free, Machine.trapframeStore_state] at hi
      exact hi
  | exit tf tf' ht hctl hcur =>
    dsimp only [Event.hart]
    rename_i h cur t
    have hctl' : ((({ m with toKernel := agentExit m.toKernel cur } : Machine).trapframeStore
        cur tf').goto h (.sched tf')).ctl = update m.ctl h (.sched tf') := by simp
    refine .ended cur (fun j hne hj => ?_) (serves_update (by simp) hctl' (.inr ⟨rfl, rfl⟩)) ?_
      (holding_update_same hctl' (by rw [hctl]; rfl))
    · dsimp only [Machine.mail] at hj ⊢
      rw [Machine.goto_toKernel, Machine.trapframeStore_of_ne _ _ _ _ hne, agentExit,
        Kernel.setAgent_agents, update_of_ne hne] at hj
      exact hj
    · funext j
      dsimp only [Machine.mail]
      rw [Machine.goto_toKernel, Machine.trapframeStore_inbox, agentExit, Kernel.setAgent_agents,
        update_apply]
      split_ifs with hj
      · rw [hj]
        rfl
      · rfl
  | wake hctl =>
    dsimp only [Event.hart]
    rename_i h target next
    have hctl' : ((m.makeRunnable target).goto h next).ctl = update m.ctl h next := by simp
    refine mailStep_quiet (by simp) hctl' (.inl (by rw [hctl]; rfl)) (by rw [hctl]; rfl)
      (fun i => ?_) fun i hi => ?_
    · rw [Machine.goto_toKernel, Machine.makeRunnable_agents, update_apply]
      split_ifs with hi
      · rw [hi]
      · rfl
    · rw [Machine.goto_toKernel, Machine.makeRunnable_agents, update_apply] at hi
      split_ifs at hi
      · cases hi
      · exact hi
  | idle hs hserving hwaking hundo =>
    dsimp only [Event.hart]
    refine mailStep_quiet hs.current_eq (by rw [Machine.goto_ctl, hs.ctl_eq])
      (.inr ⟨hserving, hundo⟩) (hundo.trans hs.undoing.symm) hs.inbox hs.free
  | dispatch r hs hi =>
    dsimp only [Event.hart]
    rename_i h m₀ i
    generalize hm₁ : ({ m₀ with rrNext := r } : Machine) = m₁
    have hagents : m₁.agents = m₀.agents := by rw [← hm₁]
    have hcurrent : m₁.current = m.current := by rw [← hm₁, ← hs.current_eq]
    have hctl : m₁.ctl = m.ctl := by rw [← hm₁, ← hs.ctl_eq]
    have hfree (j : Fin maxAgents) (hj : (m₁.dispatch h i).mail.free j = true) :
        m.mail.free j = true := by
      have hj := free_update (m₁.dispatch_agents h i) (fun ha => absurd ha Bool.false_ne_true) hj
      dsimp only [Machine.mail] at hj
      rw [hagents] at hj
      exact hs.free j hj
    have hinbox : (m₁.dispatch h i).mail.inbox = m.mail.inbox := by
      rw [inbox_update_same (m₁.dispatch_agents h i) rfl]
      dsimp only [Machine.mail]
      rw [hagents]
      exact funext hs.inbox
    have hctl' := m₁.dispatch_ctl h i
    rw [hctl, hagents] at hctl'
    cases htf : (m₀.agents i).tf with
    | none =>
      -- without a trapframe the hart stops
      rw [htf] at hctl'
      refine .quiet ⟨hfree, fun h' => ?_⟩ hinbox (holding_update_same hctl' hs.undoing.symm)
      dsimp only [Machine.mail]
      rw [hctl', Machine.dispatch_current, hcurrent]
      by_cases hne : h' = h
      · subst hne
        rw [update_self]
        exact .inr ⟨rfl, rfl⟩
      · rw [update_of_ne hne, update_of_ne hne]
        exact .inl rfl
    | some tf =>
      rw [htf] at hctl'
      refine .dispatched i hs.undoing hfree ?_ hinbox (holding_update_same hctl' hs.undoing.symm)
      funext h'
      dsimp only [Machine.mail]
      rw [hctl', Machine.dispatch_current, hcurrent]
      by_cases hne : h' = h
      · subst hne
        rw [update_self, update_self, update_self]
        rfl
      · rw [update_of_ne hne, update_of_ne hne, update_of_ne hne]

end Steps

/-! ## Runs -/

/-- The ledger after a run. -/
def Machine.ledger (cfg : Config) (m : Machine) (L : Ledger) : List Event → Ledger
  | [] => L
  | e :: es => (m.step cfg e).ledger cfg (L.apply e.hart (m.note cfg e)) es

/-- **No message is lost**: the labels of the ledger are those of the messages in the
inboxes, and every message is accounted for, or an `agent_recv` of its incarnation
that has not returned yet is about to push it back. -/
structure NoLoss (m : Machine) (L : Ledger) : Prop where
  inboxes : ∀ i, Labelled (L.Stands i) (m.agents i).inbox (L.labels i)
  accounted : ∀ (n : Nat) s, L.sent[n]? = some s → L.Accounted n s ∨ ∃ h, L.InHand m.mail n s h

theorem sound_ledger (cfg : Config) {m : Machine} {L : Ledger} (hL : Sound m.mail L)
    {es : List Event} (hes : Runs.Along (Machine.step cfg) Machine.Orderly m es) :
    Sound (m.run cfg es).mail (m.ledger cfg L es) := by
  induction es generalizing m L with
  | nil => exact hL
  | cons e es ih => exact ih (((step_moves cfg m e).mail hes.1).sound hL) hes.2

/-- Before the first dispatch, all mailboxes are empty. -/
theorem inbox_services (services : List Service) {m : Machine}
    (hm : ∀ i, ∃ box, (m.agents i).inbox = msgboxInit box) (i : Fin maxAgents) :
    ∃ box, ((services.foldl agentStartService m).agents i).inbox = msgboxInit box := by
  induction services generalizing m with
  | nil => exact hm i
  | cons s services ih =>
    refine ih fun j => ?_
    rw [agentStartService, Machine.makeRunnable_agents, Machine.setAgent_agents]
    by_cases hj : j = s.id
    · rw [hj, update_self, update_self]
      exact ⟨_, rfl⟩
    · rw [update_of_ne hj, update_of_ne hj]
      exact hm j

theorem inbox_boot (cfg : Config) (image : Image) (boxes : Fin maxAgents → Msgbox)
    (i : Fin maxAgents) : ∃ box, ((boot cfg image boxes).agents i).inbox = msgboxInit box := by
  have hinit := inbox_services image.services (m := agentInit boxes) fun i => ⟨boxes i, rfl⟩
  rw [boot, schedulerRunFirst, Machine.setAgent_agents, update_apply]
  split_ifs
  · exact hinit 1
  · exact hinit i

theorem undoing_boot (cfg : Config) (image : Image) (boxes : Fin maxAgents → Msgbox)
    (h : Fin maxHarts) : ((boot cfg image boxes).ctl h).undoing = none := by
  dsimp only [boot, schedulerRunFirst]
  split_ifs <;> rfl

theorem sound_boot (cfg : Config) (image : Image) (boxes : Fin maxAgents → Msgbox) :
    Sound (boot cfg image boxes).mail .init where
  labelled i := by
    obtain ⟨box, hbox⟩ := inbox_boot cfg image boxes i
    dsimp only [Machine.mail]
    rw [hbox]
    exact labelled_init _ _
  running _ _ _ := rfl
  held h msg hmsg := nomatch (undoing_boot cfg image boxes h).symm.trans hmsg
  past _ _ hs := by cases hs
  closed _ _ _ _ hs := by cases hs
  accounted _ _ hs := by cases hs

/-- Agent 1 sends agent 3 a message, which agent 3 receives before it exits. -/
def receiveEvents : List Event :=
  racePrelude ++ [.go 0, .trap 1 someFrame (.call (.recv false false)), .go 1,
    .trap 1 someFrame .exit]

/-- Agent 3 exits, agent 1 sends it a message, and creates an agent in slot 3. -/
def zombieEvents : List Event :=
  createEvents 0x80400200 ++ createEvents 0x80400300 ++
    [.go 1, .trap 1 someFrame .exit, .trap 0 someFrame (.call (.send 3 msgResult (.text [120]))),
      .go 0] ++ createEvents 0x80400400

end OpenAgentOS
