import OpenAgentOS.Agent.Effects

/-!
# Zombies, and the first dispatch of an agent

Two properties of a slot over a whole run.

- An agent that has exited is not dispatched before its slot is used again
  (`zombieTerminal_run`), provided `sched_notify_runnable` never finds a zombie
  once it has the lock. The test it makes before is not enough: the agent can exit
  in between (`not_zombieTerminal_race`).
- A new agent starts from the trapframe built for it (`freshStart_run`), provided
  its slot was not the current one of a hart. Otherwise that hart stores its
  registers over the new trapframe (`not_freshStart_reuse`).
-/

namespace OpenAgentOS

open Function

variable {cfg : Config} {k : Kernel} {m m' : Machine} {e : Event} {h : Fin maxHarts}
  {i : Fin maxAgents} {out : Option (Fin maxAgents × TrapFrame)} {note : Note}

/-! ## Zombies stay zombies -/

/-- A system call ends a zombie only by creating a new agent in its place. -/
theorem CallEffect.zombie {cur : Fin maxAgents} {c : Call} {res : Kernel × Ctl}
    (heff : CallEffect cfg k cur c note res) (hcreate : c.createSlot k cur ≠ some i)
    (hload : c.loadSlot k cur ≠ some i) (hz : (k.agents i).state = .zombie) :
    (res.1.agents i).state = .zombie := by
  obtain ⟨j, a, hchange, hagents⟩ := heff.change
  rw [hagents]
  by_cases hij : i = j
  · subst hij
    rw [update_self]
    cases hchange with
    | same | unframe | reframe | push | pop | compact => exact hz
    | recreate gp entry caps hslot => exact absurd hslot hcreate
    | reload gp entry caps hslot => exact absurd hslot hload
    | destroy => rfl
  · rw [update_of_ne hij]
    exact hz

/-- **One step**: a zombie that is neither woken nor replaced stays one. -/
theorem Moves.zombie (hmove : Moves cfg m e m' out note) (hwake : m.wakes e ≠ some i)
    (hre : ¬ m.Recreates e i) (hz : (m.agents i).state = .zombie) :
    (m'.agents i).state = .zombie := by
  cases hmove with
  | stay => exact hz
  | stop => exact hz
  | call tf c hctl hcur =>
    refine (callEffect_run cfg m.toKernel _ tf c).zombie (fun hslot => hre (.inl ?_))
      (fun hslot => hre (.inr ?_)) hz
    · rw [Machine.createSlot, Machine.callOf_call tf c hctl hcur]
      exact hslot
    · rw [Machine.loadSlot, Machine.callOf_call tf c hctl hcur]
      exact hslot
  | burn hctl hcur =>
    exact (callEffect_burnRound cfg m.toKernel _ _ _).zombie nofun nofun hz
  | undo hctl hcur =>
    rename_i cur msg tf
    rw [Machine.after_toKernel, agentRecvUndo, Kernel.setAgent_agents]
    by_cases hcase : i = cur
    · rw [hcase, update_self, ← hcase]
      exact hz
    · rw [update_of_ne hcase]
      exact hz
  | store tf hserving hcur hnext hundoing hundo =>
    rw [Machine.goto_toKernel, Machine.trapframeStore_state]
    exact hz
  | exit tf tf' ht hctl hcur =>
    rename_i cur t
    rw [Machine.goto_toKernel, Machine.trapframeStore_state, agentExit, Kernel.setAgent_agents]
    by_cases hcase : i = cur
    · rw [hcase, update_self]
      rfl
    · rw [update_of_ne hcase]
      exact hz
  | wake hctl =>
    rename_i target next
    have hne : i ≠ target := by
      rintro rfl
      exact hwake (Machine.wakes_notify hctl)
    rw [Machine.goto_toKernel, Machine.makeRunnable_agents, update_of_ne hne]
    exact hz
  | idle hs hserving hwaking hundo =>
    rw [Machine.goto_toKernel]
    exact (hs.state_eq_zombie i).mpr hz
  | dispatch r hs hi =>
    rename_i m₀ j
    have hz₀ := (hs.state_eq_zombie i).mpr hz
    have hne : i ≠ j := by
      rintro rfl
      have hlive := hi.live
      rw [Machine.agentHasInbox, hz₀] at hlive
      cases hlive
    rw [Machine.dispatch_agents, update_of_ne hne]
    exact hz₀

/-- A zombie is not dispatched. -/
theorem Moves.live_of_dispatched {tf : TrapFrame} (hmove : Moves cfg m e m' (some (i, tf)) note) :
    (m.agents i).state ≠ .zombie := by
  intro hz
  generalize hout : some (i, tf) = out at hmove
  cases hmove with
  | dispatch r hs hi =>
    rename_i m₀ j
    obtain ⟨f, -, hf⟩ := Option.map_eq_some_iff.mp hout.symm
    obtain ⟨rfl, rfl⟩ := Prod.mk.inj hf
    have hlive := hi.live
    rw [Machine.agentHasInbox, (hs.state_eq_zombie _).mpr hz] at hlive
    cases hlive
  | _ => cases hout

/-- `agent_exit` leaves a zombie. -/
theorem Machine.Exits.zombie (hexit : m.Exits e i) :
    ((m.step cfg e).agents i).state = .zombie := by
  obtain ⟨h, tf, t, rfl, ht, hctl, hcur⟩ := hexit
  rcases ht with rfl | rfl <;>
    simp only [Machine.step, hctl, hcur, trapHandler, Machine.goto_toKernel,
      Machine.trapframeStore_state, agentExit, Kernel.setAgent_agents, update_self,
      Agent.exited]

/-- The step does not make a zombie runnable in `sched_notify_runnable`. -/
def Machine.WakesLive (m : Machine) (e : Event) : Prop :=
  ∀ i, m.wakes e = some i → (m.agents i).state ≠ .zombie

instance (m : Machine) (e : Event) : Decidable (m.WakesLive e) :=
  inferInstanceAs (Decidable (∀ i, m.wakes e = some i → _))

/-- In the run `es` from `m`, an agent that executed `agent_exit` is not dispatched
until its slot is used again. -/
def ZombieTerminal (cfg : Config) (m : Machine) (es : List Event) : Prop :=
  ∀ pre e mid e' post, es = pre ++ e :: (mid ++ e' :: post) → ∀ i, (m.run cfg pre).Exits e i →
    Runs.Along (Machine.step cfg) (fun m e => ¬ m.Recreates e i) ((m.run cfg pre).step cfg e) mid →
    ∀ tf, (m.run cfg (pre ++ e :: mid)).dispatched cfg e' ≠ some (i, tf)

/-- **Zombies are terminal** in every run whose steps wake no zombie. -/
theorem zombieTerminal_run (cfg : Config) (image : Image) (boxes : Fin maxAgents → Msgbox)
    (es : List Event)
    (hes : Runs.Along (Machine.step cfg) Machine.WakesLive (boot cfg image boxes) es) :
    ZombieTerminal cfg (boot cfg image boxes) es := by
  rintro pre e mid e' post rfl i hexit hmid tf hdispatch
  obtain ⟨hz, -⟩ := hes.between (P := fun m => (m.agents i).state = .zombie) hmid
    (fun _ => hexit.zombie) fun m e hok hz =>
      (step_moves cfg m e).zombie (fun hwake => hok.1 i hwake hz) hok.2 hz
  have hmove := step_moves cfg ((boot cfg image boxes).run cfg (pre ++ e :: mid)) e'
  rw [hdispatch] at hmove
  exact hmove.live_of_dispatched hz

/-! ### A send and an exit -/

/-- Two harts. -/
def twoHarts : Config where
  online := 2
  quota := false
  online_pos := by decide +kernel
  online_le := by decide

/-- A first agent that may create others and send. -/
def plainImage : Image where
  services := []
  entry := 0x80400000
  gp := 0
  caps := capSpawn ||| capSend ||| capRecv

/-- Mailboxes before `agent_init`. -/
def blankBox : Msgbox :=
  let msg : AgentMsg := ⟨0, 0, Vector.replicate msgPayloadSize 0⟩
  ⟨⟨fun _ => msg, 0, 0, 0⟩, ⟨fun _ => msg, 0, 0, 0⟩⟩

/-- Registers of an agent that traps. -/
def someFrame : TrapFrame := newTrapframe 1 0x80400100 0

/-- The first agent creates an agent on hart 0, and returns. -/
def createEvents (entry : Nat) : List Event :=
  [.trap 0 someFrame (.call (.create 0 (capSend ||| capRecv) (.done entry))), .go 0, .go 0]

/-- Agent 3 runs on hart 1, and agent 1 sends it a message. -/
def racePrelude : List Event :=
  createEvents 0x80400200 ++ createEvents 0x80400300 ++
    [.go 1, .trap 0 someFrame (.call (.send 3 msgResult (.text [120])))]

/-- The send is over before agent 3 exits and hart 1 looks for an agent. -/
def calmEvents : List Event := racePrelude ++ [.go 0, .go 0, .trap 1 someFrame .exit, .go 1, .go 1]

theorem zombieTerminal_run_calm :
    ZombieTerminal twoHarts (boot twoHarts plainImage fun _ => blankBox) calmEvents ∧
      (((boot twoHarts plainImage fun _ => blankBox).run twoHarts calmEvents).agents 3).state
        = .zombie :=
  ⟨zombieTerminal_run _ _ _ _ (by decide +kernel), by decide +kernel⟩

/-- Agent 3 exits, the send goes on, and hart 1 looks for an agent. -/
def raceEvents : List Event :=
  racePrelude ++ .trap 1 someFrame .exit :: ([.go 0] ++ [.go 1])

/-- The test in `sched_notify_runnable` found agent 3 alive, the update makes the
zombie runnable, and hart 1 dispatches it again. -/
theorem not_zombieTerminal_race :
    ¬ ZombieTerminal twoHarts (boot twoHarts plainImage fun _ => blankBox) raceEvents := by
  intro h
  refine h racePrelude _ [.go 0] (.go 1) [] rfl 3 ⟨1, someFrame, .exit, rfl, .inl rfl, ?_, ?_⟩ ?_
    { someFrame with sepc := someFrame.sepc + 4 } ?_
  · decide +kernel
  · decide +kernel
  · decide +kernel
  · decide +kernel

/-! ## The first dispatch -/

/-- A slot is chosen for a new agent only if it is free. -/
theorem free_of_attemptSlot {cur : Fin maxAgents} {c : Call}
    (hslot : c.attemptSlot k cur = some i) : (k.agents i).free = true := by
  have hspawn (outcome : Spawn) (hslot : spawnSlot k cur outcome = some i) :
      (k.agents i).free = true := by
    unfold spawnSlot at hslot
    split_ifs at hslot
    have hfound := List.find?_some hslot
    exact (Bool.and_eq_true _ _ ▸ hfound).2
  cases c with
  | create gp caps outcome => exact hspawn outcome hslot
  | load gp caps outcome => exact hspawn outcome hslot
  | _ => cases hslot

theorem free_of_createSlot {cur : Fin maxAgents} {c : Call} (hslot : c.createSlot k cur = some i) :
    (k.agents i).free = true := by
  refine @free_of_attemptSlot k i cur c ?_
  cases c with
  | create gp caps outcome =>
    rw [Call.createSlot, spawnedSlot] at hslot
    split_ifs at hslot
    exact hslot
  | _ => cases hslot

theorem free_of_loadSlot {cur : Fin maxAgents} {c : Call} (hslot : c.loadSlot k cur = some i) :
    (k.agents i).free = true := by
  refine @free_of_attemptSlot k i cur c ?_
  cases c with
  | load gp caps outcome =>
    rw [Call.loadSlot, spawnedSlot] at hslot
    split_ifs at hslot
    exact hslot
  | _ => cases hslot

/-- Agent `i` is there, but no hart has dispatched it, and `f` is its trapframe. -/
structure Machine.Awaits (m : Machine) (i : Fin maxAgents) (f : TrapFrame) : Prop where
  frame : (m.agents i).tf = some f
  used : (m.agents i).state ≠ .unused
  apart : ∀ h, m.current h ≠ some i

/-- Agent `i` is a zombie, and no hart is about to wake it. -/
structure Machine.Dead (m : Machine) (i : Fin maxAgents) : Prop where
  zombie : (m.agents i).state = .zombie
  asleep : ∀ h, i ∉ (m.ctl h).waking

/-- **Condition**: the slot on which an attempt to create an agent works is not the
current one of a hart, nor one that a hart is about to make runnable. -/
def Machine.SpawnsApart (m : Machine) (e : Event) : Prop :=
  ∀ i, m.attemptSlot e = some i → (∀ h, m.current h ≠ some i) ∧ ∀ h, i ∉ (m.ctl h).waking

instance (m : Machine) (e : Event) : Decidable (m.SpawnsApart e) :=
  inferInstanceAs (Decidable (∀ i, m.attemptSlot e = some i → _ ∧ _))

/-- Where the acting hart goes on decides who is about to be woken. -/
theorem not_mem_waking_update {ctl : Fin maxHarts → Ctl} {next : Ctl}
    (hctl : ∀ h, i ∉ (ctl h).waking) (hnext : i ∉ next.waking) :
    ∀ h', i ∉ (update ctl h next h').waking := by
  intro h'
  by_cases hcase : h' = h
  · rw [hcase, update_self]
    exact hnext
  · rw [update_of_ne hcase]
    exact hctl h'

/-- **One step**: the dead stay dead. -/
theorem Moves.dead (hmove : Moves cfg m e m' out note) (hre : ¬ m.Recreates e i) (hdead : m.Dead i) :
    m'.Dead i := by
  have hwake : m.wakes e ≠ some i := by
    intro hwake
    unfold Machine.wakes at hwake
    split at hwake
    · split at hwake
      · rename_i h _ target next hctl
        have hasleep := hdead.asleep h
        rw [hctl, ← Option.some.inj hwake] at hasleep
        exact hasleep List.mem_cons_self
      · cases hwake
    · cases hwake
  have hz := hmove.zombie hwake hre hdead.zombie
  refine ⟨hz, ?_⟩
  cases hmove with
  | stay => exact hdead.asleep
  | stop => exact not_mem_waking_update hdead.asleep (by simp [Ctl.waking])
  | call tf c hctl hcur =>
    exact not_mem_waking_update hdead.asleep fun hmem =>
      (callEffect_run cfg m.toKernel _ tf c).waking i hmem hz
  | burn hctl hcur =>
    exact not_mem_waking_update hdead.asleep fun hmem =>
      (callEffect_burnRound cfg m.toKernel _ _ _).waking i hmem hz
  | undo hctl hcur => exact not_mem_waking_update hdead.asleep (by simp [Ctl.waking])
  | store tf hserving hcur hnext hundoing hundo =>
    rw [Machine.goto_ctl, Machine.trapframeStore_ctl]
    exact not_mem_waking_update hdead.asleep (by simp [hnext])
  | exit tf tf' ht hctl hcur =>
    rw [Machine.goto_ctl, Machine.trapframeStore_ctl]
    exact not_mem_waking_update hdead.asleep (by simp [Ctl.waking])
  | wake hctl =>
    rename_i h target next
    rw [Machine.goto_ctl, Machine.makeRunnable_ctl]
    refine not_mem_waking_update hdead.asleep fun hmem => hdead.asleep h ?_
    rw [hctl]
    exact List.mem_cons_of_mem _ hmem
  | idle hs hserving hwaking hundo =>
    rw [Machine.goto_ctl, hs.ctl_eq]
    exact not_mem_waking_update hdead.asleep (by simp [hwaking])
  | dispatch r hs hi =>
    rw [Machine.dispatch_ctl, hs.ctl_eq]
    refine not_mem_waking_update hdead.asleep ?_
    split_ifs <;> simp [Ctl.waking]

/-- What is left alone goes on waiting. -/
theorem Machine.Awaits.of_eq {f : TrapFrame} (ha : m.Awaits i f) (hagent : m'.agents i = m.agents i)
    (hcurrent : ∀ h, m'.current h ≠ some i) : m'.Awaits i f :=
  ⟨hagent ▸ ha.frame, hagent ▸ ha.used, hcurrent⟩

/-- A system call and an agent that waits. An attempt to use its slot again means
that it has become a zombie. -/
theorem CallEffect.awaits {cur : Fin maxAgents} {c : Call} {res : Kernel × Ctl} {f : TrapFrame}
    (heff : CallEffect cfg m.toKernel cur c note res)
    (hspawn : c.attemptSlot m.toKernel cur = some i → ∀ h, i ∉ (m.ctl h).waking)
    (hcreate : c.createSlot m.toKernel cur ≠ some i) (hload : c.loadSlot m.toKernel cur ≠ some i)
    (ha : m.Awaits i f) : (m.after h res.1 res.2).Awaits i f ∨ (m.after h res.1 res.2).Dead i := by
  obtain ⟨j, a, hchange, hagents⟩ := heff.change
  by_cases hij : i = j
  · subst hij
    have hnew : (m.after h res.1 res.2).agents i = a := by
      rw [Machine.after_toKernel, hagents, update_self]
    have hdead (hslot : c.attemptSlot m.toKernel cur = some i)
        (hstate : a.state = (m.agents i).state) : (m.after h res.1 res.2).Dead i := by
      have hfree := free_of_attemptSlot hslot
      have hz : a.state = .zombie := by
        rw [Agent.free, Bool.or_eq_true, beq_iff_eq, beq_iff_eq] at hfree
        exact hstate.trans (hfree.resolve_left ha.used)
      refine ⟨by rw [hnew, hz], not_mem_waking_update (hspawn hslot) fun hmem => ?_⟩
      refine heff.waking i hmem ?_
      rw [hagents, update_self, hz]
    cases hchange with
    | same => exact .inl (ha.of_eq hnew ha.apart)
    | unframe hslot => exact .inr (hdead hslot rfl)
    | reframe gp sepc hslot => exact .inr (hdead hslot rfl)
    | recreate gp entry caps hslot => exact absurd hslot hcreate
    | reload gp entry caps hslot => exact absurd hslot hload
    | destroy => exact .inl ⟨hnew ▸ ha.frame, hnew ▸ nofun, ha.apart⟩
    | push | pop | compact => exact .inl ⟨hnew ▸ ha.frame, hnew ▸ ha.used, ha.apart⟩
  · refine .inl (ha.of_eq ?_ ha.apart)
    rw [Machine.after_toKernel, hagents, update_of_ne hij]

/-- **One step**: an agent that waits keeps its trapframe until it is dispatched,
unless it dies first. -/
theorem Moves.awaits {f : TrapFrame} (hmove : Moves cfg m e m' out note) (hspawn : m.SpawnsApart e)
    (hre : ¬ m.Recreates e i) (hout : ∀ tf, out ≠ some (i, tf)) (ha : m.Awaits i f) :
    m'.Awaits i f ∨ m'.Dead i := by
  cases hmove with
  | stay => exact .inl ha
  | stop => exact .inl ⟨ha.frame, ha.used, ha.apart⟩
  | call tf c hctl hcur =>
    have hcall := Machine.callOf_call tf c hctl hcur
    refine (callEffect_run cfg m.toKernel _ tf c).awaits (fun hslot => (hspawn i ?_).2)
      (fun hslot => hre (.inl ?_)) (fun hslot => hre (.inr ?_)) ha
    · rw [Machine.attemptSlot, hcall]
      exact hslot
    · rw [Machine.createSlot, hcall]
      exact hslot
    · rw [Machine.loadSlot, hcall]
      exact hslot
  | burn hctl hcur =>
    exact (callEffect_burnRound cfg m.toKernel _ _ _).awaits nofun nofun nofun ha
  | undo hctl hcur =>
    rename_i h cur msg tf
    have hne : i ≠ cur := fun heq => ha.apart h (heq ▸ hcur)
    refine .inl (ha.of_eq ?_ ha.apart)
    rw [Machine.after_toKernel, agentRecvUndo, Kernel.setAgent_agents, update_of_ne hne]
  | store tf hserving hcur hnext hundoing hundo =>
    rename_i cur next
    have hne : i ≠ cur := fun heq => ha.apart e.hart (heq ▸ hcur)
    refine .inl (ha.of_eq ?_ (by simpa using ha.apart))
    rw [Machine.goto_toKernel, Machine.trapframeStore_of_ne _ _ _ _ hne]
  | exit tf tf' ht hctl hcur =>
    rename_i h cur t
    have hne : i ≠ cur := fun heq => ha.apart h (heq ▸ hcur)
    refine .inl (ha.of_eq ?_ (by simpa using ha.apart))
    rw [Machine.goto_toKernel, Machine.trapframeStore_of_ne _ _ _ _ hne, agentExit,
      Kernel.setAgent_agents, update_of_ne hne]
  | wake hctl =>
    rename_i h target next
    refine .inl ⟨?_, ?_, by simpa using ha.apart⟩
    · rw [Machine.goto_toKernel, Machine.makeRunnable_agents, update_apply]
      split_ifs with hcase
      · rw [← hcase]
        exact ha.frame
      · exact ha.frame
    · rw [Machine.goto_toKernel, Machine.makeRunnable_agents, update_apply]
      split_ifs
      · exact nofun
      · exact ha.used
  | idle hs hserving hwaking hundo =>
    refine .inl (ha.of_eq ?_ ?_)
    · rw [Machine.goto_toKernel, hs.of_ne (ha.apart _)]
    · rw [Machine.goto_current, hs.current_eq]
      exact ha.apart
  | dispatch r hs hi =>
    rename_i h m₀ j
    have hne : i ≠ j := by
      rintro rfl
      refine hout f ?_
      rw [hs.of_ne (ha.apart _), ha.frame]
      rfl
    refine .inl (ha.of_eq ?_ fun h' => ?_)
    · rw [Machine.dispatch_agents, update_of_ne hne, hs.of_ne (ha.apart _)]
    · rw [Machine.dispatch_current, update_apply]
      split_ifs
      · exact fun heq => hne (Option.some.inj heq).symm
      · rw [hs.current_eq]
        exact ha.apart h'

/-- A dispatch of the agent resumes the trapframe. -/
theorem Moves.frame_of_dispatched {f tf : TrapFrame} (hmove : Moves cfg m e m' (some (i, tf)) note)
    (ha : m.Awaits i f) : tf = f := by
  generalize hout : some (i, tf) = out at hmove
  cases hmove with
  | dispatch r hs hi =>
    rename_i h m₀ j
    obtain ⟨f', hf', heq⟩ := Option.map_eq_some_iff.mp hout.symm
    obtain ⟨rfl, rfl⟩ := Prod.mk.inj heq
    rw [hs.of_ne (ha.apart _), ha.frame] at hf'
    exact (Option.some.inj hf').symm
  | _ => cases hout

/-- The event creates agent `i` with the given entry point. -/
def Machine.Starts (m : Machine) (e : Event) (i : Fin maxAgents) (entry gp : Nat) : Prop :=
  ∃ cur caps, (m.callOf e = some (cur, .create gp caps (.done entry)) ∨
    m.callOf e = some (cur, .load gp caps (.done entry))) ∧
    spawnedSlot m.toKernel cur (.done entry) = some i

/-- A successful attempt. -/
theorem spawnWith_done {cur : Fin maxAgents} {entry : Nat} (noFrame : Agent → Agent)
    (failed created : Fin maxAgents → Nat → Agent → Agent)
    (hslot : spawnedSlot k cur (.done entry) = some i) :
    spawnWith k cur (.done entry) noFrame failed created
      = (.ok i, k.setAgent i (created i entry (k.agents i))) := by
  have hslot : spawnSlot k cur (.done entry) = some i := hslot
  unfold spawnSlot at hslot
  split_ifs at hslot with hcap
  rw [Bool.and_eq_true] at hcap
  unfold spawnWith
  rw [if_neg (by rw [hcap.1]; exact Bool.false_ne_true)]
  simp only [hslot]

/-- A system call is made by the agent in user mode. -/
theorem Machine.step_of_callOf (cfg : Config) {cur : Fin maxAgents} {c : Call}
    (hcall : m.callOf e = some (cur, c)) :
    ∃ h tf, m.step cfg e
      = m.after h (c.run cfg m.toKernel cur tf).1 (c.run cfg m.toKernel cur tf).2 := by
  unfold Machine.callOf at hcall
  split at hcall
  · rename_i h tf c'
    split at hcall
    · rename_i cur' hctl hcur
      obtain ⟨rfl, rfl⟩ := Prod.mk.inj (Option.some.inj hcall)
      exact ⟨h, tf, by simp only [Machine.step, hctl, hcur, trapHandler]⟩
    · cases hcall
  · cases hcall

/-- A new agent waits for its first dispatch. -/
theorem Machine.Starts.awaits {entry gp : Nat} (hstart : m.Starts e i entry gp)
    (hspawn : m.SpawnsApart e) : (m.step cfg e).Awaits i (newTrapframe i entry gp) := by
  obtain ⟨cur, caps, hcall, hslot⟩ := hstart
  have hattempt : m.attemptSlot e = some i := by
    rw [Machine.attemptSlot]
    rcases hcall with hcall | hcall <;> rw [hcall] <;> exact hslot
  obtain ⟨hapart, -⟩ := hspawn i hattempt
  rcases hcall with hcall | hcall
  · obtain ⟨h, tf, hstep⟩ := Machine.step_of_callOf cfg hcall
    rw [hstep, Call.run, agentCreate, spawnWith_done _ _ _ hslot, spawnEnd]
    refine ⟨?_, ?_, hapart⟩ <;>
      rw [Machine.after_toKernel, Kernel.setAgent_agents, update_self] <;>
      simp [Agent.recreate]
  · obtain ⟨h, tf, hstep⟩ := Machine.step_of_callOf cfg hcall
    rw [hstep, Call.run, agentLoadFromPath, spawnWith_done _ _ _ hslot, spawnEnd]
    refine ⟨?_, ?_, hapart⟩ <;>
      rw [Machine.after_toKernel, Kernel.setAgent_agents, update_self] <;>
      simp [Agent.reload]

/-- In the run `es` from `m`, every agent created on the way is dispatched for the
first time from the trapframe built for it. -/
def FreshStart (cfg : Config) (m : Machine) (es : List Event) : Prop :=
  ∀ pre e mid e' post, es = pre ++ e :: (mid ++ e' :: post) → ∀ i entry gp,
    (m.run cfg pre).Starts e i entry gp →
    Runs.Along (Machine.step cfg)
      (fun m e => ¬ m.Recreates e i ∧ (m.dispatched cfg e).map Prod.fst ≠ some i)
      ((m.run cfg pre).step cfg e) mid →
    ∀ tf, (m.run cfg (pre ++ e :: mid)).dispatched cfg e' = some (i, tf) →
      tf = newTrapframe i entry gp ∧ tf.sepc = entry ∧ tf.sp = userSp i

/-- **Fresh start**: it holds in every run that never uses the current slot of a
hart, or one about to be woken, for a new agent. -/
theorem freshStart_run (cfg : Config) (image : Image) (boxes : Fin maxAgents → Msgbox)
    (es : List Event)
    (hes : Runs.Along (Machine.step cfg) Machine.SpawnsApart (boot cfg image boxes) es) :
    FreshStart cfg (boot cfg image boxes) es := by
  rintro pre e mid e' post rfl i entry gp hstart hmid tf hdispatch
  obtain ⟨hwait, -⟩ := hes.between
    (P := fun m => m.Awaits i (newTrapframe i entry gp) ∨ m.Dead i) hmid
    (fun hspawn => .inl (hstart.awaits hspawn)) fun m e hok hwait => by
      rcases hwait with hawaits | hdead
      · exact (step_moves cfg m e).awaits hok.1 hok.2.1
          (fun tf heq => hok.2.2 (by rw [heq]; rfl)) hawaits
      · exact .inr ((step_moves cfg m e).dead hok.2.1 hdead)
  have hmove := step_moves cfg ((boot cfg image boxes).run cfg (pre ++ e :: mid)) e'
  rw [hdispatch] at hmove
  rcases hwait with hawaits | hdead
  · obtain rfl := hmove.frame_of_dispatched hawaits
    exact ⟨rfl, rfl, rfl⟩
  · exact absurd hdead.zombie hmove.live_of_dispatched

/-- Agent 1 creates two agents, and hart 1 dispatches the second. -/
theorem freshStart_run_pair :
    FreshStart twoHarts (boot twoHarts plainImage fun _ => blankBox)
        (createEvents 0x80400200 ++ createEvents 0x80400300 ++ [.go 1]) ∧
      ((boot twoHarts plainImage fun _ => blankBox).run twoHarts
        (createEvents 0x80400200 ++ createEvents 0x80400300)).dispatched twoHarts (.go 1)
        = some (3, newTrapframe 3 0x80400300 0) :=
  ⟨freshStart_run _ _ _ _ (by decide +kernel), by decide +kernel⟩

/-! ### An agent that destroys itself -/

/-- Agent 1 destroys itself, and its slot is the first that is free. -/
def reusePrelude : List Event :=
  [.trap 0 someFrame (.call (.destroy 1)), .go 0]

/-- It creates an agent, which takes its own slot; the return from the call stores
its registers; hart 1 dispatches the new agent. -/
def reuseEvents : List Event :=
  reusePrelude ++ .trap 0 someFrame (.call (.create 0 0 (.done 0x80400200))) ::
    ([.go 0, .go 0] ++ [.go 1])

/-- The new agent resumes where its creator was. -/
theorem not_freshStart_reuse :
    ¬ FreshStart twoHarts (boot twoHarts plainImage fun _ => blankBox) reuseEvents := by
  intro h
  have hframe := h reusePrelude _ [.go 0, .go 0] (.go 1) [] rfl 1 0x80400200 0
    ⟨1, 0, .inl (by decide +kernel), by decide +kernel⟩ (by decide +kernel)
    (someFrame.returning 1) (by decide +kernel)
  exact absurd hframe.2.1 (by decide +kernel)

end OpenAgentOS
