import Bookswap.Auth.AuthShutdown

/-!
# The graceful shutdown of auth

- `AuthProcess.Inv`: where the shutdown is says which gates are closed and what may still be live.
- `graceful_shutdown`: a shutdown that resolves leaves nothing live, and one that throws leaves the
  gate of the e-mails open unless it had only e-mails to wait for.
- `graceful_shutdown_email_timeout`: the budget may run out with that gate closed.
-/

namespace Bookswap

/-- A wait that ends well has seen everything settle. -/
theorem Wait.Ends.all {settled : Nat → Prop} {now : Time} {w : Wait}
    (h : w.Ends settled now true) : ∀ j ∈ w.jobs, settled j := by
  cases h with
  | nothing hnil => simp [hnil]
  | settled _ _ hall => exact hall

/-- With the budget spent and something unsettled a wait can only end badly, and it does. -/
theorem Wait.ends_overdue {settled : Nat → Prop} {now : Time} {w : Wait} {j : Nat}
    (hj : j ∈ w.jobs) (hno : ¬ settled j) (hdue : w.budget.deadlineAt ≤ now) (b : Bool) :
    w.Ends settled now b ↔ b = false := by
  constructor
  · intro h
    cases b with
    | true => exact absurd (h.all j hj) hno
    | false => rfl
  · rintro rfl
    have hne : w.jobs ≠ [] := List.ne_nil_of_mem hj
    by_cases hleft : w.budget.remainingMs w.startedAt ≤ 0
    · exact .spent hne hleft
    · refine .expired hne (Int.not_le.mp hleft) ?_
      have hsum : ∀ start deadline now : Int, ¬ max 0 (deadline - start) ≤ 0 → deadline ≤ now →
          start + max 0 (deadline - start) ≤ now := by
        intro start deadline now hleft hdue
        omega
      exact hsum _ _ _ hleft hdue

namespace AuthProcess

/-- What the phase of the shutdown says of the gates, the workflows and the jobs. -/
def ShutdownOk (s : AuthProcess) : ShutdownPhase → Prop
  | .up => s.acceptingWorkflows = true ∧ s.acceptingEmailJobs = true
  | .waitingWorkflows w => s.acceptingWorkflows = false ∧ s.acceptingEmailJobs = true ∧
    ∀ k, s.Live k → k ∈ w.jobs
  | .waitingJobs w => s.acceptingWorkflows = false ∧ s.acceptingEmailJobs = false ∧
    (∀ k, ¬ s.Live k) ∧ ∀ j, s.Unsettled j → j ∈ w.jobs
  | .resolved => s.acceptingWorkflows = false ∧ s.acceptingEmailJobs = false ∧
    (∀ k, ¬ s.Live k) ∧ ∀ j, ¬ s.Unsettled j
  | .threw e => s.acceptingWorkflows = false ∧ match e.phase with
    | .workflow => s.acceptingEmailJobs = true
    | .email => s.acceptingEmailJobs = false ∧ ∀ k, ¬ s.Live k

/-- The workflow has been accepted. -/
def Accepted (s : AuthProcess) (w : WorkflowId) : Prop := s.Live w ∨ s.WorkflowSettled w

/-- Whatever was written, sent or registered comes from a workflow that was accepted. -/
structure Owned (s : AuthProcess) : Prop where
  writes : ∀ x ∈ s.writes, s.Accepted x.1
  mails : ∀ x ∈ s.mails, s.Accepted x.1
  jobs : ∀ j job, s.jobs j = some job → s.Accepted job.owner

structure Inv (s : AuthProcess) : Prop where
  active : ∀ w, s.Live w → w ∈ s.activeWorkflows
  live : ∀ w ∈ s.activeWorkflows, s.Live w
  distinct : s.activeWorkflows.Nodup
  registered : ∀ j, s.Unsettled j → j ∈ s.activeEmailJobs
  owned : s.Owned
  shutdown : s.ShutdownOk s.shutdown

/-- The gate of the e-mails is open as long as a workflow is live. -/
theorem Inv.gate {s : AuthProcess} (h : s.Inv) {w : WorkflowId} (hw : s.Live w) :
    s.acceptingEmailJobs = true := by
  have hshut := h.shutdown
  cases hph : s.shutdown with
  | up =>
    rw [hph] at hshut
    exact hshut.2
  | waitingWorkflows =>
    rw [hph] at hshut
    exact hshut.2.1
  | waitingJobs =>
    rw [hph] at hshut
    exact absurd hw (hshut.2.2.1 w)
  | resolved =>
    rw [hph] at hshut
    exact absurd hw (hshut.2.2.1 w)
  | threw e =>
    rw [hph] at hshut
    obtain ⟨-, hshut⟩ := hshut
    split at hshut
    · exact hshut
    · exact absurd hw (hshut.2 w)

/-! ## What a step may do -/

variable {s s' : AuthProcess}

/-- Gates and shutdown stay, no workflow and no job becomes live. -/
structure Fewer (s s' : AuthProcess) : Prop where
  acceptingWorkflows : s'.acceptingWorkflows = s.acceptingWorkflows
  acceptingEmailJobs : s'.acceptingEmailJobs = s.acceptingEmailJobs
  shutdown : s'.shutdown = s.shutdown
  live : ∀ w, s'.Live w → s.Live w
  unsettled : ∀ j, s'.Unsettled j → s.Unsettled j

theorem ShutdownOk.fewer {ph : ShutdownPhase} (h : s.ShutdownOk ph) (hf : Fewer s s') :
    s'.ShutdownOk ph := by
  cases ph with
  | up => exact ⟨hf.acceptingWorkflows.trans h.1, hf.acceptingEmailJobs.trans h.2⟩
  | waitingWorkflows w =>
    exact ⟨hf.acceptingWorkflows.trans h.1, hf.acceptingEmailJobs.trans h.2.1,
      fun k hk => h.2.2 k (hf.live k hk)⟩
  | waitingJobs w =>
    exact ⟨hf.acceptingWorkflows.trans h.1, hf.acceptingEmailJobs.trans h.2.1,
      fun k hk => h.2.2.1 k (hf.live k hk), fun j hj => h.2.2.2 j (hf.unsettled j hj)⟩
  | resolved =>
    exact ⟨hf.acceptingWorkflows.trans h.1, hf.acceptingEmailJobs.trans h.2.1,
      fun k hk => h.2.2.1 k (hf.live k hk), fun j hj => h.2.2.2 j (hf.unsettled j hj)⟩
  | threw e =>
    obtain ⟨hclosed, h⟩ := h
    refine ⟨hf.acceptingWorkflows.trans hclosed, ?_⟩
    split at h
    · exact hf.acceptingEmailJobs.trans h
    · exact ⟨hf.acceptingEmailJobs.trans h.1, fun k hk => h.2 k (hf.live k hk)⟩

theorem setWorkflow_workflows (w k : WorkflowId) (ph : WorkflowPhase) :
    (s.setWorkflow w ph).workflows k = if k = w then some ph else s.workflows k :=
  Function.update_apply ..

theorem setJob_jobs (j k : EmailJobId) (job : EmailJob) :
    (s.setJob j job).jobs k = if k = j then some job else s.jobs k :=
  Function.update_apply ..

theorem live_setWorkflow {w k : WorkflowId} {ph : WorkflowPhase} :
    (s.setWorkflow w ph).Live k ↔
      (k = w ∧ ∃ kind rest, ph = .running kind rest) ∨ (k ≠ w ∧ s.Live k) := by
  rw [Live, Live, setWorkflow_workflows]
  by_cases hk : k = w <;> simp [hk]

theorem unsettled_setJob {j k : EmailJobId} {job : EmailJob} :
    (s.setJob j job).Unsettled k ↔
      (k = j ∧ ∃ rest, job.phase = .running rest) ∨ (k ≠ j ∧ s.Unsettled k) := by
  cases job
  rw [Unsettled, Unsettled, setJob_jobs]
  by_cases hk : k = j <;> simp [hk]

/-- An accepted workflow stays accepted when a call that is new or live changes its phase to that
of an accepted one. -/
theorem Accepted.setWorkflow {w k : WorkflowId} {ph : WorkflowPhase} (h : s.Accepted k)
    (hph : k = w → ph ≠ .refused) : (s.setWorkflow w ph).Accepted k := by
  rw [Accepted, Live, WorkflowSettled, setWorkflow_workflows]
  by_cases hk : k = w
  · rw [if_pos hk]
    cases ph with
    | refused => exact absurd rfl (hph hk)
    | running kind rest => exact .inl ⟨kind, rest, rfl⟩
    | released kind => exact .inr ⟨kind, rfl⟩
  · rw [if_neg hk]
    exact h

theorem Owned.setWorkflow (h : s.Owned) {w : WorkflowId} {ph : WorkflowPhase}
    (hph : s.Accepted w → ph ≠ .refused) : (s.setWorkflow w ph).Owned where
  writes x hx := (h.writes x hx).setWorkflow fun hw => hph (hw ▸ h.writes x hx)
  mails x hx := (h.mails x hx).setWorkflow fun hw => hph (hw ▸ h.mails x hx)
  jobs j job hj := (h.jobs j job hj).setWorkflow fun hw => hph (hw ▸ h.jobs j job hj)

theorem not_accepted_of_new {w : WorkflowId} (hw : s.workflows w = none) : ¬ s.Accepted w := by
  rintro (⟨kind, rest, h⟩ | ⟨kind, h⟩) <;> rw [hw] at h <;> cases h

/-! ## Workflows -/

/-- A live workflow goes on, and stays live. -/
theorem Inv.goOn (h : s.Inv) {w : WorkflowId} (hw : s.Live w) (kind : WorkflowKind)
    (rest : List WorkflowAction) : (s.setWorkflow w (.running kind rest)).Inv := by
  have hlive : ∀ k, (s.setWorkflow w (.running kind rest)).Live k ↔ s.Live k := by
    intro k
    rw [live_setWorkflow]
    by_cases hk : k = w
    · simp [hk, hw]
    · simp [hk]
  exact {
    active := fun k hk => h.active k ((hlive k).mp hk)
    live := fun k hk => (hlive k).mpr (h.live k hk)
    distinct := h.distinct
    registered := h.registered
    owned := h.owned.setWorkflow fun _ => WorkflowPhase.noConfusion
    shutdown := h.shutdown.fewer
      ⟨rfl, rfl, rfl, fun k hk => (hlive k).mp hk, fun _ hj => hj⟩ }

theorem Inv.accept (h : s.Inv) {w : WorkflowId} {kind : WorkflowKind}
    (hnew : s.workflows w = none) (hs : s.reserveWorkflow w kind = .ok s') : s'.Inv := by
  rw [reserveWorkflow] at hs
  split at hs <;> cases hs
  rename_i hopen
  have hlive : ∀ k, (s.setWorkflow w (.running kind kind.body)).Live k ↔ k = w ∨ s.Live k := by
    intro k
    rw [live_setWorkflow]
    by_cases hk : k = w <;> simp [hk]
  have hno : w ∉ s.activeWorkflows := fun hw => not_accepted_of_new hnew (.inl (h.live w hw))
  have howned : (s.setWorkflow w (.running kind kind.body)).Owned :=
    h.owned.setWorkflow fun _ => WorkflowPhase.noConfusion
  refine ⟨fun k hk => ?_, fun k hk => ?_, List.nodup_cons.mpr ⟨hno, h.distinct⟩, h.registered,
    ⟨howned.writes, howned.mails, howned.jobs⟩, ?_⟩
  · obtain rfl | hk := (hlive k).mp hk
    · exact List.mem_cons_self
    · exact List.mem_cons_of_mem w (h.active k hk)
  · obtain rfl | hk := List.mem_cons.mp hk
    · exact (hlive k).mpr (.inl rfl)
    · exact (hlive k).mpr (.inr (h.live k hk))
  · -- the gate is open only while the service is up
    have hshut := h.shutdown
    cases hph : s.shutdown with
    | up =>
      rw [hph] at hshut
      show ShutdownOk _ s.shutdown
      rw [hph]
      exact hshut
    | _ =>
      rw [hph] at hshut
      have hclosed := hshut.1
      rw [hopen] at hclosed
      cases hclosed

theorem Inv.refuse (h : s.Inv) {w : WorkflowId} (hnew : s.workflows w = none) :
    (s.setWorkflow w .refused).Inv := by
  have hold : ∀ k, (s.setWorkflow w .refused).Live k ↔ s.Live k := by
    intro k
    rw [live_setWorkflow]
    by_cases hk : k = w
    · simp [hk, Live, hnew]
    · simp [hk]
  exact {
    active := fun k hk => h.active k ((hold k).mp hk)
    live := fun k hk => (hold k).mpr (h.live k hk)
    distinct := h.distinct
    registered := h.registered
    owned := h.owned.setWorkflow fun hw => absurd hw (not_accepted_of_new hnew)
    shutdown := h.shutdown.fewer ⟨rfl, rfl, rfl, fun k hk => (hold k).mp hk, fun _ hj => hj⟩ }

theorem Inv.release (h : s.Inv) {w : WorkflowId} {kind : WorkflowKind} :
    (s.release w kind).Inv := by
  have hold : ∀ k, (s.release w kind).Live k ↔ k ≠ w ∧ s.Live k := by
    intro k
    refine Iff.trans live_setWorkflow ?_
    simp
  have howned : (s.setWorkflow w (.released kind)).Owned :=
    h.owned.setWorkflow fun _ => WorkflowPhase.noConfusion
  refine ⟨fun k hk => ?_, fun k hk => ?_, h.distinct.erase w, h.registered,
    ⟨howned.writes, howned.mails, howned.jobs⟩,
    h.shutdown.fewer ⟨rfl, rfl, rfl, fun k hk => ((hold k).mp hk).2, fun _ hj => hj⟩⟩
  · obtain ⟨hne, hk⟩ := (hold k).mp hk
    exact (List.mem_erase_of_ne hne).mpr (h.active k hk)
  · obtain ⟨hne, hk⟩ := h.distinct.mem_erase_iff.mp hk
    exact (hold k).mpr ⟨hne, h.live k hk⟩

/-! ## Writes and jobs -/

theorem Inv.write (h : s.Inv) {w : WorkflowId} (hw : s.Accepted w) (write : AuthWrite) :
    ({ s with writes := (w, write) :: s.writes } : AuthProcess).Inv := by
  refine ⟨h.active, h.live, h.distinct, h.registered, ⟨fun x hx => ?_, h.owned.mails,
    h.owned.jobs⟩, h.shutdown.fewer ⟨rfl, rfl, rfl, fun _ hk => hk, fun _ hj => hj⟩⟩
  obtain rfl | hx := List.mem_cons.mp hx
  · exact hw
  · exact h.owned.writes x hx

theorem Inv.send (h : s.Inv) {w : WorkflowId} (hw : s.Accepted w) (j : EmailJobId) :
    ({ s with mails := (w, j) :: s.mails } : AuthProcess).Inv := by
  refine ⟨h.active, h.live, h.distinct, h.registered, ⟨h.owned.writes, fun x hx => ?_,
    h.owned.jobs⟩, h.shutdown.fewer ⟨rfl, rfl, rfl, fun _ hk => hk, fun _ hj => hj⟩⟩
  obtain rfl | hx := List.mem_cons.mp hx
  · exact hw
  · exact h.owned.mails x hx

theorem Owned.setJob (h : s.Owned) {j : EmailJobId} {job : EmailJob} (hw : s.Accepted job.owner) :
    (s.setJob j job).Owned where
  writes := h.writes
  mails := h.mails
  jobs k job' hk := by
    rw [setJob_jobs] at hk
    split at hk
    · cases hk
      exact hw
    · exact h.jobs k job' hk

/-- A job that has not settled goes on or settles. -/
theorem Inv.setJob (h : s.Inv) {j : EmailJobId} {job : EmailJob} (hj : s.Unsettled j)
    (hw : s.Accepted job.owner) : (s.setJob j job).Inv := by
  have hold : ∀ k, (s.setJob j job).Unsettled k → s.Unsettled k := by
    intro k hk
    obtain ⟨rfl, -⟩ | ⟨-, hk⟩ := unsettled_setJob.mp hk
    · exact hj
    · exact hk
  exact {
    active := h.active
    live := h.live
    distinct := h.distinct
    registered := fun k hk => h.registered k (hold k hk)
    owned := h.owned.setJob hw
    shutdown := h.shutdown.fewer ⟨rfl, rfl, rfl, fun _ hk => hk, hold⟩ }

/-- Only a live workflow registers a job. -/
theorem Inv.enqueueEmail (h : s.Inv) {w : WorkflowId} {j : EmailJobId}
    {start : List EmailJobAction} (hw : s.Live w) (hs : s.enqueueEmail w j start = .ok s') :
    s'.Inv := by
  obtain ⟨kind, rest, hrun⟩ := id hw
  rw [AuthProcess.enqueueEmail, hrun] at hs
  dsimp only at hs
  rw [registerEmailJob, if_pos (h.gate hw)] at hs
  cases hs
  have hnew : ∀ k, (s.setJob j ⟨w, .running start⟩).Unsettled k → k = j ∨ s.Unsettled k := by
    intro k hk
    obtain ⟨rfl, -⟩ | ⟨-, hk⟩ := unsettled_setJob.mp hk
    · exact .inl rfl
    · exact .inr hk
  have howned : (s.setJob j ⟨w, .running start⟩).Owned := h.owned.setJob (.inl hw)
  refine ⟨h.active, h.live, h.distinct, fun k hk => ?_,
    ⟨howned.writes, howned.mails, howned.jobs⟩, ?_⟩
  · obtain rfl | hk := hnew k hk
    · exact List.mem_cons_self
    · exact List.mem_cons_of_mem j (h.registered k hk)
  · have hshut := h.shutdown
    show ShutdownOk _ s.shutdown
    cases hph : s.shutdown with
    | up =>
      rw [hph] at hshut
      exact hshut
    | waitingWorkflows =>
      rw [hph] at hshut
      exact hshut
    | threw e =>
      rw [hph] at hshut
      exact hshut
    | _ =>
      -- with a live workflow the shutdown has not come that far
      rw [hph] at hshut
      exact absurd hw (hshut.2.2.1 w)

theorem Inv.act (h : s.Inv) {w : WorkflowId} {j : EmailJobId} {a : WorkflowAction}
    (hw : s.Live w) (hs : s.act w j a = .ok s') : s'.Inv ∧ s'.Live w := by
  cases a with
  | read =>
    cases hs
    exact ⟨h, hw⟩
  | write write =>
    cases hs
    exact ⟨h.write (.inl hw) write, hw⟩
  | enqueueEmail start =>
    refine ⟨h.enqueueEmail hw hs, ?_⟩
    obtain ⟨kind, rest, hrun⟩ := id hw
    simp only [AuthProcess.act, AuthProcess.enqueueEmail, hrun, registerEmailJob] at hs
    split at hs <;> cases hs
    exact hw

theorem Inv.jobAct (h : s.Inv) {w : WorkflowId} (hw : s.Accepted w) (j : EmailJobId)
    (a : EmailJobAction) : (s.jobAct w j a).Inv := by
  cases a with
  | read => exact h
  | write write => exact h.write hw write
  | send => exact h.send hw j

/-! ## The shutdown -/

theorem Live.not_settled {w : WorkflowId} (h : s.Live w) : ¬ s.WorkflowSettled w := by
  obtain ⟨kind, rest, hrun⟩ := h
  rintro ⟨kind', hdone⟩
  rw [hrun] at hdone
  cases hdone

theorem Unsettled.not_settled {j : EmailJobId} (h : s.Unsettled j) : ¬ s.JobSettled j := by
  obtain ⟨owner, rest, hrun⟩ := h
  rintro ⟨owner', hdone⟩
  rw [hrun] at hdone
  cases hdone

/-- Only the shutdown and the gates change. -/
theorem Inv.shutdownStep (h : s.Inv) {gateW gateE : Bool} {ph : ShutdownPhase}
    (hok : ({ s with
      acceptingWorkflows := gateW
      acceptingEmailJobs := gateE
      shutdown := ph } : AuthProcess).ShutdownOk ph) :
    ({ s with
      acceptingWorkflows := gateW
      acceptingEmailJobs := gateE
      shutdown := ph } : AuthProcess).Inv :=
  ⟨h.active, h.live, h.distinct, h.registered, ⟨h.owned.writes, h.owned.mails, h.owned.jobs⟩, hok⟩

theorem Inv.onModuleDestroy (h : s.Inv) {totalMs : Int} (hup : s.shutdown = .up) :
    (s.onModuleDestroy totalMs).Inv := by
  have hshut := h.shutdown
  rw [hup] at hshut
  exact h.shutdownStep ⟨rfl, hshut.2, h.active⟩

theorem Inv.closeEmailGate (h : s.Inv) {w : Wait} (hph : s.shutdown = .waitingWorkflows w)
    (hend : w.Ends s.WorkflowSettled s.clock true) : (s.closeEmailGate w).Inv := by
  have hshut := h.shutdown
  rw [hph] at hshut
  obtain ⟨hclosed, -, hall⟩ := hshut
  exact h.shutdownStep ⟨hclosed, rfl,
    fun k hk => (Live.not_settled hk) (hend.all k (hall k hk)), h.registered⟩

theorem Inv.resolve (h : s.Inv) {w : Wait} (hph : s.shutdown = .waitingJobs w)
    (hend : w.Ends s.JobSettled s.clock true) :
    ({ s with shutdown := .resolved } : AuthProcess).Inv := by
  have hshut := h.shutdown
  rw [hph] at hshut
  obtain ⟨hclosedW, hclosedE, hnone, hall⟩ := hshut
  exact h.shutdownStep ⟨hclosedW, hclosedE, hnone,
    fun j hj => (Unsettled.not_settled hj) (hend.all j (hall j hj))⟩

theorem Inv.timeout_workflow (h : s.Inv) {w : Wait} (hph : s.shutdown = .waitingWorkflows w) :
    (s.timeout .workflow w).Inv := by
  have hshut := h.shutdown
  rw [hph] at hshut
  exact h.shutdownStep ⟨hshut.1, hshut.2.1⟩

theorem Inv.timeout_email (h : s.Inv) {w : Wait} (hph : s.shutdown = .waitingJobs w) :
    (s.timeout .email w).Inv := by
  have hshut := h.shutdown
  rw [hph] at hshut
  exact h.shutdownStep ⟨hshut.1, hshut.2.1, hshut.2.2.1⟩

theorem Inv.step {totalMs : Int} {op : AuthProcessOp} (h : s.Inv) (hs : Step totalMs s op s') :
    s'.Inv := by
  cases hs with
  | wait =>
    exact ⟨h.active, h.live, h.distinct, h.registered,
      ⟨h.owned.writes, h.owned.mails, h.owned.jobs⟩,
      h.shutdown.fewer ⟨rfl, rfl, rfl, fun _ hk => hk, fun _ hj => hj⟩⟩
  | accept hnew hs => exact h.accept hnew hs
  | refuse hnew => exact h.refuse hnew
  | act hrun _ hs =>
    obtain ⟨h', hlive⟩ := h.act ⟨_, _, hrun⟩ hs
    exact h'.goOn hlive _ _
  | throw hrun => exact h.goOn ⟨_, _, hrun⟩ _ _
  | release => exact h.release
  | @jobAct j owner a rest hj =>
    have howner : s.Accepted owner := h.owned.jobs _ _ hj
    have hkept : ∀ k, (s.jobAct owner j a).jobs k = s.jobs k := by
      intro k
      cases a <;> rfl
    have hphases : (s.jobAct owner j a).workflows = s.workflows := by
      cases a <;> rfl
    refine (h.jobAct howner j a).setJob ⟨owner, _, (hkept j).trans hj⟩ ?_
    rw [Accepted, Live, WorkflowSettled, hphases]
    exact howner
  | settleJob hj =>
    have howner := h.owned.jobs _ _ hj
    exact h.setJob ⟨_, _, hj⟩ howner
  | @forgetJob j hdone =>
    refine ⟨h.active, h.live, h.distinct, fun k hk => ?_,
      ⟨h.owned.writes, h.owned.mails, h.owned.jobs⟩,
      h.shutdown.fewer ⟨rfl, rfl, rfl, fun _ hk => hk, fun _ hj => hj⟩⟩
    have hne : k ≠ j := by
      rintro rfl
      exact (Unsettled.not_settled hk) hdone
    exact (List.mem_erase_of_ne hne).mpr (h.registered k hk)
  | destroy hup => exact h.onModuleDestroy hup
  | workflowsSettled hph hend => exact h.closeEmailGate hph hend
  | workflowsTimeout hph => exact h.timeout_workflow hph
  | jobsSettled hph hend => exact h.resolve hph hend
  | jobsTimeout hph => exact h.timeout_email hph

theorem Init.inv (h : s.Init) : s.Inv where
  active w hw := by
    obtain ⟨kind, rest, hrun⟩ := hw
    rw [h.workflows] at hrun
    cases hrun
  live w hw := by
    rw [h.activeWorkflows] at hw
    cases hw
  distinct := by
    rw [h.activeWorkflows]
    exact List.nodup_nil
  registered j hj := by
    obtain ⟨owner, rest, hrun⟩ := hj
    rw [h.jobs] at hrun
    cases hrun
  owned := {
    writes := fun x hx => by
      rw [h.writes] at hx
      cases hx
    mails := fun x hx => by
      rw [h.mails] at hx
      cases hx
    jobs := fun j job hj => by
      rw [h.jobs] at hj
      cases hj }
  shutdown := by
    rw [h.shutdown]
    exact ⟨h.acceptingWorkflows, h.acceptingEmailJobs⟩

theorem reachable_inv {totalMs : Int} (hr : (authLifecycle totalMs).Reachable s) : s.Inv :=
  hr.invariant (I := Inv) (fun _ hi => Init.inv hi) fun _ _ _ _ h hs => h.step hs

/-! ## After the shutdown -/

/-- What there is of the work of a process: the workflows that were accepted, the jobs, and what
they wrote and sent. -/
structure SameWork (s t : AuthProcess) : Prop where
  shutdown : t.shutdown = s.shutdown
  accepted : ∀ w, t.Accepted w ↔ s.Accepted w
  jobs : t.jobs = s.jobs
  writes : t.writes = s.writes
  mails : t.mails = s.mails

theorem SameWork.trans {t u : AuthProcess} (h : SameWork s t) (h' : SameWork t u) : SameWork s u :=
  ⟨h'.shutdown.trans h.shutdown, fun w => (h'.accepted w).trans (h.accepted w),
    h'.jobs.trans h.jobs, h'.writes.trans h.writes, h'.mails.trans h.mails⟩

/-- After a shutdown that resolved nothing happens any more. -/
theorem Inv.resolved_step (h : s.Inv) {totalMs : Int} {op : AuthProcessOp}
    (hres : s.shutdown = .resolved) (hs : Step totalMs s op s') : SameWork s s' := by
  have hshut := h.shutdown
  rw [hres] at hshut
  obtain ⟨hclosed, -, hnone, hidle⟩ := hshut
  cases hs with
  | wait => exact ⟨rfl, fun _ => Iff.rfl, rfl, rfl, rfl⟩
  | accept _ hs =>
    rw [reserveWorkflow, hclosed] at hs
    cases hs
  | @refuse w kind e hnew =>
    refine ⟨rfl, fun k => ⟨fun hk => ?_, fun hk => hk.setWorkflow fun hkw => ?_⟩, rfl, rfl, rfl⟩
    · rw [Accepted, Live, WorkflowSettled, setWorkflow_workflows] at hk
      split at hk
      · simp at hk
      · exact hk
    · subst hkw
      exact absurd hk (not_accepted_of_new hnew)
  | act hrun => exact absurd ⟨_, _, hrun⟩ (hnone _)
  | throw hrun => exact absurd ⟨_, _, hrun⟩ (hnone _)
  | release hrun => exact absurd ⟨_, _, hrun⟩ (hnone _)
  | jobAct hj => exact absurd ⟨_, _, hj⟩ (hidle _)
  | settleJob hj => exact absurd ⟨_, _, hj⟩ (hidle _)
  | forgetJob => exact ⟨rfl, fun _ => Iff.rfl, rfl, rfl, rfl⟩
  | destroy hph => simp [hres] at hph
  | workflowsSettled hph => simp [hres] at hph
  | workflowsTimeout hph => simp [hres] at hph
  | jobsSettled hph => simp [hres] at hph
  | jobsTimeout hph => simp [hres] at hph

/-- Only a live workflow registers a job. -/
theorem Step.registers {totalMs : Int} {op : AuthProcessOp} (hs : Step totalMs s op s')
    {j : EmailJobId} {job : EmailJob} (hnew : s.jobs j = none) (hj : s'.jobs j = some job) :
    s.Live job.owner := by
  have hsame : ¬ s'.jobs = s.jobs := fun heq => by
    rw [heq, hnew] at hj
    cases hj
  have hold : ∀ {k : EmailJobId} {old new : EmailJob}, s.jobs k = some old →
      s'.jobs = Function.update s.jobs k (some new) → s.Live job.owner := by
    intro k old new hold heq
    rw [heq, Function.update_apply] at hj
    split at hj
    · rename_i hjk
      rw [← hjk, hnew] at hold
      cases hold
    · rw [hnew] at hj
      cases hj
  cases hs with
  | accept _ hs =>
    rw [reserveWorkflow] at hs
    split at hs <;> cases hs
    exact absurd rfl hsame
  | @act _ w k a kind rest hrun _ hs =>
    cases a with
    | read =>
      cases hs
      exact absurd rfl hsame
    | write =>
      cases hs
      exact absurd rfl hsame
    | enqueueEmail start =>
      simp only [AuthProcess.act, AuthProcess.enqueueEmail, hrun, registerEmailJob] at hs
      split at hs <;> cases hs
      have hj : (s.setJob k ⟨w, .running start⟩).jobs j = some job := hj
      rw [setJob_jobs] at hj
      split at hj
      · cases hj
        exact ⟨_, _, hrun⟩
      · rw [hnew] at hj
        cases hj
  | @jobAct k owner a rest hk =>
    cases a <;> exact hold hk rfl
  | settleJob hk => exact hold hk rfl
  | _ => exact absurd rfl hsame

/-- The budget is spent, and something that the shutdown waits for has not settled. -/
def Overdue (s : AuthProcess) : Prop :=
  match s.shutdown with
  | .waitingWorkflows w => w.budget.deadlineAt ≤ s.clock ∧ ∃ k ∈ w.jobs, ¬ s.WorkflowSettled k
  | .waitingJobs w => w.budget.deadlineAt ≤ s.clock ∧ ∃ j ∈ w.jobs, ¬ s.JobSettled j
  | _ => False

theorem overdue_step {totalMs : Int} (h : s.Overdue) : Step totalMs s .proceed s' ↔
    (∃ w, s.shutdown = .waitingWorkflows w ∧ s' = s.timeout .workflow w) ∨
    ∃ w, s.shutdown = .waitingJobs w ∧ s' = s.timeout .email w := by
  rw [Overdue] at h
  constructor
  · intro hs
    cases hs with
    | workflowsSettled hph hend =>
      rw [hph] at h
      obtain ⟨hdue, k, hk, hno⟩ := h
      cases (Wait.ends_overdue hk hno hdue true).mp hend
    | workflowsTimeout hph => exact .inl ⟨_, hph, rfl⟩
    | jobsSettled hph hend =>
      rw [hph] at h
      obtain ⟨hdue, k, hk, hno⟩ := h
      cases (Wait.ends_overdue hk hno hdue true).mp hend
    | jobsTimeout hph => exact .inr ⟨_, hph, rfl⟩
  · rintro (⟨w, hph, rfl⟩ | ⟨w, hph, rfl⟩)
    · rw [hph] at h
      obtain ⟨hdue, k, hk, hno⟩ := h
      exact .workflowsTimeout hph ((Wait.ends_overdue hk hno hdue false).mpr rfl)
    · rw [hph] at h
      obtain ⟨hdue, k, hk, hno⟩ := h
      exact .jobsTimeout hph ((Wait.ends_overdue hk hno hdue false).mpr rfl)

/-- Nothing of the workflow was written or sent, and no job of it is there. -/
def Untouched (s : AuthProcess) (w : WorkflowId) : Prop :=
  (∀ x ∈ s.writes, x.1 ≠ w) ∧ (∀ x ∈ s.mails, x.1 ≠ w) ∧
    ∀ j job, s.jobs j = some job → job.owner ≠ w

theorem Inv.untouched (h : s.Inv) {w : WorkflowId} (hw : s.workflows w = some .refused) :
    s.Untouched w := by
  have hno : ¬ s.Accepted w := by
    rintro (⟨kind, rest, hrun⟩ | ⟨kind, hdone⟩)
    · simp [hw] at hrun
    · simp [hw] at hdone
  exact ⟨fun x hx heq => hno (heq ▸ h.owned.writes x hx),
    fun x hx heq => hno (heq ▸ h.owned.mails x hx),
    fun j job hj heq => hno (heq ▸ h.owned.jobs j job hj)⟩

/-- Everything accepted has settled. -/
structure Drained (s : AuthProcess) : Prop where
  workflows : ∀ w, s.Accepted w → s.WorkflowSettled w
  jobs : ∀ j job, s.jobs j = some job → s.JobSettled j

theorem Inv.drained (h : s.Inv) (hres : s.shutdown = .resolved) : s.Drained := by
  have hshut := h.shutdown
  rw [hres] at hshut
  obtain ⟨-, -, hnone, hidle⟩ := hshut
  refine ⟨fun w hw => hw.resolve_left (hnone w), fun j job hj => ?_⟩
  obtain ⟨owner, ph⟩ := job
  cases ph with
  | running rest => exact absurd ⟨owner, rest, hj⟩ (hidle j)
  | settled => exact ⟨owner, hj⟩

/-- What a shutdown that threw has left behind. -/
def LeftBehind (s : AuthProcess) : AuthShutdownPhase → Prop
  | .workflow => s.acceptingEmailJobs = true
  | .email => s.acceptingEmailJobs = false ∧ ∀ w, ¬ s.Live w

theorem Inv.leftBehind (h : s.Inv) {e : AuthShutdownTimeoutError} (hthrew : s.shutdown = .threw e) :
    s.LeftBehind e.phase := by
  have hshut := h.shutdown
  rw [hthrew] at hshut
  obtain ⟨-, hshut⟩ := hshut
  cases hph : e.phase with
  | workflow =>
    rw [hph] at hshut
    exact hshut
  | email =>
    rw [hph] at hshut
    exact hshut

/-- No live workflow is refused an e-mail. -/
theorem Inv.enqueues (h : s.Inv) {w : WorkflowId} (hw : s.Live w) (j : EmailJobId)
    (start : List EmailJobAction) : ∃ s', s.enqueueEmail w j start = .ok s' := by
  obtain ⟨kind, rest, hrun⟩ := id hw
  have hopen := h.gate hw
  rw [AuthProcess.enqueueEmail, hrun]
  dsimp only
  rw [registerEmailJob, if_pos hopen]
  exact ⟨_, rfl⟩

/-- A job that was registered stays known. -/
theorem Step.keeps_jobs {totalMs : Int} {op : AuthProcessOp} (hs : Step totalMs s op s')
    {j : EmailJobId} {job : EmailJob} (hj : s.jobs j = some job) :
    ∃ job', s'.jobs j = some job' ∧ job'.owner = job.owner := by
  have hset : ∀ {k : EmailJobId} {old : EmailJob} (new : EmailJob), s.jobs k = some old →
      new.owner = old.owner → s'.jobs = Function.update s.jobs k (some new) →
      ∃ job', s'.jobs j = some job' ∧ job'.owner = job.owner := by
    intro k old new hold howner heq
    rw [heq, Function.update_apply]
    split
    · rename_i hjk
      subst hjk
      rw [hj] at hold
      cases hold
      exact ⟨new, rfl, howner⟩
    · exact ⟨job, hj, rfl⟩
  cases hs with
  | accept _ hs =>
    rw [reserveWorkflow] at hs
    split at hs <;> cases hs
    exact ⟨job, hj, rfl⟩
  | @act _ w k a kind rest hrun hnew hs =>
    cases a with
    | read =>
      cases hs
      exact ⟨job, hj, rfl⟩
    | write =>
      cases hs
      exact ⟨job, hj, rfl⟩
    | enqueueEmail start =>
      simp only [AuthProcess.act, AuthProcess.enqueueEmail, hrun, registerEmailJob] at hs
      split at hs <;> cases hs
      have hne : j ≠ k := by
        rintro rfl
        rw [hnew] at hj
        cases hj
      refine ⟨job, ?_, rfl⟩
      show (s.setJob k ⟨w, .running start⟩).jobs j = some job
      rw [setJob_jobs, if_neg hne]
      exact hj
  | @jobAct k owner a rest hk =>
    cases a <;> exact hset ⟨owner, .running rest⟩ hk rfl rfl
  | @settleJob k owner rest hk => exact hset ⟨owner, .settled⟩ hk rfl rfl
  | _ => exact ⟨job, hj, rfl⟩

end AuthProcess

/-! ## The claim -/

/-- **The shutdown of auth** in every reachable state. Once it has resolved, every workflow and job
has settled and none ever starts. A refused workflow leaves no trace, and a job comes from a live
workflow only. When the budget runs out first the shutdown throws; then the gate of the e-mails is
open, or no workflow is live, so that no live workflow is refused an e-mail and no job is lost. -/
theorem graceful_shutdown (totalMs : Int) {s : AuthProcess}
    (hr : (authLifecycle totalMs).Reachable s) :
    (s.shutdown = .resolved →
      s.Drained ∧ ∀ t, (authLifecycle totalMs).Leads s t → AuthProcess.SameWork s t) ∧
    (∀ w, s.workflows w = some .refused → s.Untouched w) ∧
    (∀ op s', (authLifecycle totalMs).step s op s' → ∀ j job, s.jobs j = none →
      s'.jobs j = some job → s.Live job.owner) ∧
    (s.Overdue → (∃ s', (authLifecycle totalMs).step s .proceed s') ∧
      ∀ s', (authLifecycle totalMs).step s .proceed s' → ∃ e, s'.shutdown = .threw e) ∧
    (∀ e, s.shutdown = .threw e → s.LeftBehind e.phase) ∧
    (∀ w, s.Live w → ∀ j start, ∃ s', s.enqueueEmail w j start = .ok s') ∧
    (∀ j, s.Unsettled j → j ∈ s.activeEmailJobs) ∧
    ∀ op s', (authLifecycle totalMs).step s op s' → ∀ j job, s.jobs j = some job →
      ∃ job', s'.jobs j = some job' ∧ job'.owner = job.owner := by
  have hi := AuthProcess.reachable_inv hr
  refine ⟨fun hres => ⟨hi.drained hres, fun t ht => ?_⟩, fun w hw => hi.untouched hw,
    fun op s' hs j job => AuthProcess.Step.registers hs, fun hdue => ?_,
    fun e => hi.leftBehind, fun w hw => hi.enqueues hw, hi.registered,
    fun op s' hs j job => AuthProcess.Step.keeps_jobs hs⟩
  · refine ht.keeps (P := AuthProcess.SameWork s) (fun t op t' hrt hsame hs => ?_) hr
      ⟨rfl, fun _ => Iff.rfl, rfl, rfl, rfl⟩
    exact hsame.trans ((AuthProcess.reachable_inv hrt).resolved_step
      (hsame.shutdown.trans hres) hs)
  · have hstep := fun s' =>
      (AuthProcess.overdue_step hdue : AuthProcess.Step totalMs s .proceed s' ↔ _)
    refine ⟨?_, fun s' hs => ?_⟩
    · rw [AuthProcess.Overdue] at hdue
      cases hph : s.shutdown with
      | waitingWorkflows w => exact ⟨_, (hstep _).mpr (.inl ⟨w, hph, rfl⟩)⟩
      | waitingJobs w => exact ⟨_, (hstep _).mpr (.inr ⟨w, hph, rfl⟩)⟩
      | _ => simp [hph] at hdue
    · obtain ⟨w, -, rfl⟩ | ⟨w, -, rfl⟩ := (hstep s').mp hs <;> exact ⟨_, rfl⟩

def exampleProcess : AuthProcess where
  clock := 0
  acceptingWorkflows := true
  acceptingEmailJobs := true
  workflows _ := none
  activeWorkflows := []
  jobs _ := none
  activeEmailJobs := []
  writes := []
  mails := []
  shutdown := .up

theorem exampleProcess_reachable : (authLifecycle 30000).Reachable exampleProcess :=
  .start ⟨rfl, rfl, fun _ => rfl, rfl, fun _ => rfl, rfl, rfl, rfl, rfl⟩

/-- An empty process drains, and stays as it is. -/
theorem graceful_shutdown_idle : ∃ s, s.shutdown = .resolved ∧ s.Drained ∧
    ∀ t, (authLifecycle 30000).Leads s t → AuthProcess.SameWork s t := by
  have hdestroy : (authLifecycle 30000).Reachable _ :=
    exampleProcess_reachable.next (AuthProcess.Step.destroy rfl)
  have hclosed : (authLifecycle 30000).Reachable _ :=
    hdestroy.next (AuthProcess.Step.workflowsSettled rfl (.nothing rfl))
  have hresolved : (authLifecycle 30000).Reachable _ :=
    hclosed.next (AuthProcess.Step.jobsSettled rfl (.nothing rfl))
  exact ⟨_, rfl, (graceful_shutdown 30000 hresolved).1 rfl⟩

/-! ## A budget that runs out -/

/-- **The claim fails**: a password reset is requested, the shutdown has no workflow to wait for and
closes the gate of the e-mails, and the budget runs out while the job is running. -/
theorem graceful_shutdown_email_timeout : ∃ s, (authLifecycle 30000).Reachable s ∧
    s.shutdown = .threw ⟨.email, 1, 30000, 30000, 30000⟩ ∧ s.acceptingEmailJobs = false := by
  have haccept : AuthProcess.Step 30000 exampleProcess (.call 1 .requestPasswordReset) _ :=
    .accept rfl rfl
  have hcall : (authLifecycle 30000).Reachable _ := exampleProcess_reachable.next haccept
  have hjob : (authLifecycle 30000).Reachable _ :=
    hcall.next (AuthProcess.Step.act (w := 1) (j := 7) rfl rfl rfl)
  have hrelease : (authLifecycle 30000).Reachable _ :=
    hjob.next (AuthProcess.Step.release (w := 1) rfl)
  have hdestroy : (authLifecycle 30000).Reachable _ :=
    hrelease.next (AuthProcess.Step.destroy rfl)
  have hclosed : (authLifecycle 30000).Reachable _ :=
    hdestroy.next (AuthProcess.Step.workflowsSettled rfl (.nothing rfl))
  have hwait {s : AuthProcess} (h : s.clock ≤ 30000) :
      (authLifecycle 30000).step s (.wait 30000) { s with clock := 30000 } := .wait h
  have hlater : (authLifecycle 30000).Reachable _ := hclosed.next (hwait (by decide))
  have hthrew : (authLifecycle 30000).Reachable _ :=
    hlater.next (AuthProcess.Step.jobsTimeout rfl (.expired (by decide) (by decide) (by decide)))
  exact ⟨_, hthrew, rfl, rfl⟩

end Bookswap
