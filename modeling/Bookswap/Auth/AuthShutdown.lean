import Bookswap.Domain
import Bookswap.Lib.Machine
import Mathlib.Logic.Function.Basic

/-!
# The end of the auth service: auth.service.ts, auth-shutdown-budget.ts

The process is one event loop. A call that mutates reserves a workflow before anything else, and
puts its e-mails into a set of jobs in memory. `onModuleDestroy` closes the gate of the workflows,
waits for those that there are, closes the gate of the e-mails and waits for the jobs, all in one
budget of time. `requestPasswordReset` reserves, enqueues and releases in one turn; here other turns
may come between.

- `WorkflowKind.body`: what each workflow does under its reservation.
- `ShutdownBudget`, `Wait.Ends`: the shared deadline, and `settle`.
- `AuthProcess`, `authLifecycle`: workflows, jobs and the shutdown, turn by turn.
-/

namespace Bookswap

abbrev WorkflowId := Nat
abbrev EmailJobId := Nat

/-! ## Workflows and jobs -/

inductive AuthWrite
  | user
  | emailVerificationToken
  | passwordResetToken
  | session
  deriving DecidableEq, Repr

/-- What a job does between two awaits. -/
inductive EmailJobAction
  | read
  | write (w : AuthWrite)
  | send
  deriving DecidableEq, Repr

/-- What a workflow does between two awaits. -/
inductive WorkflowAction
  | read
  | write (w : AuthWrite)
  | enqueueEmail (start : List EmailJobAction)
  deriving DecidableEq, Repr

inductive WorkflowKind
  | register
  | resendEmailVerification (emailVerified : Bool)
  | requestPasswordReset
  deriving DecidableEq, Repr

def sendEmailVerification : List WorkflowAction :=
  [.write .emailVerificationToken, .enqueueEmail [.send]]

def processPasswordReset : List EmailJobAction := [.read, .write .passwordResetToken, .send]

/-- What runs under the reservation; a step may throw, and then the rest is left out. -/
def WorkflowKind.body : WorkflowKind → List WorkflowAction
  | .register => [.read, .read, .write .user] ++ sendEmailVerification ++ [.write .session]
  | .resendEmailVerification true => []
  | .resendEmailVerification false => sendEmailVerification
  | .requestPasswordReset => [.enqueueEmail processPasswordReset]

/-- What the log and the errors call the workflow. -/
def WorkflowKind.context : WorkflowKind → String
  | .register => "реєстрація"
  | .resendEmailVerification _ => "повторний лист підтвердження"
  | .requestPasswordReset => "скидання пароля"

inductive WorkflowPhase
  /-- The gate was closed. -/
  | refused
  /-- The reservation is live, and this is left to do. -/
  | running (kind : WorkflowKind) (rest : List WorkflowAction)
  | released (kind : WorkflowKind)
  deriving DecidableEq, Repr

inductive EmailJobPhase
  | running (rest : List EmailJobAction)
  | settled
  deriving DecidableEq, Repr

structure EmailJob where
  owner : WorkflowId
  phase : EmailJobPhase
  deriving DecidableEq, Repr

/-! ## The budget -/

inductive AuthShutdownPhase
  | workflow
  | email
  deriving DecidableEq, Repr

structure AuthShutdownTimeoutError where
  phase : AuthShutdownPhase
  pending : Nat
  budgetMs : Int
  deadlineAt : Time
  phaseBudgetMs : Int
  deriving DecidableEq, Repr

structure ShutdownBudget where
  totalMs : Int
  deadlineAt : Time
  deriving DecidableEq, Repr

def ShutdownBudget.start (totalMs : Int) (now : Time) : ShutdownBudget := ⟨totalMs, now + totalMs⟩

def ShutdownBudget.remainingMs (budget : ShutdownBudget) (now : Time) : Int :=
  max 0 (budget.deadlineAt - now)

/-- One phase that waits for what there was when it began. -/
structure Wait where
  jobs : List Nat
  budget : ShutdownBudget
  startedAt : Time
  deriving DecidableEq, Repr

/-- `settle`: the jobs race with a timer. -/
inductive Wait.Ends (settled : Nat → Prop) (now : Time) (w : Wait) : Bool → Prop
  | nothing : w.jobs = [] → Ends settled now w true
  | spent : w.jobs ≠ [] → w.budget.remainingMs w.startedAt ≤ 0 → Ends settled now w false
  | settled : w.jobs ≠ [] → 0 < w.budget.remainingMs w.startedAt → (∀ j ∈ w.jobs, settled j) →
      Ends settled now w true
  | expired : w.jobs ≠ [] → 0 < w.budget.remainingMs w.startedAt →
      w.startedAt + w.budget.remainingMs w.startedAt ≤ now → Ends settled now w false

inductive ShutdownPhase
  /-- `onModuleDestroy` has not been called. -/
  | up
  | waitingWorkflows (w : Wait)
  | waitingJobs (w : Wait)
  | resolved
  | threw (error : AuthShutdownTimeoutError)
  deriving DecidableEq, Repr

/-! ## The process -/

/-- The service in its process. `writes` and `mails` tell which workflow made them, itself or
through a job. -/
structure AuthProcess where
  clock : Time
  acceptingWorkflows : Bool
  acceptingEmailJobs : Bool
  workflows : WorkflowId → Option WorkflowPhase
  activeWorkflows : List WorkflowId
  jobs : EmailJobId → Option EmailJob
  activeEmailJobs : List EmailJobId
  writes : List (WorkflowId × AuthWrite)
  mails : List (WorkflowId × EmailJobId)
  shutdown : ShutdownPhase

namespace AuthProcess

/-- The reservation of the workflow is held. -/
def Live (s : AuthProcess) (w : WorkflowId) : Prop := ∃ kind rest, s.workflows w = some (.running kind rest)

/-- The job has been registered and has not settled. -/
def Unsettled (s : AuthProcess) (j : EmailJobId) : Prop :=
  ∃ owner rest, s.jobs j = some ⟨owner, .running rest⟩

def setWorkflow (s : AuthProcess) (w : WorkflowId) (ph : WorkflowPhase) : AuthProcess :=
  { s with workflows := Function.update s.workflows w (some ph) }

def setJob (s : AuthProcess) (j : EmailJobId) (job : EmailJob) : AuthProcess :=
  { s with jobs := Function.update s.jobs j (some job) }

def shuttingDown : ApiException :=
  ⟨.internalError, "Застосунок завершує роботу. Спробуйте запит ще раз за кілька секунд.", 503⟩

/-- `reserveWorkflow` -/
def reserveWorkflow (s : AuthProcess) (w : WorkflowId) (kind : WorkflowKind) :
    Except ApiException AuthProcess :=
  if s.acceptingWorkflows then
    .ok { s.setWorkflow w (.running kind kind.body) with activeWorkflows := w :: s.activeWorkflows }
  else .error shuttingDown

/-- `release` -/
def release (s : AuthProcess) (w : WorkflowId) (kind : WorkflowKind) : AuthProcess :=
  { s.setWorkflow w (.released kind) with activeWorkflows := s.activeWorkflows.erase w }

/-- `registerEmailJob`; the job starts in a later turn. -/
def registerEmailJob (s : AuthProcess) (w : WorkflowId) (j : EmailJobId)
    (start : List EmailJobAction) (context : String) : Except String AuthProcess :=
  if s.acceptingEmailJobs then
    .ok { s.setJob j ⟨w, .running start⟩ with activeEmailJobs := j :: s.activeEmailJobs }
  else .error s!"Фоновий лист ({context}) не стартував: auth-email gate уже закритий"

/-- `enqueueEmail` -/
def enqueueEmail (s : AuthProcess) (w : WorkflowId) (j : EmailJobId)
    (start : List EmailJobAction) : Except String AuthProcess :=
  match s.workflows w with
  | some (.running kind _) => s.registerEmailJob w j start kind.context
  | some (.released kind) =>
    .error s!"Фоновий лист ({kind.context}) поставлено після завершення workflow"
  -- without a reservation there is nothing to call it on
  | _ => .ok s

/-- What a step of a workflow does; `j` is the job that it may register. -/
def act (s : AuthProcess) (w : WorkflowId) (j : EmailJobId) :
    WorkflowAction → Except String AuthProcess
  | .read => .ok s
  | .write write => .ok { s with writes := (w, write) :: s.writes }
  | .enqueueEmail start => s.enqueueEmail w j start

/-- What a step of a job does. -/
def jobAct (s : AuthProcess) (owner : WorkflowId) (j : EmailJobId) : EmailJobAction → AuthProcess
  | .read => s
  | .write write => { s with writes := (owner, write) :: s.writes }
  | .send => { s with mails := (owner, j) :: s.mails }

/-- The first turn of `onModuleDestroy`. -/
def onModuleDestroy (totalMs : Int) (s : AuthProcess) : AuthProcess :=
  { s with
    acceptingWorkflows := false
    shutdown := .waitingWorkflows ⟨s.activeWorkflows, .start totalMs s.clock, s.clock⟩ }

/-- All workflows have settled: the gate of the e-mails closes. -/
def closeEmailGate (s : AuthProcess) (w : Wait) : AuthProcess :=
  { s with
    acceptingEmailJobs := false
    shutdown := .waitingJobs ⟨s.activeEmailJobs, w.budget, s.clock⟩ }

/-- `settlePhase` throws. -/
def timeout (s : AuthProcess) (phase : AuthShutdownPhase) (w : Wait) : AuthProcess :=
  { s with
    shutdown := .threw {
      phase
      pending := match phase with
        | .workflow => s.activeWorkflows.length
        | .email => s.activeEmailJobs.length
      budgetMs := w.budget.totalMs
      deadlineAt := w.budget.deadlineAt
      phaseBudgetMs := w.budget.remainingMs w.startedAt } }

def WorkflowSettled (s : AuthProcess) (w : WorkflowId) : Prop :=
  ∃ kind, s.workflows w = some (.released kind)

def JobSettled (s : AuthProcess) (j : EmailJobId) : Prop :=
  ∃ owner, s.jobs j = some ⟨owner, .settled⟩

end AuthProcess

inductive AuthProcessOp
  | wait (now : Time)
  | call (w : WorkflowId) (kind : WorkflowKind)
  | act (w : WorkflowId) (j : EmailJobId)
  | throw (w : WorkflowId)
  | release (w : WorkflowId)
  | jobAct (j : EmailJobId)
  | settleJob (j : EmailJobId)
  | forgetJob (j : EmailJobId)
  | destroy
  | proceed
  deriving DecidableEq, Repr

namespace AuthProcess

inductive Step (totalMs : Int) : AuthProcess → AuthProcessOp → AuthProcess → Prop
  | wait {s : AuthProcess} {now : Time} : s.clock ≤ now →
      Step totalMs s (.wait now) { s with clock := now }
  | accept {s s' : AuthProcess} {w : WorkflowId} {kind : WorkflowKind} : s.workflows w = none →
      s.reserveWorkflow w kind = .ok s' → Step totalMs s (.call w kind) s'
  | refuse {s : AuthProcess} {w : WorkflowId} {kind : WorkflowKind} {e : ApiException} :
      s.workflows w = none → s.reserveWorkflow w kind = .error e →
      Step totalMs s (.call w kind) (s.setWorkflow w .refused)
  | act {s s' : AuthProcess} {w : WorkflowId} {j : EmailJobId} {a : WorkflowAction}
      {kind : WorkflowKind} {rest : List WorkflowAction} :
      s.workflows w = some (.running kind (a :: rest)) → s.jobs j = none →
      s.act w j a = .ok s' → Step totalMs s (.act w j) (s'.setWorkflow w (.running kind rest))
  /-- The next step of the workflow throws: a check, the database, or `enqueueEmail`. -/
  | throw {s : AuthProcess} {w : WorkflowId} {kind : WorkflowKind} {rest : List WorkflowAction} :
      s.workflows w = some (.running kind rest) →
      Step totalMs s (.throw w) (s.setWorkflow w (.running kind []))
  | release {s : AuthProcess} {w : WorkflowId} {kind : WorkflowKind} :
      s.workflows w = some (.running kind []) → Step totalMs s (.release w) (s.release w kind)
  | jobAct {s : AuthProcess} {j : EmailJobId} {owner : WorkflowId} {a : EmailJobAction}
      {rest : List EmailJobAction} : s.jobs j = some ⟨owner, .running (a :: rest)⟩ →
      Step totalMs s (.jobAct j) ((s.jobAct owner j a).setJob j ⟨owner, .running rest⟩)
  /-- The job ends: at its end, before it (the address is unknown), or with an error. -/
  | settleJob {s : AuthProcess} {j : EmailJobId} {owner : WorkflowId}
      {rest : List EmailJobAction} : s.jobs j = some ⟨owner, .running rest⟩ →
      Step totalMs s (.settleJob j) (s.setJob j ⟨owner, .settled⟩)
  /-- `finally` takes the job out of the set. -/
  | forgetJob {s : AuthProcess} {j : EmailJobId} : s.JobSettled j →
      Step totalMs s (.forgetJob j) { s with activeEmailJobs := s.activeEmailJobs.erase j }
  | destroy {s : AuthProcess} : s.shutdown = .up →
      Step totalMs s .destroy (s.onModuleDestroy totalMs)
  | workflowsSettled {s : AuthProcess} {w : Wait} : s.shutdown = .waitingWorkflows w →
      w.Ends s.WorkflowSettled s.clock true → Step totalMs s .proceed (s.closeEmailGate w)
  | workflowsTimeout {s : AuthProcess} {w : Wait} : s.shutdown = .waitingWorkflows w →
      w.Ends s.WorkflowSettled s.clock false → Step totalMs s .proceed (s.timeout .workflow w)
  | jobsSettled {s : AuthProcess} {w : Wait} : s.shutdown = .waitingJobs w →
      w.Ends s.JobSettled s.clock true → Step totalMs s .proceed { s with shutdown := .resolved }
  | jobsTimeout {s : AuthProcess} {w : Wait} : s.shutdown = .waitingJobs w →
      w.Ends s.JobSettled s.clock false → Step totalMs s .proceed (s.timeout .email w)

/-- A process that has just started. -/
structure Init (s : AuthProcess) : Prop where
  acceptingWorkflows : s.acceptingWorkflows = true
  acceptingEmailJobs : s.acceptingEmailJobs = true
  workflows : ∀ w, s.workflows w = none
  activeWorkflows : s.activeWorkflows = []
  jobs : ∀ j, s.jobs j = none
  activeEmailJobs : s.activeEmailJobs = []
  writes : s.writes = []
  mails : s.mails = []
  shutdown : s.shutdown = .up

end AuthProcess

/-- The machine of workflows, e-mail jobs and one shutdown. -/
def authLifecycle (totalMs : Int) : Machine AuthProcess AuthProcessOp where
  init := AuthProcess.Init
  step := AuthProcess.Step totalMs

end Bookswap
