import VeaOS.Nvme.Queue

/-! The calls that submit a command to the admin queue. A call submits under the lock and
then waits without it: it reads the head and the phase, polls the entry at the head until
its bit turns or the time is over, takes it, and moves the head, one access at a time. -/
namespace VeaOS.Nvme
open Foundation
variable {Thread : Type*}

def nvmeAdminQueueDepth : Nat := 32

inductive AdminStage where
  | submitted
  | readHead
  | polling
  | found
  | copied
  | toggledPhase
  | storedHead
  | rangDoorbell
  deriving DecidableEq

inductive AdminStatus where
  | success
  | ioDeviceError
  | ioTimeout
  deriving DecidableEq

/-- A call under way; `serial` is the number of its submission. -/
structure AdminCall where
  stage : AdminStage
  serial : Nat
  head : Nat
  expectedPhase : Bool
  timeout : UInt32
  completion : Option NvmeCompletion

/-- What a call returned: the completion that it copied, and the entry whose status it
looked at. -/
structure AdminReturn where
  serial : Nat
  status : AdminStatus
  completion : Option NvmeCompletion
  judged : Option NvmeCompletion

/-- `consumed` are the entries taken, each with the submission of the call that took it. -/
structure AdminState (Thread : Type*) where
  queue : NvmeQueue
  call : Thread → Option AdminCall
  consumed : List (Nat × NvmeCompletion)
  returns : List AdminReturn

inductive AdminAction (Thread : Type*) where
  | submit (thread : Thread) (command : NvmeCommand)
  | proceed (thread : Thread)
  | fetch
  | post (i : Nat) (status : BitVec 15)

/-- The call reads the head that it will move. -/
def AdminStage.reading : AdminStage → Bool
  | .readHead | .polling | .found | .copied | .toggledPhase => true
  | _ => false

namespace AdminState
variable [DecidableEq Thread] (depth : Nat) (readyTimeoutMs : UInt32) (σ : AdminState Thread) (thread : Thread)

def setCall (c : Option AdminCall) : AdminState Thread := { σ with call := Function.update σ.call thread c }

def answer (r : AdminReturn) : AdminState Thread := { σ.setCall thread none with returns := r :: σ.returns }

def proceed (c : AdminCall) : AdminState Thread :=
  match c.stage with
  | .submitted => σ.setCall thread (some { c with stage := .readHead, head := σ.queue.completionHead })
  | .readHead => σ.setCall thread (some { c with
      stage := .polling, expectedPhase := σ.queue.phase, timeout := readyTimeoutMs * 10 })
  | .polling =>
    if (σ.queue.completion c.head).phase = c.expectedPhase then σ.setCall thread (some { c with stage := .found })
    else if c.timeout = 0 then σ.answer thread ⟨c.serial, .ioTimeout, none, none⟩
    else σ.setCall thread (some { c with timeout := c.timeout - 1 })
  | .found =>
    let entry := σ.queue.completion c.head
    { σ.setCall thread (some { c with stage := .copied, completion := some entry }) with
      consumed := σ.consumed ++ [(c.serial, entry)] }
  | .copied => { σ.setCall thread (some { c with stage := .toggledPhase }) with
      queue := { σ.queue with phase := if (c.head + 1) % depth = 0 then !σ.queue.phase else σ.queue.phase } }
  | .toggledPhase => { σ.setCall thread (some { c with stage := .storedHead }) with
      queue := { σ.queue with completionHead := (c.head + 1) % depth } }
  | .storedHead => { σ.setCall thread (some { c with stage := .rangDoorbell }) with
      queue := { σ.queue with completionDoorbell := (c.head + 1) % depth } }
  | .rangDoorbell =>
    let entry := σ.queue.completion c.head
    σ.answer thread ⟨c.serial, if entry.status = 0 then .success else .ioDeviceError, c.completion, some entry⟩

def step : AdminAction Thread → Option (AdminState Thread)
  | .submit thread command =>
    if (σ.call thread).isNone then
      some { σ.setCall thread (some ⟨.submitted, σ.queue.submitted.length, 0, false, 0, none⟩) with
        queue := σ.queue.submit depth command }
    else none
  | .proceed thread => (σ.call thread).map (σ.proceed depth readyTimeoutMs thread)
  | .fetch => (σ.queue.fetch depth).map fun q => { σ with queue := q }
  | .post i status => (σ.queue.post depth i status).map fun q => { σ with queue := q }

end AdminState

def nvmeSetupAdminQueue (Thread : Type*) : AdminState Thread where
  queue := nvmeInitializeQueueState
  call := fun _ => none
  consumed := []
  returns := []

end VeaOS.Nvme
