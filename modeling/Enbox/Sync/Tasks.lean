import Enbox.Sync.Engine

/-! # Tasks of the sync engine -/

namespace Enbox

structure SyncOperation where
  tenant : Did
  remote : String
  direction : SyncDirection
  deriving DecidableEq

namespace SyncOperation

def key (operation : SyncOperation) : String :=
  operationKey operation.tenant operation.remote operation.direction

def ofRequest (request : SyncOnceRequest) : SyncOperation :=
  ⟨request.tenant, request.remote, request.direction⟩

def ofRetry (retry : DeadLetterRetry) : SyncOperation :=
  ⟨retry.letter.tenant, retry.letter.remote, retry.direction⟩

end SyncOperation

structure SyncTasks (Local Remote Hash : Type) where
  session : SyncSession Local Remote Hash
  called : List SyncOperation := []
  active : List SyncOperation := []
  deriving DecidableEq

/-- `work` stands for all that is done between `begin_operation` and `end_operation`, and for
everything else the engine does. -/
inductive SyncTaskEvent (Local Remote Hash : Type)
  | once (request : SyncOnceRequest)
  | retry (id : Nat)
  | start (operation : SyncOperation)
  | work (session : SyncSession Local Remote Hash)
  | finish (operation : SyncOperation)

namespace SyncTasks

variable {Local Remote Hash : Type}

variable (tasks : SyncTasks Local Remote Hash)

def opened (session : SyncSession Local Remote Hash) : SyncTasks Local Remote Hash :=
  { session := { session with engine := { session.engine with running := [] } } }

def call (operation : SyncOperation) : SyncTasks Local Remote Hash :=
  { tasks with called := operation :: tasks.called }

def start (operation : SyncOperation) : SyncTasks Local Remote Hash :=
  let called := tasks.called.erase operation
  match tasks.session.engine.beginOperation operation.key with
  -- The call returns `AlreadyRunning`.
  | none => { tasks with called }
  | some engine =>
      { session := { tasks.session with engine }, called, active := operation :: tasks.active }

def finish (operation : SyncOperation) : SyncTasks Local Remote Hash :=
  { tasks with
    session := { tasks.session with engine := tasks.session.engine.endOperation operation.key }
    active := tasks.active.erase operation }

def step :
    SyncTaskEvent Local Remote Hash → SyncTasks Local Remote Hash
  | .once request =>
      if (connectivityError request.connectivity).isNone then tasks.call (.ofRequest request)
      else tasks
  | .retry id =>
      match retryableDeadLetter tasks.session id with
      | .ok retry => tasks.call (.ofRetry retry)
      | .error _ => tasks
  | .start operation => if operation ∈ tasks.called then tasks.start operation else tasks
  | .work session => { tasks with
      session := { session with
        engine := { session.engine with running := tasks.session.engine.running } } }
  | .finish operation => if operation ∈ tasks.active then tasks.finish operation else tasks

end SyncTasks

end Enbox
