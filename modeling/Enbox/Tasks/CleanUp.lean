import Enbox.Tasks.Controller

/-! # Clean-ups -/

namespace Enbox

inductive CleanUp
  | prune (recordId : String)
  | squash (message : Message)
  | revocation (message : Message)
  deriving DecidableEq

def CleanUp.ops (p : Primitives) (tenant : Did) (stores : Stores) :
    CleanUp → Except Failure (List StoreOp)
  | .prune recordId => purgeDescendantsOps p tenant (stores.messages.length + 1) stores recordId
  | .squash message => performRecordsSquashOps p tenant stores message
  | .revocation message => .ok (postProcessPermissionsWriteOps p stores.messages tenant message)

end Enbox
