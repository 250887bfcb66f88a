import Enbox.Proof.Protocols.Depth

/-! # The encrypted paths of an accepted definition -/

namespace Enbox.Proof.Protocols

open Lib

variable {definition : Definition} {rules : List (String × RuleSet)} {path rest : Path}
  {ruleSet : RuleSet} {roles : List Path} {actions seen : List Action} {action : Action}

end Enbox.Proof.Protocols
