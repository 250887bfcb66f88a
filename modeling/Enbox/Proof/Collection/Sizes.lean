import Enbox.Proof.Run.Threads
import Enbox.Records.Collection

/-! # Ranges over the size of the data -/

namespace Enbox.Proof.Collection

open Lib Run

section

variable {size : Nat} {bound lower upper : Bound U64}

end

end Enbox.Proof.Collection
