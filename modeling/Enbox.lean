import Enbox.Proof.Authority.Owner
import Enbox.Proof.Collection.Deletion
import Enbox.Proof.Collection.Guard
import Enbox.Proof.Collection.Projection
import Enbox.Proof.Collection.Sizes
import Enbox.Proof.EventLog.Memory
import Enbox.Proof.EventLog.Tenants
import Enbox.Proof.Message.Tags
import Enbox.Proof.Messages.Query
import Enbox.Proof.Messages.Read
import Enbox.Proof.Permission.Binding
import Enbox.Proof.Permission.Identity
import Enbox.Proof.Protocols.Conformance
import Enbox.Proof.Protocols.Encryption
import Enbox.Proof.Protocols.Policy
import Enbox.Proof.Run.Creator
import Enbox.Proof.State.Concurrent
import Enbox.Proof.State.Squash
import Enbox.Proof.Store.Atomic
import Enbox.Proof.Store.Occupancy
import Enbox.Proof.Store.StateIndex
import Enbox.Proof.Sync.Cursor
import Enbox.Proof.Sync.Exclusion
import Enbox.Proof.Tasks.Prune
