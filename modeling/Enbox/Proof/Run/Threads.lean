import Enbox.Proof.Concrete
import Enbox.Proof.Run.Journal

/-! # A small world of threads -/

namespace Enbox.Proof.Run.Threads

open Concrete

def uri : String := "https://threads"

def definition : Definition where
  protocol := uri
  published := true
  types := [("thread", {}), ("participant", {})]
  structure_ := [("thread",
    { actions := [.role (.plain ["thread", "participant"]) [.coUpdate]]
      rules := [("participant", { role := some true })] })]

def configure : ConfigureDescriptor where
  messageTimestamp := 1
  definition := definition

def thread (data : String) (timestamp : Timestamp) : WriteDescriptor where
  protocol := uri
  protocolPath := ["thread"]
  dataCid := data
  dataSize := data.length
  dateCreated := 2
  messageTimestamp := timestamp
  dataFormat := "text/plain"

def participant : WriteDescriptor where
  protocol := uri
  protocolPath := ["thread", "participant"]
  recipient := some "did:ex:bob"
  parentId := some "T2"
  dataCid := "role"
  dataSize := 4
  dateCreated := 3
  messageTimestamp := 3
  dataFormat := "text/plain"

def configureMessage : Message := signedMessage (.protocolsConfigure configure) "configure"

def write (descriptor : WriteDescriptor) (payload party recordId : String) (context : Path) :
    Message where
  descriptor := .recordsWrite descriptor
  fields :=
    { authorization := { signature := signedBy payload party }
      recordId := some recordId
      contextId := some context }

def one : Message := write (thread "one" 2) "one" "alice" "T1" ["T1"]
def two : Message := write (thread "two" 2) "two" "alice" "T2" ["T2"]
def role : Message := write participant "role" "alice" "R1" ["T2", "R1"]

def edit : Message := write (thread "two" 4) "edit" "bob" "T2" ["T2"]

def twoAsOne : Message := write (thread "one" 2) "twoAsOne" "alice" "T2" ["T2"]

def moved : Message := write (thread "one" 4) "moved" "alice" "T1" ["T2"]

def movedByBob : Message := write (thread "one" 4) "movedByBob" "bob" "T1" ["T2"]

def payload (descriptorCid recordId : String) (context : Path) (role : Option Reference := none) :
    RecordsWriteAuthorizationPayloadData where
  descriptorCid := descriptorCid
  recordId := recordId
  contextId := context
  protocolRole := role

def configuring : Script := parties.adding configureMessage "dc" "m0"

def asParticipant : Option Reference := some (.plain ["thread", "participant"])

def script : Script :=
  let posted := configuring.posted one "d1" "m3" "T1" |>.posted two "d2" "m1" "T2"
    |>.posted role "dr" "m4" "R1" |>.signed twoAsOne "d1" "m2" |>.posted moved "d3" "m6" "e1"
  { posted with
    cids := [
      (.descriptor (.recordsWrite (thread "two" 4)), "d4"),
      (.entry "did:ex:bob" (thread "one" 4), "e2"),
      (.entry "did:ex:bob" (thread "one" 2), "e3"),
      (.entry "did:ex:bob" (thread "two" 4), "e4"),
      (.entry "did:ex:bob" (thread "two" 2), "e5"),
      (.message edit, "m5"),
      (.message movedByBob, "m7")] ++ posted.cids
    writePayloads := ("edit", payload "d4" "T2" ["T2"] asParticipant) ::
      ("movedByBob", payload "d3" "T1" ["T2"] asParticipant) :: posted.writePayloads }

noncomputable section

abbrev p : Primitives := script.primitives

theorem collisionFree : p.CollisionFree := script.collisionFree (by decide) (by decide)

def request (message : Message) (data : String) : Request where
  tenant := "did:ex:alice"
  message := message
  data := some (textBytes data)
  resolver := some openResolver

def started : List Event :=
  [.request (request configureMessage ""), .request (request one "one"),
    .request (request two "two")]

def joined : List Event := started ++ [.request (request role "role")]

def stores (events : List Event) : Stores := events.foldl (step p) {}

def journal (events : List Event) : Journal := events.foldl (Journal.record p) {}

def bobContext (payload : RecordsWriteAuthorizationPayloadData) : AuthorizationContext :=
  ownContext "did:ex:bob" (.recordsWrite payload)

def editContext : AuthorizationContext := bobContext (payload "d4" "T2" ["T2"] asParticipant)
def movedContext : AuthorizationContext := bobContext (payload "d3" "T1" ["T2"] asParticipant)

def edited : List Event := joined ++ [.request (request edit "two")]

end

end Enbox.Proof.Run.Threads
