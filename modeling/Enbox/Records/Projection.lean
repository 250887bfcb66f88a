import Enbox.Records.Control
import Mathlib.Data.List.MinMax
import Mathlib.Data.Prod.Lex
import Mathlib.Data.String.Basic

/-! # Current audiences -/

namespace Enbox

abbrev ProjectionRank := Lex (Bool × Lex (Timestamp × String))

section

variable (p : Primitives) (store : MessageStore) (tenant : Did)

variable (filter : Option RecordsFilter)

def projectionRank (record : Message) : Option ProjectionRank := do
  let descriptor ← record.writeDescriptor
  let signer ← messageSigner p record
  let recordId ← record.recordId
  return toLex (signer ≠ tenant, toLex (descriptor.dateCreated, recordId))

def currentAudienceFilters (scope : AudienceScope) : FilterSet :=
  [(.interface, stringFilter recordsInterface), (.method, stringFilter writeMethod),
    (.protocol, stringFilter scope.protocol),
    (.protocolPath, pathFilter ControlKind.audience.protocolPath),
    (.isLatestBaseState, boolFilter true),
    (.tag "protocol", stringFilter scope.protocol),
    (.tag "rolePath", stringFilter scope.rolePath),
    (.tag "contextId", stringFilter scope.contextId)]

def rankedAudiences (scope : AudienceScope) : List (ProjectionRank × Message) :=
  (store.query tenant [currentAudienceFilters scope]).filterMap fun record =>
    (projectionRank p tenant record).map (·, record)

def currentAudienceRecordId (scope : AudienceScope) : Option String :=
  ((rankedAudiences p store tenant scope).argmin Prod.fst).bind fun winner => winner.2.recordId

def pinsAudienceKey (filter : RecordsFilter) (id : AudienceId) : Bool :=
  pinsAudienceScope filter id && pinnedTag filter "keyId" = some id.keyId

def projectedScope (record : Message) : Option AudienceScope :=
  if ControlKind.of record ≠ some .audience then none
  else do
    let id ← (AudienceId.fromMessage record .audience).toOption
    if filter.any fun filter => namesRecord filter record || pinsAudienceKey filter id then none
    else return id.scope

def projectCurrentAudiences (records : List Message) : List Message :=
  records.filter fun record =>
    (projectedScope filter record).all fun scope =>
      currentAudienceRecordId p store tenant scope = record.recordId

end

end Enbox
