import Enbox.Store.FeedReader

/-! # Messages of an event subscription -/

namespace Enbox

open Lib

inductive SubscriptionErrorCode
  | progressGap
  | deliveryAuthorizationFailed
  | deliveryFailed
  | recordsDeliveryAuthorizationFailed
  | recordsDeliveryFailed
  | recordsProjectionFailed
  deriving DecidableEq

def SubscriptionErrorCode.text : SubscriptionErrorCode → String
  | progressGap => "ProgressGap"
  | deliveryAuthorizationFailed => "MessagesSubscribeDeliveryAuthorizationFailed"
  | deliveryFailed => "MessagesSubscribeDeliveryFailed"
  | recordsDeliveryAuthorizationFailed => "RecordsSubscribeDeliveryAuthorizationFailed"
  | recordsDeliveryFailed => "RecordsSubscribeDeliveryFailed"
  | recordsProjectionFailed => "RecordsSubscribeProjectionFailed"

/-- The detail of a progress gap prints the gap. -/
inductive SubscriptionErrorDetail
  | text (detail : String)
  | progressGap (gap : ProgressGapInfo)
  deriving DecidableEq

structure SubscriptionError where
  code : SubscriptionErrorCode
  detail : SubscriptionErrorDetail
  deriving DecidableEq

structure MessageEvent where
  message : Message
  initialWrite : Option Message := none
  deriving DecidableEq

inductive SubscriptionMessage
  | event (cursor : ProgressToken) (event : MessageEvent) (seq : Option String)
      (messageCid : Option Cid) (isLatestBaseState : Option Bool) (protocol : Option String)
      (encodedData : Option String)
  | eose (cursor : ProgressToken)
  | error (cursor : ProgressToken) (error : SubscriptionError)
  deriving DecidableEq

def shownFlag : Value → Bool
  | .scalar (.bool value) => value
  | .scalar (.string value) => value = "true"
  | _ => false

/-- The cursor of an entry is in the domain of its page. -/
def entryCursor (entry : EventLogEntry) (pageCursor : ProgressToken) : ProgressToken :=
  { pageCursor with position := entry.seq, messageCid := entry.messageCid }

def eventMessage (entry : EventLogEntry) (pageCursor : ProgressToken)
    (initialWrite : Option Message) : SubscriptionMessage :=
  .event (entryCursor entry pageCursor) ⟨entry.message, initialWrite⟩ (some entry.seq)
    entry.messageCid ((entry.indexes.lookup .isLatestBaseState).map shownFlag)
    (stringIndex entry.indexes .protocol) entry.encodedData

end Enbox
