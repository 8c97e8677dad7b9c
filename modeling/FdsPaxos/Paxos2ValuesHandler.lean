import FdsPaxos.Paxos2Config
import FdsPaxos.Paxos2Messages

set_option autoImplicit false

/-! The pending list of `proposer_values_handler.c`, and the answers given to clients. -/

namespace FdsPaxos.Paxos2ValuesHandler
open Paxos2Config Paxos2Messages

/-- `accepted` keeps all values that were enqueued, and `found` those of other proposers that
an instance without a value was given. -/
structure ValuesHandler where
  pendingList : List Value
  droppedCount : ℕ
  notified : List (ℤ × Value)
  accepted : List Value
  found : List Value

def vhInit (vh : ValuesHandler) : ValuesHandler :=
  { vh with pendingList := [], droppedCount := 0 }

def vhPendingListSize (vh : ValuesHandler) : ℕ := vh.pendingList.length

def vhEnqueueValue (cfg : Config) (vh : ValuesHandler) (value : Value) : ValuesHandler :=
  if cfg.leaderMaxQueueLength < vhPendingListSize vh then
    { vh with droppedCount := vh.droppedCount + 1 }
  else
    { vh with pendingList := vh.pendingList ++ [value], accepted := value :: vh.accepted }

def vhGetNextPending (vh : ValuesHandler) : Option (Value × ValuesHandler) :=
  match vh.pendingList with
  | [] => none
  | value :: rest => some (value, { vh with pendingList := rest })

def vhPushBackValue (vh : ValuesHandler) (value : Value) : ValuesHandler :=
  { vh with pendingList := value :: vh.pendingList }

def vhNotifyClient (vh : ValuesHandler) (result : ℤ) (value : Value) : ValuesHandler :=
  { vh with notified := vh.notified ++ [(result, value)] }

def vhFound (vh : ValuesHandler) (value : Value) : ValuesHandler :=
  { vh with found := value :: vh.found }

def vhShutdown (vh : ValuesHandler) : ValuesHandler :=
  { vh with
    pendingList := []
    notified := vh.notified ++ vh.pendingList.map fun value => (-1, value) }

end FdsPaxos.Paxos2ValuesHandler
