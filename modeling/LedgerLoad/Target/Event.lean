import LedgerLoad.Report.Json

/-!
Transactions as they are pushed to a subscriber.
-/

set_option autoImplicit false

namespace LedgerLoad

/-- A transaction pushed by the ledger service over a subscription. -/
structure TransactionEvent where
  txId : String := ""
  sender : String := ""
  receiver : String := ""
  amount : Int := 0
  kind : String := ""
  timestamp : String := ""
deriving DecidableEq, Repr, Inhabited

def TransactionEvent.codec : Json.Codec TransactionEvent :=
  Json.Fields.codec
    (.cons ⟨"tx_id", .text, none⟩ <|
     .cons ⟨"from", .text, none⟩ <|
     .cons ⟨"to", .text, none⟩ <|
     .cons ⟨"amount", .int, none⟩ <|
     .cons ⟨"type", .text, none⟩ <|
     .cons ⟨"timestamp", .text, none⟩ .nil)
    (fun (txId, sender, receiver, amount, kind, timestamp, ()) => ⟨txId, sender, receiver, amount, kind, timestamp⟩)
    (fun e => (e.txId, e.sender, e.receiver, e.amount, e.kind, e.timestamp, ()))

end LedgerLoad
