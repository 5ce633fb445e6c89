import LedgerLoad.MockLedger.Rest
import LedgerLoad.Target.Grpc

/-!
The gRPC side of the mock ledger.
-/

set_option autoImplicit false

namespace LedgerLoad.MockLedger.Grpc

def getBalance (s : Surroundings) (account : String) : Except GrpcStatus Balance :=
  if isMissing account then .error ⟨.notFound, notFoundText account⟩ else .ok (balanceOf s account)

/-- The balances of those accounts that are known, in order, each made up anew. -/
def getBalances (s : Surroundings) (accounts : List String) : List Balance :=
  (accounts.filter (!isMissing ·)).mapIdx fun n account => balanceOf (s.after n) account

def rateOf (rateLimit : Int) : Nat := rateLimit.toNat

def message : Tick → Except GrpcStatus GrpcTransaction
  | .transaction t => .ok ⟨t.txId, t.sender, t.receiver, t.amount, t.kind, t.timestamp⟩
  | .failure => .error ⟨.unavailable, feedLost⟩

def stream (ticks : List Tick) : List (Except GrpcStatus TransactionEvent) := GrpcTarget.taken (ticks.map message)

end LedgerLoad.MockLedger.Grpc
