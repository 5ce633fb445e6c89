import LedgerLoad.Config
import LedgerLoad.Target.Grpc
import LedgerLoad.Target.Rest

/-!
The client that calls are made through, on either transport.
-/

set_option autoImplicit false

namespace LedgerLoad

inductive Client where
  | grpc (t : GrpcTarget)
  | rest (t : RestTarget)

def Client.ofText (p : Protocol) (address : String) : Except TargetError Client :=
  match p with
  | .grpc => (GrpcTarget.ofText address).map .grpc
  | .rest => (RestTarget.ofText address).map .rest

end LedgerLoad
