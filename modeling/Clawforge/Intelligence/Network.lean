import Clawforge.Intelligence.Feeds

/-!
# Networks and routes

The routing facts the providers report, the networks an owner registers, and what is
observed of one address, as far as the risk engine reads them.
-/

namespace Clawforge.Intelligence

inductive RpkiStatus
  | valid | unknown | invalid
deriving DecidableEq

inductive BgpStatus
  | stable | changed | anomalous | unknown
deriving DecidableEq

inductive VerificationStatus
  | pending | verified | revoked
deriving DecidableEq

structure TrustedNetwork where
  identifier : String
  networks : List String
  nodeIdentities : List String
  status : VerificationStatus
deriving DecidableEq

namespace TrustedNetwork

/-- `is_verified`. -/
def isVerified (n : TrustedNetwork) : Bool := n.status = .verified

end TrustedNetwork

structure NetworkObservation where
  ip : Option String
  identifier : Option String
  nodeIdentity : Option String
  bgpStatus : BgpStatus
  rpkiStatus : RpkiStatus
  historyScore : Nat
deriving DecidableEq

end Clawforge.Intelligence
