/-!
# Why a session ended
-/

namespace HubDevice

/-- Why a session ended. -/
inductive CloseCause where
  /-- It was closed from this side. -/
  | closedLocally
  /-- It was lost: a network failure, a disconnect by the hub, or nobody kept it. -/
  | remote (reason : String)
  deriving DecidableEq, Repr

def CloseCause.display : CloseCause → String
  | .closedLocally => "closed locally"
  | .remote reason => reason

end HubDevice
