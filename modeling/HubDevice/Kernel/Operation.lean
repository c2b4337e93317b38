import HubDevice.Kernel.State

/-!
# Operations on an open connection

Each attempt of an operation first makes sure that the connection is usable, waiting for the gate when
it is not up, and then forwards the operation to the session in the slot. Turning a subscription on or
off holds the gate from the check until the transport has answered, so that the recorded features and
the subscriptions on the session change together.
-/

namespace HubDevice.Kernel

/-- One step of the check that an operation of a party may use the connection. -/
def Admission.step (p : Party) (k : Kernel) :
    Admission → Step Kernel Admission (Except ClientError Unit)
  | .checkDisposed =>
    if k.disposed then some (k, .done (.error .disposed)) else some (k, .more .checkConnected)
  | .checkConnected =>
    if k.connected then some (k, .done (.ok ())) else some (k, .more .askGate)
  | .askGate => some ({ k with gate := k.gate.request p }, .more .awaitGate)
  | .awaitGate => if k.gate.heldBy p then some (k, .more .readLink) else none
  | .readLink => some ({ k with gate := k.gate.release }, .done (checkLink k.link))

/-- Gives the check up. -/
def Admission.abandon (p : Party) (k : Kernel) : Admission → Kernel
  | .awaitGate | .readLink => { k with gate := k.gate.withdraw p }
  | _ => k

/-! ## Data operations -/

/-- One step of an attempt of a data operation. -/
def Guarded.step (x : Exchange) (p : Party) (k : Kernel) :
    Guarded → Step Kernel Guarded (Except ClientError Reply)
  | .admission a =>
    match a.step p k with
    | none => none
    | some (k, .more a) => some (k, .more (.admission a))
    | some (k, .done (.ok ())) => some (k, .more (.calling (.start x)))
    | some (k, .done (.error e)) => some (k, .done (.error e))
  | .calling f =>
    match k.liftHandler (f.step k.handler) with
    | none => none
    | some (k, .more f) => some (k, .more (.calling f))
    | some (k, .done r) => some (k, .done r)

/-- Gives an attempt of a data operation up. -/
def Guarded.abandon (p : Party) (k : Kernel) : Guarded → Kernel
  | .admission a => a.abandon p k
  | .calling f => { k with handler := f.abandon k.handler }

/-- A data operation, as an action that can be retried. -/
def guarded (x : Exchange) (p : Party) : Retry.Action Kernel Guarded Reply where
  start := .admission .checkDisposed
  step k a := a.step x p k
  abandon k a := a.abandon p k
  granted k _ _ _ := k
  now k := k.handler.now

/-! ## Turning subscriptions on and off -/

/-- The features after one was turned on or off; module events record their routing. -/
def toggled (fs : Features) (f : Feature) (enable edge : Bool) : Features :=
  let fs := fs.set f enable
  if f = .events then { fs with edge } else fs

/-- One step of an attempt to turn a feature on or off. -/
def Toggling.step (f : Feature) (enable edge : Bool) (p : Party) (k : Kernel) :
    Toggling → Step Kernel Toggling (Except ClientError Reply)
  | .admission a =>
    match a.step p k with
    | none => none
    | some (k, .more a) => some (k, .more (.admission a))
    | some (k, .done (.ok ())) => some (k, .more .askGate)
    | some (k, .done (.error e)) => some (k, .done (.error e))
  | .askGate => some ({ k with gate := k.gate.request p }, .more .awaitGate)
  | .awaitGate => if k.gate.heldBy p then some (k, .more .check) else none
  | .check =>
    match checkLink k.link with
    | .error e => some ({ k with gate := k.gate.release }, .done (.error e))
    | .ok () =>
      if k.features.has f = enable then
        some ({ k with gate := k.gate.release }, .done (.error (.featureState f enable)))
      else some (k, .more (.calling (.start enable (f.channel edge))))
  | .calling g =>
    match k.liftHandler (g.step k.handler) with
    | none => none
    | some (k, .more g) => some (k, .more (.calling g))
    | some (k, .done (.ok ())) =>
      some ({ k with features := toggled k.features f enable edge, gate := k.gate.release },
        .done (.ok .done))
    | some (k, .done (.error e)) => some ({ k with gate := k.gate.release }, .done (.error e))

/-- Gives an attempt to turn a feature on or off up. -/
def Toggling.abandon (p : Party) (k : Kernel) : Toggling → Kernel
  | .admission a => a.abandon p k
  | .askGate => k
  | .awaitGate | .check => { k with gate := k.gate.withdraw p }
  | .calling g => { k with handler := g.abandon k.handler, gate := k.gate.withdraw p }

/-- Turning a feature on or off, as an action that can be retried. -/
def toggling (f : Feature) (enable edge : Bool) (p : Party) : Retry.Action Kernel Toggling Reply where
  start := .admission .checkDisposed
  step k a := a.step f enable edge p k
  abandon k a := a.abandon p k
  granted k _ _ _ := k
  now k := k.handler.now

end HubDevice.Kernel
