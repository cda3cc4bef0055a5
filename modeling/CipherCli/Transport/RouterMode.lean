import CipherCli.Transport.Router

/-!
# The mode of the router

`TransportRouter::start` tries the privacy layers that the mode asks for. Neither it nor any
other operation that a command uses changes the mode.
-/

namespace CipherCli.Transport

/-- What the layers come to that `start` tries: whether Iroh is up, and the states of the
other two. -/
structure Bootstrap where
  iroh : Bool
  nym : NymState
  tor : TorState

namespace TransportRouter

def connectNym (boot : Bootstrap) (router : TransportRouter) : TransportRouter :=
  { router with nym := { router.nym with state := boot.nym } }

def bootstrapTor (boot : Bootstrap) (router : TransportRouter) : TransportRouter :=
  { router with tor := { router.tor with state := boot.tor } }

/-- `start`. -/
def start (boot : Bootstrap) (router : TransportRouter) : TransportRouter :=
  match router.mode with
  | .auto =>
    if boot.iroh then router
    else
      match boot.nym with
      | .connected _ => router.connectNym boot
      | _ => (router.connectNym boot).bootstrapTor boot
  | .nym => router.connectNym boot
  | .tor => router.bootstrapTor boot
  | .iroh | .direct | .domainFronting => router

@[simp] theorem start_mode (boot : Bootstrap) (router : TransportRouter) :
    (router.start boot).mode = router.mode := by
  unfold start
  split
  · split
    · rfl
    · split <;> rfl
  · rfl
  · rfl
  · rfl
  · rfl
  · rfl

@[simp] theorem queueMessage_mode (now : DateTime) (irohSend : Except CipherError Unit)
    (router : TransportRouter) (recipient : String) (data : Bytes) :
    (router.queueMessage now irohSend recipient data).2.mode = router.mode := by
  unfold queueMessage
  split
  · split <;> rfl
  · split <;> rfl
  · split <;> rfl
  · split <;> rfl
  · rfl
  · rfl

end TransportRouter

end CipherCli.Transport
