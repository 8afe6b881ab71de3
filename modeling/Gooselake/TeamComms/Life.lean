import Gooselake.Runtime.Recovery
import Gooselake.TeamComms.Service

/-!
The team service over its whole life: it serves calls and is restarted, which drops the calls and rebuilds the
session manager and the service from their stores.
-/

namespace Gooselake.TeamComms

open Gooselake.Core Data Library Library.Exec
open Gooselake.Runtime (Manager RecoveryAnswers)

set_option autoImplicit false

inductive Event where
  | serve (l : Label)
  | restart (providers : List ProviderKind) (answers : RecoveryAnswers) (config : RuntimeTeamCommsConfig)
      (nonce : String)

namespace Service

def recovered (runtime : Manager) (providers : List ProviderKind) (answers : RecoveryAnswers) : Manager :=
  ((Runtime.recoverStartup answers).result (Manager.new runtime.store providers runtime.clock)).2

def live : Event → Service → Option Service
  | .serve l, s => s.step l
  | .restart providers answers config nonce, s =>
    some (start (Comms.new (recovered s.comms.runtime providers answers) s.comms.store config nonce))

end Service

end Gooselake.TeamComms
