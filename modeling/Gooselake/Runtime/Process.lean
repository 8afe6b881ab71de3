import Gooselake.Runtime.Recovery
import Gooselake.Runtime.Server

/-!
The server over its whole life: it serves calls, runs the startup recovery and is restarted, which
drops the calls and the waits and rebuilds the maps from the store.
-/

namespace Gooselake.Runtime

open Gooselake.Core Data Library Library.Exec

set_option autoImplicit false

inductive Event where
  | serve (l : Label)
  | recover (answers : RecoveryAnswers)
  | restart (providers : List ProviderKind)

namespace Server

def live : Event → Server → Option Server
  | .serve l, s => s.step l
  | .recover answers, s => some { s with manager := ((recoverStartup answers).result s.manager).2 }
  | .restart providers, s => some (start (Manager.new s.manager.store providers s.manager.clock))

end Server

theorem Manager.new_sessions {store : Store} {providers : List ProviderKind} {clock : ℤ} {k : String}
    {r : SessionRecord} (h : (Manager.new store providers clock).sessions.lookup k = some r) :
    r ∈ store.sessions ∧ r.id = k := by
  rcases Table.lookup_foldl_insert SessionRecord.id store.sessions ∅ h with h | h
  · exact h
  · simp at h

theorem Manager.new_sessions_isSome {store : Store} (providers : List ProviderKind) (clock : ℤ)
    {r : SessionRecord} (h : r ∈ store.sessions) :
    ((Manager.new store providers clock).sessions.lookup r.id).isSome :=
  Table.isSome_foldl_insert SessionRecord.id store.sessions ∅ (.inl h)

end Gooselake.Runtime
