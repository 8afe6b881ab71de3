import Gooselake.Core.Records
import Gooselake.Library.Exec
import Gooselake.Library.Table

/-!
The SQLite store as the core sees it: one row per key, an upsert that keeps the columns it does not
set, and an event log with a sequence per scope. `faults` says in turn which of the coming writes
fail; a failed write changes no row.
-/

namespace Gooselake.Core

open Data Library

set_option autoImplicit false

structure Store where
  sessions : List SessionRecord
  turns : List TurnRecord
  approvals : List ApprovalRecord
  teams : List TeamRecord
  teamMembers : List TeamMemberRecord
  teamMessages : List TeamMessageRecord
  teamDeliveries : List TeamDeliveryRecord
  events : List RuntimeEventRecord
  faults : List Bool
  deriving DecidableEq, Repr

namespace Store

/-- No rows; `faults` says which of the coming writes fail. -/
def empty (faults : List Bool) : Store := ⟨[], [], [], [], [], [], [], [], faults⟩

def writeError : RuntimeError := .bootstrap "failed writing to sqlite"

/-- One write: the next fault decides whether `f` takes place. -/
def write (f : Store → Store) (s : Store) : Except RuntimeError Unit × Store :=
  match s.faults with
  | true :: rest => (.error writeError, { s with faults := rest })
  | _ :: rest => (.ok (), { f s with faults := rest })
  | [] => (.ok (), { f s with faults := [] })

/-! ## Upserts -/

/-- `created_at` is set by the first insert only. -/
def upsertSession (r : SessionRecord) : Store → Except RuntimeError Unit × Store :=
  write fun s => { s with
    sessions := upsert SessionRecord.id (fun old new => { new with createdAt := old.createdAt }) r s.sessions }

def upsertTurn (r : TurnRecord) : Store → Except RuntimeError Unit × Store :=
  write fun s => { s with turns := upsert TurnRecord.id (fun _ new => new) r s.turns }

def upsertApproval (r : ApprovalRecord) : Store → Except RuntimeError Unit × Store :=
  write fun s => { s with
    approvals := upsert ApprovalRecord.id (fun old new => { new with createdAt := old.createdAt }) r s.approvals }

def upsertTeam (r : TeamRecord) : Store → Except RuntimeError Unit × Store :=
  write fun s => { s with
    teams := upsert TeamRecord.id (fun old new => { new with createdAt := old.createdAt }) r s.teams }

def upsertTeamMember (r : TeamMemberRecord) : Store → Except RuntimeError Unit × Store :=
  write fun s => { s with
    teamMembers := upsert (fun m : TeamMemberRecord => (m.teamId, m.agentId)) (fun _ new => new) r s.teamMembers }

def deleteTeamMember (teamId agentId : String) : Store → Except RuntimeError Unit × Store :=
  write fun s => { s with
    teamMembers := s.teamMembers.filter fun m => ¬ (m.teamId = teamId ∧ m.agentId = agentId) }

/-- The stored message with the logical key of `r`, when `r` has an idempotency key. -/
def messageWithKeyOf (r : TeamMessageRecord) (rows : List TeamMessageRecord) :
    Option TeamMessageRecord :=
  match r.idempotencyKey with
  | none => none
  | some key => rows.find? fun m =>
      m.teamId = r.teamId ∧ m.senderAgentId = r.senderAgentId ∧ m.scope = r.scope ∧
        m.idempotencyKey = some key

def upsertTeamMessage (r : TeamMessageRecord) : Store → Except RuntimeError Unit × Store :=
  write fun s =>
    match messageWithKeyOf r s.teamMessages with
    | some existing => { s with
        teamMessages := upsert TeamMessageRecord.id (fun _ new => new) { r with id := existing.id } s.teamMessages }
    | none => { s with
        teamMessages := upsert TeamMessageRecord.id (fun _ new => new) r s.teamMessages }

def upsertTeamDelivery (r : TeamDeliveryRecord) : Store → Except RuntimeError Unit × Store :=
  write fun s => { s with
    teamDeliveries := upsert TeamDeliveryRecord.id (fun _ new => new) r s.teamDeliveries }

/-! ## The event log -/

def nextSeq (scope : RuntimeEventScope) (scopeId : String) (events : List RuntimeEventRecord) : ℤ :=
  (events.filter fun e => e.scope = scope ∧ e.scopeId = scopeId).foldl (fun m e => max m e.seq) 0 + 1

def appendRuntimeEvent (event : NewRuntimeEvent) (s : Store) :
    Except RuntimeError RuntimeEventRecord × Store :=
  match s.events.find? fun e => e.eventId = event.eventId with
  | some existing =>
    match s.faults with
    | true :: rest => (.error writeError, { s with faults := rest })
    | _ :: rest => (.ok existing, { s with faults := rest })
    | [] => (.ok existing, s)
  | none =>
    let record : RuntimeEventRecord :=
      { event with rowId := s.events.length + 1, seq := nextSeq event.scope event.scopeId s.events }
    match write (fun s => { s with events := s.events ++ [record] }) s with
    | (.ok _, s') => (.ok record, s')
    | (.error e, s') => (.error e, s')

/-! ## What a write can do -/

theorem write_faults (f : Store → Store) (s : Store) :
    (s.faults = [] → (write f s).1 = .ok () ∧ (write f s).2.faults = []) := by
  intro h
  simp [write, h]

theorem appendRuntimeEvent_faults (event : NewRuntimeEvent) (s : Store) (h : s.faults = []) :
    (∃ record, (appendRuntimeEvent event s).1 = .ok record) ∧
      (appendRuntimeEvent event s).2.faults = [] := by
  unfold appendRuntimeEvent
  split
  · simp [h]
  · simp [write, h]

section

variable {α : Type} {g : Store → α} (hfaults : ∀ s faults, g { s with faults := faults } = g s)
include hfaults

theorem write_keeps {f : Store → Store} (hf : ∀ s, g (f s) = g s) (s : Store) : g (write f s).2 = g s := by
  unfold write
  split <;> simp only [hfaults, hf]

theorem appendRuntimeEvent_keeps (hevents : ∀ s events, g { s with events := events } = g s)
    (event : NewRuntimeEvent) (s : Store) : g (appendRuntimeEvent event s).2 = g s := by
  unfold appendRuntimeEvent
  split
  · split <;> simp only [hfaults]
  · have hw : ∀ record, g (write (fun s => { s with events := s.events ++ [record] }) s).2 = g s :=
      fun record => write_keeps hfaults (fun s => hevents s _) s
    dsimp only
    split <;> next h => exact (congrArg (fun o => g o.2) h).symm.trans (hw _)

end

theorem upsertTurn_sessions (r : TurnRecord) (s : Store) : (upsertTurn r s).2.sessions = s.sessions := by
  refine write_keeps (g := Store.sessions) (fun _ _ => rfl) ?_ s
  exact fun _ => rfl

theorem upsertApproval_sessions (r : ApprovalRecord) (s : Store) : (upsertApproval r s).2.sessions = s.sessions := by
  refine write_keeps (g := Store.sessions) (fun _ _ => rfl) ?_ s
  exact fun _ => rfl

theorem appendRuntimeEvent_sessions (event : NewRuntimeEvent) (s : Store) :
    (appendRuntimeEvent event s).2.sessions = s.sessions :=
  appendRuntimeEvent_keeps (g := Store.sessions) (fun _ _ => rfl) (fun _ _ => rfl) event s

end Store

end Gooselake.Core
