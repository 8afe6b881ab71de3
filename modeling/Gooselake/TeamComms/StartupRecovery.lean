import Gooselake.Runtime.SessionRecords
import Gooselake.TeamComms.FailedSends

/-!
What a run of `inject_delivery` changes, and what the service has in memory after a restart.
-/

namespace Gooselake.TeamComms

open Gooselake.Core Data Library Library.Exec
open Gooselake.Runtime (Manager RuntimeM isClosedOrFailed SendAnswers SendTurnInput Quiet RecoveryAnswers)

set_option autoImplicit false

/-! ## The sessions a call of the manager touches -/

/-- At most the session under `sid` changes, and it keeps its id. -/
structure Touches (sid : String) (m m' : Manager) : Prop where
  others : ∀ k, k ≠ sid → m'.sessions.lookup k = m.sessions.lookup k
  own : ∀ session', m'.sessions.lookup sid = some session' →
    ∃ session, m.sessions.lookup sid = some session ∧ session'.id = session.id

theorem touches_of_same {sid : String} {m m' : Manager} (h : m'.sessions = m.sessions) : Touches sid m m' :=
  ⟨fun _ _ => by rw [h], fun session' hs => ⟨session', h ▸ hs, rfl⟩⟩

theorem Touches.same {sid : String} {m m' m'' : Manager} (h : Touches sid m m') (hs : m''.sessions = m'.sessions) :
    Touches sid m m'' :=
  ⟨fun k hk => by rw [hs]; exact h.others k hk, fun session' hl => h.own session' (hs ▸ hl)⟩

/-- The service holds `d`, perhaps with another status. -/
def Holds (d : TeamDeliveryRecord) (c : Comms) : Prop :=
  ∃ d', c.state.deliveries.lookup d.id = some d' ∧ d'.id = d.id ∧ d'.recipientAgentId = d.recipientAgentId

/-- At most the delivery `d` and the session of its recipient change. -/
structure DeliveryFrame (d : TeamDeliveryRecord) (c c' : Comms) : Prop where
  queues : c'.state.recipientDeliveryIds = c.state.recipientDeliveryIds
  others : ∀ id, id ≠ d.id → c'.state.deliveries.lookup id = c.state.deliveries.lookup id
  own : Holds d c'
  runtime : Touches d.recipientAgentId c.runtime c'.runtime

def SessionsKeyed (m : Manager) : Prop := ∀ k session, m.sessions.lookup k = some session → session.id = k

theorem Touches.keyed {sid : String} {m m' : Manager} (h : Touches sid m m') (hm : SessionsKeyed m) :
    SessionsKeyed m' := by
  intro k session' hs
  by_cases hk : k = sid
  · subst hk
    obtain ⟨session, hs₀, hid⟩ := h.own session' hs
    rw [hid]
    exact hm k session hs₀
  · exact hm k session' ((h.others k hk).symm.trans hs)

section

variable {d : TeamDeliveryRecord} {c c' c'' : Comms}

theorem DeliveryFrame.refl (h : Holds d c) : DeliveryFrame d c c := ⟨rfl, fun _ _ => rfl, h, touches_of_same rfl⟩

theorem DeliveryFrame.trans (h : DeliveryFrame d c c') (h' : DeliveryFrame d c' c'') : DeliveryFrame d c c'' where
  queues := h'.queues.trans h.queues
  others id hid := (h'.others id hid).trans (h.others id hid)
  own := h'.own
  runtime := by
    refine ⟨fun k hk => (h'.runtime.others k hk).trans (h.runtime.others k hk), fun session' hs => ?_⟩
    obtain ⟨session₁, hs₁, hid₁⟩ := h'.runtime.own session' hs
    obtain ⟨session, hs₀, hid⟩ := h.runtime.own session₁ hs₁
    exact ⟨session, hs₀, hid₁.trans hid⟩

theorem DeliveryFrame.onRuntime (h : Holds d c) {m' : Manager} (hm : Touches d.recipientAgentId c.runtime m') :
    DeliveryFrame d c { c with runtime := m' } := ⟨rfl, fun _ _ => rfl, h, hm⟩

theorem Sets.frame {W : Write → Prop} {d' : TeamDeliveryRecord}
    (h : Sets W c c' { c.state with deliveries := c.state.deliveries.insert d.id d' }) (hid : d'.id = d.id)
    (hr : d'.recipientAgentId = d.recipientAgentId) : DeliveryFrame d c c' where
  queues := by rw [h.state]
  others id hne := by rw [h.state, Table.lookup_insert, if_neg hne]
  own := ⟨d', by rw [h.state, Table.lookup_insert, if_pos rfl], hid, hr⟩
  runtime := touches_of_same (by rw [h.runtime])

end

/-! ## Queues -/

def queueOf (s : TeamCommsState) (recipient : String) : List String :=
  (s.recipientDeliveryIds.lookup recipient).getD []

theorem queueOf_pushAt (index : Table String (List String)) (key id recipient : String) :
    ((pushAt index key id).lookup recipient).getD [] =
      if recipient = key then (index.lookup recipient).getD [] ++ [id] else (index.lookup recipient).getD [] := by
  unfold pushAt
  rw [Table.lookup_insert]
  split
  · next h => rw [Option.getD_some, h]
  · rfl

structure FromRows (rows : List TeamDeliveryRecord) (s : TeamCommsState) : Prop where
  deliveries : ∀ id d, s.deliveries.lookup id = some d → d ∈ rows ∧ d.id = id
  queues : ∀ recipient, ∀ id ∈ queueOf s recipient, ∃ d ∈ rows, d.id = id ∧ d.recipientAgentId = recipient

theorem FromRows.hydrateDelivery {rows : List TeamDeliveryRecord} {s : TeamCommsState} (h : FromRows rows s)
    {d : TeamDeliveryRecord} (hd : d ∈ rows) : FromRows rows (s.hydrateDelivery d) := by
  unfold TeamCommsState.hydrateDelivery
  split
  · refine ⟨fun id d' hl => ?_, fun recipient id hid => ?_⟩
    · simp only [TeamCommsState.addDelivery, Table.lookup_insert] at hl
      split at hl
      · next he =>
        obtain rfl := Option.some.inj hl
        exact ⟨hd, he.symm⟩
      · exact h.deliveries id d' hl
    · simp only [queueOf, TeamCommsState.addDelivery, queueOf_pushAt] at hid
      split at hid
      · next he =>
        rcases List.mem_append.mp hid with hid | hid
        · exact h.queues recipient id hid
        · exact ⟨d, hd, (List.mem_singleton.mp hid).symm, he.symm⟩
      · exact h.queues recipient id hid
  · exact h

theorem fromRows_foldl (rows done : List TeamDeliveryRecord) (hdone : ∀ d ∈ done, d ∈ rows) {s : TeamCommsState}
    (h : FromRows rows s) : FromRows rows (done.foldl TeamCommsState.hydrateDelivery s) := by
  induction done generalizing s with
  | nil => exact h
  | cons d done ih =>
    exact ih (fun d' hd' => hdone d' (by simp [hd'])) (h.hydrateDelivery (hdone d (by simp)))

def NoDeliveries (s : TeamCommsState) : Prop := s.deliveries = ∅ ∧ s.recipientDeliveryIds = ∅

theorem noDeliveries_hydrated (store : Store) : NoDeliveries
    ((store.teamMessages.insertionSort fun a b => storedBefore a.createdAt a.id b.createdAt b.id).foldl
      TeamCommsState.hydrateMessage (store.teamMembers.foldl TeamCommsState.hydrateMember
        (store.teams.foldl TeamCommsState.hydrateTeam .empty))) := by
  refine List.foldlRecOn _ _ ?_ fun s h message _ => ?_
  · refine List.foldlRecOn _ _ ?_ fun s h member _ => ?_
    · refine List.foldlRecOn _ _ ⟨rfl, rfl⟩ fun s h team _ => ?_
      unfold TeamCommsState.hydrateTeam
      split <;> exact h
    · unfold TeamCommsState.hydrateMember
      split <;> exact h
  · unfold TeamCommsState.hydrateMessage
    split <;> exact h

theorem fromRows_hydrate (store : Store) : FromRows store.teamDeliveries (TeamCommsState.hydrate store) := by
  have hempty : ∀ s, NoDeliveries s → FromRows store.teamDeliveries s := by
    rintro s ⟨hd, hq⟩
    refine ⟨fun id d hl => ?_, fun recipient id hid => ?_⟩
    · simp [hd] at hl
    · simp [queueOf, hq] at hid
  exact fromRows_foldl _ _ (fun d hd => (List.perm_insertionSort _ _).mem_iff.mp hd)
    (hempty _ (noDeliveries_hydrated store))

end Gooselake.TeamComms
