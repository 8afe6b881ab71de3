import Mathlib.Data.String.Basic
import Gooselake.Library.Listing
import Gooselake.TeamComms.StartupRecovery

/-!
What the service rebuilds from its store: the teams that are not deleted, their messages and the deliveries
of those, each listed by creation time and then by id.
-/

namespace Gooselake.TeamComms

open Gooselake.Core Data Library Library.Exec

set_option autoImplicit false

/-! ## The order of the store -/

theorem storedBefore_iff {t t' : ℤ} {id id' : String} :
    storedBefore t id t' id' = true ↔ t < t' ∨ (t = t' ∧ id ≤ id') := by
  simp [storedBefore]

theorem storedBefore_total (t t' : ℤ) (id id' : String) :
    storedBefore t id t' id' = true ∨ storedBefore t' id' t id = true := by
  rw [storedBefore_iff, storedBefore_iff]
  rcases lt_trichotomy t t' with h | h | h
  · exact .inl (.inl h)
  · rcases le_total id id' with hid | hid
    · exact .inl (.inr ⟨h, hid⟩)
    · exact .inr (.inr ⟨h.symm, hid⟩)
  · exact .inr (.inl h)

theorem storedBefore_trans {t t' t'' : ℤ} {id id' id'' : String} (h : storedBefore t id t' id' = true)
    (h' : storedBefore t' id' t'' id'' = true) : storedBefore t id t'' id'' = true := by
  rw [storedBefore_iff] at h h' ⊢
  rcases h with h | ⟨h, hid⟩
  · rcases h' with h' | ⟨h', -⟩
    · exact .inl (h.trans h')
    · exact .inl (h' ▸ h)
  · rcases h' with h' | ⟨h', hid'⟩
    · exact .inl (h ▸ h')
    · exact .inr ⟨h.trans h', hid.trans hid'⟩

theorem storedBefore_antisymm {t t' : ℤ} {id id' : String} (h : storedBefore t id t' id' = true)
    (h' : storedBefore t' id' t id = true) : id = id' := by
  rw [storedBefore_iff] at h h'
  rcases h with h | ⟨h, hid⟩
  · rcases h' with h' | ⟨h', -⟩ <;> omega
  · rcases h' with h' | ⟨-, hid'⟩
    · omega
    · exact le_antisymm hid hid'

def messageBefore (a b : TeamMessageRecord) : Prop := storedBefore a.createdAt a.id b.createdAt b.id = true

def deliveryBefore (a b : TeamDeliveryRecord) : Prop := storedBefore a.createdAt a.id b.createdAt b.id = true

instance : DecidableRel messageBefore := fun _ _ => instDecidableEqBool _ _

instance : DecidableRel deliveryBefore := fun _ _ => instDecidableEqBool _ _

/-! ## What is kept -/

def liveTeam (store : Store) (teamId : String) : Bool :=
  store.teams.any fun team => team.id = teamId && team.deletedAt.isNone

def keptMessage (store : Store) (messageId : String) : Bool :=
  store.teamMessages.any fun m => m.id = messageId && liveTeam store m.teamId

def keptDelivery (store : Store) (d : TeamDeliveryRecord) : Bool :=
  liveTeam store d.teamId && keptMessage store d.messageId

def storedMessages (store : Store) (teamId : String) : List TeamMessageRecord :=
  listing messageBefore (fun m => liveTeam store m.teamId && m.teamId = teamId) store.teamMessages

def storedQueue (store : Store) (recipient : String) : List TeamDeliveryRecord :=
  listing deliveryBefore (fun d => keptDelivery store d && d.recipientAgentId = recipient) store.teamDeliveries

/-! ## The loops of hydration -/

namespace TeamCommsState

variable {s : TeamCommsState}

structure Bare (s : TeamCommsState) : Prop where
  messages : s.messages = ∅
  deliveries : s.deliveries = ∅
  teamMessageIds : s.teamMessageIds = ∅
  recipientDeliveryIds : s.recipientDeliveryIds = ∅

theorem hydrateTeams_teams (rows : List TeamRecord) (teamId : String) :
    teamId ∈ (rows.foldl hydrateTeam s).teams ↔
      teamId ∈ s.teams ∨ (rows.any fun team => team.id = teamId && team.deletedAt.isNone) = true := by
  induction rows generalizing s with
  | nil => simp
  | cons team rows ih =>
    rw [List.foldl_cons, ih, List.any_cons, Bool.or_eq_true, ← or_assoc]
    refine or_congr_left ?_
    unfold hydrateTeam
    split
    · next hlive => simp [AList.mem_insert, hlive, or_comm, eq_comm]
    · next hlive => simp [hlive]

def Live (s : TeamCommsState) : Prop :=
  ∀ teamId team, s.teams.lookup teamId = some team → team.id = teamId ∧ team.deletedAt = none

theorem hydrateTeams_live (rows : List TeamRecord) (h : s.Live) : (rows.foldl hydrateTeam s).Live := by
  refine List.foldlRecOn _ _ h fun s h team _ => ?_
  unfold hydrateTeam
  split
  · next hlive =>
    intro teamId team' hl
    dsimp only at hl
    rw [Table.lookup_insert] at hl
    split at hl
    · next he =>
      obtain rfl := Option.some.inj hl
      exact ⟨he.symm, Option.isNone_iff_eq_none.mp hlive⟩
    · exact h teamId team' hl
  · exact h

theorem hydrateTeams_bare (rows : List TeamRecord) (h : s.Bare) : (rows.foldl hydrateTeam s).Bare := by
  refine List.foldlRecOn _ _ h fun s h team _ => ?_
  unfold hydrateTeam
  split
  · exact ⟨h.messages, h.deliveries, h.teamMessageIds, h.recipientDeliveryIds⟩
  · exact h

theorem hydrateMembers_teams (rows : List TeamMemberRecord) (h : s.Bare) :
    (rows.foldl hydrateMember s).teams = s.teams ∧ (rows.foldl hydrateMember s).Bare := by
  refine List.foldlRecOn (motive := fun t : TeamCommsState => t.teams = s.teams ∧ t.Bare) _ _ ⟨rfl, h⟩
    fun t h member _ => ?_
  unfold hydrateMember
  split
  · exact ⟨h.1, h.2.messages, h.2.deliveries, h.2.teamMessageIds, h.2.recipientDeliveryIds⟩
  · exact h

theorem hydrateMessages_spec (rows : List TeamMessageRecord) :
    (rows.foldl hydrateMessage s).teams = s.teams ∧
      (rows.foldl hydrateMessage s).deliveries = s.deliveries ∧
      (rows.foldl hydrateMessage s).recipientDeliveryIds = s.recipientDeliveryIds ∧
      (∀ id, id ∈ (rows.foldl hydrateMessage s).messages ↔ id ∈ s.messages ∨
      ∃ m ∈ rows, m.teamId ∈ s.teams ∧ m.id = id) ∧
      ∀ teamId, ((rows.foldl hydrateMessage s).teamMessageIds.lookup teamId).getD [] =
        (s.teamMessageIds.lookup teamId).getD [] ++
          (rows.filter fun m => m.teamId ∈ s.teams ∧ m.teamId = teamId).map TeamMessageRecord.id := by
  induction rows generalizing s with
  | nil => simp
  | cons m rows ih =>
    obtain ⟨hteams, hdeliveries, hqueues, hmessages, hlists⟩ := ih (s := s.hydrateMessage m)
    rw [List.foldl_cons]
    by_cases hlive : m.teamId ∈ s.teams
    · have hstep : (s.hydrateMessage m).teams = s.teams ∧ (s.hydrateMessage m).deliveries = s.deliveries ∧
          (s.hydrateMessage m).recipientDeliveryIds = s.recipientDeliveryIds ∧
          (s.hydrateMessage m).messages = s.messages.insert m.id m ∧
          (s.hydrateMessage m).teamMessageIds = pushAt s.teamMessageIds m.teamId m.id := by
        simp [hydrateMessage, hlive]
      obtain ⟨ht, hd, hq, hm, hl⟩ := hstep
      refine ⟨hteams.trans ht, hdeliveries.trans hd, hqueues.trans hq, fun id => ?_, fun teamId => ?_⟩
      · rw [hmessages, ht, hm, AList.mem_insert]
        simp only [List.mem_cons, exists_eq_or_imp]
        grind
      · rw [hlists, ht, hl, queueOf_pushAt]
        by_cases he : teamId = m.teamId
        · subst he
          rw [if_pos rfl, List.filter_cons_of_pos (by simpa using hlive), List.map_cons, List.append_assoc]
          rfl
        · rw [if_neg he, List.filter_cons_of_neg (by simp [Ne.symm he])]
    · have hstep : s.hydrateMessage m = s := by simp [hydrateMessage, hlive]
      rw [hstep] at hteams hdeliveries hqueues hmessages hlists ⊢
      refine ⟨hteams, hdeliveries, hqueues, fun id => ?_, fun teamId => ?_⟩
      · rw [hmessages]
        simp only [List.mem_cons, exists_eq_or_imp]
        grind
      · rw [hlists, List.filter_cons_of_neg (by simp [hlive])]

theorem hydrateDeliveries_spec (rows : List TeamDeliveryRecord) :
    (rows.foldl hydrateDelivery s).teams = s.teams ∧
      (rows.foldl hydrateDelivery s).messages = s.messages ∧
      (rows.foldl hydrateDelivery s).teamMessageIds = s.teamMessageIds ∧
      (∀ id, id ∈ (rows.foldl hydrateDelivery s).deliveries ↔
        id ∈ s.deliveries ∨ ∃ d ∈ rows, (d.teamId ∈ s.teams ∧ d.messageId ∈ s.messages) ∧ d.id = id) ∧
      ∀ recipient, queueOf (rows.foldl hydrateDelivery s) recipient = queueOf s recipient ++
        (rows.filter fun d => (d.teamId ∈ s.teams ∧ d.messageId ∈ s.messages) ∧ d.recipientAgentId = recipient).map
          TeamDeliveryRecord.id := by
  induction rows generalizing s with
  | nil => simp
  | cons d rows ih =>
    obtain ⟨hteams, hmessages, hlists, hdeliveries, hqueues⟩ := ih (s := s.hydrateDelivery d)
    rw [List.foldl_cons]
    by_cases hkept : d.teamId ∈ s.teams ∧ d.messageId ∈ s.messages
    · have hstep : s.hydrateDelivery d = s.addDelivery d := if_pos hkept
      rw [hstep] at hteams hmessages hlists hdeliveries hqueues ⊢
      refine ⟨hteams, hmessages, hlists, fun id => ?_, fun recipient => ?_⟩
      · rw [hdeliveries]
        simp only [addDelivery, AList.mem_insert, List.mem_cons, exists_eq_or_imp]
        grind
      · rw [hqueues]
        simp only [queueOf, addDelivery, queueOf_pushAt]
        by_cases he : recipient = d.recipientAgentId
        · subst he
          rw [if_pos rfl, List.filter_cons_of_pos (by simpa using hkept), List.map_cons, List.append_assoc]
          rfl
        · rw [if_neg he, List.filter_cons_of_neg (by simp [Ne.symm he])]
          rfl
    · have hstep : s.hydrateDelivery d = s := if_neg hkept
      rw [hstep] at hteams hmessages hlists hdeliveries hqueues ⊢
      refine ⟨hteams, hmessages, hlists, fun id => ?_, fun recipient => ?_⟩
      · rw [hdeliveries]
        simp only [List.mem_cons, exists_eq_or_imp]
        grind
      · rw [hqueues, List.filter_cons_of_neg (by simp [hkept])]

end TeamCommsState

/-! ## What is rebuilt -/

structure Hydrated (store : Store) (s : TeamCommsState) : Prop where
  teams : ∀ teamId, teamId ∈ s.teams ↔ liveTeam store teamId = true
  messages : ∀ id, id ∈ s.messages ↔ keptMessage store id = true
  deliveries : ∀ d ∈ store.teamDeliveries, keptDelivery store d = true → d.id ∈ s.deliveries
  lists : ∀ teamId, (s.teamMessageIds.lookup teamId).getD [] = (storedMessages store teamId).map TeamMessageRecord.id
  queues : ∀ recipient, queueOf s recipient = (storedQueue store recipient).map TeamDeliveryRecord.id

theorem bare_hydrateTeams (store : Store) : (store.teams.foldl TeamCommsState.hydrateTeam .empty).Bare :=
  TeamCommsState.hydrateTeams_bare _ ⟨rfl, rfl, rfl, rfl⟩

theorem mem_hydrateTeams (store : Store) (teamId : String) :
    teamId ∈ (store.teams.foldl TeamCommsState.hydrateTeam .empty).teams ↔ liveTeam store teamId = true := by
  rw [TeamCommsState.hydrateTeams_teams, liveTeam]
  exact or_iff_right (AList.notMem_empty teamId)

theorem live_hydrate (store : Store) : (TeamCommsState.hydrate store).Live := by
  have hbare := bare_hydrateTeams store
  have hlive : (store.teams.foldl TeamCommsState.hydrateTeam .empty).Live :=
    TeamCommsState.hydrateTeams_live _ fun teamId team h => by simp [TeamCommsState.empty] at h
  unfold TeamCommsState.hydrate TeamCommsState.Live
  dsimp only
  rw [(TeamCommsState.hydrateDeliveries_spec _).1, (TeamCommsState.hydrateMessages_spec _).1,
    (TeamCommsState.hydrateMembers_teams _ hbare).1]
  exact hlive

theorem hydrated_hydrate (store : Store) : Hydrated store (TeamCommsState.hydrate store) := by
  have hbare := bare_hydrateTeams store
  have hteams := mem_hydrateTeams store
  obtain ⟨hmembers, hbare⟩ := TeamCommsState.hydrateMembers_teams store.teamMembers hbare
  simp only [← hmembers] at hteams
  unfold TeamCommsState.hydrate
  dsimp only
  generalize store.teamMembers.foldl TeamCommsState.hydrateMember
    (store.teams.foldl TeamCommsState.hydrateTeam .empty) = s₀ at hteams hbare
  obtain ⟨ht₁, hd₁, hq₁, hm₁, hl₁⟩ := TeamCommsState.hydrateMessages_spec (s := s₀)
    (store.teamMessages.insertionSort fun a b => storedBefore a.createdAt a.id b.createdAt b.id)
  generalize (store.teamMessages.insertionSort fun a b => storedBefore a.createdAt a.id b.createdAt b.id).foldl
    TeamCommsState.hydrateMessage s₀ = s₁ at ht₁ hd₁ hq₁ hm₁ hl₁
  obtain ⟨ht₂, hm₂, hl₂, hd₂, hq₂⟩ := TeamCommsState.hydrateDeliveries_spec (s := s₁)
    (store.teamDeliveries.insertionSort fun a b => storedBefore a.createdAt a.id b.createdAt b.id)
  have hkept : ∀ id, id ∈ s₁.messages ↔ keptMessage store id = true := by
    intro id
    rw [hm₁, hbare.messages]
    simp [keptMessage, List.mem_insertionSort, hteams, and_comm]
  have hlive : ∀ teamId, teamId ∈ s₁.teams ↔ liveTeam store teamId = true := fun teamId => by rw [ht₁, hteams]
  refine ⟨fun teamId => ?_, fun id => ?_, fun d hd hdk => ?_, fun teamId => ?_, fun recipient => ?_⟩
  · rw [ht₂, hlive]
  · rw [hm₂, hkept]
  · rw [hd₂]
    simp only [keptDelivery, Bool.and_eq_true] at hdk
    exact .inr ⟨d, (List.mem_insertionSort _).mpr hd, ⟨(hlive _).mpr hdk.1, (hkept _).mpr hdk.2⟩, rfl⟩
  · rw [hl₂, hl₁, hbare.teamMessageIds, AList.lookup_empty, Option.getD_none, List.nil_append]
    refine congrArg (List.map TeamMessageRecord.id) (List.filter_congr fun m _ => ?_)
    rw [Bool.eq_iff_iff]
    simp [hteams]
  · rw [hq₂, queueOf, hq₁, hbare.recipientDeliveryIds, AList.lookup_empty, Option.getD_none, List.nil_append]
    refine congrArg (List.map TeamDeliveryRecord.id) (List.filter_congr fun d _ => ?_)
    rw [Bool.eq_iff_iff]
    simp [keptDelivery, hlive, hkept]

theorem nodup_hydrate {store : Store} (hkeys : (store.teamDeliveries.map TeamDeliveryRecord.id).Nodup)
    (recipient : String) : (queueOf (TeamCommsState.hydrate store) recipient).Nodup := by
  rw [(hydrated_hydrate store).queues]
  have hperm : (storedQueue store recipient).Perm _ := listing_perm
  refine (hperm.map TeamDeliveryRecord.id).nodup_iff.mpr ?_
  exact hkeys.sublist (List.filter_sublist.map _)

end Gooselake.TeamComms
