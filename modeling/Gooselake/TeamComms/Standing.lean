import Gooselake.TeamComms.Membership

/-!
The standing of an agent in a team: that it is a member, and its lead. `Regrouped` lists what a piece can do to
the teams and their members, and from it follows which pieces end a standing.
-/

namespace Gooselake.TeamComms

open Gooselake.Core Data Library Library.Exec

set_option autoImplicit false

/-! ## Standing -/

/-- If the team is there, the agent is a member of it and, unless any member will do, its lead. -/
def Standing (s : TeamCommsState) (teamId agentId : String) (anyMember : Bool) : Prop :=
  ∀ team, s.teams.lookup teamId = some team → ∃ members, s.membersByTeam.lookup teamId = some members ∧
    agentId ∈ members ∧ (team.leadAgentId = agentId ∨ anyMember = true)

def canLeave (s : TeamCommsState) (teamId agentId : String) : Bool :=
  (s.membersByTeam.lookup teamId).any fun members =>
    (members.lookup agentId).isSome && decide (1 < members.keys.length)

def canLead (s : TeamCommsState) (teamId agentId : String) : Bool :=
  (s.membersByTeam.lookup teamId).any fun members => (members.lookup agentId).isSome

section

variable {c c' : Comms} {teamId agentId : String} {anyMember : Bool}

theorem Standing.same (h : Standing c.state teamId agentId anyMember) (hs : SameTeams c c') :
    Standing c'.state teamId agentId anyMember := by
  unfold Standing
  rw [hs.1, hs.2]
  exact h

theorem Standing.other (h : Standing c.state teamId agentId anyMember) {other : String} {team : TeamRecord}
    {members : Table String TeamMemberRecord} (hne : teamId ≠ other) :
    Standing (withMembers c.state other team members) teamId agentId anyMember := by
  intro team' ht
  change (c.state.teams.insert other team).lookup teamId = some team' at ht
  change ∃ members', (c.state.membersByTeam.insert other members).lookup teamId = some members' ∧ _
  rw [Table.lookup_insert, if_neg hne] at ht
  simp only [Table.lookup_insert, if_neg hne]
  exact h team' ht

theorem Standing.put {team : TeamRecord} {members : Table String TeamMemberRecord} (s : TeamCommsState)
    (hmember : agentId ∈ members) (hlead : team.leadAgentId = agentId ∨ anyMember = true) :
    Standing (withMembers s teamId team members) teamId agentId anyMember := by
  intro team' ht
  change (s.teams.insert teamId team).lookup teamId = some team' at ht
  rw [Table.lookup_insert, if_pos rfl] at ht
  obtain rfl := Option.some.inj ht
  exact ⟨members, by change (s.membersByTeam.insert teamId members).lookup teamId = _; rw [Table.lookup_insert, if_pos rfl],
    hmember, hlead⟩

theorem Standing.joined {r : TeamJoinRequest} (h : Standing c.state teamId agentId anyMember) (hj : Joined c r c') :
    Standing c'.state teamId agentId anyMember := by
  cases hj with
  | refused same => exact h.same same
  | joined found state =>
    rw [state]
    by_cases he : teamId = r.teamId
    · subst he
      obtain ⟨members, hm, hmember, hlead⟩ := h _ found
      refine .put _ ?_ hlead
      rw [hm, Option.getD_some]
      exact (AList.mem_insert _).mpr (.inr hmember)
    · exact h.other he

theorem Standing.removed {other leaving : String} (h : Standing c.state teamId agentId anyMember)
    (hr : Removed c other leaving c')
    (hne : teamId = other → agentId = leaving → canLeave c.state other leaving = false) :
    Standing c'.state teamId agentId anyMember := by
  cases hr with
  | refused same => exact h.same same
  | @removed team members found filed member many state =>
    rw [state]
    by_cases he : teamId = other
    · subst he
      have hleaving : agentId ≠ leaving := by
        intro hl
        have hno := hne rfl hl
        simp [canLeave, filed, AList.lookup_isSome.mpr member, many] at hno
      obtain ⟨members', hm, hmember, hlead⟩ := h _ found
      obtain rfl := Option.some.inj (filed.symm.trans hm)
      refine .put _ ((AList.mem_erase).mpr ⟨hleaving, hmember⟩) ?_
      rcases hlead with hlead | hany
      · left
        change leadWithout team leaving _ = agentId
        rw [leadWithout, if_neg (by rw [hlead]; exact hleaving), hlead]
      · exact .inr hany
    · exact h.other he

theorem Standing.led {other lead : String} (h : Standing c.state teamId agentId anyMember) (hl : Led c other lead c')
    (hne : teamId = other → agentId ≠ lead → anyMember = false → canLead c.state other lead = false) :
    Standing c'.state teamId agentId anyMember := by
  cases hl with
  | refused same => exact h.same same
  | @led team members found filed member state =>
    rw [state]
    intro team' ht
    change (c.state.teams.insert other _).lookup teamId = some team' at ht
    rw [Table.lookup_insert] at ht
    split at ht
    · next he =>
      subst he
      obtain rfl := Option.some.inj ht
      obtain ⟨members', hm, hmember, -⟩ := h _ found
      refine ⟨members', hm, hmember, ?_⟩
      by_cases hsame : agentId = lead
      · exact .inl hsame.symm
      · cases hany : anyMember with
        | true => exact .inr rfl
        | false =>
          have hno := hne rfl hsame hany
          simp [canLead, filed, AList.lookup_isSome.mpr member] at hno
    · exact h team' ht

theorem Standing.deleted {other : String} (h : Standing c.state teamId agentId anyMember)
    (hs : c'.state = removeTeam other c.state) : Standing c'.state teamId agentId anyMember := by
  rw [hs]
  intro team ht
  change (c.state.teams.erase other).lookup teamId = some team at ht
  change ∃ members, (c.state.membersByTeam.erase other).lookup teamId = some members ∧ _
  rw [Table.lookup_erase] at ht
  split at ht
  · cases ht
  · next hne =>
    simp only [Table.lookup_erase, if_neg hne]
    exact h team ht

end

/-! ## Team ids -/

def Used (c : Comms) (id : String) : Prop := ∀ n, c.nextTeamId ≤ n → id ≠ numbered "team" n

structure Later (c c' : Comms) : Prop where
  next : c.nextTeamId ≤ c'.nextTeamId
  teams : (∀ id ∈ c.state.teams, Used c id) → ∀ id ∈ c'.state.teams, Used c' id

section

variable {c c' : Comms} {id : String}

theorem Used.later (h : Used c id) (hl : c.nextTeamId ≤ c'.nextTeamId) : Used c' id := fun n hn => h n (hl.trans hn)

theorem Used.ne_newTeamId (h : Used c id) : id ≠ newTeamId c := h _ (le_firstFree _ _ _ _)

theorem Later.refl (c : Comms) : Later c c := ⟨Nat.le_refl _, id⟩

theorem Later.same (hnext : c'.nextTeamId = c.nextTeamId) (hteams : c'.state.teams = c.state.teams) : Later c c' := by
  refine ⟨hnext.ge, fun h id hid => ?_⟩
  rw [hteams] at hid
  exact (h id hid).later hnext.ge

theorem Reteamed.later (h : Reteamed c c') : Later c c' := by
  rcases h with rfl | ⟨teamId, team, team', members, found, -, sets⟩
  · exact .refl _
  · refine ⟨sets.nextTeamId.ge, fun h id hid => ?_⟩
    rw [sets.state] at hid
    have hold : id ∈ c.state.teams := by
      rcases (AList.mem_insert _).mp hid with rfl | hid
      · exact Table.lookup_isSome found
      · exact hid
    exact (h id hold).later sets.nextTeamId.ge

theorem Begun.later {op : Operation} {after : Option TeamCall} (h : Begun c op after c') : Later c c' := by
  cases h with
  | refused | creates | joins | sends | resumes | recovers => exact .refl _
  | reteams reteamed => exact reteamed.later
  | deletes deleted =>
    cases deleted with
    | refused => exact .refl _
    | deleted _ _ sets =>
      refine ⟨sets.nextTeamId.ge, fun h id hid => ?_⟩
      rw [sets.state] at hid
      exact (h id (AList.mem_erase.mp hid).2).later sets.nextTeamId.ge
  | retries retried =>
    cases retried with
    | refused => exact .refl _
    | retried _ _ _ _ sets => exact .same sets.nextTeamId (by rw [sets.state])
  | cancels cancelled =>
    cases cancelled with
    | refused => exact .refl _
    | cancelled _ _ sets => exact .same sets.nextTeamId (putDeliveries_teams sets.state).1

theorem Ran.later {r : Inject} {result : Except RuntimeError (Inject ⊕ TeamDeliveryRecord)} (h : Ran c r result c') :
    Later c c' := by
  have hteams := h.sameTeams.1
  cases h with
  | missing | waits | holds => exact .refl _
  | goes _ staged =>
    have htransitioned : ∀ {x : Change} {w : Except RuntimeError Written}, Transitioned c x w c' → Later c c' := by
      intro x w hw
      cases hw with
      | refused | already | missing | lost => exact .refl _
      | written _ _ _ sets => exact .same sets.nextTeamId hteams
    cases staged with
    | missing | queued | unqueued | blocked | stillBlocked | unpoliced | cleared | changes | interrupts | injects
    | unrecorded => exact .refl _
    | interrupting | interrupted | uninterrupted | sending | sent | rejected => exact .same rfl rfl
    | failed wrote | unchanged wrote | changed wrote => exact htransitioned wrote
    | completed sets | recorded _ sets => exact .same sets.nextTeamId hteams

theorem Moved.later {call : TeamCall} {after : Option TeamCall} (h : Moved c call after c') : Later c c' := by
  cases h with
  | stopped | checked | joinChecked | admitted | idle | passedBy | recovers => exact .refl _
  | created sets =>
    have hn := le_firstFree c.state.teams.keys "team" c.state.teams.keys.length c.nextTeamId
    have hnext : c'.nextTeamId = nextFree "team" c.state.teams c.nextTeamId + 1 := sets.nextTeamId
    have hle : c.nextTeamId ≤ c'.nextTeamId := by
      rw [hnext]
      exact hn.trans (Nat.le_succ _)
    refine ⟨hle, fun h id hid => ?_⟩
    rw [sets.state] at hid
    rcases (AList.mem_insert _).mp hid with rfl | hid
    · intro n hlt he
      have := numbered_inj he
      omega
    · exact (h id hid).later hle
  | membersStored sets => exact .same sets.nextTeamId (by rw [sets.state])
  | joined reteamed => exact reteamed.later
  | sent _ created =>
    cases created with
    | refused | existing => exact .refl _
    | created _ _ sets => exact .same sets.nextTeamId (addMessage_teams sets.state).1
  | ran ran => exact ran.later

end

end Gooselake.TeamComms
