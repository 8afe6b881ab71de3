import Gooselake.TeamComms.QueueOrder

/-!
The members of the teams. Two maps hold them, the teams and the members of each; five operations change both, in
any interleaving with the others.
-/

namespace Gooselake.TeamComms

open Gooselake.Core Data Library Library.Exec
open Gooselake.Runtime (Manager)

set_option autoImplicit false

def agentIds (members : Table String TeamMemberRecord) : List String :=
  (sortedMembers members).map TeamMemberRecord.agentId

/-- The property: there are member maps for the live teams and no others, each team has a member, its lead is one of
its members, and no agent is there twice. -/
structure Staffed (s : TeamCommsState) : Prop where
  mapped : ∀ teamId, teamId ∈ s.membersByTeam ↔ teamId ∈ s.teams
  nonempty : ∀ teamId members, s.membersByTeam.lookup teamId = some members → agentIds members ≠ []
  led : ∀ teamId team members, s.teams.lookup teamId = some team → s.membersByTeam.lookup teamId = some members →
    team.leadAgentId ∈ agentIds members
  once : ∀ teamId members, s.membersByTeam.lookup teamId = some members → (agentIds members).Nodup

/-! ## One team -/

structure Enrolled (lead : String) (members : Table String TeamMemberRecord) : Prop where
  lead : lead ∈ members
  keyed : ∀ agentId member, members.lookup agentId = some member → member.agentId = agentId

section

variable {lead : String} {members : Table String TeamMemberRecord}

theorem mem_agentIds (keyed : ∀ agentId member, members.lookup agentId = some member → member.agentId = agentId)
    (agentId : String) : agentId ∈ agentIds members ↔ agentId ∈ members := by
  unfold agentIds sortedMembers
  rw [List.mem_map]
  constructor
  · rintro ⟨member, hmember, rfl⟩
    obtain ⟨k, hk⟩ := Table.mem_values.mp ((List.perm_insertionSort _ _).mem_iff.mp hmember)
    rw [keyed k member hk]
    exact Table.lookup_isSome hk
  · intro hmem
    obtain ⟨member, hk⟩ := Option.isSome_iff_exists.mp (AList.lookup_isSome.mpr hmem)
    have hvalue : member ∈ members.values := Table.mem_values.mpr ⟨agentId, hk⟩
    exact ⟨member, (List.perm_insertionSort _ _).mem_iff.mpr hvalue, keyed agentId member hk⟩

theorem nodup_agentIds (keyed : ∀ agentId member, members.lookup agentId = some member → member.agentId = agentId) :
    (agentIds members).Nodup := by
  have hperm : (agentIds members).Perm (members.values.map TeamMemberRecord.agentId) :=
    (List.perm_insertionSort _ _).map _
  have hkeys : members.values.map TeamMemberRecord.agentId = members.keys := by
    unfold Table.values AList.keys List.keys
    rw [List.map_map]
    refine List.map_congr_left fun entry hentry => ?_
    exact keyed entry.1 entry.2 (AList.mem_lookup_iff.mpr hentry)
  rw [hperm.nodup_iff, hkeys]
  exact AList.keys_nodup members

theorem Enrolled.join (h : Enrolled lead members) (member : TeamMemberRecord) :
    Enrolled lead (members.insert member.agentId member) := by
  refine ⟨(AList.mem_insert _).mpr (.inr h.lead), fun agentId m hm => ?_⟩
  rw [Table.lookup_insert] at hm
  split at hm
  · next he =>
    obtain rfl := Option.some.inj hm
    exact he.symm
  · exact h.keyed agentId m hm

theorem Enrolled.leave {team : TeamRecord} (h : Enrolled team.leadAgentId members) {agentId : String}
    (hmember : agentId ∈ members) (hmany : 1 < members.keys.length) :
    Enrolled (leadWithout team agentId (members.erase agentId)) (members.erase agentId) := by
  have hkeyed : ∀ k member, (members.erase agentId).lookup k = some member → member.agentId = k := by
    intro k member hk
    rw [Table.lookup_erase] at hk
    split at hk
    · cases hk
    · exact h.keyed k member hk
  refine ⟨?_, hkeyed⟩
  unfold leadWithout
  split
  · have hlength : (members.erase agentId).keys.length = members.keys.length - 1 := by
      rw [AList.keys_erase]
      exact List.length_erase_of_mem hmember
    obtain ⟨k, rest, hkeys⟩ := List.exists_cons_of_length_pos (show 0 < (members.erase agentId).keys.length by omega)
    have hk : k ∈ members.erase agentId := AList.mem_keys.mpr (hkeys ▸ List.mem_cons_self)
    cases hhead : (sortedMembers (members.erase agentId)).head? with
    | none =>
      have hnone : k ∈ agentIds (members.erase agentId) := (mem_agentIds hkeyed k).mpr hk
      rw [agentIds, List.head?_eq_none_iff.mp hhead] at hnone
      cases hnone
    | some member =>
      refine (mem_agentIds hkeyed _).mp ?_
      exact List.mem_map_of_mem (List.mem_of_head? hhead)
  · next hlead =>
    refine AList.mem_keys.mpr ?_
    rw [AList.keys_erase]
    exact (List.mem_erase_of_ne hlead).mpr h.lead

theorem TeamDraft.enrolled (d : TeamDraft) (teamId : String) : Enrolled d.leadAgentId (d.members teamId) := by
  unfold TeamDraft.members
  induction d.memberAgentIds.filter (fun agentId => agentId ≠ d.leadAgentId) using List.reverseRecOn with
  | nil =>
    refine ⟨(AList.mem_insert _).mpr (.inl rfl), fun agentId member hm => ?_⟩
    rw [List.foldl_nil, Table.lookup_insert] at hm
    split at hm
    · next he =>
      obtain rfl := Option.some.inj hm
      exact he.symm
    · rw [AList.lookup_empty] at hm
      cases hm
  | append_singleton agentIds agentId ih =>
    rw [List.foldl_append]
    exact ih.join (d.member teamId agentId)

end

/-! ## Both maps -/

structure Membership (s : TeamCommsState) : Prop where
  mapped : ∀ teamId, teamId ∈ s.membersByTeam ↔ teamId ∈ s.teams
  enrolled : ∀ teamId team members, s.teams.lookup teamId = some team → s.membersByTeam.lookup teamId = some members →
    Enrolled team.leadAgentId members

namespace Membership

variable {s s' : TeamCommsState}

theorem staffed (h : Membership s) : Staffed s := by
  have henrolled : ∀ teamId members, s.membersByTeam.lookup teamId = some members →
      ∃ team, s.teams.lookup teamId = some team ∧ Enrolled team.leadAgentId members := by
    intro teamId members hm
    have hteam : teamId ∈ s.teams := (h.mapped teamId).mp (Table.lookup_isSome hm)
    obtain ⟨team, ht⟩ := Option.isSome_iff_exists.mp (AList.lookup_isSome.mpr hteam)
    exact ⟨team, ht, h.enrolled teamId team members ht hm⟩
  refine ⟨h.mapped, fun teamId members hm => ?_, fun teamId team members ht hm => ?_, fun teamId members hm => ?_⟩
  · obtain ⟨team, -, he⟩ := henrolled teamId members hm
    exact List.ne_nil_of_mem ((mem_agentIds he.keyed _).mpr he.lead)
  · have he := h.enrolled teamId team members ht hm
    exact (mem_agentIds he.keyed _).mpr he.lead
  · obtain ⟨team, -, he⟩ := henrolled teamId members hm
    exact nodup_agentIds he.keyed

theorem getD (h : Membership s) {teamId : String} {team : TeamRecord} (ht : s.teams.lookup teamId = some team) :
    Enrolled team.leadAgentId ((s.membersByTeam.lookup teamId).getD ∅) := by
  have hmem : teamId ∈ s.membersByTeam := (h.mapped teamId).mpr (Table.lookup_isSome ht)
  obtain ⟨members, hm⟩ := Option.isSome_iff_exists.mp (AList.lookup_isSome.mpr hmem)
  rw [hm]
  exact h.enrolled teamId team members ht hm

theorem put (h : Membership s) {teamId : String} {team : TeamRecord} {members : Table String TeamMemberRecord}
    (he : Enrolled team.leadAgentId members) : Membership { s with
      teams := s.teams.insert teamId team
      membersByTeam := s.membersByTeam.insert teamId members } := by
  refine ⟨fun k => ?_, fun k team' members' ht hm => ?_⟩
  · change k ∈ s.membersByTeam.insert teamId members ↔ k ∈ s.teams.insert teamId team
    rw [AList.mem_insert, AList.mem_insert, h.mapped k]
  · dsimp only at ht hm
    rw [Table.lookup_insert] at ht hm
    split at ht
    · next hk =>
      rw [if_pos hk] at hm
      obtain rfl := Option.some.inj ht
      obtain rfl := Option.some.inj hm
      exact he
    · next hk =>
      rw [if_neg hk] at hm
      exact h.enrolled k team' members' ht hm

theorem putTeam (h : Membership s) {teamId : String} {team : TeamRecord} {members : Table String TeamMemberRecord}
    (hm : s.membersByTeam.lookup teamId = some members) (he : Enrolled team.leadAgentId members) :
    Membership { s with teams := s.teams.insert teamId team } := by
  refine ⟨fun k => ?_, fun k team' members' ht hm' => ?_⟩
  · change k ∈ s.membersByTeam ↔ k ∈ s.teams.insert teamId team
    rw [AList.mem_insert, h.mapped k]
    constructor
    · exact .inr
    · rintro (rfl | hk)
      · exact (h.mapped k).mp (Table.lookup_isSome hm)
      · exact hk
  · dsimp only at ht hm'
    rw [Table.lookup_insert] at ht
    split at ht
    · next hk =>
      obtain rfl := Option.some.inj ht
      rw [hk, hm] at hm'
      obtain rfl := Option.some.inj hm'
      exact he
    · exact h.enrolled k team' members' ht hm'

theorem delete (h : Membership s) (teamId : String) : Membership (removeTeam teamId s) := by
  refine ⟨fun k => ?_, fun k team members ht hm => ?_⟩
  · change k ∈ s.membersByTeam.erase teamId ↔ k ∈ s.teams.erase teamId
    rw [AList.mem_erase, AList.mem_erase, h.mapped k]
  · change (s.teams.erase teamId).lookup k = some team at ht
    change (s.membersByTeam.erase teamId).lookup k = some members at hm
    rw [Table.lookup_erase] at ht hm
    split at ht
    · cases ht
    · next hk =>
      rw [if_neg hk] at hm
      exact h.enrolled k team members ht hm

theorem same (h : Membership s) (hteams : s'.teams = s.teams) (hmembers : s'.membersByTeam = s.membersByTeam) :
    Membership s' := by
  refine ⟨?_, ?_⟩
  · rw [hteams, hmembers]
    exact h.mapped
  · rw [hteams, hmembers]
    exact h.enrolled

end Membership

theorem addMessage_teams {s t : TeamCommsState} {m : MessageDraft} {message : TeamMessageRecord}
    {ds : List TeamDeliveryRecord} (h : t = addMessage m message ds s) :
    t.teams = s.teams ∧ t.membersByTeam = s.membersByTeam := by
  subst h
  unfold addMessage
  induction ds using List.reverseRecOn with
  | nil => exact ⟨rfl, rfl⟩
  | append_singleton ds d ih =>
    rw [List.foldl_append]
    exact ih

theorem putDeliveries_teams {s t : TeamCommsState} {ds : List TeamDeliveryRecord}
    (h : t = ds.foldl (fun s d => putDelivery d s) s) : t.teams = s.teams ∧ t.membersByTeam = s.membersByTeam := by
  subst h
  induction ds using List.reverseRecOn with
  | nil => exact ⟨rfl, rfl⟩
  | append_singleton ds d ih =>
    rw [List.foldl_append]
    exact ih

def SameTeams (c c' : Comms) : Prop :=
  c'.state.teams = c.state.teams ∧ c'.state.membersByTeam = c.state.membersByTeam

theorem Sets.sameTeams {W : Write → Prop} {c c' : Comms} {s : TeamCommsState} (h : Sets W c c' s)
    (hteams : s.teams = c.state.teams ∧ s.membersByTeam = c.state.membersByTeam) : SameTeams c c' := by
  unfold SameTeams
  rwa [h.state]

theorem Transitioned.sameTeams {c c' : Comms} {x : Change} {r : Except RuntimeError Written}
    (h : Transitioned c x r c') : SameTeams c c' := by
  cases h with
  | refused | already | missing | lost => exact ⟨rfl, rfl⟩
  | written _ _ _ sets => exact sets.sameTeams ⟨rfl, rfl⟩

theorem Ran.sameTeams {c c' : Comms} {r : Inject} {result : Except RuntimeError (Inject ⊕ TeamDeliveryRecord)}
    (h : Ran c r result c') : SameTeams c c' := by
  cases h with
  | missing | waits | holds => exact ⟨rfl, rfl⟩
  | goes _ staged =>
    cases staged with
    | missing | queued | unqueued | blocked | stillBlocked | unpoliced | cleared | changes | interrupts | injects
    | unrecorded | interrupting | interrupted | uninterrupted | sending | sent | rejected => exact ⟨rfl, rfl⟩
    | failed wrote | unchanged wrote | changed wrote => exact wrote.sameTeams
    | completed sets | recorded _ sets => exact sets.sameTeams ⟨rfl, rfl⟩

/-! ## What the pieces do to the teams -/

def withMembers (s : TeamCommsState) (teamId : String) (team : TeamRecord) (members : Table String TeamMemberRecord) :
    TeamCommsState :=
  { s with
    teams := s.teams.insert teamId team
    membersByTeam := s.membersByTeam.insert teamId members }

/-- What `join_team` does once the session has been checked. -/
inductive Joined (c : Comms) (r : TeamJoinRequest) (c' : Comms) : Prop where
  | refused (same : SameTeams c c')
  | joined {team : TeamRecord} (found : c.state.teams.lookup r.teamId = some team)
      (state : c'.state = withMembers c.state r.teamId { team with updatedAt := c.runtime.clock }
        (((c.state.membersByTeam.lookup r.teamId).getD ∅).insert r.agentId (r.member team.leadAgentId c.runtime.clock)))

/-- What `remove_team_member` does, for trimmed ids. -/
inductive Removed (c : Comms) (teamId agentId : String) (c' : Comms) : Prop where
  | refused (same : SameTeams c c')
  | removed {team : TeamRecord} {members : Table String TeamMemberRecord}
      (found : c.state.teams.lookup teamId = some team) (filed : c.state.membersByTeam.lookup teamId = some members)
      (member : agentId ∈ members) (many : 1 < members.keys.length)
      (state : c'.state = withMembers c.state teamId
        { team with leadAgentId := leadWithout team agentId (members.erase agentId), updatedAt := c.runtime.clock }
        (members.erase agentId))

/-- What `set_team_lead` does, for trimmed ids. -/
inductive Led (c : Comms) (teamId leadAgentId : String) (c' : Comms) : Prop where
  | refused (same : SameTeams c c')
  | led {team : TeamRecord} {members : Table String TeamMemberRecord}
      (found : c.state.teams.lookup teamId = some team) (filed : c.state.membersByTeam.lookup teamId = some members)
      (member : leadAgentId ∈ members)
      (state : c'.state = { c.state with
        teams := c.state.teams.insert teamId { team with leadAgentId := leadAgentId, updatedAt := c.runtime.clock } })

section

variable {c c' : Comms}

theorem saveTeam_state {teamId kind sessionId : String} {team : TeamRecord}
    {members : Table String (Table String TeamMemberRecord)} {saveMember : CommsM Unit} {payload : Json}
    (hmember : ∀ c', After saveMember c' fun _ c'' => c''.state = c'.state) :
    After (saveTeam teamId team members saveMember kind payload sessionId) c fun _ c' =>
      c'.state = { c.state with teams := c.state.teams.insert teamId team, membersByTeam := members } := by
  simp only [saveTeam, after_bind_iff, after_changeState]
  refine after_write (.team team) rfl fun r c' hs _ => ?_
  have hstate := hs.state
  cases r with
  | error e => exact hstate
  | ok _ =>
    refine (hmember c').elim (fun _ c'' h => ?_) fun _ c'' h => h.trans hstate
    refine after_noteTeamEvent fun d hq => ?_
    refine (readOnly_teamWithMembers teamId d).mono fun _ _ he => ?_
    rw [he, hq.state, h, hstate]

theorem SameTeams.refl (c : Comms) : SameTeams c c := ⟨rfl, rfl⟩

theorem joinTeamWrite_joined (r : TeamJoinRequest) : After (joinTeamWrite r) c fun _ c' => Joined c r c' := by
  simp only [joinTeamWrite, after_bind_iff, after_get, after_nowMs, after_orThrow]
  refine ⟨fun team hteam => ?_, fun _ => .refused (.refl c)⟩
  split
  · exact (after_throw _ _ _).mpr (.refused (.refl c))
  · refine (saveTeam_state fun c' => ?_).mono fun _ c' hstate => .joined hteam hstate
    exact after_write (.member _) rfl fun _ _ hs _ => hs.state

theorem removeTeamMember_removed (teamId agentId : String) :
    After (removeTeamMember teamId agentId) c fun _ c' => Removed c (trim teamId) (trim agentId) c' := by
  refine readOnly_ensureEnabled.after_bind (fun _ => ?_) fun _ => .refused (.refl c)
  refine after_checked (fun t hteamId => ?_) fun _ _ => .refused (.refl c)
  obtain rfl := normalizeNonEmpty_ok hteamId
  refine after_checked (fun a hagentId => ?_) fun _ _ => .refused (.refl c)
  obtain rfl := normalizeNonEmpty_ok hagentId
  simp only [after_bind_iff, after_get, after_orThrow]
  refine ⟨fun team hteam => ⟨fun members hmembers => ?_, fun _ => .refused (.refl c)⟩, fun _ => .refused (.refl c)⟩
  split
  · exact (after_throw _ _ _).mpr (.refused (.refl c))
  · next hnone =>
    split
    · exact (after_throw _ _ _).mpr (.refused (.refl c))
    · next hmany =>
      rw [after_bind_iff, after_nowMs]
      have hmember : trim agentId ∈ members := by
        refine AList.lookup_isSome.mp ?_
        exact Option.isSome_iff_ne_none.mpr (by simpa using hnone)
      refine (saveTeam_state fun c' => ?_).mono fun _ c' hstate =>
        .removed hteam hmembers hmember (not_le.mp hmany) hstate
      exact after_write (.memberGone _ _) rfl fun _ _ hs _ => hs.state

theorem setTeamLead_led (teamId leadAgentId : String) :
    After (setTeamLead teamId leadAgentId) c fun _ c' => Led c (trim teamId) (trim leadAgentId) c' := by
  refine readOnly_ensureEnabled.after_bind (fun _ => ?_) fun _ => .refused (.refl c)
  refine after_checked (fun t hteamId => ?_) fun _ _ => .refused (.refl c)
  obtain rfl := normalizeNonEmpty_ok hteamId
  refine after_checked (fun a hlead => ?_) fun _ _ => .refused (.refl c)
  obtain rfl := normalizeNonEmpty_ok hlead
  rw [after_bind_iff, after_get]
  dsimp only
  refine after_checked (fun _ hmember => ?_) fun _ _ => .refused (.refl c)
  simp only [after_bind_iff, after_orThrow]
  refine ⟨fun team hteam => ?_, fun _ => .refused (.refl c)⟩
  split
  · exact (readOnly_teamWithMembers _ c).mono fun _ c' h => .refused (by rw [h]; exact .refl c)
  · rw [after_bind_iff, after_nowMs]
    refine (saveTeam_state fun c' => (after_pure _ _ _).mpr rfl).mono fun _ c' hstate => ?_
    unfold ensureMember at hmember
    split at hmember
    · next hany =>
      obtain ⟨members, hm, hsome⟩ := (Option.any_eq_true _ _).mp hany
      exact .led hteam hm (AList.lookup_isSome.mp hsome) hstate
    · cases hmember

inductive Regrouped (c : Comms) : Operation → Comms → Prop where
  | same {op : Operation} {c' : Comms} (same : SameTeams c c') : Regrouped c op c'
  | removes {teamId agentId : String} {c' : Comms} (removed : Removed c (trim teamId) (trim agentId) c') :
      Regrouped c (.removeTeamMember teamId agentId) c'
  | leads {teamId leadAgentId : String} {c' : Comms} (led : Led c (trim teamId) (trim leadAgentId) c') :
      Regrouped c (.setTeamLead teamId leadAgentId) c'
  | deletes {argument teamId : String} {c' : Comms} (state : c'.state = removeTeam teamId c.state) :
      Regrouped c (.deleteTeam argument) c'

theorem begin_regrouped (op : Operation) : After op.begin c fun _ c' => Regrouped c op c' := by
  have hsame : SameTeams c c := .refl c
  cases op with
  | removeTeamMember teamId agentId =>
    exact after_return ((removeTeamMember_removed teamId agentId).mono fun _ _ h => .removes h)
  | setTeamLead teamId leadAgentId => exact after_return ((setTeamLead_led teamId leadAgentId).mono fun _ _ h => .leads h)
  | createTeam request => exact (readOnly_createTeamBegin request).after_return (.same hsame)
  | joinTeam request => exact (readOnly_joinTeamBegin request).after_return (.same hsame)
  | deleteTeam teamId =>
    refine after_return ((deleteTeam_after teamId).mono fun r c' h => ?_)
    cases h with
    | refused => exact .same hsame
    | deleted _ _ sets => exact .deletes sets.state
  | sendDirect request => exact (readOnly_sendDirectBegin request).after_return (.same hsame)
  | broadcast request => exact (readOnly_broadcastBegin request).after_return (.same hsame)
  | retryDelivery teamId deliveryId =>
    refine after_return ((retryWrite_after teamId deliveryId).mono fun r c' h => ?_)
    cases h with
    | refused => exact .same hsame
    | retried _ _ _ _ sets => exact .same (sets.sameTeams ⟨rfl, rfl⟩)
  | cancelMessage teamId messageId =>
    refine after_return ((cancelMessage_after teamId messageId).mono fun r c' h => ?_)
    cases h with
    | refused => exact .same hsame
    | cancelled _ _ sets => exact .same (putDeliveries_teams sets.state)
  | resumeDeferredForRecipient recipient => exact (after_bind_iff _ _ _ _).mpr ⟨⟨.same hsame⟩⟩
  | recoverStartupDeferredDeliveries =>
    exact readOnly_ensureEnabled.after_bind (fun _ => (after_bind_iff _ _ _ _).mpr ⟨⟨.same hsame⟩⟩) fun _ => .same hsame

inductive Went (c : Comms) : TeamCall → Comms → Prop where
  | same {call : TeamCall} {c' : Comms} (same : SameTeams c c') : Went c call c'
  | joins {r : TeamJoinRequest} {c' : Comms} (joined : Joined c r c') : Went c (.joinWrite r) c'
  | creates {d : TeamDraft} {c' : Comms} (state : c'.state = withTeam d (newTeamId c) c.state) :
      Went c (.createWrite d) c'

theorem goOn_went {call : TeamCall} {answer : Runtime.Answer} {piece : CommsM (Option TeamCall)}
    (hp : call.goOn answer = some piece) : After piece c fun _ c' => Went c call c' := by
  by_cases hjoin : ∃ r, call = .joinWrite r
  · obtain ⟨r, rfl⟩ := hjoin
    cases answer <;> try cases hp
    exact after_return ((joinTeamWrite_joined r).mono fun _ _ h => .joins h)
  · refine (goOn_moved hp).mono fun r c' h => ?_
    generalize Service.left r = after at h
    cases h with
    | stopped | checked | joinChecked | admitted | idle | passedBy | recovers => exact .same (.refl c)
    | created sets => exact .creates sets.state
    | membersStored sets => exact .same (sets.sameTeams ⟨rfl, rfl⟩)
    | joined => exact absurd ⟨_, rfl⟩ hjoin
    | sent _ created =>
      cases created with
      | refused | existing => exact .same (.refl c)
      | created _ _ sets => exact .same (addMessage_teams sets.state)
    | ran ran => exact .same ran.sameTeams

/-! ## Every piece keeps the membership -/

def Keeps (c c' : Comms) : Prop := Membership c.state → Membership c'.state

theorem Keeps.refl (c : Comms) : Keeps c c := id

theorem SameTeams.keeps (h : SameTeams c c') : Keeps c c' := fun hc => hc.same h.1 h.2

theorem Joined.keeps {r : TeamJoinRequest} (h : Joined c r c') : Keeps c c' := by
  cases h with
  | refused same => exact same.keeps
  | @joined team found state =>
    intro hc
    rw [state]
    exact hc.put ((hc.getD found).join (r.member team.leadAgentId c.runtime.clock))

theorem Removed.keeps {teamId agentId : String} (h : Removed c teamId agentId c') : Keeps c c' := by
  cases h with
  | refused same => exact same.keeps
  | removed found filed member many state =>
    intro hc
    rw [state]
    exact hc.put ((hc.enrolled _ _ _ found filed).leave member many)

theorem Led.keeps {teamId leadAgentId : String} (h : Led c teamId leadAgentId c') : Keeps c c' := by
  cases h with
  | refused same => exact same.keeps
  | led found filed member state =>
    intro hc
    rw [state]
    exact hc.putTeam filed ⟨member, (hc.enrolled _ _ _ found filed).keyed⟩

theorem Regrouped.keeps {op : Operation} (h : Regrouped c op c') : Keeps c c' := by
  cases h with
  | same same => exact same.keeps
  | removes removed => exact removed.keeps
  | leads led => exact led.keeps
  | deletes state => exact fun hc => state ▸ hc.delete _

theorem Went.keeps {call : TeamCall} (h : Went c call c') : Keeps c c' := by
  cases h with
  | same same => exact same.keeps
  | joins joined => exact joined.keeps
  | creates state =>
    intro hc
    rw [state]
    exact hc.put (TeamDraft.enrolled _ _)

end

/-! ## Every run -/

theorem membership_step {s s' : Service} {l : Label} (h : Membership s.comms.state) (hs : Service.step l s = some s') :
    Membership s'.comms.state := by
  cases l with
  | runtime l =>
    obtain ⟨t, -, hs⟩ := Option.bind_eq_some_iff.mp hs
    obtain rfl := Option.some.inj hs
    exact h
  | start i op =>
    simp only [Service.step] at hs
    split at hs
    · cases hs
    · obtain rfl := Option.some.inj hs
      exact (begin_regrouped op).out.keeps h
  | goOn i answer =>
    obtain ⟨call, -, hs⟩ := Option.bind_eq_some_iff.mp hs
    obtain ⟨piece, hpiece, hs⟩ := Option.bind_eq_some_iff.mp hs
    simp only [Option.ite_none_left_eq_some, Option.some.injEq] at hs
    obtain ⟨-, rfl⟩ := hs
    exact (goOn_went hpiece).out.keeps h

/-- In every state that any interleaving of the operations reaches from an empty store, whatever writes fail. -/
theorem teams_staffed {runtime : Manager} {faults : List Bool} {config : RuntimeTeamCommsConfig} {nonce : String}
    {s : Service} (hr : Reaches Service.step (fun _ _ => True)
      (Service.start (Comms.new runtime (Store.empty faults) config nonce)) s) : Staffed s.comms.state := by
  refine Membership.staffed (hr.invariant (I := fun s => Membership s.comms.state) ?_ fun l t u h _ hs =>
    membership_step h hs)
  exact ⟨fun teamId => Iff.rfl, fun teamId team members ht => by cases ht⟩

/-- The lead of a team leaves it. -/
theorem teams_staffed_succession : ∃ s : Service, (s.comms.state.teams.lookup "team_1").map TeamRecord.leadAgentId =
    some "sess_codex_0_3" ∧ Staffed s.comms.state := by
  obtain ⟨s, hs, he⟩ := exists_reaches_of_runAll Service.step (fun _ _ => true)
    (newTeam ++ [.start 1 (.removeTeamMember "team_1" "sess_codex_0_1")])
    (fun s => (s.comms.state.teams.lookup "team_1").map TeamRecord.leadAgentId) (some "sess_codex_0_3")
    (s := Service.fresh []) (by decide +kernel)
  exact ⟨s, he, teams_staffed (hs.mono fun _ _ _ => trivial)⟩

end Gooselake.TeamComms
