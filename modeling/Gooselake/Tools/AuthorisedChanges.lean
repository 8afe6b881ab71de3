import Gooselake.Tools.TeamManage

/-!
Whether a membership change that `gg_team_manage` makes is authorised when it happens. A call is authorised once,
before its first change; `CallSound` says that the authorisation has lasted.
-/

namespace Gooselake.Tools

open Gooselake.Core Data Library Library.Exec
open Gooselake.TeamComms (Comms CommsM TeamCommsState Membership Standing Used Later SameTeams Joined Removed Led
  Regrouped Went Begun Moved Service joinTeamWrite removeTeamMember sortedMembers withMembers canLeave canLead)

set_option autoImplicit false

/-! ## Reading a call -/

theorem requiredStringArg_trimmed {args : Fields} {field text : String} (h : requiredStringArg args field = .ok text) :
    trim text = text := by
  unfold requiredStringArg orBadRequest at h
  split at h
  · next t ht =>
    obtain rfl := Except.ok.inj h
    obtain ⟨value, -, htext⟩ := Option.bind_eq_some_iff.mp ht
    obtain ⟨s, -, hs⟩ := Option.bind_eq_some_iff.mp htext
    simp only [trimmedNonEmpty] at hs
    split at hs
    · cases hs
    · rw [← Option.some.inj hs, trim_trim]
  · cases h

/-- What a management call that was read is about: a trimmed team id, and for an add the caller may add. -/
def ManageRead (checks : TeamChecks) (caller : String) (call : ToolCall) : Prop :=
  ∃ teamId, trim teamId = teamId ∧ ((∃ ids, call = .teamRemove teamId ids) ∨
    ∃ options, call = .teamAdd teamId options ∧ checks.mayAdd caller teamId = .ok ())

theorem readTeamManageAdd_read {checks : TeamChecks} {caller teamId : String} {args : Fields} {call : ToolCall}
    (h : readTeamManageAdd checks caller teamId args = .ok call) :
    ∃ options, call = .teamAdd teamId options ∧ checks.mayAdd caller teamId = .ok () := by
  unfold readTeamManageAdd at h
  obtain ⟨u, hmay, h⟩ := bind_eq_ok h
  obtain ⟨title, -, h⟩ := bind_eq_ok h
  obtain ⟨prompt, -, h⟩ := bind_eq_ok h
  obtain ⟨imagePaths, -, h⟩ := bind_eq_ok h
  obtain ⟨modelPreset, -, h⟩ := bind_eq_ok h
  obtain ⟨preset, -, h⟩ := bind_eq_ok h
  obtain ⟨subscription, -, h⟩ := bind_eq_ok h
  obtain ⟨_, -, h⟩ := bind_eq_ok h
  obtain ⟨worktreeName, -, h⟩ := bind_eq_ok h
  obtain ⟨useExisting, -, h⟩ := bind_eq_ok h
  split at h
  · cases h
  · exact ⟨_, (Except.ok.inj h).symm, hmay⟩

theorem readTeamManage_read {checks : TeamChecks} {caller : String} {args : Fields} {call : ToolCall}
    (h : readTeamManage checks caller args = .ok call) : ManageRead checks caller call := by
  unfold readTeamManage at h
  obtain ⟨_, -, h⟩ := bind_eq_ok h
  obtain ⟨_, -, h⟩ := bind_eq_ok h
  obtain ⟨teamId, hteam, h⟩ := bind_eq_ok h
  refine ⟨teamId, requiredStringArg_trimmed hteam, ?_⟩
  split at h
  · obtain ⟨_, -, h⟩ := bind_eq_ok h
    obtain ⟨ids, -, h⟩ := bind_eq_ok h
    split at h
    · cases h
    · exact .inl ⟨ids, (Except.ok.inj h).symm⟩
  · exact .inr (readTeamManageAdd_read h)

def ToolCall.isManage : ToolCall → Bool
  | .teamAdd _ _ | .teamRemove _ _ => true
  | _ => false

theorem readProcessTool_isManage {request : ToolInvokeRequest} {call : ToolCall}
    (h : readProcessTool request = .ok call) : call.isManage = false := by
  unfold readProcessTool at h
  split at h
  · split at h
    · obtain rfl := Except.ok.inj h
      rfl
    · split at h
      · obtain rfl := Except.ok.inj h
        rfl
      · split at h <;> (obtain rfl := Except.ok.inj h; rfl)
    · obtain rfl := Except.ok.inj h
      rfl
    · obtain rfl := Except.ok.inj h
      rfl
    · cases h
  · cases h

theorem readTeamTool_read {checks : TeamChecks} {request : ToolInvokeRequest} {call : ToolCall}
    (h : readTeamTool checks request = .ok call) (hmanage : call.isManage = true) :
    ManageRead checks request.callerSessionId call := by
  unfold readTeamTool at h
  split at h
  · cases h
  · split at h
    · split at h
      · unfold readTeamStatus at h
        obtain ⟨_, -, h⟩ := bind_eq_ok h
        obtain ⟨_, -, h⟩ := bind_eq_ok h
        obtain rfl := Except.ok.inj h
        cases hmanage
      · unfold readTeamMessage at h
        obtain ⟨_, -, h⟩ := bind_eq_ok h
        obtain ⟨_, -, h⟩ := bind_eq_ok h
        obtain ⟨_, -, h⟩ := bind_eq_ok h
        obtain ⟨_, -, h⟩ := bind_eq_ok h
        obtain ⟨_, -, h⟩ := bind_eq_ok h
        obtain rfl := Except.ok.inj h
        cases hmanage
      · exact readTeamManage_read h
      · cases h
    · cases h

theorem invokeTool_read {checks : TeamChecks} {request : ToolInvokeRequest} {call : ToolCall}
    (h : invokeTool checks request = .ok (.ok call)) (hmanage : call.isManage = true) :
    ManageRead checks request.callerSessionId call := by
  unfold invokeTool at h
  split at h
  · cases h
  · split at h
    · cases h
    · split at h
      · have hno := readProcessTool_isManage (Except.ok.inj h)
        rw [hmanage] at hno
        cases hno
      · split at h
        · exact readTeamTool_read (Except.ok.inj h) hmanage
        · cases h

/-! ## The authorisation -/

theorem getTeam_after (c : Comms) (teamId : String) : After (getTeam teamId) c fun r _ => ∀ t, r = .ok t →
    c.state.teams.lookup (trim teamId) = some t.team ∧
      t.members = sortedMembers ((c.state.membersByTeam.lookup (trim teamId)).getD ∅) := by
  refine TeamComms.readOnly_ensureEnabled.after_bind (fun _ => ?_) fun _ _ h => by cases h
  refine after_checked (fun id hn => ?_) fun _ _ _ h => by cases h
  obtain rfl := TeamComms.normalizeNonEmpty_ok hn
  simp only [TeamComms.teamWithMembers, after_bind_iff, after_get, after_orThrow, after_pure]
  refine ⟨fun team hteam t ht => ?_, fun _ _ h => by cases h⟩
  obtain rfl := Except.ok.inj ht
  exact ⟨hteam, rfl⟩

theorem standing_of_check {c : Comms} (hc : Membership c.state) {teamId caller action : String} {allow : Bool}
    (h : ensureCallerCanManageMembership c teamId caller allow action = .ok ()) :
    trim teamId ∈ c.state.teams ∧ Standing c.state (trim teamId) caller allow := by
  unfold ensureCallerCanManageMembership at h
  split at h
  · cases h
  · next team hteam =>
    obtain ⟨hfound, hmembers⟩ := (getTeam_after c teamId).out team hteam
    obtain ⟨_, hmember, h⟩ := bind_eq_ok h
    unfold ensureTeamMember at hmember
    split at hmember
    · next hany =>
      split at h
      · next hlead =>
        refine ⟨Table.lookup_isSome hfound, fun team' hteam' => ?_⟩
        obtain rfl := Option.some.inj (hfound.symm.trans hteam')
        obtain ⟨members, hfiled⟩ : ∃ members, c.state.membersByTeam.lookup (trim teamId) = some members :=
          Option.isSome_iff_exists.mp (AList.lookup_isSome.mpr ((hc.mapped _).mpr (Table.lookup_isSome hfound)))
        refine ⟨members, hfiled, ?_, hlead⟩
        rw [hmembers, hfiled, Option.getD_some] at hany
        obtain ⟨member, hin, hid⟩ := List.any_eq_true.mp hany
        refine (TeamComms.mem_agentIds (hc.enrolled _ _ _ hfound hfiled).keyed caller).mp ?_
        exact List.mem_map.mpr ⟨member, hin, of_decide_eq_true hid⟩
      · cases h
    · cases hmember

/-! ## Calls in flight -/

structure CallSound (policy : TeamMcpPolicy) (c : Comms) (call : ManageCall) : Prop where
  trimmed : trim call.teamId = call.teamId
  used : Used c call.teamId
  standing : Standing c.state call.teamId call.callerSessionId (policy.allowsNonLead call.action)
  joins : ∀ r, call.point = .joining r ∨ call.point = .joinWrite r → r.teamId = call.teamId

theorem begin_sound {s : ManageServer} (hmembers : Membership s.service.comms.state)
    (hids : ∀ id ∈ s.service.comms.state.teams, Used s.service.comms id) {request : ToolInvokeRequest}
    {session : Except TeamToolFailure (Option String)} {call : ManageCall} (h : s.begin request session = some call) :
    CallSound s.policy s.service.comms call := by
  have hnew : ∀ (kind : ManageAction) {teamId action : String} {point : ManagePoint}, trim teamId = teamId →
      ensureCallerCanManageMembership s.service.comms teamId request.callerSessionId
        (s.policy.allowsNonLead kind) action =
        .ok () → (∀ r, ¬ (point = .joining r ∨ point = .joinWrite r)) →
      CallSound s.policy s.service.comms ⟨request.callerSessionId, teamId, kind, point⟩ := by
    intro kind teamId action point htrim hcheck hpoint
    obtain ⟨hteam, hstanding⟩ := standing_of_check hmembers hcheck
    rw [htrim] at hteam hstanding
    exact ⟨htrim, hids _ hteam, hstanding, fun r hr => absurd hr (hpoint r)⟩
  unfold ManageServer.begin at h
  split at h
  · next teamId options hread =>
    obtain rfl := Option.some.inj h
    obtain ⟨teamId', htrim, hcase⟩ := invokeTool_read hread rfl
    rcases hcase with ⟨ids, he⟩ | ⟨options', he, hmay⟩
    · cases he
    · cases he
      exact hnew .add htrim hmay (by simp)
  · next teamId agentId rest hread =>
    obtain ⟨teamId', htrim, hcase⟩ := invokeTool_read hread rfl
    rcases hcase with ⟨ids, he⟩ | ⟨options', he, -⟩
    · cases he
      split at h
      · next u hcheck =>
        obtain rfl := Option.some.inj h
        exact hnew .remove htrim hcheck (by simp)
      · cases h
    · cases he
  · cases h

structure StillAuthorised (s : ManageServer) : Prop where
  membership : Membership s.service.comms.state
  ids : ∀ id ∈ s.service.comms.state.teams, Used s.service.comms id
  calls : ∀ i call, s.calls.lookup i = some call → CallSound s.policy s.service.comms call

theorem CallSound.later {policy : TeamMcpPolicy} {c c' : Comms} {call : ManageCall} (h : CallSound policy c call)
    (hl : Later c c') (hs : Standing c'.state call.teamId call.callerSessionId (policy.allowsNonLead call.action)) :
    CallSound policy c' call :=
  ⟨h.trimmed, h.used.later hl.next, hs, h.joins⟩

/-! ## Pieces -/

def nextRemoval : List String → Option ManagePoint
  | [] => none
  | agentId :: rest => some (.removing agentId rest)

/-- What a piece of a call can do: the point it leaves the call at and the state it leaves. -/
inductive Did (c : Comms) (call : ManageCall) : ManageAnswer → Option ManagePoint → Comms → Prop where
  | removed {agentId : String} {rest : List String} {c' : Comms} (point : call.point = .removing agentId rest)
      (removed : Removed c (trim call.teamId) (trim agentId) c') (later : Later c c')
      (members : TeamComms.Keeps c c') :
      Did c call .lock (nextRemoval rest) c'
  | ended {answer : ManageAnswer} : Did c call answer none c
  | spawned {answer : ManageAnswer} {r : TeamComms.TeamJoinRequest} (team : r.teamId = trim call.teamId) :
      Did c call answer (some (.joining r)) c
  | checked {answer : ManageAnswer} {r : TeamComms.TeamJoinRequest} (point : call.point = .joining r) :
      Did c call answer (some (.joinWrite r)) c
  | joined {answer : ManageAnswer} {r : TeamComms.TeamJoinRequest} {next : Option ManagePoint} {c' : Comms}
      (point : call.point = .joinWrite r) (joined : Joined c r c') (later : Later c c') (members : TeamComms.Keeps c c')
      (left : next = none ∨ next = some (.joined r.agentId)) : Did c call answer next c'
  | rolledBack {agentId : String} {c' : Comms} (point : call.point = .joined agentId)
      (removed : Removed c (trim call.teamId) (trim agentId) c') (later : Later c c')
      (members : TeamComms.Keeps c c') : Did c call (.onboarded false) none c'

section

variable {c : Comms} {call : ManageCall}

theorem removal_after (teamId agentId : String) : After (removeTeamMember teamId agentId) c fun _ c' =>
    Removed c (trim teamId) (trim agentId) c' ∧ Later c c' ∧ TeamComms.Keeps c c' :=
  ((TeamComms.removeTeamMember_removed teamId agentId).and (TeamComms.removeTeamMember_after teamId agentId)).mono
    fun _ _ h => ⟨h.1, h.2.later, h.1.keeps⟩

theorem joinTeamBegin_after (request : TeamComms.TeamJoinRequest) :
    After (TeamComms.joinTeamBegin request) c fun r c' =>
    c' = c ∧ ∀ r', r = .ok r' → r'.teamId = trim request.teamId := by
  refine ((TeamComms.readOnly_joinTeamBegin request) c).and ?_
  refine TeamComms.readOnly_ensureEnabled.after_bind (fun _ => ?_) fun _ _ h => by cases h
  refine after_checked (fun teamId ht => ?_) fun _ _ _ h => by cases h
  refine after_checked (fun agentId _ => ?_) fun _ _ _ h => by cases h
  refine (after_pure _ _ _).mpr fun r' h => ?_
  obtain rfl := Except.ok.inj h
  exact TeamComms.normalizeNonEmpty_ok ht

theorem goOn_did {answer : ManageAnswer} {piece : CommsM (Option ManagePoint)} (hp : call.goOn answer = some piece) :
    After piece c fun r c' => Did c call answer (ManageServer.left r) c' := by
  cases answer with
  | lock =>
    cases hpoint : call.point with
    | removing agentId rest =>
      simp only [ManageCall.goOn, hpoint, Option.some.injEq] at hp
      subst hp
      rw [after_bind_iff, after_attempt]
      refine (removal_after call.teamId agentId).mono fun r c' h => (after_pure _ _ _).mpr ?_
      have hdid : Did c call .lock (nextRemoval rest) c' := .removed hpoint h.1 h.2.1 h.2.2
      cases rest with
      | nil => exact hdid
      | cons next rest => exact hdid
    | spawning options => simp [ManageCall.goOn, hpoint] at hp
    | joining request =>
      simp only [ManageCall.goOn, hpoint, Option.some.injEq] at hp
      subst hp
      exact (TeamComms.readOnly_requireSessionActive request.agentId).after_bind
        (fun _ => (after_pure _ _ _).mpr (.checked hpoint)) fun _ => .ended
    | joinWrite request =>
      simp only [ManageCall.goOn, hpoint, Option.some.injEq] at hp
      subst hp
      have hjoin : After (joinTeamWrite request) c fun _ c' => Joined c request c' ∧ Later c c' ∧
          TeamComms.Keeps c c' :=
        ((TeamComms.joinTeamWrite_joined request).and (TeamComms.joinTeamWrite_after request)).mono
          fun _ _ h => ⟨h.1, h.2.later, h.1.keeps⟩
      refine after_bind hjoin (fun _ c' h => (after_pure _ _ _).mpr ?_) fun _ c' h => ?_
      · exact .joined hpoint h.1 h.2.1 h.2.2 (.inr rfl)
      · exact .joined hpoint h.1 h.2.1 h.2.2 (.inl rfl)
    | joined agentId => simp [ManageCall.goOn, hpoint] at hp
  | spawned r =>
    cases hpoint : call.point with
    | spawning options =>
      cases r with
      | none =>
        simp only [ManageCall.goOn, hpoint, Option.some.injEq] at hp
        subst hp
        exact (after_pure _ _ _).mpr .ended
      | some spawned =>
        obtain ⟨sessionId, worktreeId⟩ := spawned
        simp only [ManageCall.goOn, hpoint, Option.some.injEq] at hp
        subst hp
        refine after_bind (joinTeamBegin_after _) (fun r c' h => (after_pure _ _ _).mpr ?_) fun _ c' h => ?_
        · obtain ⟨rfl, hteam⟩ := h
          exact .spawned (hteam r rfl)
        · obtain ⟨rfl, -⟩ := h
          exact .ended
    | removing agentId rest => simp [ManageCall.goOn, hpoint] at hp
    | joining request => simp [ManageCall.goOn, hpoint] at hp
    | joinWrite request => simp [ManageCall.goOn, hpoint] at hp
    | joined agentId => simp [ManageCall.goOn, hpoint] at hp
  | onboarded ok =>
    cases hpoint : call.point with
    | joined agentId =>
      cases ok with
      | true =>
        simp only [ManageCall.goOn, hpoint, if_true, Option.some.injEq] at hp
        subst hp
        exact (after_pure _ _ _).mpr .ended
      | false =>
        simp only [ManageCall.goOn, hpoint, Bool.false_eq_true, if_false, Option.some.injEq] at hp
        subst hp
        rw [after_bind_iff, after_attempt]
        refine (removal_after call.teamId agentId).mono fun r c' h => (after_pure _ _ _).mpr ?_
        exact .rolledBack hpoint h.1 h.2.1 h.2.2
    | removing agentId rest => simp [ManageCall.goOn, hpoint] at hp
    | spawning options => simp [ManageCall.goOn, hpoint] at hp
    | joining request => simp [ManageCall.goOn, hpoint] at hp
    | joinWrite request => simp [ManageCall.goOn, hpoint] at hp

end

/-! ## What lasts through a step -/

namespace ManageServer

theorem lookup_put (calls : Table ℕ ManageCall) (i j : ℕ) (call : Option ManageCall) :
    (put calls i call).lookup j = if j = i then call else calls.lookup j := by
  cases call with
  | none => exact Table.lookup_erase calls i j
  | some call => exact Table.lookup_insert calls i j call

section

variable {s : ManageServer}

theorem canLeave_of_not_expels {teamId agentId : String} {call : ManageCall} (h : s.expels teamId agentId call = false)
    (hteam : call.teamId = trim teamId) (hcaller : call.callerSessionId = trim agentId) :
    canLeave s.service.comms.state (trim teamId) (trim agentId) = false := by
  simpa [expels, hteam, hcaller] using h

theorem canLead_of_not_deposes {teamId lead : String} {call : ManageCall} (h : s.deposes teamId lead call = false)
    (hteam : call.teamId = trim teamId) (hcaller : call.callerSessionId ≠ trim lead)
    (hany : s.policy.allowsNonLead call.action = false) :
    canLead s.service.comms.state (trim teamId) (trim lead) = false := by
  simpa [deposes, hteam, hcaller, hany] using h

theorem meets_removes {i j : ℕ} {teamId agentId : String} {call : ManageCall}
    (hm : meets (.service (.start i (.removeTeamMember teamId agentId))) s = true)
    (hcall : s.calls.lookup j = some call) :
    s.expels teamId agentId call = false := by
  have hall := List.all_eq_true.mp hm call (Table.mem_values.mpr ⟨j, hcall⟩)
  simpa using hall

theorem meets_leads {i j : ℕ} {teamId lead : String} {call : ManageCall}
    (hm : meets (.service (.start i (.setTeamLead teamId lead))) s = true) (hcall : s.calls.lookup j = some call) :
    s.deposes teamId lead call = false := by
  have hall := List.all_eq_true.mp hm call (Table.mem_values.mpr ⟨j, hcall⟩)
  simpa using hall

theorem meets_takesOut {i : ℕ} {answer : ManageAnswer} {call : ManageCall} {agentId : String} {more : Bool}
    (hm : meets (.goOn i answer) s = true) (hcall : s.calls.lookup i = some call)
    (ht : call.takesOut answer = some (agentId, more)) :
    (∀ j other, j ≠ i → s.calls.lookup j = some other → s.expels call.teamId agentId other = false) ∧
      (more = true → s.expels call.teamId agentId call = false) := by
  simp only [meets, hcall, ht, Bool.and_eq_true] at hm
  constructor
  · intro j other hne hother
    have hall := List.all_eq_true.mp hm.1 other
      (Table.mem_values.mpr ⟨j, by rw [Table.lookup_erase, if_neg hne]; exact hother⟩)
    simpa using hall
  · rintro rfl
    simpa using hm.2

end

end ManageServer

section

variable {s : ManageServer}

theorem StillAuthorised.service (h : StillAuthorised s) {service : Service} (hmembers : Membership service.comms.state)
    (hl : Later s.service.comms service.comms)
    (hs : ∀ i call, s.calls.lookup i = some call → CallSound s.policy s.service.comms call →
      Standing service.comms.state call.teamId call.callerSessionId (s.policy.allowsNonLead call.action)) :
    StillAuthorised { s with service := service } :=
  ⟨hmembers, hl.teams h.ids, fun i call hcall =>
    (h.calls i call hcall).later hl (hs i call hcall (h.calls i call hcall))⟩

theorem StillAuthorised.stepService (h : StillAuthorised s) {l : TeamComms.Label} {service : Service}
    (hm : ManageServer.meets (.service l) s = true) (hs : Service.step l s.service = some service) :
    StillAuthorised { s with service := service } := by
  have hmembers := TeamComms.membership_step h.membership hs
  cases l with
  | runtime l =>
    obtain ⟨t, -, hs⟩ := Option.bind_eq_some_iff.mp hs
    obtain rfl := Option.some.inj hs
    exact h.service hmembers (.same rfl rfl) fun i call _ hc => hc.standing.same ⟨rfl, rfl⟩
  | start i op =>
    simp only [Service.step] at hs
    split at hs
    · cases hs
    · obtain rfl := Option.some.inj hs
      refine h.service hmembers (TeamComms.begin_moved op).out.later fun j call hcall hc => ?_
      cases (TeamComms.begin_regrouped (c := s.service.comms) op).out with
      | same same => exact hc.standing.same same
      | removes removed =>
        have hstays := ManageServer.meets_removes hm hcall
        exact hc.standing.removed removed (ManageServer.canLeave_of_not_expels hstays)
      | leads led =>
        have hleads := ManageServer.meets_leads hm hcall
        exact hc.standing.led led (ManageServer.canLead_of_not_deposes hleads)
      | deletes state => exact hc.standing.deleted state
  | goOn i answer =>
    obtain ⟨teamCall, -, hs⟩ := Option.bind_eq_some_iff.mp hs
    obtain ⟨piece, hpiece, hs⟩ := Option.bind_eq_some_iff.mp hs
    simp only [Option.ite_none_left_eq_some, Option.some.injEq] at hs
    obtain ⟨-, rfl⟩ := hs
    refine h.service hmembers (TeamComms.goOn_moved hpiece).out.later fun j call hcall hc => ?_
    cases (TeamComms.goOn_went (c := s.service.comms) hpiece).out with
    | same same => exact hc.standing.same same
    | joins joined => exact hc.standing.joined joined
    | creates state =>
      have hnew : call.teamId ≠ TeamComms.newTeamId s.service.comms := hc.used.ne_newTeamId
      intro team ht
      change ((piece.result s.service.comms).2).state.teams.lookup call.teamId = some team at ht
      change ∃ members, ((piece.result s.service.comms).2).state.membersByTeam.lookup call.teamId = some members ∧ _
      rw [state] at ht ⊢
      exact hc.standing.other (c := s.service.comms) hnew team ht

theorem StillAuthorised.stepStart (h : StillAuthorised s) (i : ℕ) (request : ToolInvokeRequest)
    (session : Except TeamToolFailure (Option String)) :
    StillAuthorised { s with calls := ManageServer.put s.calls i (s.begin request session) } := by
  refine ⟨h.membership, h.ids, fun j call hcall => ?_⟩
  rw [ManageServer.lookup_put] at hcall
  split at hcall
  · exact begin_sound h.membership h.ids hcall
  · exact h.calls j call hcall

theorem Did.later {c c' : Comms} {call : ManageCall} {answer : ManageAnswer} {next : Option ManagePoint}
    (h : Did c call answer next c') : Later c c' ∧ TeamComms.Keeps c c' := by
  cases h with
  | removed _ _ later members => exact ⟨later, members⟩
  | joined _ _ later members => exact ⟨later, members⟩
  | rolledBack _ _ later members => exact ⟨later, members⟩
  | ended | spawned | checked => exact ⟨.refl _, .refl _⟩

theorem Did.standing {c c' : Comms} {call : ManageCall} {answer : ManageAnswer} {next : Option ManagePoint}
    (h : Did c call answer next c') {teamId caller : String} {anyMember : Bool}
    (hs : Standing c.state teamId caller anyMember)
    (hne : ∀ agentId more, call.takesOut answer = some (agentId, more) → teamId = trim call.teamId →
      caller = trim agentId → canLeave c.state (trim call.teamId) (trim agentId) = false) :
    Standing c'.state teamId caller anyMember := by
  cases h with
  | @removed agentId rest _ point removed =>
    have ht : call.takesOut .lock = some (agentId, decide (rest ≠ [])) := by simp only [ManageCall.takesOut, point]
    exact hs.removed removed (hne _ _ ht)
  | ended | spawned | checked => exact hs
  | joined _ joined => exact hs.joined joined
  | @rolledBack agentId _ point removed =>
    have ht : call.takesOut (.onboarded false) = some (agentId, false) := by
      simp only [ManageCall.takesOut, point, Bool.false_eq_true, if_false]
    exact hs.removed removed (hne _ _ ht)

theorem CallSound.goOn {c c' : Comms} {call : ManageCall} {answer : ManageAnswer} {point : ManagePoint}
    (hc : CallSound s.policy c call) (h : Did c call answer (some point) c')
    (hown : ∀ agentId, call.takesOut answer = some (agentId, true) → call.callerSessionId = trim agentId →
      canLeave c.state (trim call.teamId) (trim agentId) = false) :
    CallSound s.policy c' { call with point := point } := by
  generalize hnext : some point = next at h
  have hl := h.later.1
  cases h with
  | @removed agentId rest _ was removed =>
    cases rest with
    | nil => cases hnext
    | cons following rest =>
      obtain rfl := Option.some.inj hnext
      have ht : call.takesOut .lock = some (agentId, true) := by simp [ManageCall.takesOut, was]
      refine ⟨hc.trimmed, hc.used.later hl.next, hc.standing.removed removed fun _ hcaller => hown _ ht hcaller, ?_⟩
      intro r hr
      simp at hr
  | ended => cases hnext
  | @spawned _ r team =>
    obtain rfl := Option.some.inj hnext
    refine ⟨hc.trimmed, hc.used, hc.standing, fun r' hr => ?_⟩
    have he : r = r' := by simpa using hr
    rw [← he, team, hc.trimmed]
  | @checked _ r was =>
    obtain rfl := Option.some.inj hnext
    refine ⟨hc.trimmed, hc.used, hc.standing, fun r' hr => ?_⟩
    have he : r = r' := by simpa using hr
    exact he ▸ hc.joins r (.inl was)
  | @joined _ r _ _ was joined _ _ left =>
    rcases left with rfl | rfl
    · cases hnext
    · obtain rfl := Option.some.inj hnext
      refine ⟨hc.trimmed, hc.used.later hl.next, hc.standing.joined joined, fun r' hr => ?_⟩
      simp at hr
  | rolledBack => cases hnext

theorem StillAuthorised.stepGoOn (h : StillAuthorised s) {i : ℕ} {answer : ManageAnswer} {call : ManageCall}
    {piece : CommsM (Option ManagePoint)} (hm : ManageServer.meets (.goOn i answer) s = true)
    (hcall : s.calls.lookup i = some call) (hp : call.goOn answer = some piece) :
    StillAuthorised (s.settle i call piece) := by
  have hdid := (goOn_did (c := s.service.comms) hp).out
  have hl := hdid.later.1
  refine ⟨hdid.later.2 h.membership, hl.teams h.ids, fun j other hother => ?_⟩
  change (ManageServer.put _ _ _).lookup j = some other at hother
  rw [ManageServer.lookup_put] at hother
  split at hother
  · -- the call itself
    obtain ⟨point, hpoint, rfl⟩ := Option.map_eq_some_iff.mp hother
    rw [hpoint] at hdid
    refine (h.calls i call hcall).goOn (s := s) hdid fun agentId ht hcaller => ?_
    have hstays := (ManageServer.meets_takesOut hm hcall ht).2 rfl
    exact ManageServer.canLeave_of_not_expels hstays (h.calls i call hcall).trimmed.symm hcaller
  · next hne =>
    have hc := h.calls j other hother
    refine hc.later hl (hdid.standing hc.standing fun agentId more ht hteam hcaller => ?_)
    have hstays := (ManageServer.meets_takesOut hm hcall ht).1 j other hne hother
    exact ManageServer.canLeave_of_not_expels hstays hteam hcaller

theorem StillAuthorised.step {s' : ManageServer} {l : ManageLabel} (h : StillAuthorised s)
    (hm : ManageServer.meets l s = true)
    (hs : ManageServer.step l s = some s') : StillAuthorised s' := by
  cases l with
  | service l =>
    obtain ⟨service, hservice, hs⟩ := Option.bind_eq_some_iff.mp hs
    obtain rfl := Option.some.inj hs
    exact h.stepService hm hservice
  | start i request session =>
    simp only [ManageServer.step, Option.ite_none_left_eq_some, Option.some.injEq] at hs
    obtain ⟨-, rfl⟩ := hs
    exact h.stepStart i request session
  | goOn i answer =>
    obtain ⟨call, hcall, hs⟩ := Option.bind_eq_some_iff.mp hs
    obtain ⟨piece, hpiece, hs⟩ := Option.bind_eq_some_iff.mp hs
    obtain rfl := Option.some.inj hs
    exact h.stepGoOn hm hcall hpiece

end

/-! ## Changes -/

/-- The caller of the call is a member of its team, and the lead unless the policy lets every member do it. -/
def ManageCall.Authorised (policy : TeamMcpPolicy) (s : TeamCommsState) (call : ManageCall) : Prop :=
  ∃ team members, s.teams.lookup call.teamId = some team ∧ s.membersByTeam.lookup call.teamId = some members ∧
    call.callerSessionId ∈ members ∧ (team.leadAgentId = call.callerSessionId ∨ policy.allowsNonLead call.action = true)

/-- Whatever a call in flight changes next of a team's members, it changes in the team it was made for, and in a
state in which its caller is authorised. -/
def AuthorisedChanges (s : ManageServer) : Prop :=
  ∀ i call answer s', s.calls.lookup i = some call → ManageServer.step (.goOn i answer) s = some s' →
    ∀ teamId, s'.service.comms.state.membersByTeam.lookup teamId ≠ s.service.comms.state.membersByTeam.lookup teamId →
      teamId = call.teamId ∧ call.Authorised s.policy s.service.comms.state

section

variable {policy : TeamMcpPolicy} {c c' : Comms} {call : ManageCall}

theorem CallSound.authorised (h : CallSound policy c call) {team : TeamRecord}
    (found : c.state.teams.lookup call.teamId = some team) : call.Authorised policy c.state := by
  obtain ⟨members, hfiled, hmember, hlead⟩ := h.standing team found
  exact ⟨team, members, found, hfiled, hmember, hlead⟩

theorem CallSound.removes (h : CallSound policy c call) {agentId : String}
    (hr : Removed c (trim call.teamId) (trim agentId) c') {teamId : String}
    (hchange : c'.state.membersByTeam.lookup teamId ≠ c.state.membersByTeam.lookup teamId) :
    teamId = call.teamId ∧ call.Authorised policy c.state := by
  rw [h.trimmed] at hr
  cases hr with
  | refused same => exact absurd (by rw [same.2]) hchange
  | removed found filed member many state =>
    refine ⟨?_, h.authorised found⟩
    by_contra hne
    rw [state] at hchange
    exact hchange (by simp only [withMembers, Table.lookup_insert, if_neg hne])

theorem CallSound.joinsTeam (h : CallSound policy c call) {r : TeamComms.TeamJoinRequest}
    (hpoint : call.point = .joinWrite r) (hj : Joined c r c') {teamId : String}
    (hchange : c'.state.membersByTeam.lookup teamId ≠ c.state.membersByTeam.lookup teamId) :
    teamId = call.teamId ∧ call.Authorised policy c.state := by
  have hteam := h.joins r (.inr hpoint)
  cases hj with
  | refused same => exact absurd (by rw [same.2]) hchange
  | joined found state =>
    rw [hteam] at found
    refine ⟨?_, h.authorised found⟩
    by_contra hne
    rw [state, hteam] at hchange
    exact hchange (by simp only [withMembers, Table.lookup_insert, if_neg hne])

end

theorem StillAuthorised.authorisedChanges {s : ManageServer} (h : StillAuthorised s) : AuthorisedChanges s := by
  intro i call answer s' hcall hs teamId hchange
  have hc := h.calls i call hcall
  obtain ⟨call', hcall', hs⟩ := Option.bind_eq_some_iff.mp hs
  obtain rfl := Option.some.inj (hcall.symm.trans hcall')
  obtain ⟨piece, hpiece, hs⟩ := Option.bind_eq_some_iff.mp hs
  obtain rfl := Option.some.inj hs
  change ((piece.result s.service.comms).2).state.membersByTeam.lookup teamId ≠ _ at hchange
  have hdid := (goOn_did (c := s.service.comms) hpiece).out
  generalize ManageServer.left (piece.result s.service.comms).1 = next at hdid
  generalize (piece.result s.service.comms).2 = c' at hdid hchange
  cases hdid with
  | removed _ removed => exact hc.removes removed hchange
  | joined point joined => exact hc.joinsTeam point joined hchange
  | rolledBack _ removed => exact hc.removes removed hchange
  | ended | spawned | checked => exact absurd rfl hchange

def emptyServer (policy : TeamMcpPolicy) (presets : List TeamModelPreset) (runtime : Runtime.Manager)
    (faults : List Bool) (config : TeamComms.RuntimeTeamCommsConfig) (nonce : String) : ManageServer :=
  .start policy presets (Comms.new runtime (Core.Store.empty faults) config nonce)

def memberIds (s : ManageServer) (teamId : String) : Option (List String) :=
  (s.service.comms.state.membersByTeam.lookup teamId).map AList.keys

/-- In every run in which no step ends the authorisation of a call in flight, every membership change of the tool
is authorised when it happens. -/
theorem changes_authorised {policy : TeamMcpPolicy} {presets : List TeamModelPreset} {runtime : Runtime.Manager}
    {faults : List Bool} {config : TeamComms.RuntimeTeamCommsConfig} {nonce : String} {s : ManageServer}
    (hr : Reaches ManageServer.step (fun l s => ManageServer.meets l s = true)
      (emptyServer policy presets runtime faults config nonce) s) : AuthorisedChanges s := by
  have hstart : StillAuthorised (emptyServer policy presets runtime faults config nonce) :=
    { membership := ⟨fun teamId => Iff.rfl, fun teamId team members ht => by cases ht⟩
      ids := fun id hid => by cases hid
      calls := fun i call hcall => by cases hcall }
  exact (hr.invariant hstart fun l t u h hm hs => h.step hm hs).authorisedChanges

def teamOfThree : List ManageLabel :=
  (TeamComms.newSession "sess_codex_0_1" ++ TeamComms.newSession "sess_codex_0_3" ++
    TeamComms.newSession "sess_codex_0_5" ++
    [TeamComms.Label.start 0 (.createTeam ⟨"team", "sess_codex_0_1", ["sess_codex_0_3", "sess_codex_0_5"], none⟩)] ++
    List.replicate 5 (TeamComms.Label.goOn 0 .lock)).map .service

def removeCall (agentIds : List String) : ManageLabel :=
  .start 0 ⟨"sess_codex_0_1", none, none, "gg_team_manage",
    .obj [("team_id", .str "team_1"), ("remove_agent_ids", .arr (agentIds.map Json.str))]⟩ (.ok none)

def leadRemoves : ManageServer :=
  emptyServer ⟨true, true, false⟩ [] (Runtime.Manager.empty [.codex] []) [] ⟨true, 10⟩ "nonce"

/-- The lead takes out the other two. -/
theorem changes_authorised_others : ∃ s, memberIds s "team_1" = some ["sess_codex_0_5", "sess_codex_0_1"] ∧
    s.calls.keys = [0] ∧ AuthorisedChanges s := by
  obtain ⟨s, hs, he⟩ := exists_reaches_of_runAll (s := leadRemoves) ManageServer.step ManageServer.meets
    (teamOfThree ++ [removeCall ["sess_codex_0_3", "sess_codex_0_5"], .goOn 0 .lock])
    (fun s => (memberIds s "team_1", s.calls.keys)) (some ["sess_codex_0_5", "sess_codex_0_1"], [0])
    (by decide +kernel)
  obtain ⟨hmembers, hcalls⟩ := Prod.mk.inj he
  exact ⟨s, hmembers, hcalls, changes_authorised hs⟩

/-- The lead takes out itself and then another member, of a team it has left. -/
theorem not_changes_authorised :
    ¬ ∀ (policy : TeamMcpPolicy) (presets : List TeamModelPreset) (runtime : Runtime.Manager)
    (faults : List Bool) (config : TeamComms.RuntimeTeamCommsConfig) (nonce : String) (s : ManageServer),
    Reaches ManageServer.step (fun _ _ => True) (emptyServer policy presets runtime faults config nonce) s →
      AuthorisedChanges s := by
  intro hall
  obtain ⟨s, hs, he⟩ := exists_reaches_of_runAll (s := leadRemoves) ManageServer.step (fun _ _ => true)
    (teamOfThree ++ [removeCall ["sess_codex_0_1", "sess_codex_0_3"], .goOn 0 .lock])
    (fun s => (memberIds s "team_1", (s.calls.lookup 0).map fun call => (call.teamId, call.callerSessionId),
      (ManageServer.step (.goOn 0 .lock) s).map (memberIds · "team_1")))
    (some ["sess_codex_0_5", "sess_codex_0_3"], some ("team_1", "sess_codex_0_1"), some (some ["sess_codex_0_5"]))
    (by decide +kernel)
  obtain ⟨hmembers, he⟩ := Prod.mk.inj he
  obtain ⟨hcalls, hsteps⟩ := Prod.mk.inj he
  obtain ⟨call, hcall, hids⟩ := Option.map_eq_some_iff.mp hcalls
  obtain ⟨hteam, hcaller⟩ := Prod.mk.inj hids
  obtain ⟨s', hs', hmembers'⟩ := Option.map_eq_some_iff.mp hsteps
  have hchange : s'.service.comms.state.membersByTeam.lookup "team_1" ≠
      s.service.comms.state.membersByTeam.lookup "team_1" := by
    intro hsame
    unfold memberIds at hmembers hmembers'
    rw [hsame, hmembers] at hmembers'
    exact absurd hmembers' (by decide)
  obtain ⟨-, team, members, -, hfiled, hmember, -⟩ :=
    hall _ _ _ _ _ _ s (hs.mono fun _ _ _ => trivial) 0 call .lock s' hcall hs' "team_1" hchange
  rw [hteam] at hfiled
  rw [hcaller, AList.mem_keys] at hmember
  rw [memberIds, hfiled] at hmembers
  rw [Option.some.inj hmembers] at hmember
  exact absurd hmember (by decide)

end Gooselake.Tools
