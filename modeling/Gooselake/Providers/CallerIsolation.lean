import Gooselake.Providers.AdapterSteps
import Gooselake.Providers.CodexConfig

/-!
In whose name the tools of a Codex process act. The file that says so is shared, so it is the file of the process
as long as no launch opens it while a process runs; two launches close together give the first process the name of
the second session.
-/

namespace Gooselake.Providers

open Gooselake.Core Gooselake.Runtime Data Library Library.Exec

set_option autoImplicit false

/-! ## The processes -/

/-- A codex adapter goes on: its processes stay or one is added for session `k`. -/
def Launches (k : String) (c c' : Codex) : Prop :=
  c'.processes = c.processes ∨ ∃ p, c'.processes = c.processes ++ [p] ∧ p.runtimeSessionId = k

theorem fits_nobody (c : Codex) : CodexFits ∅ c :=
  ⟨fun k v s hv _ => absurd hv (by simp), fun k v hv => absurd hv (by simp)⟩

theorem CodexGoes.launches {awaited : Table String Conversation} {c c' : Codex} {k : String}
    (h : CodexGoes awaited c k c') : Launches k c c' := by
  cases h with
  | quiet hprocesses _ => exact .inl hprocesses
  | launched p hprocesses hsession _ _ => exact .inr ⟨p, hprocesses, hsession⟩

namespace TurnCall

theorem run_launches (call : TurnCall) (spawned : Except RuntimeError Unit) (c : Codex) :
    After (call.run spawned) c fun _ c' => Launches call.runtimeSessionId c c' := by
  cases call with
  | sendTurn req =>
    simp only [TurnCall.run, after_bind_iff]
    refine (codex_sendTurn_goes (fits_nobody c) req spawned).elim (fun _ _ h => ?_) fun _ _ h => h.1.launches
    rw [after_pure]
    exact h.1.launches
  | respondApproval req => exact (codex_respondApproval_goes (fits_nobody c) req spawned).mono fun _ _ h => h.launches

theorem after_launches (call : TurnCall) (spawned : Except RuntimeError Unit) (c : Codex) :
    Launches call.runtimeSessionId c (call.after spawned c) := (call.run_launches spawned c).out

theorem after_error (call : TurnCall) (e : RuntimeError) (c : Codex) :
    (call.after (.error e) c).processes = c.processes := by
  refine (After.out (Q := fun _ (c' : Codex) => c'.processes = c.processes) ?_)
  cases call with
  | sendTurn req =>
    simp only [TurnCall.run, Codex.sendTurn, after_bind_iff]
    refine after_codex_getSession _ (fun session _ => ?_) rfl
    dsimp only
    split
    · exact (after_throw _ _ _).mpr rfl
    · cases req.approvalId with
      | some approvalId => simp only [Codex.putSession, after_bind_iff, after_modify, after_pure]
      | none => simp [Codex.spawnTurn, after_bind_iff]
  | respondApproval req =>
    simp only [TurnCall.run, Codex.respondApproval, after_bind_iff, after_ofExcept]
    cases ApprovalDecision.parse req.decision with
    | error _ => trivial
    | ok decision =>
      dsimp only
      cases decision with
      | decline =>
        simp only [after_bind_iff]
        exact (codex_completeTurn_fits (fits_nobody c) req.turnId _ none (fun _ => by simp)).elim
          (fun _ _ h => (after_pure _ _ _).mpr h.1) fun _ _ h => h.1
      | accept =>
        simp only [after_bind_iff]
        refine after_codex_getSession _ (fun session _ => ?_) rfl
        dsimp only
        rw [after_orThrow]
        refine ⟨fun pending _ => ?_, fun _ => rfl⟩
        dsimp only
        split
        · exact (after_throw _ _ _).mpr rfl
        · simp [Codex.spawnTurn, after_bind_iff]

end TurnCall

namespace CodexHome

variable {s s' : CodexHome}

def Quiet (c : Codex) : Prop := ∀ process ∈ c.processes, process.exited = true

def Within (c' c : Codex) : Prop :=
  ∀ process ∈ c'.processes, process.exited = false → process ∈ c.processes

theorem within_of_processes {c c' : Codex} (h : c'.processes = c.processes) : Within c' c :=
  fun _ hp _ => h ▸ hp

theorem ends_within {c c' : Codex} {n : ℕ} {process : CodexProcess}
    (h : c'.processes = c.processes.set n { process with exited := true }) : Within c' c := by
  intro p hp hrun
  rw [h] at hp
  obtain hold | rfl := List.mem_or_eq_of_mem_set hp
  · exact hold
  · exact absurd hrun (by simp)

/-- The file is that of every running process; from the moment it is opened none runs, and in the end it is that of
the launch. -/
structure Kept (s : CodexHome) : Prop where
  own : ∀ process ∈ s.codex.processes, process.exited = false →
    s.configToml = some (s.config.formatCodexGgMcpConfig process.runtimeSessionId)
  opened : ∀ call point, s.launch = some ⟨call, point⟩ → point = .writing ∨ point = .spawning → Quiet s.codex
  written : ∀ call, s.launch = some ⟨call, .spawning⟩ →
    s.configToml = some (s.config.formatCodexGgMcpConfig call.runtimeSessionId)

theorem Kept.readsOwn (h : Kept s) : ReadsOwn s := by
  intro _ process hp hrun
  have hown := h.own process hp hrun
  refine ⟨hown, fun other hother => ?_⟩
  rw [hown] at hother
  exact (s.config.formatCodexGgMcpConfig_inj (Option.some.inj hother)).symm

/-! ## The sections -/

theorem Kept.locked (h : Kept s) {m : CodexM Unit} (hm : Within (m.result s.codex).2 s.codex)
    (hs : s.locked m = some s') : Kept s' := by
  unfold CodexHome.locked at hs
  split at hs
  · exact absurd hs (by simp)
  · next hlaunch =>
    obtain rfl := Option.some.inj hs
    have hnone : s.launch = none := by simpa using hlaunch
    refine ⟨fun process hp hrun => h.own process (hm process hp hrun) hrun, ?_, ?_⟩
    · intro call point hl _
      exact absurd (hnone.symm.trans hl) (by simp)
    · intro call hl
      exact absurd (hnone.symm.trans hl) (by simp)

theorem Kept.begin (h : Kept s) (call : TurnCall) (hs : s.begin call = some s') : Kept s' := by
  unfold CodexHome.begin at hs
  split at hs
  · obtain rfl := Option.some.inj hs
    refine ⟨h.own, ?_, ?_⟩
    · intro call' point hl hpoint
      obtain ⟨-, rfl⟩ := CodexLaunch.mk.inj (Option.some.inj hl)
      simp at hpoint
    · intro call' hl
      simp at hl
  · next hno =>
    by_cases hlaunch : s.launch = none
    · -- the call starts no process
      refine h.locked ?_ hs
      obtain hsame | ⟨p, hadd, -⟩ := call.after_launches (.ok ()) s.codex
      · exact within_of_processes hsame
      · have hspawns : call.spawns s.codex = true := by
          simp [TurnCall.spawns, hadd]
        exact absurd hno (by simp [hspawns, hlaunch])
    · obtain ⟨launch, hl⟩ := Option.ne_none_iff_exists'.mp hlaunch
      simp [CodexHome.locked, hl] at hs

theorem Kept.finish (h : Kept s) {call : TurnCall} {point : CodexLaunchPoint} (hl : s.launch = some ⟨call, point⟩)
    (spawned : Except RuntimeError Unit) (hpoint : spawned = .ok () → point = .spawning) :
    Kept (s.finish call spawned) := by
  refine ⟨?_, ?_, ?_⟩
  · intro process hp hrun
    change process ∈ (call.after spawned s.codex).processes at hp
    obtain hsame | ⟨p, hadd, hid⟩ := call.after_launches spawned s.codex
    · rw [hsame] at hp
      exact h.own process hp hrun
    · cases spawned with
      | error e =>
        rw [call.after_error] at hp
        exact h.own process hp hrun
      | ok _ =>
        obtain rfl := hpoint rfl
        rw [hadd] at hp
        obtain hold | hnew := List.mem_append.mp hp
        · exact h.own process hold hrun
        · obtain rfl := List.mem_singleton.mp hnew
          rw [hid]
          exact h.written call hl
  · intro call' point' hl'
    exact absurd hl' (by simp [CodexHome.finish])
  · intro call' hl'
    exact absurd hl' (by simp [CodexHome.finish])

theorem Kept.goOn (h : Kept s) (henabled : s.config.enabled = true) {outcome : Except RuntimeError Unit}
    (ha : alone (.goOn outcome) s = true) (hs : s.goOn outcome = some s') : Kept s' := by
  unfold CodexHome.goOn at hs
  split at hs
  case h_1 => exact absurd hs (by simp)
  case h_2 call point error hl =>
    obtain rfl := Option.some.inj hs
    exact h.finish hl _ (by simp)
  case h_3 call hl =>
    obtain rfl := Option.some.inj hs
    refine ⟨h.own, ?_, ?_⟩ <;> simp [henabled]
  case h_4 call hl =>
    obtain rfl := Option.some.inj hs
    refine ⟨h.own, ?_, ?_⟩ <;> simp
  case h_5 call hl =>
    -- nobody is there to find the file empty
    obtain rfl := Option.some.inj hs
    have hquiet : Quiet s.codex := by
      simpa [alone, hl, Quiet] using ha
    refine ⟨?_, fun _ _ _ _ => hquiet, by simp⟩
    intro process hp hrun
    rw [hquiet process hp] at hrun
    exact absurd hrun (by simp)
  case h_6 call hl =>
    obtain rfl := Option.some.inj hs
    have hquiet : Quiet s.codex := h.opened call _ hl (.inl rfl)
    refine ⟨?_, fun _ _ _ _ => hquiet, ?_⟩
    · intro process hp hrun
      rw [hquiet process hp] at hrun
      exact absurd hrun (by simp)
    · intro call' hl'
      obtain ⟨rfl, -⟩ := CodexLaunch.mk.inj (Option.some.inj hl')
      rfl
  case h_7 call hl =>
    obtain rfl := Option.some.inj hs
    exact h.finish hl _ (fun _ => rfl)

/-! ## The system -/

theorem locked_config {m : CodexM Unit} (hs : s.locked m = some s') : s'.config = s.config := by
  unfold CodexHome.locked at hs
  split at hs
  · exact absurd hs (by simp)
  · obtain rfl := Option.some.inj hs
    rfl

theorem step_config {e : Event} (hs : s.step e = some s') : s'.config = s.config := by
  cases e with
  | createSession req => exact locked_config hs
  | resumeSession req => exact locked_config hs
  | closeSession req => exact locked_config hs
  | call call =>
    change s.begin call = some s' at hs
    unfold CodexHome.begin at hs
    split at hs
    · obtain rfl := Option.some.inj hs
      rfl
    · exact locked_config hs
  | goOn outcome =>
    change s.goOn outcome = some s' at hs
    unfold CodexHome.goOn at hs
    split at hs
    case h_1 => exact absurd hs (by simp)
    all_goals
      obtain rfl := Option.some.inj hs
      rfl
  | processEnds n threadId result =>
    simp only [CodexHome.step] at hs
    split at hs
    · exact absurd hs (by simp)
    · split at hs
      · exact absurd hs (by simp)
      · exact locked_config hs

theorem Kept.step (h : Kept s) (henabled : s.config.enabled = true) {e : Event} (ha : alone e s = true)
    (hs : s.step e = some s') : Kept s' := by
  cases e with
  | createSession req =>
    refine h.locked (within_of_processes ?_) hs
    refine (After.out (Q := fun _ (c' : Codex) => c'.processes = s.codex.processes) ?_)
    simp [Codex.createSession, Codex.putSession]
  | resumeSession req =>
    refine h.locked (within_of_processes ?_) hs
    refine (After.out (Q := fun _ (c' : Codex) => c'.processes = s.codex.processes) ?_)
    simp [Codex.resumeSession, Codex.putSession, after_bind_iff]
  | closeSession req =>
    refine h.locked (within_of_processes ?_) hs
    refine (After.out (Q := fun _ (c' : Codex) => c'.processes = s.codex.processes) ?_)
    simp [Codex.closeSession]
  | call call => exact h.begin call hs
  | goOn outcome => exact h.goOn henabled ha hs
  | processEnds n threadId result =>
    simp only [CodexHome.step] at hs
    split at hs
    · exact absurd hs (by simp)
    next process hn =>
    split at hs
    · exact absurd hs (by simp)
    refine h.locked ?_ hs
    refine (After.out (Q := fun _ (c' : Codex) => Within c' s.codex) ?_)
    simp only [Codex.processEnds, after_bind_iff, after_modify]
    refine (codex_completeTurn_fits (fits_nobody _) process.turnId result threadId (fun _ => by simp)).elim ?_ ?_
    · intro _ c' hc
      rw [after_pure]
      exact ends_within hc.1
    · intro _ c' hc
      exact ends_within hc.1

theorem kept_new (config : CodexGgMcpConfig) (configToml : Option String) : Kept (new config configToml) where
  own := by simp [new, Codex.new]
  opened := by simp [new]
  written := by simp [new]

/-- As long as no launch opens the file while a process runs, every process finds its own session in it. -/
theorem process_reads_its_own_session (config : CodexGgMcpConfig) (configToml : Option String)
    (h : Reaches CodexHome.step (fun e s => alone e s = true) (new config configToml) s) : ReadsOwn s := by
  have hinv : s.config.enabled = true → Kept s := by
    refine h.invariant (I := fun s => s.config.enabled = true → Kept s) (fun _ => kept_new config configToml) ?_
    intro e t u hk ha hu henabled
    rw [step_config hu] at henabled
    exact (hk henabled).step henabled ha hu
  intro henabled
  exact (hinv henabled).readsOwn henabled

def launchFor (runtimeSessionId turnId : String) : List Event :=
  .call (.sendTurn ⟨runtimeSessionId, turnId, [], none, none, none⟩) :: List.replicate 5 (.goOn (.ok ()))

def findings (runtimeSessionId : String) (s : CodexHome) : List (String × Bool) × Bool :=
  (s.codex.processes.map fun process => (process.runtimeSessionId, process.exited),
    s.configToml = some (s.config.formatCodexGgMcpConfig runtimeSessionId))

/-- The second session launches its process when that of the first has ended. -/
theorem process_reads_its_own_session_alone :
    ∃ s, Reaches CodexHome.step (fun e s => alone e s = true) (new .default none) s ∧
      findings "sess_b" s = ([("sess_a", true), ("sess_b", false)], true) ∧ ReadsOwn s := by
  obtain ⟨s, hs, hfound⟩ := exists_reaches_of_runAll (s := new .default none) CodexHome.step alone
    ([.createSession ⟨"sess_a", none, none, none, none⟩, .createSession ⟨"sess_b", none, none, none, none⟩] ++
      launchFor "sess_a" "turn_1" ++ .processEnds 0 none ⟨"sess_a", "turn_1", .completed, none, none⟩ ::
        launchFor "sess_b" "turn_2")
    (findings "sess_b") ([("sess_a", true), ("sess_b", false)], true) (by decide +kernel)
  exact ⟨s, hs, hfound, process_reads_its_own_session .default none hs⟩

theorem not_process_reads_its_own_session :
    ¬ ∀ (config : CodexGgMcpConfig) (configToml : Option String) (s : CodexHome),
      Reaches CodexHome.step (fun _ _ => true) (new config configToml) s → ReadsOwn s := by
  intro h
  obtain ⟨s, hs, hfound⟩ := exists_reaches_of_runAll (s := new .default none) CodexHome.step (fun _ _ => true)
    ([.createSession ⟨"sess_a", none, none, none, none⟩, .createSession ⟨"sess_b", none, none, none, none⟩] ++
      launchFor "sess_a" "turn_1" ++ launchFor "sess_b" "turn_2")
    (fun s => (s.config.enabled, findings "sess_b" s)) (true, [("sess_a", false), ("sess_b", false)], true)
    (by decide +kernel)
  obtain ⟨henabled, hrest⟩ := Prod.mk.inj hfound
  obtain ⟨hprocesses, hfile⟩ := Prod.mk.inj hrest
  have hmem : ("sess_a", false) ∈ s.codex.processes.map fun process => (process.runtimeSessionId, process.exited) := by
    rw [hprocesses]
    exact List.mem_cons_self
  obtain ⟨process, hp, hfields⟩ := List.mem_map.mp hmem
  obtain ⟨hid, hrun⟩ := Prod.mk.inj hfields
  have hother := (h .default none s (hs.mono fun _ _ _ => rfl) henabled process hp hrun).2 "sess_b"
    (by simpa using hfile)
  rw [hid] at hother
  exact absurd hother (by decide)

end CodexHome

end Gooselake.Providers
