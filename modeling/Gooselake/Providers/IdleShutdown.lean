import Gooselake.Providers.Acp
import Gooselake.Providers.BridgeSections

/-!
What an idle shutdown may hit. The test for sessions and the shutdown are two sections: a session that comes in
between, or that the test cannot see yet, loses its bridge or its connection.
-/

namespace Gooselake.Providers

open Gooselake.Core Data Library

set_option autoImplicit false

/-! ## The bridges of the Claude adapter -/

namespace ClaudeAllocation.ClaudeProvider

variable {s s' : ClaudeProvider} {i : ℕ} {c c' : Call}

/-- What a close is about to fail is unused unless it was closed already. The number of a bridge that is not in the map
yet is known to nobody else. -/
structure Kept (s : ClaudeProvider) : Prop where
  below : ∀ b ∈ s.bridges, b < s.nextBridgeInstanceId
  mapping : ∀ (i : ℕ) (c : Call) (b : ℕ), s.calls[i]? = some c → c.point = .mapping b →
    b < s.nextBridgeInstanceId ∧ b ∉ s.bridges
  apart : ∀ (i j : ℕ) (c d : Call) (b : ℕ), s.calls[i]? = some c → s.calls[j]? = some d → c.point = .mapping b →
    d.point = .mapping b → i = j
  taking : ∀ (i : ℕ) (c : Call), s.calls[i]? = some c → c.point = .taking → ∀ b ∈ s.bridges, b ∉ s.closed → s.Unused b
  failing : ∀ (i : ℕ) (c : Call) (bs : List ℕ), s.calls[i]? = some c → c.point = .failing bs → ∀ b ∈ bs,
    b < s.nextBridgeInstanceId ∧ b ∉ s.bridges ∧ (b ∉ s.closed → s.Unused b) ∧
    ∀ (j : ℕ) (d : Call), s.calls[j]? = some d → d.point ≠ .mapping b

theorem Kept.sparesInUse (h : Kept s) : SparesInUse s := by
  intro c hc bridge bridges hpoint hopen
  obtain ⟨i, hi⟩ := List.mem_iff_getElem?.mp hc
  exact (h.failing i c _ hi hpoint bridge List.mem_cons_self).2.2.1 hopen

/-- Call `i` goes on from `c` to `c'`. The sessions it adds are on the bridge it holds; a bridge it gets is one of the
map, and nobody is about to take those. -/
structure Moves (i : ℕ) (c c' : Call) (s s' : ClaudeProvider) : Prop where
  calls : s'.calls = s.calls.set i c'
  next : s.nextBridgeInstanceId ≤ s'.nextBridgeInstanceId
  closed : ∀ b ∈ s.closed, b ∈ s'.closed
  bridges : ∀ b ∈ s'.bridges, b ∈ s.bridges ∨ c.point = .mapping b
  sessions : ∀ k h, s'.sessions.lookup k = some h → s.sessions.lookup k = some h ∨ c.point.bridge? = some h.bridge
  gets : ∀ b, c'.point.bridge? = some b → c.point.bridge? = some b ∨
    (b ∈ s.bridges ∨ c.point = .mapping b) ∧ ∀ d ∈ s.calls, d.point ≠ .taking
  maps : ∀ b, c'.point = .mapping b →
    b = s.nextBridgeInstanceId ∧ s'.nextBridgeInstanceId = s.nextBridgeInstanceId + 1 ∧ s'.bridges = s.bridges
  quiet : (∃ b, c.point = .mapping b) → ∀ d ∈ s.calls, d.point ≠ .taking
  takes : c'.point = .taking → ∀ b ∈ s'.bridges, b ∉ s'.closed → s'.Unused b
  fails : ∀ bs, c'.point = .failing bs → ∀ b ∈ bs, b < s.nextBridgeInstanceId ∧ b ∉ s'.bridges ∧
    (b ∉ s'.closed → s'.Unused b) ∧ ∀ (j : ℕ) (d : Call), s.calls[j]? = some d → d.point ≠ .mapping b

theorem Moves.old (hm : Moves i c c' s s') {j : ℕ} {d : Call} (hj : s'.calls[j]? = some d) (hne : j ≠ i) :
    s.calls[j]? = some d := by
  rwa [hm.calls, List.getElem?_set_ne hne.symm] at hj

theorem Moves.new (hm : Moves i c c' s s') {d : Call} (hj : s'.calls[i]? = some d) : d = c' := by
  rw [hm.calls, List.getElem?_set] at hj
  simp only [if_true] at hj
  split at hj
  · exact (Option.some.inj hj).symm
  · exact absurd hj (by simp)

theorem Unused.set (hcalls : s'.calls = s.calls.set i c')
    (hsessions : ∀ k h, s'.sessions.lookup k = some h → s.sessions.lookup k = some h ∨ c.point.bridge? = some h.bridge)
    (hi : s.calls[i]? = some c) {b : ℕ} (h : s.Unused b)
    (hb : c'.point.bridge? = some b → c.point.bridge? = some b) : s'.Unused b := by
  refine ⟨fun k h' hk he => ?_, fun d hd he => ?_⟩
  · obtain hold | hc := hsessions k h' hk
    · exact h.1 k h' hold he
    · exact h.2 c (List.mem_of_getElem? hi) (he ▸ hc)
  · rw [hcalls] at hd
    obtain hold | rfl := List.mem_or_eq_of_mem_set hd
    · exact h.2 d hold he
    · exact h.2 c (List.mem_of_getElem? hi) (hb he)

theorem Kept.moves (h : Kept s) (hi : s.calls[i]? = some c) (hm : Moves i c c' s s') : Kept s' := by
  refine ⟨?_, ?_, ?_, ?_, ?_⟩
  · intro b hb
    have hnext := hm.next
    obtain hold | hmap := hm.bridges b hb
    · have hlt := h.below b hold
      omega
    · have hlt := (h.mapping i c b hi hmap).1
      omega
  · intro j d b hj hpoint
    by_cases hne : j = i
    · subst hne
      obtain rfl := hm.new hj
      obtain ⟨hb, hnext, hbridges⟩ := hm.maps b hpoint
      refine ⟨by omega, fun hmem => ?_⟩
      rw [hbridges] at hmem
      have hlt := h.below b hmem
      omega
    · have hj' := hm.old hj hne
      obtain ⟨hlt, hno⟩ := h.mapping j d b hj' hpoint
      have hnext := hm.next
      refine ⟨by omega, fun hmem => ?_⟩
      obtain hold | hmap := hm.bridges b hmem
      · exact hno hold
      · exact hne (h.apart j i d c b hj' hi hpoint hmap)
  · -- a new number is no number yet
    have hfresh : ∀ (j : ℕ) (d : Call) (b : ℕ), s.calls[j]? = some d → d.point = .mapping b →
        c'.point ≠ .mapping b := by
      intro j d b hj hpoint hpoint'
      have hlt := (h.mapping j d b hj hpoint).1
      have hb := (hm.maps b hpoint').1
      omega
    intro j k d e b hj hk hd he
    by_cases hji : j = i
    · by_cases hki : k = i
      · exact hji.trans hki.symm
      · subst hji
        obtain rfl := hm.new hj
        exact absurd hd (hfresh k e b (hm.old hk hki) he)
    · by_cases hki : k = i
      · subst hki
        obtain rfl := hm.new hk
        exact absurd he (hfresh j d b (hm.old hj hji) hd)
      · exact h.apart j k d e b (hm.old hj hji) (hm.old hk hki) hd he
  · intro j d hj hpoint b hb hopen
    by_cases hne : j = i
    · subst hne
      obtain rfl := hm.new hj
      exact hm.takes hpoint b hb hopen
    · -- while another close is about to take the bridges nobody gets one
      have hj' := hm.old hj hne
      have hmem := List.mem_of_getElem? hj'
      have hold : b ∈ s.bridges := by
        obtain hold | hmap := hm.bridges b hb
        · exact hold
        · exact absurd hpoint (hm.quiet ⟨b, hmap⟩ d hmem)
      have hunused := h.taking j d hj' hpoint b hold fun hc => hopen (hm.closed b hc)
      refine Unused.set hm.calls hm.sessions hi hunused fun hget => ?_
      obtain hget | ⟨-, hno⟩ := hm.gets b hget
      · exact hget
      · exact absurd hpoint (hno d hmem)
  · intro j d bs hj hpoint b hb
    have hnext := hm.next
    by_cases hne : j = i
    · subst hne
      obtain rfl := hm.new hj
      obtain ⟨hlt, hno, hunused, hmap⟩ := hm.fails bs hpoint b hb
      refine ⟨by omega, hno, hunused, fun k e hk he => ?_⟩
      by_cases hki : k = j
      · subst hki
        obtain rfl := hm.new hk
        rw [hpoint] at he
        exact absurd he (by simp)
      · exact hmap k e (hm.old hk hki) he
    · have hj' := hm.old hj hne
      obtain ⟨hlt, hno, hunused, hmap⟩ := h.failing j d bs hj' hpoint b hb
      refine ⟨by omega, fun hmem => ?_, fun hopen => ?_, fun k e hk he => ?_⟩
      · obtain hold | hmap' := hm.bridges b hmem
        · exact hno hold
        · exact hmap i c hi hmap'
      · refine Unused.set hm.calls hm.sessions hi (hunused fun hc => hopen (hm.closed b hc)) fun hget => ?_
        obtain hget | ⟨hmem | hmap', -⟩ := hm.gets b hget
        · exact hget
        · exact absurd hmem hno
        · exact absurd hmap' (hmap i c hi)
      · by_cases hki : k = i
        · subst hki
          obtain rfl := hm.new hk
          have hb' := (hm.maps b he).1
          omega
        · exact hmap k e (hm.old hk hki) he

/-! ## The sections -/

theorem nobody_takes {answer : Except RuntimeError String} (hi : s.calls[i]? = some c)
    (ho : orderly (.goOn i answer) s = true) (ha : s.acquires c = true) : ∀ d ∈ s.calls, d.point ≠ .taking := by
  have hpoint : c.point ≠ .leaving := fun hp => by simp [acquires, hp] at ha
  simp only [orderly, hi, hpoint, false_and, if_false, ha, if_true, List.all_eq_true, decide_eq_true_eq] at ho
  exact ho

theorem unused_of_idle {answer : Except RuntimeError String} (hi : s.calls[i]? = some c)
    (ho : orderly (.goOn i answer) s = true) (hpoint : c.point = .leaving) (hempty : s.sessions.keys = []) {b : ℕ}
    (hb : b ∈ s.bridges) (hopen : b ∉ s.closed) : s.Unused b := by
  simp only [orderly, hi, hpoint, hempty, and_self, if_true, List.all_eq_true, decide_eq_true_eq] at ho
  refine ⟨fun k h hk => ?_, fun d hd he => ?_⟩
  · have hmem : k ∈ s.sessions.keys := AList.mem_keys.mpr (Table.lookup_isSome hk)
    rw [hempty] at hmem
    exact absurd hmem (by simp)
  · obtain hno | hclosed := ho b (List.mem_filterMap.mpr ⟨d, hd, he⟩)
    · exact hno hb
    · exact hopen hclosed

theorem Kept.movesOf (h : Kept s) {answer : Except RuntimeError String} (hi : s.calls[i]? = some c)
    (ho : orderly (.goOn i answer) s = true) (hg : Going i answer c c' s s') : Moves i c c' s s' := by
  have hquiet : (∃ b, c.point = .mapping b) → ∀ d ∈ s.calls, d.point ≠ .taking := fun ⟨b, hb⟩ =>
    nobody_takes hi ho (by simp [acquires, hb])
  have hunused : ∀ b, s.Unused b → c'.point.bridge? = none → s'.Unused b := fun b hb hnone =>
    Unused.set hg.calls hg.sessions hi hb fun he => absurd (hnone.symm.trans he) (by simp)
  refine
    { calls := hg.calls
      next := hg.next ▸ Nat.le_add_right _ _
      closed := hg.closed
      bridges := hg.bridges
      sessions := hg.sessions
      gets := fun b hb => (hg.gets b hb).imp_right (And.imp_right (nobody_takes hi ho))
      maps := fun b hb => ?_
      quiet := hquiet
      takes := fun ht b hb hopen => ?_
      fails := fun bs hf b hb => ?_ }
  · obtain ⟨hpoint, -, he, hbridges⟩ := hg.maps b hb
    exact ⟨he, by rw [hg.next, if_pos hpoint], hbridges⟩
  · obtain ⟨hpoint, hempty, rfl⟩ := hg.takes ht
    exact hunused b (unused_of_idle hi ho hpoint hempty hb hopen) (by rw [ht]; rfl)
  · have hnone : c'.point.bridge? = none := by rw [hf]; rfl
    obtain ⟨hpoint, rfl, hempty⟩ | ⟨⟨b₀, hpoint⟩, hbridges⟩ := hg.fails bs hf
    · refine ⟨h.below b hb, by simp [hempty], fun hopen => ?_, fun j d hj hmap => (h.mapping j d b hj hmap).2 hb⟩
      exact hunused b (h.taking i c hi hpoint b hb fun hc => hopen (hg.closed b hc)) hnone
    · obtain ⟨hlt, hno, hfree, hmap⟩ := h.failing i c _ hi hpoint b (List.mem_cons_of_mem _ hb)
      exact ⟨hlt, hbridges ▸ hno, fun hopen => hunused b (hfree fun hc => hopen (hg.closed b hc)) hnone, hmap⟩

theorem Kept.advance (h : Kept s) (hi : s.calls[i]? = some c) {answer : Except RuntimeError String}
    (ho : orderly (.goOn i answer) s = true) (hs : s.advance i c answer = some s') : Kept s' := by
  obtain ⟨c', hg⟩ := going_of_advance hs
  exact h.moves hi (h.movesOf hi ho hg)

theorem Kept.call (h : Kept s) (kind : Kind) (runtimeSessionId : String) :
    Kept { s with calls := s.calls ++ [⟨kind, runtimeSessionId, begin kind⟩] } := by
  obtain ⟨hbridge, hmapping, htaking, hfailing⟩ := Point.plain (isPlain_begin kind)
  have hold : ∀ (j : ℕ) (d : Call), (s.calls ++ [⟨kind, runtimeSessionId, begin kind⟩])[j]? = some d →
      s.calls[j]? = some d ∨ d.point = begin kind := by
    intro j d hj
    rw [List.getElem?_append] at hj
    split at hj
    · exact .inl hj
    · have hmem := List.mem_singleton.mp (List.mem_of_getElem? hj)
      exact .inr (by rw [hmem])
  have hunused : ∀ b, s.Unused b →
      Unused b { s with calls := s.calls ++ [⟨kind, runtimeSessionId, begin kind⟩] } := by
    intro b hb
    refine ⟨hb.1, fun d hd he => ?_⟩
    obtain hd | hd := List.mem_append.mp hd
    · exact hb.2 d hd he
    · obtain rfl := List.mem_singleton.mp hd
      rw [hbridge] at he
      exact absurd he (by simp)
  refine ⟨h.below, ?_, ?_, ?_, ?_⟩
  · intro j d b hj hd
    obtain hj | hpoint := hold j d hj
    · exact h.mapping j d b hj hd
    · exact absurd (hpoint.symm.trans hd) (hmapping b)
  · intro j k d e b hj hk hd he
    obtain hj | hpoint := hold j d hj
    · obtain hk | hpoint := hold k e hk
      · exact h.apart j k d e b hj hk hd he
      · exact absurd (hpoint.symm.trans he) (hmapping b)
    · exact absurd (hpoint.symm.trans hd) (hmapping b)
  · intro j d hj hd b hb hopen
    obtain hj | hpoint := hold j d hj
    · exact hunused b (h.taking j d hj hd b hb hopen)
    · exact absurd (hpoint.symm.trans hd) htaking
  · intro j d bs hj hd b hb
    obtain hj | hpoint := hold j d hj
    · obtain ⟨hlt, hno, hfree, hmap⟩ := h.failing j d bs hj hd b hb
      refine ⟨hlt, hno, fun hopen => hunused b (hfree hopen), fun k e hk he => ?_⟩
      obtain hk | hpoint := hold k e hk
      · exact hmap k e hk he
      · exact absurd (hpoint.symm.trans he) (hmapping b)
    · exact absurd (hpoint.symm.trans hd) (hfailing bs)

theorem Kept.fewer (h : Kept s) (bridges closed : List ℕ) (hbridges : ∀ b ∈ bridges, b ∈ s.bridges)
    (hclosed : ∀ b ∈ s.closed, b ∈ closed) : Kept { s with bridges := bridges, closed := closed } := by
  refine ⟨fun b hb => h.below b (hbridges b hb), ?_, h.apart, ?_, ?_⟩
  · intro j d b hj hd
    obtain ⟨hlt, hno⟩ := h.mapping j d b hj hd
    exact ⟨hlt, fun hb => hno (hbridges b hb)⟩
  · intro j d hj hd b hb hopen
    exact h.taking j d hj hd b (hbridges b hb) fun hc => hopen (hclosed b hc)
  · intro j d bs hj hd b hb
    obtain ⟨hlt, hno, hfree, hmap⟩ := h.failing j d bs hj hd b hb
    exact ⟨hlt, fun hb => hno (hbridges b hb), fun hopen => hfree fun hc => hopen (hclosed b hc), hmap⟩

theorem Kept.step (h : Kept s) {e : Event} (ho : orderly e s = true) (hs : s.step e = some s') : Kept s' := by
  cases e with
  | call kind runtimeSessionId =>
    obtain rfl := Option.some.inj hs
    exact h.call kind runtimeSessionId
  | goOn i answer =>
    obtain ⟨c, hi, hs⟩ := Option.bind_eq_some_iff.mp hs
    exact h.advance hi ho hs
  | fails bridge =>
    simp only [ClaudeProvider.step, Option.ite_none_right_eq_some] at hs
    obtain ⟨-, hs⟩ := hs
    obtain rfl := Option.some.inj hs
    exact h.fewer s.bridges _ (fun _ hb => hb) fun b hb => List.mem_append_left _ hb
  | drops bridge =>
    simp only [ClaudeProvider.step, Option.ite_none_right_eq_some] at hs
    obtain ⟨-, hs⟩ := hs
    obtain rfl := Option.some.inj hs
    exact h.fewer _ s.closed (fun b hb => List.mem_of_mem_filter hb) fun _ hb => hb

theorem kept_new (maxBridges maxSessionsPerBridge : ℕ) : Kept (new maxBridges maxSessionsPerBridge) where
  below := by simp [new]
  mapping := by simp [new]
  apart := by simp [new]
  taking := by simp [new]
  failing := by simp [new]

end ClaudeAllocation.ClaudeProvider

/-! ## The connection of the ACP adapter -/

namespace Acp.AcpProvider

def NoSlots (p : AcpProvider) : Prop := ∀ k, p.sessions.lookup k = none

/-- A connection that is about to be shut down has no session in a slot. -/
def SparesSlots (p : AcpProvider) : Prop := Call.shutting ∈ p.calls → p.connection.isSome = true → NoSlots p

/-- The step reserves no slot while a close that found none is about to shut the connection down. -/
def reservesInTime (e : Event) (p : AcpProvider) : Bool :=
  match e with
  | .call (.createSession _) | .call (.resumeSession _ _) => Call.shutting ∉ p.calls
  | _ => true

section

variable {p p' p'' : AcpProvider} {runtimeSessionId turnId : String}

structure SlotsWithin (p p' : AcpProvider) : Prop where
  calls : p'.calls = p.calls
  slots : ∀ k, p.sessions.lookup k = none → p'.sessions.lookup k = none

theorem SlotsWithin.refl (p : AcpProvider) : SlotsWithin p p := ⟨rfl, fun _ hk => hk⟩

theorem SlotsWithin.trans (h : SlotsWithin p p') (h' : SlotsWithin p' p'') : SlotsWithin p p'' :=
  ⟨h'.calls.trans h.calls, fun k hk => h'.slots k (h.slots k hk)⟩

theorem slotsWithin_onTurn (i : ℕ) (f : Turn → Turn) : SlotsWithin p (p.onTurn i f) := ⟨rfl, fun _ hk => hk⟩

theorem slotsWithin_onConnection (c : ℕ) (f : AcpConnection → AcpConnection) : SlotsWithin p (p.onConnection c f) :=
  ⟨rfl, fun _ hk => hk⟩

theorem slotsWithin_put {session : AcpSessionState} (hs : p.sessions.lookup runtimeSessionId = some session)
    (session' : AcpSessionState) : SlotsWithin p (p.putSession runtimeSessionId session') := by
  refine ⟨rfl, fun k hk => ?_⟩
  change (p.sessions.insert runtimeSessionId session').lookup k = none
  rw [Table.lookup_insert]
  split
  · next he =>
    subst he
    rw [hk] at hs
    exact absurd hs (by simp)
  · exact hk

theorem slotsWithin_release (runtimeSessionId : String) : SlotsWithin p (p.releaseSessionSlot runtimeSessionId) := by
  refine ⟨rfl, fun k hk => ?_⟩
  change (p.sessions.erase runtimeSessionId).lookup k = none
  rw [Table.lookup_erase, hk, ite_self]

theorem slotsWithin_completeTurn (runtimeSessionId turnId : String) (result : ProviderTurnResult) :
    SlotsWithin p (p.completeTurn runtimeSessionId turnId result) := by
  unfold AcpProvider.completeTurn
  split
  · exact .refl p
  · next session hs =>
    split
    · exact .refl p
    · exact slotsWithin_put hs _

theorem slotsWithin_drain (c : ℕ) (e : RuntimeError) : SlotsWithin p (p.drain c e) := by
  unfold AcpProvider.drain
  split
  · exact .refl p
  · exact ⟨rfl, fun _ hk => hk⟩

theorem slotsWithin_shutdown : SlotsWithin p p.shutdownConnection := by
  unfold AcpProvider.shutdownConnection
  split
  · exact .refl p
  · exact ⟨(slotsWithin_drain _ _).calls, (slotsWithin_drain _ _).slots⟩

theorem slotsWithin_markClosed (c : ℕ) (e : RuntimeError) : SlotsWithin p (p.markClosed c e) := by
  unfold AcpProvider.markClosed
  split
  · exact .refl p
  · exact slotsWithin_drain c e

theorem slotsWithin_ensure (world : World) : SlotsWithin p (p.ensureConnection world).2 := by
  unfold AcpProvider.ensureConnection
  split <;> exact ⟨rfl, fun _ hk => hk⟩

theorem getSession_ok {session : AcpSessionState} (h : p.getSession runtimeSessionId = .ok session) :
    p.sessions.lookup runtimeSessionId = some session := by
  unfold AcpProvider.getSession at h
  split at h
  · exact absurd h (by simp)
  · next session' hs =>
    obtain rfl := Except.ok.inj h
    exact hs

theorem bind_ok {α β : Type} {r : Except RuntimeError α} {f : α → Except RuntimeError β} {b : β}
    (h : (r >>= f) = .ok b) : ∃ a, r = .ok a ∧ f a = .ok b := by
  cases r with
  | error e => exact absurd h (by simp [bind, Except.bind])
  | ok a => exact ⟨a, rfl, h⟩

theorem idleSession_ok {session : AcpSessionState} (h : p.idleSession runtimeSessionId = .ok session) :
    p.sessions.lookup runtimeSessionId = some session := by
  obtain ⟨found, hget, hrest⟩ := bind_ok h
  split at hrest
  · exact absurd hrest (by simp [throw, throwThe, MonadExceptOf.throw, bind, Except.bind])
  · obtain rfl := Except.ok.inj hrest
    exact getSession_ok hget

theorem slotsWithin_executeTurn (h : p.executeTurn runtimeSessionId turnId = .ok p') : SlotsWithin p p' := by
  obtain ⟨session, hidle, hrest⟩ := bind_ok h
  obtain rfl := Except.ok.inj hrest
  have hput := slotsWithin_put (idleSession_ok hidle)
    { session with activeTurn := some (⟨turnId, p.turns.length⟩ : ActiveTurn) }
  exact ⟨hput.calls, hput.slots⟩

theorem slotsWithin_cancelActive (h : p.cancelActive runtimeSessionId turnId = .ok p') : SlotsWithin p p' := by
  obtain ⟨session, -, hrest⟩ := bind_ok h
  split at hrest
  · exact absurd hrest (by simp [throw, throwThe, MonadExceptOf.throw])
  · split at hrest
    · exact absurd hrest (by simp [throw, throwThe, MonadExceptOf.throw, bind, Except.bind])
    · obtain rfl := Except.ok.inj hrest
      exact slotsWithin_onTurn _ _

theorem slotsWithin_activate {ref : String} (h : p.activateReservedSession runtimeSessionId ref = .ok p') :
    SlotsWithin p p' := by
  unfold AcpProvider.activateReservedSession at h
  split at h
  · exact absurd h (by simp)
  · next session hs =>
    obtain rfl := Except.ok.inj h
    exact slotsWithin_put hs _

theorem slotsWithin_sendTurn {req : ProviderSendTurnRequest} {call : Call} (h : p.sendTurn req = .ok (p', call)) :
    SlotsWithin p p' ∧ call ≠ .shutting := by
  obtain ⟨session, hidle, hrest⟩ := bind_ok h
  split at hrest
  · obtain ⟨rfl, rfl⟩ := Prod.mk.inj (Except.ok.inj hrest)
    exact ⟨.refl _, by simp⟩
  · obtain ⟨rfl, rfl⟩ := Prod.mk.inj (Except.ok.inj hrest)
    exact ⟨slotsWithin_put (idleSession_ok hidle) _, by simp⟩

theorem slotsWithin_respondApproval {req : ProviderApprovalResponseRequest} {call : Call}
    (h : p.respondApproval req = .ok (p', call)) : SlotsWithin p p' ∧ call ≠ .shutting := by
  obtain ⟨decision, -, hrest⟩ := bind_ok h
  obtain ⟨session, hget, hrest⟩ := bind_ok hrest
  cases hpending : session.pendingApprovals.lookup req.approvalId with
  | none =>
    rw [hpending] at hrest
    exact absurd hrest (by simp [throw, throwThe, MonadExceptOf.throw])
  | some pending =>
    rw [hpending] at hrest
    dsimp only at hrest
    by_cases hturn : pending.turnId ≠ req.turnId
    · rw [if_pos hturn] at hrest
      exact absurd hrest (by simp [throw, throwThe, MonadExceptOf.throw, bind, Except.bind])
    · rw [if_neg hturn] at hrest
      cases decision with
      | decline =>
        obtain ⟨rfl, rfl⟩ := Prod.mk.inj (Except.ok.inj hrest)
        exact ⟨slotsWithin_put (getSession_ok hget) _, by simp⟩
      | accept =>
        obtain ⟨rfl, rfl⟩ := Prod.mk.inj (Except.ok.inj hrest)
        exact ⟨slotsWithin_put (getSession_ok hget) _, by simp⟩

theorem begin_ne_shutting {request : Request} {call : Call} (h : p.begin request = .ok (p', call)) :
    call ≠ .shutting := by
  cases request with
  | createSession runtimeSessionId =>
    obtain ⟨q, -, hrest⟩ := bind_ok h
    obtain ⟨rfl, rfl⟩ := Prod.mk.inj (Except.ok.inj hrest)
    simp
  | resumeSession runtimeSessionId ref =>
    obtain ⟨q, -, hrest⟩ := bind_ok h
    obtain ⟨rfl, rfl⟩ := Prod.mk.inj (Except.ok.inj hrest)
    simp
  | sendTurn req => exact (slotsWithin_sendTurn h).2
  | interruptTurn req =>
    obtain ⟨q, -, hrest⟩ := bind_ok h
    obtain ⟨rfl, rfl⟩ := Prod.mk.inj (Except.ok.inj hrest)
    simp
  | respondApproval req => exact (slotsWithin_respondApproval h).2
  | closeSession req =>
    obtain ⟨q, hclose, hrest⟩ := bind_ok h
    obtain ⟨rfl, rfl⟩ := Prod.mk.inj (Except.ok.inj hrest)
    obtain ⟨session, -, hrest⟩ := bind_ok hclose
    split at hrest
    · obtain rfl := Except.ok.inj hrest
      simp
    · obtain rfl := Except.ok.inj hrest
      simp

theorem reserve_calls (h : p.reserveSessionSlot runtimeSessionId = .ok p') : p'.calls = p.calls := by
  unfold AcpProvider.reserveSessionSlot at h
  split at h
  · obtain rfl := Except.ok.inj h
    rfl
  · split at h
    · exact absurd h (by simp)
    · obtain rfl := Except.ok.inj h
      rfl

theorem slotsWithin_begin {request : Request} {call : Call} (h : p.begin request = .ok (p', call))
    (hin : Call.shutting ∈ p'.calls ++ [call]) (hr : reservesInTime (.call request) p = true) : SlotsWithin p p' := by
  have hin : Call.shutting ∈ p'.calls := by
    obtain hin | he := List.mem_append.mp hin
    · exact hin
    · exact absurd (List.mem_singleton.mp he).symm (begin_ne_shutting h)
  cases request with
  | createSession runtimeSessionId =>
    obtain ⟨q, hq, hrest⟩ := bind_ok h
    obtain ⟨rfl, rfl⟩ := Prod.mk.inj (Except.ok.inj hrest)
    rw [reserve_calls hq] at hin
    exact absurd hin (by simpa [reservesInTime] using hr)
  | resumeSession runtimeSessionId ref =>
    obtain ⟨q, hq, hrest⟩ := bind_ok h
    obtain ⟨rfl, rfl⟩ := Prod.mk.inj (Except.ok.inj hrest)
    rw [reserve_calls hq] at hin
    exact absurd hin (by simpa [reservesInTime] using hr)
  | sendTurn req => exact (slotsWithin_sendTurn h).1
  | interruptTurn req =>
    obtain ⟨q, hq, hrest⟩ := bind_ok h
    obtain ⟨rfl, rfl⟩ := Prod.mk.inj (Except.ok.inj hrest)
    exact slotsWithin_cancelActive hq
  | respondApproval req => exact (slotsWithin_respondApproval h).1
  | closeSession req =>
    obtain ⟨q, -, hrest⟩ := bind_ok h
    obtain ⟨rfl, rfl⟩ := Prod.mk.inj (Except.ok.inj hrest)
    exact .refl p

/-! ## The sections of the adapter -/

theorem slotsWithin_goOn (call : Call) (world : World) (answer : Except RuntimeError String) :
    SlotsWithin p (p.goOn call world answer).1 := by
  unfold AcpProvider.goOn
  cases call with
  | reserved runtimeSessionId resumes =>
    have hensure := slotsWithin_ensure (p := p) world
    dsimp only
    split
    · next hr =>
      rw [hr] at hensure
      exact hensure
    · next hr =>
      rw [hr] at hensure
      exact hensure
  | connected runtimeSessionId resumes =>
    dsimp only
    split
    · exact .refl p
    · split
      · exact .refl p
      · next hr => exact slotsWithin_activate hr
  | resuming runtimeSessionId =>
    dsimp only
    split <;> exact .refl p
  | releasing runtimeSessionId e => exact slotsWithin_release runtimeSessionId
  | executing runtimeSessionId turnId =>
    dsimp only
    split
    · exact .refl p
    · next hr => exact slotsWithin_executeTurn hr
  | declining runtimeSessionId turnId => exact slotsWithin_completeTurn runtimeSessionId turnId _
  | cancelling runtimeSessionId turnId closes =>
    dsimp only
    split <;> exact slotsWithin_ensure world
  | closing runtimeSessionId turnId reason =>
    dsimp only
    split
    · exact .refl p
    · next hr => exact slotsWithin_cancelActive hr
  | ending runtimeSessionId turnId reason => exact slotsWithin_completeTurn runtimeSessionId turnId _
  | removing runtimeSessionId => exact slotsWithin_release runtimeSessionId
  | leaving => exact .refl p
  | shutting => exact slotsWithin_shutdown
  | answered outcome => exact .refl p

theorem noSlots_of_shutting {call : Call} {world : World} {answer : Except RuntimeError String}
    (h : (p.goOn call world answer).2 = .shutting) : NoSlots p := by
  unfold AcpProvider.goOn at h
  cases call with
  | leaving =>
    dsimp only at h
    split at h
    · next hempty =>
      intro k
      by_contra hsome
      obtain ⟨session, hs⟩ := Option.ne_none_iff_exists'.mp hsome
      have hmem : k ∈ p.sessions.keys := AList.mem_keys.mpr (Table.lookup_isSome hs)
      rw [hempty] at hmem
      exact absurd hmem (by simp)
    · exact absurd h (by simp)
  | reserved | connected | resuming | executing | cancelling | closing =>
    dsimp only at h
    repeat' split at h
    all_goals exact absurd h (by simp)
  | releasing | declining | ending | removing | shutting | answered => exact absurd h (by simp)

theorem slotsWithin_advance {i : ℕ} {turn : Turn} {world : World} (h : p.advance i turn world = some p') :
    SlotsWithin p p' := by
  have hat : ∀ (q : AcpProvider) (point : Point), SlotsWithin q (q.atPoint i point) := fun q _ => slotsWithin_onTurn i _
  unfold AcpProvider.advance at h
  cases hpoint : turn.point with
  | connecting =>
    rw [hpoint] at h
    dsimp only at h
    have hensure := slotsWithin_ensure (p := p) world
    split at h
    · next hr =>
      rw [hr] at hensure
      obtain rfl := Option.some.inj h
      exact hensure.trans (hat _ _)
    · next hr =>
      rw [hr] at hensure
      obtain rfl := Option.some.inj h
      exact hensure.trans (hat _ _)
  | connected c =>
    rw [hpoint] at h
    obtain ⟨connection, -, rfl⟩ := Option.map_eq_some_iff.mp h
    split
    · exact hat p _
    · exact hat p _
  | unclosed c =>
    rw [hpoint] at h
    obtain ⟨connection, -, rfl⟩ := Option.map_eq_some_iff.mp h
    exact (slotsWithin_onConnection c _).trans (slotsWithin_onTurn i _)
  | registered c request =>
    rw [hpoint] at h
    cases world with
    | fine =>
      obtain rfl := Option.some.inj h
      exact (slotsWithin_onConnection c _).trans (hat _ _)
    | disabled e =>
      obtain rfl := Option.some.inj h
      exact (slotsWithin_onConnection c _).trans (hat _ _)
    | failed e =>
      obtain rfl := Option.some.inj h
      exact (slotsWithin_onConnection c _).trans (hat _ _)
  | waiting c request =>
    rw [hpoint] at h
    obtain ⟨reply, -, rfl⟩ := Option.map_eq_some_iff.mp h
    cases reply with
    | ok payload => exact hat p _
    | error e => exact hat p _
  | located payload found =>
    rw [hpoint] at h
    obtain rfl := Option.some.inj h
    exact hat p _
  | textRead payload found text =>
    rw [hpoint] at h
    obtain rfl := Option.some.inj h
    exact hat p _
  | usageRead payload found text usage =>
    rw [hpoint] at h
    obtain rfl := Option.some.inj h
    exact hat p _
  | completing result found =>
    rw [hpoint] at h
    obtain rfl := Option.some.inj h
    exact (slotsWithin_completeTurn _ _ _).trans (hat _ _)
  | done =>
    rw [hpoint] at h
    exact absurd h (by simp)

theorem slotsWithin_readLine {c : ℕ} {connection : AcpConnection} {line : Line} {found : Option String}
    (h : p.readLine c connection line found = some p') : SlotsWithin p p' := by
  have hrest : SlotsWithin p (p.onConnection c rest) := slotsWithin_onConnection c _
  unfold AcpProvider.readLine at h
  cases line with
  | update u =>
    dsimp only at h
    split at h
    · split at h
      · obtain rfl := Option.some.inj h
        exact hrest
      · obtain rfl := Option.some.inj h
        exact hrest.trans (slotsWithin_onConnection c _)
    · exact absurd h (by simp)
  | requestPermission ref =>
    cases ref with
    | none =>
      obtain rfl := Option.some.inj h
      exact hrest
    | some ref =>
      dsimp only at h
      split at h
      · split at h
        · obtain rfl := Option.some.inj h
          exact hrest
        · obtain rfl := Option.some.inj h
          exact hrest.trans (slotsWithin_onConnection c _)
      · exact absurd h (by simp)
  | response request reply =>
    dsimp only at h
    split at h
    · obtain rfl := Option.some.inj h
      exact hrest
    · obtain rfl := Option.some.inj h
      exact (hrest.trans (slotsWithin_onConnection c _)).trans (slotsWithin_onTurn _ _)
  | other =>
    obtain rfl := Option.some.inj h
    exact hrest
  | broken e =>
    obtain rfl := Option.some.inj h
    exact (hrest.trans (slotsWithin_markClosed c e)).trans (slotsWithin_onConnection c _)

theorem slotsWithin_read {c : ℕ} {found : Option String} (h : p.read c found = some p') : SlotsWithin p p' := by
  obtain ⟨connection, -, h⟩ := Option.bind_eq_some_iff.mp h
  cases hreader : connection.reader with
  | idle =>
    rw [hreader] at h
    dsimp only at h
    split at h
    · exact absurd h (by simp)
    · exact slotsWithin_readLine h
  | applying i u =>
    rw [hreader] at h
    obtain rfl := Option.some.inj h
    exact (slotsWithin_onTurn i _).trans (slotsWithin_onConnection c _)
  | failing runtimeSessionId turnId =>
    rw [hreader] at h
    obtain rfl := Option.some.inj h
    exact (slotsWithin_completeTurn _ _ _).trans (slotsWithin_onConnection c _)
  | left =>
    rw [hreader] at h
    obtain rfl := Option.some.inj h
    exact slotsWithin_onConnection c _
  | reaping =>
    rw [hreader] at h
    obtain rfl := Option.some.inj h
    exact slotsWithin_shutdown.trans (slotsWithin_onConnection c _)
  | stopped =>
    rw [hreader] at h
    exact absurd h (by simp)

/-! ## The adapter -/

def ShutsIdle (p : AcpProvider) : Prop := Call.shutting ∈ p.calls → NoSlots p

theorem ShutsIdle.within (h : ShutsIdle p) (hw : SlotsWithin p p') : ShutsIdle p' := by
  intro hin k
  rw [hw.calls] at hin
  exact hw.slots k (h hin k)

theorem ShutsIdle.step (h : ShutsIdle p) {e : Event} (hr : reservesInTime e p = true) (hs : p.step e = some p') :
    ShutsIdle p' := by
  cases e with
  | call request =>
    simp only [AcpProvider.step] at hs
    split at hs
    · obtain rfl := Option.some.inj hs
      intro hin
      exact h (by simpa using hin)
    · next q call hbegin =>
      obtain rfl := Option.some.inj hs
      intro hin
      have hw := slotsWithin_begin hbegin hin hr
      have hne := begin_ne_shutting hbegin
      have hin' : Call.shutting ∈ p.calls := by
        obtain hin | hin := List.mem_append.mp hin
        · exact hw.calls ▸ hin
        · exact absurd (List.mem_singleton.mp hin).symm hne
      exact fun k => hw.slots k (h hin' k)
  | goOn i world answer =>
    obtain ⟨call, hi, rfl⟩ := Option.map_eq_some_iff.mp hs
    have hw := slotsWithin_goOn (p := p) call world answer
    intro hin
    have hslots : NoSlots p := by
      obtain hin | he := List.mem_or_eq_of_mem_set hin
      · exact h (hw.calls ▸ hin)
      · exact noSlots_of_shutting he.symm
    exact fun k => hw.slots k (hslots k)
  | task i world =>
    obtain ⟨turn, -, hs⟩ := Option.bind_eq_some_iff.mp hs
    exact h.within (slotsWithin_advance hs)
  | read c found => exact h.within (slotsWithin_read hs)
  | agent c output =>
    simp only [AcpProvider.step, Option.ite_none_right_eq_some] at hs
    obtain ⟨-, hs⟩ := hs
    obtain rfl := Option.some.inj hs
    exact h.within (slotsWithin_onConnection c _)

end

end Acp.AcpProvider

/-! ## Both adapters -/

open ClaudeAllocation (ClaudeProvider)
open Acp (AcpProvider)

/-- A close that finds its adapter idle hits nobody, if no create or resume is under way unseen at its test and none
comes in between the test and the shutdown. -/
theorem idle_shutdown_spares_sessions_in_use (maxBridges maxSessionsPerBridge maxInstances maxSessionsPerInstance : ℕ)
    (s : ClaudeProvider) (p : AcpProvider)
    (hs : Reaches ClaudeProvider.step (fun e s => ClaudeProvider.orderly e s = true)
      (ClaudeProvider.new maxBridges maxSessionsPerBridge) s)
    (hp : Reaches AcpProvider.step (fun e p => AcpProvider.reservesInTime e p = true)
      (AcpProvider.new maxInstances maxSessionsPerInstance) p) : s.SparesInUse ∧ p.SparesSlots := by
  constructor
  · have hkept := hs.invariant (ClaudeProvider.kept_new maxBridges maxSessionsPerBridge)
      fun _ _ _ hk ho hs => ClaudeProvider.Kept.step hk ho hs
    exact hkept.sparesInUse
  · have hstart : (AcpProvider.new maxInstances maxSessionsPerInstance).ShutsIdle := by
      intro hin
      exact absurd hin (by simp [AcpProvider.new])
    have hidle := hp.invariant hstart fun _ _ _ hi hr hs => AcpProvider.ShutsIdle.step hi hr hs
    exact fun hin _ => hidle hin

def sessionOnBridge (runtimeSessionId : String) (i : ℕ) : List ClaudeProvider.Event :=
  .call .create runtimeSessionId :: List.replicate 8 (.goOn i (.ok s!"bridge-{runtimeSessionId}"))

def sessionInSlot (runtimeSessionId : String) (i : ℕ) : List AcpProvider.Event :=
  .call (.createSession runtimeSessionId) :: List.replicate 2 (.goOn i .fine (.ok s!"acp-{runtimeSessionId}"))

theorem idle_shutdown_spares_sessions_in_use_closed :
    (∃ s, Reaches ClaudeProvider.step (fun e s => ClaudeProvider.orderly e s = true) (ClaudeProvider.new 1 4) s ∧
      s.calls.map ClaudeAllocation.Call.point = [.returned (.ok ()), .failing [1]] ∧ s.SparesInUse) ∧
    ∃ p, Reaches AcpProvider.step (fun e p => AcpProvider.reservesInTime e p = true) (AcpProvider.new 1 4) p ∧
      Acp.Call.shutting ∈ p.calls ∧ p.SparesSlots := by
  obtain ⟨s, hs, hcalls⟩ := exists_reaches_of_runAll (s := ClaudeProvider.new 1 4) ClaudeProvider.step
    ClaudeProvider.orderly (sessionOnBridge "sess_a" 0 ++ .call .close "sess_a" :: List.replicate 5 (.goOn 1 (.ok "")))
    (fun s => s.calls.map ClaudeAllocation.Call.point) [.returned (.ok ()), .failing [1]] (by decide +kernel)
  obtain ⟨p, hp, hin⟩ := exists_reaches_of_runAll (s := AcpProvider.new 1 4) AcpProvider.step
    AcpProvider.reservesInTime
    (sessionInSlot "sess_a" 0 ++ .call (.closeSession ⟨"sess_a", none⟩) :: List.replicate 2 (.goOn 1 .fine (.ok "")))
    (fun p => decide (Acp.Call.shutting ∈ p.calls)) true (by decide +kernel)
  have hspares := idle_shutdown_spares_sessions_in_use 1 4 1 4 s p hs hp
  exact ⟨⟨s, hs, hcalls, hspares.1⟩, ⟨p, hp, of_decide_eq_true hin, hspares.2⟩⟩

theorem not_idle_shutdown_spares_sessions_in_use :
    (¬ ∀ (maxBridges maxSessionsPerBridge : ℕ) (s : ClaudeProvider),
      Reaches ClaudeProvider.step (fun _ _ => true) (ClaudeProvider.new maxBridges maxSessionsPerBridge) s →
        s.SparesInUse) ∧
    ¬ ∀ (maxInstances maxSessionsPerInstance : ℕ) (p : AcpProvider),
      Reaches AcpProvider.step (fun _ _ => true) (AcpProvider.new maxInstances maxSessionsPerInstance) p →
        p.SparesSlots := by
  refine ⟨fun h => ?_, fun h => ?_⟩
  · -- `sess_b` waits for the answer of the bridge while `sess_a`, the only session known, is closed
    obtain ⟨s, hs, hcalls⟩ := exists_reaches_of_runAll (s := ClaudeProvider.new 1 4) ClaudeProvider.step
      (fun _ _ => true)
      (sessionOnBridge "sess_a" 0 ++ .call .create "sess_b" :: List.replicate 3 (.goOn 1 (.ok "")) ++
        .call .close "sess_a" :: List.replicate 5 (.goOn 2 (.ok "")))
      (fun s => (s.closed, s.calls.map ClaudeAllocation.Call.point))
      ([], [.returned (.ok ()), .holding 1, .failing [1]]) (by decide +kernel)
    obtain ⟨hclosed, hpoints⟩ := Prod.mk.inj hcalls
    have hfailing : ClaudeAllocation.Point.failing [1] ∈ s.calls.map ClaudeAllocation.Call.point := by simp [hpoints]
    have hholding : ClaudeAllocation.Point.holding 1 ∈ s.calls.map ClaudeAllocation.Call.point := by simp [hpoints]
    obtain ⟨c, hc, hcp⟩ := List.mem_map.mp hfailing
    obtain ⟨d, hd, hdp⟩ := List.mem_map.mp hholding
    have hunused := h 1 4 s (hs.mono fun _ _ _ => rfl) c hc 1 [] hcp (by simp [hclosed])
    exact hunused.2 d hd (by rw [hdp]; rfl)
  · -- `sess_b` gets its slot after `sess_a`, the only session, was found gone
    obtain ⟨p, hp, hin⟩ := exists_reaches_of_runAll (s := AcpProvider.new 1 4) AcpProvider.step (fun _ _ => true)
      (sessionInSlot "sess_a" 0 ++ .call (.closeSession ⟨"sess_a", none⟩) :: List.replicate 2
        (.goOn 1 .fine (.ok "")) ++
        [.call (.createSession "sess_b")])
      (fun p => (decide (Acp.Call.shutting ∈ p.calls), p.connection, (p.sessions.lookup "sess_b").isSome))
      (true, some 0, true) (by decide +kernel)
    obtain ⟨hin, hrest⟩ := Prod.mk.inj hin
    obtain ⟨hconnection, hslot⟩ := Prod.mk.inj hrest
    have hnone := h 1 4 p (hp.mono fun _ _ _ => rfl) (of_decide_eq_true hin) (by simp [hconnection]) "sess_b"
    simp [hnone] at hslot

end Gooselake.Providers
