import Gooselake.Providers.Connection

/-!
What becomes of the requests on a connection that is closed. Every registered request is in the map until it is
answered, so a drain answers all that are there; a request that passed the test of the flag before and is written
after the drain is registered where nobody looks any more, and waits for a response that does not come.
-/

namespace Gooselake.Providers.Acp.Connection

open Gooselake.Core Data Library

set_option autoImplicit false

def Point.registered? : Point → Option ℕ
  | .writing id | .retracting id _ | .waiting id | .expiring id => some id
  | .testing | .refused | .numbering | .registering _ | .returned _ => none

def Point.isReturned : Point → Bool
  | .returned _ => true
  | _ => false

theorem Point.id_of_registered {point : Point} {id : ℕ} (h : point.registered? = some id) : point.id? = some id := by
  cases point <;> simp_all [Point.registered?, Point.id?]

namespace State

/-! ## The map and the requests -/

structure Sound (s : State) : Prop where
  below : ∀ (i : ℕ) (r : Request) (id : ℕ), s.requests[i]? = some r → r.point.id? = some id → id < s.nextRequestId
  apart : ∀ (i j : ℕ) (r r' : Request) (id : ℕ), s.requests[i]? = some r → s.requests[j]? = some r' →
    r.point.id? = some id → r'.point.id? = some id → i = j
  entry : ∀ id i, s.pendingRequests.lookup id = some i →
    ∃ r : Request, s.requests[i]? = some r ∧ r.point.registered? = some id ∧ r.reply = none
  held : ∀ (i : ℕ) (r : Request) (id : ℕ), s.requests[i]? = some r → r.point = .writing id ∨ r.point = .waiting id →
    r.reply = none → s.pendingRequests.lookup id = some i
  fresh : ∀ (i : ℕ) (r : Request), s.requests[i]? = some r → r.point.registered? = none →
    r.point.isReturned = false → r.reply = none

/-- Nobody waits on a drained connection: what is in the map belongs to requests that are about to take it out,
and who waits has a reply. -/
def NobodyWaits (s : State) : Prop :=
  s.drained = true →
    (∀ id i, s.pendingRequests.lookup id = some i →
      ∃ r : Request, s.requests[i]? = some r ∧ (r.point = .writing id ∨ ∃ error, r.point = .retracting id error)) ∧
    ∀ (i : ℕ) (r : Request) (id : ℕ), s.requests[i]? = some r → r.point = .waiting id → r.reply ≠ none

/-- A request is written before a close has drained the pending ones. -/
def writtenInTime (e : Event) (s : State) : Bool :=
  match e with
  | .goOn i (.ok ()) =>
    match s.requests[i]? with
    | some ⟨_, _, .writing _, none⟩ => !s.drained
    | _ => true
  | _ => true

theorem sound_spawned : Sound spawned where
  below := by simp [spawned]
  apart := by simp [spawned]
  entry := by simp [spawned]
  held := by simp [spawned]
  fresh := by simp [spawned]

theorem Sound.owner {s : State} (h : Sound s) {i j id : ℕ} {r : Request} (hi : s.requests[i]? = some r)
    (hid : r.point.id? = some id) (hj : s.pendingRequests.lookup id = some j) : j = i := by
  obtain ⟨r', hr', hreg, -⟩ := h.entry id j hj
  exact h.apart j i r' r id hr' hi (Point.id_of_registered hreg) hid

/-! ## One request goes on -/

/-- Request `i` goes on from `r` to `r'`, which may take a new number and put its channel in the map or out. -/
structure Moves (i : ℕ) (r r' : Request) (s s' : State) : Prop where
  requests : s'.requests = s.requests.set i r'
  reply : r'.reply = r.reply
  next : s.nextRequestId ≤ s'.nextRequestId
  number : ∀ id, r'.point.id? = some id →
    r.point.id? = some id ∨ s.nextRequestId ≤ id ∧ id < s'.nextRequestId
  others : ∀ id j, j ≠ i → (s'.pendingRequests.lookup id = some j ↔ s.pendingRequests.lookup id = some j)
  own : ∀ id, s'.pendingRequests.lookup id = some i → r'.point.registered? = some id ∧ r.reply = none
  held : ∀ id, r'.point = .writing id ∨ r'.point = .waiting id → r.reply = none →
    s'.pendingRequests.lookup id = some i
  fresh : r'.point.registered? = none → r'.point.isReturned = false →
    r.point.registered? = none ∧ r.point.isReturned = false

section

variable {i : ℕ} {r r' : Request} {s s' : State}

theorem Moves.requests_at (h : Moves i r r' s s') (hi : s.requests[i]? = some r) : s'.requests[i]? = some r' := by
  have hlt := (List.getElem?_eq_some_iff.mp hi).1
  rw [h.requests, List.getElem?_set_self hlt]

theorem Moves.requests_ne (h : Moves i r r' s s') {j : ℕ} (hj : j ≠ i) : s'.requests[j]? = s.requests[j]? := by
  rw [h.requests, List.getElem?_set_ne hj.symm]

theorem Sound.moves (h : Sound s) (hi : s.requests[i]? = some r) (hm : Moves i r r' s s') : Sound s' := by
  have hself := hm.requests_at hi
  have hother : ∀ j r₀, j ≠ i → s'.requests[j]? = some r₀ → s.requests[j]? = some r₀ := by
    intro j r₀ hj hr
    rwa [hm.requests_ne hj] at hr
  -- a number of another request is an old one, and so is not the one that request `i` takes
  have hnew : ∀ j r₀ id, j ≠ i → s'.requests[j]? = some r₀ → r₀.point.id? = some id → r'.point.id? ≠ some id := by
    intro j r₀ id hj hr hid hid'
    have hr₀ := hother j r₀ hj hr
    obtain hold | ⟨hlow, -⟩ := hm.number id hid'
    · exact hj (h.apart j i r₀ r id hr₀ hi hid hold)
    · have hlt := h.below j r₀ id hr₀ hid
      omega
  refine ⟨?_, ?_, ?_, ?_, ?_⟩
  · intro j r₀ id hr hid
    by_cases hj : j = i
    · subst hj
      obtain rfl := Option.some.inj (hself.symm.trans hr)
      obtain hold | ⟨-, hlt⟩ := hm.number id hid
      · have hlt := h.below j r id hi hold
        have hnext := hm.next
        omega
      · exact hlt
    · have hlt := h.below j r₀ id (hother j r₀ hj hr) hid
      have hnext := hm.next
      omega
  · intro j k r₁ r₂ id hr₁ hr₂ hid₁ hid₂
    by_cases hj : j = i
    · subst hj
      by_cases hk : k = j
      · exact hk.symm
      · obtain rfl := Option.some.inj (hself.symm.trans hr₁)
        exact absurd hid₁ (hnew k r₂ id hk hr₂ hid₂)
    · by_cases hk : k = i
      · subst hk
        obtain rfl := Option.some.inj (hself.symm.trans hr₂)
        exact absurd hid₂ (hnew j r₁ id hj hr₁ hid₁)
      · exact h.apart j k r₁ r₂ id (hother j r₁ hj hr₁) (hother k r₂ hk hr₂) hid₁ hid₂
  · intro id j hj
    by_cases he : j = i
    · subst he
      obtain ⟨hreg, hnone⟩ := hm.own id hj
      exact ⟨r', hself, hreg, hm.reply.trans hnone⟩
    · obtain ⟨r₀, hr₀, hreg, hnone⟩ := h.entry id j ((hm.others id j he).mp hj)
      exact ⟨r₀, (hm.requests_ne he).trans hr₀, hreg, hnone⟩
  · intro j r₀ id hr hpoint hnone
    by_cases he : j = i
    · subst he
      obtain rfl := Option.some.inj (hself.symm.trans hr)
      exact hm.held id hpoint (hm.reply.symm.trans hnone)
    · exact (hm.others id j he).mpr (h.held j r₀ id (hother j r₀ he hr) hpoint hnone)
  · intro j r₀ hr hreg hret
    by_cases he : j = i
    · subst he
      obtain rfl := Option.some.inj (hself.symm.trans hr)
      obtain ⟨hreg', hret'⟩ := hm.fresh hreg hret
      exact hm.reply.trans (h.fresh j r hi hreg' hret')
    · exact h.fresh j r₀ (hother j r₀ he hr) hreg hret

theorem NobodyWaits.moves (h : NobodyWaits s) (hi : s.requests[i]? = some r) (hm : Moves i r r' s s')
    (hdrained : s'.drained = s.drained)
    (hentry : s.drained = true → ∀ id, s'.pendingRequests.lookup id = some i →
      r'.point = .writing id ∨ ∃ error, r'.point = .retracting id error)
    (hwait : s.drained = true → ∀ id, r'.point = .waiting id → r.reply ≠ none) : NobodyWaits s' := by
  intro hd
  rw [hdrained] at hd
  obtain ⟨hentries, hwaits⟩ := h hd
  refine ⟨?_, ?_⟩
  · intro id j hj
    by_cases he : j = i
    · subst he
      exact ⟨r', hm.requests_at hi, hentry hd id hj⟩
    · obtain ⟨r₀, hr₀, hpoint⟩ := hentries id j ((hm.others id j he).mp hj)
      exact ⟨r₀, (hm.requests_ne he).trans hr₀, hpoint⟩
  · intro j r₀ id hr hpoint
    by_cases he : j = i
    · subst he
      obtain rfl := Option.some.inj ((hm.requests_at hi).symm.trans hr)
      rw [hm.reply]
      exact hwait hd id hpoint
    · rw [hm.requests_ne he] at hr
      exact hwaits j r₀ id hr hpoint

/-! ## The sections of a request -/

theorem Moves.stay (h : Sound s) (hi : s.requests[i]? = some r) (point : Point)
    (hnumber : ∀ id, point.id? = some id → r.point.id? = some id)
    (hreg : ∀ id, s.pendingRequests.lookup id = some i → r.reply = none → r.point.registered? = some id →
      point.registered? = some id)
    (hheld : ∀ id, point = .writing id ∨ point = .waiting id → r.point = .writing id ∨ r.point = .waiting id)
    (hfresh : point.registered? = none → point.isReturned = false →
      r.point.registered? = none ∧ r.point.isReturned = false) :
    Moves i r { r with point := point } s (s.putRequest i { r with point := point }) where
  requests := rfl
  reply := rfl
  next := le_refl _
  number := fun id hid => .inl (hnumber id hid)
  others := fun _ _ _ => Iff.rfl
  own := by
    intro id hid
    obtain ⟨r₀, hr₀, hreg₀, hnone⟩ := h.entry id i hid
    obtain rfl := Option.some.inj (hi.symm.trans hr₀)
    exact ⟨hreg id hid hnone hreg₀, hnone⟩
  held := fun id hpoint hnone => h.held i r id hi (hheld id hpoint) hnone
  fresh := hfresh

theorem Moves.leave (h : Sound s) (hi : s.requests[i]? = some r) {id : ℕ} (hid : r.point.registered? = some id)
    (outcome : Except RuntimeError Json) :
    Moves i r { r with point := .returned outcome } s
      ((s.unregister id).putRequest i { r with point := .returned outcome }) where
  requests := rfl
  reply := rfl
  next := le_refl _
  number := by simp [Point.id?]
  others := by
    intro id' j hj
    change (s.pendingRequests.erase id).lookup id' = some j ↔ _
    rw [Table.lookup_erase]
    split
    · next he =>
      subst he
      refine ⟨fun hfalse => absurd hfalse (by simp), fun hlookup => ?_⟩
      exact absurd (h.owner hi (Point.id_of_registered hid) hlookup) hj
    · exact Iff.rfl
  own := by
    intro id' hlookup
    change (s.pendingRequests.erase id).lookup id' = some i at hlookup
    rw [Table.lookup_erase] at hlookup
    split at hlookup
    · exact absurd hlookup (by simp)
    · next hne =>
      obtain ⟨r₀, hr₀, hreg₀, -⟩ := h.entry id' i hlookup
      obtain rfl := Option.some.inj (hi.symm.trans hr₀)
      rw [hid] at hreg₀
      exact absurd (Option.some.inj hreg₀).symm hne
  held := by simp
  fresh := by simp [Point.isReturned]

theorem Moves.take (h : Sound s) (hi : s.requests[i]? = some r) (hpoint : r.point = .numbering) :
    Moves i r { r with point := .registering s.nextRequestId } s
      { s.putRequest i { r with point := .registering s.nextRequestId } with nextRequestId :=
      s.nextRequestId + 1 } where
  requests := rfl
  reply := rfl
  next := Nat.le_succ _
  number := by
    intro id hid
    obtain rfl := Option.some.inj hid
    exact .inr ⟨le_refl _, Nat.lt_succ_self _⟩
  others := fun _ _ _ => Iff.rfl
  own := by
    intro id hid
    obtain ⟨r₀, hr₀, hreg₀, -⟩ := h.entry id i hid
    obtain rfl := Option.some.inj (hi.symm.trans hr₀)
    simp [hpoint, Point.registered?] at hreg₀
  held := by simp
  fresh := by simp [hpoint, Point.registered?, Point.isReturned]

theorem Moves.register (h : Sound s) (hi : s.requests[i]? = some r) {id : ℕ} (hpoint : r.point = .registering id) :
    Moves i r { r with point := .writing id } s
      { s.putRequest i { r with point := .writing id } with pendingRequests := s.pendingRequests.insert id i } where
  requests := rfl
  reply := rfl
  next := le_refl _
  number := by
    intro id' hid
    exact .inl (by simpa [hpoint, Point.id?] using hid)
  others := by
    intro id' j hj
    change (s.pendingRequests.insert id i).lookup id' = some j ↔ _
    rw [Table.lookup_insert]
    split
    · next he =>
      subst he
      refine ⟨fun hself => absurd (Option.some.inj hself).symm hj, fun hlookup => ?_⟩
      exact absurd (h.owner hi (by simp [hpoint, Point.id?]) hlookup) hj
    · exact Iff.rfl
  own := by
    intro id' hlookup
    have hnone : r.reply = none :=
      h.fresh i r hi (by simp [hpoint, Point.registered?]) (by simp [hpoint, Point.isReturned])
    change (s.pendingRequests.insert id i).lookup id' = some i at hlookup
    rw [Table.lookup_insert] at hlookup
    split at hlookup
    · next he => exact ⟨by rw [he]; rfl, hnone⟩
    · obtain ⟨r₀, hr₀, hreg₀, -⟩ := h.entry id' i hlookup
      obtain rfl := Option.some.inj (hi.symm.trans hr₀)
      simp [hpoint, Point.registered?] at hreg₀
  held := by
    intro id' hid' _
    change (s.pendingRequests.insert id i).lookup id' = some i
    have he : id = id' := by simpa using hid'
    rw [Table.lookup_insert, if_pos he.symm]
  fresh := by simp [Point.registered?]

def Kept (s : State) : Prop := Sound s ∧ NobodyWaits s

theorem Kept.away (h : Kept s) (hi : s.requests[i]? = some r) (hm : Moves i r r' s s')
    (hdrained : s'.drained = s.drained) (hreg : r'.point.registered? = none) : Kept s' := by
  refine ⟨h.1.moves hi hm, h.2.moves hi hm hdrained ?_ ?_⟩
  · intro _ id hid
    have hself := (hm.own id hid).1
    rw [hreg] at hself
    exact absurd hself (by simp)
  · intro _ id hpoint
    rw [hpoint] at hreg
    exact absurd hreg (by simp [Point.registered?])

theorem Kept.goOn (h : Kept s) {written : Except RuntimeError Unit}
    (hc : writtenInTime (.goOn i written) s = true) (hs : s.goOn i written = some s') : Kept s' := by
  unfold State.goOn at hs
  split at hs
  · exact absurd hs (by simp)
  next r hi =>
  split at hs
  case h_1 hpoint =>
    obtain rfl := Option.some.inj hs
    refine h.away hi (Moves.stay h.1 hi _ ?_ ?_ ?_ ?_) rfl ?_ <;>
      cases s.closed <;> simp [hpoint, Point.id?, Point.registered?, Point.isReturned]
  case h_2 hpoint =>
    obtain rfl := Option.some.inj hs
    refine h.away hi (Moves.stay h.1 hi _ ?_ ?_ ?_ ?_) rfl ?_ <;>
      simp [hpoint, Point.id?, Point.registered?, Point.isReturned]
  case h_3 hpoint =>
    obtain rfl := Option.some.inj hs
    exact h.away hi (Moves.take h.1 hi hpoint) rfl rfl
  case h_4 id hpoint =>
    obtain rfl := Option.some.inj hs
    have hm := Moves.register h.1 hi hpoint
    refine ⟨h.1.moves hi hm, h.2.moves hi hm rfl ?_ ?_⟩
    · intro _ id' hid'
      have hid := (hm.own id' hid').1
      obtain rfl : id = id' := by simpa [Point.registered?] using hid
      exact .inl rfl
    · intro _ id' hpoint'
      simp at hpoint'
  case h_5 id hpoint =>
    split at hs
    case h_1 =>
      obtain rfl := Option.some.inj hs
      have hm : Moves i r { r with point := .waiting id } s (s.putRequest i { r with point := .waiting id }) := by
        apply Moves.stay h.1 hi <;> simp [hpoint, Point.id?, Point.registered?]
      -- on a drained connection the channel holds the error of the drain
      have hreply : s.drained = true → r.reply ≠ none := by
        intro hd hnone
        obtain ⟨method, timeout, point, reply⟩ := r
        simp only at hpoint hnone
        subst hpoint hnone
        simp [writtenInTime, hi, hd] at hc
      refine ⟨h.1.moves hi hm, h.2.moves hi hm rfl ?_ ?_⟩
      · intro hd id' hid'
        exact absurd (hm.own id' hid').2 (hreply hd)
      · intro hd _ _
        exact hreply hd
    case h_2 error =>
      obtain rfl := Option.some.inj hs
      have hm : Moves i r { r with point := .retracting id error } s
          (s.putRequest i { r with point := .retracting id error }) := by
        apply Moves.stay h.1 hi <;> simp [hpoint, Point.id?, Point.registered?]
      refine ⟨h.1.moves hi hm, h.2.moves hi hm rfl ?_ ?_⟩
      · intro _ id' hid'
        have hid := (hm.own id' hid').1
        obtain rfl : id = id' := by simpa [Point.registered?] using hid
        exact .inr ⟨error, rfl⟩
      · intro _ id' hpoint'
        simp at hpoint'
  case h_6 id error hpoint =>
    obtain rfl := Option.some.inj hs
    exact h.away hi (Moves.leave h.1 hi (by simp [hpoint, Point.registered?]) _) rfl rfl
  case h_7 id hpoint =>
    obtain ⟨r', hr', rfl⟩ := Option.map_eq_some_iff.mp hs
    -- the channel held a reply or was dropped, so the request has no entry
    have hgone : ∃ outcome, r' = { r with point := .returned outcome } ∧
        (r.reply = none → s.pendingRequests.lookup id ≠ some i) := by
      unfold receive at hr'
      split at hr'
      · next outcome hreply =>
        exact ⟨outcome, (Option.some.inj hr').symm, fun hnone => absurd (hreply.symm.trans hnone) (by simp)⟩
      · split at hr'
        · exact absurd hr' (by simp)
        · next hne => exact ⟨_, (Option.some.inj hr').symm, fun _ => hne⟩
    obtain ⟨outcome, rfl, hentry⟩ := hgone
    refine h.away hi (Moves.stay h.1 hi _ ?_ ?_ ?_ ?_) rfl rfl
    · simp [Point.id?]
    · intro id' hid' hnone hreg
      obtain rfl : id = id' := by simpa [hpoint, Point.registered?] using hreg
      exact absurd hid' (hentry hnone)
    · simp
    · simp [Point.isReturned]
  case h_8 id hpoint =>
    obtain rfl := Option.some.inj hs
    exact h.away hi (Moves.leave h.1 hi (by simp [hpoint, Point.registered?]) _) rfl rfl
  case h_9 => exact absurd hs (by simp)

theorem Kept.expire (h : Kept s) (hs : s.expire i = some s') : Kept s' := by
  unfold State.expire at hs
  split at hs
  · exact absurd hs (by simp)
  next r hi =>
  split at hs
  · next id hpoint htimeout hreply =>
    obtain rfl := Option.some.inj hs
    have hm : Moves i r { r with point := .expiring id } s (s.putRequest i { r with point := .expiring id }) := by
      apply Moves.stay h.1 hi <;> simp [hpoint, Point.id?, Point.registered?]
    refine ⟨h.1.moves hi hm, h.2.moves hi hm rfl ?_ ?_⟩
    · intro hd
      exact absurd hreply ((h.2 hd).2 i r id hi hpoint)
    · intro _ id' hpoint'
      simp at hpoint'
  · exact absurd hs (by simp)

/-! ## The other sections -/

theorem Kept.answer (h : Kept s) (answered : ℕ → Prop) [DecidablePred answered] (error : Except RuntimeError Json)
    (hlen : ∀ i, s'.requests[i]? =
      s.requests[i]?.map fun r => if answered i then { r with reply := some error } else r)
    (hlookup : ∀ id i, s'.pendingRequests.lookup id = some i ↔ s.pendingRequests.lookup id = some i ∧ ¬ answered i)
    (hanswered : ∀ i, answered i → ∃ id, s.pendingRequests.lookup id = some i)
    (hnext : s'.nextRequestId = s.nextRequestId) (hdrained : s'.drained = true → s.drained = true ∨
      ∀ id i, s.pendingRequests.lookup id = some i → answered i) : Kept s' := by
  have hold : ∀ (i : ℕ) (r' : Request), s'.requests[i]? = some r' → ∃ r, s.requests[i]? = some r ∧
      r'.point = r.point ∧ (r'.reply = none → r.reply = none ∧ ¬ answered i) ∧ (r.reply ≠ none → r'.reply ≠ none) := by
    intro i r' hr'
    rw [hlen] at hr'
    obtain ⟨r, hr, rfl⟩ := Option.map_eq_some_iff.mp hr'
    refine ⟨r, hr, ?_⟩
    by_cases ha : answered i
    · simp [ha]
    · simp [ha]
  have hstay : ∀ (i : ℕ) (r : Request), s.requests[i]? = some r → ¬ answered i → s'.requests[i]? = some r := by
    intro i r hr ha
    rw [hlen, hr, Option.map_some, if_neg ha]
  refine ⟨⟨?_, ?_, ?_, ?_, ?_⟩, ?_⟩
  · intro i r' id hr' hid
    obtain ⟨r, hr, hpoint, -⟩ := hold i r' hr'
    rw [hnext]
    exact h.1.below i r id hr (hpoint ▸ hid)
  · intro i j r₁ r₂ id hr₁ hr₂ hid₁ hid₂
    obtain ⟨r, hr, hpoint, -⟩ := hold i r₁ hr₁
    obtain ⟨r', hr', hpoint', -⟩ := hold j r₂ hr₂
    exact h.1.apart i j r r' id hr hr' (hpoint ▸ hid₁) (hpoint' ▸ hid₂)
  · intro id i hid
    obtain ⟨hid', ha⟩ := (hlookup id i).mp hid
    obtain ⟨r, hr, hreg, hnone⟩ := h.1.entry id i hid'
    exact ⟨r, hstay i r hr ha, hreg, hnone⟩
  · intro i r' id hr' hpoint' hnone
    obtain ⟨r, hr, hpoint, hboth, -⟩ := hold i r' hr'
    obtain ⟨hnone', ha⟩ := hboth hnone
    exact (hlookup id i).mpr ⟨h.1.held i r id hr (hpoint ▸ hpoint') hnone', ha⟩
  · intro i r' hr' hreg hret
    obtain ⟨r, hr, hpoint, -⟩ := hold i r' hr'
    rw [hpoint] at hreg hret
    have hnone := h.1.fresh i r hr hreg hret
    -- an answered request is registered
    have ha : ¬ answered i := by
      intro ha
      obtain ⟨id, hid⟩ := hanswered i ha
      obtain ⟨r₀, hr₀, hreg₀, -⟩ := h.1.entry id i hid
      obtain rfl := Option.some.inj (hr.symm.trans hr₀)
      rw [hreg] at hreg₀
      exact absurd hreg₀ (by simp)
    obtain rfl := Option.some.inj ((hstay i r hr ha).symm.trans hr')
    exact hnone
  · intro hd
    obtain hd | hall := hdrained hd
    · obtain ⟨hentries, hwaits⟩ := h.2 hd
      refine ⟨?_, ?_⟩
      · intro id i hid
        obtain ⟨hid', ha⟩ := (hlookup id i).mp hid
        obtain ⟨r, hr, hpoint⟩ := hentries id i hid'
        exact ⟨r, hstay i r hr ha, hpoint⟩
      · intro i r' id hr' hpoint'
        obtain ⟨r, hr, hpoint, -, hsome⟩ := hold i r' hr'
        exact hsome (hwaits i r id hr (hpoint ▸ hpoint'))
    · refine ⟨?_, ?_⟩
      · intro id i hid
        obtain ⟨hid', ha⟩ := (hlookup id i).mp hid
        exact absurd (hall id i hid') ha
      · intro i r' id hr' hpoint' hnone
        obtain ⟨r, hr, hpoint, hboth, -⟩ := hold i r' hr'
        obtain ⟨hnone', ha⟩ := hboth hnone
        exact ha (hall id i (h.1.held i r id hr (.inr (hpoint ▸ hpoint')) hnone'))

theorem Kept.respond (h : Kept s) (id : ℕ) (reply : Reply) : Kept (s.respond id reply) := by
  unfold State.respond
  split
  · exact h
  next i hi =>
  refine h.answer (fun j => j = i) (reply.outcome id) ?_ ?_ ?_ rfl (fun hd => .inl hd)
  · intro j
    change (s.requests.modify i _)[j]? = _
    rw [List.getElem?_modify]
    by_cases hj : i = j
    · simp [hj]
    · simp [hj, Ne.symm hj]
  · intro id' j
    change (s.pendingRequests.erase id).lookup id' = some j ↔ _
    rw [Table.lookup_erase]
    -- the other channel of the request that is answered would have its number too
    have hunique : ∀ id', s.pendingRequests.lookup id' = some i → id' = id := by
      intro id' hid'
      obtain ⟨r, hr, hreg, -⟩ := h.1.entry id i hi
      obtain ⟨r', hr', hreg', -⟩ := h.1.entry id' i hid'
      obtain rfl := Option.some.inj (hr.symm.trans hr')
      exact (Option.some.inj (hreg.symm.trans hreg')).symm
    by_cases he : id' = id
    · subst he
      simp [hi, eq_comm]
    · simp only [he, if_false]
      refine ⟨fun hid' => ⟨hid', ?_⟩, And.left⟩
      rintro rfl
      exact he (hunique id' hid')
  · rintro j rfl
    exact ⟨id, hi⟩

theorem Kept.drain (h : Kept s) (error : RuntimeError) (closings : List Closing) :
    Kept { s.drain error with closings := closings } := by
  refine h.answer (fun i => i ∈ s.pendingRequests.values) (.error error) ?_ ?_ ?_ rfl (fun _ => .inr ?_)
  · intro i
    change (s.requests.mapIdx _)[i]? = _
    rw [List.getElem?_mapIdx]
  · intro id i
    change (∅ : Table ℕ ℕ).lookup id = some i ↔ _
    rw [AList.lookup_empty, Table.mem_values]
    simp only [reduceCtorEq, false_iff, not_and, not_not]
    intro hid
    exact ⟨id, hid⟩
  · intro i hi
    exact Table.mem_values.mp hi
  · intro id i hid
    exact Table.mem_values.mpr ⟨id, hid⟩

theorem Kept.aside (h : Kept s) (hrequests : s'.requests = s.requests)
    (hpending : s'.pendingRequests = s.pendingRequests) (hnext : s'.nextRequestId = s.nextRequestId)
    (hdrained : s'.drained = true → s.drained = true) : Kept s' := by
  refine h.answer (fun _ => False) (.ok .null) ?_ ?_ ?_ hnext (fun hd => .inl (hdrained hd))
  · intro i
    rw [hrequests]
    simp
  · intro id i
    rw [hpending]
    simp
  · intro i hi
    exact hi.elim

theorem Kept.send (h : Kept s) (method : String) (timeout : Bool) :
    Kept { s with requests := s.requests ++ [⟨method, timeout, .testing, none⟩] } := by
  have hold : ∀ (i : ℕ) (r : Request), (s.requests ++ [⟨method, timeout, .testing, none⟩])[i]? = some r →
      s.requests[i]? = some r ∨ r = ⟨method, timeout, .testing, none⟩ := by
    intro i r hr
    rw [List.getElem?_append] at hr
    split at hr
    · exact .inl hr
    · have hmem := List.mem_of_getElem? hr
      exact .inr (List.mem_singleton.mp hmem)
  have hstay : ∀ (i : ℕ) (r : Request), s.requests[i]? = some r →
      (s.requests ++ [⟨method, timeout, .testing, none⟩])[i]? = some r := by
    intro i r hr
    rw [List.getElem?_append_left (List.getElem?_eq_some_iff.mp hr).1, hr]
  refine ⟨⟨?_, ?_, ?_, ?_, ?_⟩, ?_⟩
  · intro i r id hr hid
    obtain hr | rfl := hold i r hr
    · exact h.1.below i r id hr hid
    · simp [Point.id?] at hid
  · intro i j r r' id hr hr' hid hid'
    obtain hr | rfl := hold i r hr
    · obtain hr' | rfl := hold j r' hr'
      · exact h.1.apart i j r r' id hr hr' hid hid'
      · simp [Point.id?] at hid'
    · simp [Point.id?] at hid
  · intro id i hid
    obtain ⟨r, hr, hrest⟩ := h.1.entry id i hid
    exact ⟨r, hstay i r hr, hrest⟩
  · intro i r id hr hpoint hnone
    obtain hr | rfl := hold i r hr
    · exact h.1.held i r id hr hpoint hnone
    · simp at hpoint
  · intro i r hr hreg hret
    obtain hr | rfl := hold i r hr
    · exact h.1.fresh i r hr hreg hret
    · rfl
  · intro hd
    obtain ⟨hentries, hwaits⟩ := h.2 hd
    refine ⟨?_, ?_⟩
    · intro id i hid
      obtain ⟨r, hr, hpoint⟩ := hentries id i hid
      exact ⟨r, hstay i r hr, hpoint⟩
    · intro i r id hr hpoint
      obtain hr | rfl := hold i r hr
      · exact hwaits i r id hr hpoint
      · simp at hpoint

/-! ## The calls that close the connection -/

theorem Kept.closing (h : Kept s) {k : ℕ} {c c' : Closing} (hk : s.closings[k]? = some c)
    (hpast : c'.pastDrain = true → c.pastDrain = true) (closed killed : Bool) :
    Kept { s.putClosing k c' with closed := closed, killed := killed } := by
  refine h.aside rfl rfl rfl fun hd => ?_
  obtain ⟨c₀, hmem, hpast₀⟩ := List.any_eq_true.mp hd
  refine List.any_eq_true.mpr ?_
  obtain hmem | rfl := List.mem_or_eq_of_mem_set hmem
  · exact ⟨c₀, hmem, hpast₀⟩
  · exact ⟨c, List.mem_of_getElem? hk, hpast hpast₀⟩

theorem Kept.advanceClosing (h : Kept s) {k : ℕ} (hs : s.advanceClosing k = some s') : Kept s' := by
  unfold State.advanceClosing at hs
  split at hs
  · exact absurd hs (by simp)
  next c hk =>
  split at hs
  case h_1 error =>
    split at hs
    · obtain rfl := Option.some.inj hs
      exact h.closing hk (by simp [Closing.pastDrain]) s.closed s.killed
    · obtain rfl := Option.some.inj hs
      exact h.closing hk (by simp [Closing.pastDrain]) true s.killed
  case h_2 killIfRunning =>
    obtain rfl := Option.some.inj hs
    exact h.closing hk (by simp [Closing.pastDrain]) true s.killed
  case h_3 error =>
    obtain rfl := Option.some.inj hs
    exact h.drain error _
  case h_4 error killIfRunning =>
    obtain rfl := Option.some.inj hs
    exact h.drain error _
  case h_5 killIfRunning =>
    obtain rfl := Option.some.inj hs
    exact h.closing hk (by simp [Closing.pastDrain]) s.closed (s.killed || killIfRunning)
  case h_6 =>
    obtain rfl := Option.some.inj hs
    exact h.closing hk (by simp [Closing.pastDrain]) s.closed s.killed
  case h_7 => exact absurd hs (by simp)

theorem Kept.call (h : Kept s) {cs : List Closing} (hcs : cs.any Closing.pastDrain = false) (reading : Bool) :
    Kept { s with closings := s.closings ++ cs, reading := reading } := by
  refine h.aside rfl rfl rfl fun hd => ?_
  change (s.closings ++ cs).any Closing.pastDrain = true at hd
  rwa [List.any_append, hcs, Bool.or_false] at hd

theorem Kept.read (h : Kept s) {incoming : Incoming} (hs : s.read incoming = some s') : Kept s' := by
  unfold State.read at hs
  split at hs
  · cases incoming with
    | response id reply =>
      obtain rfl := Option.some.inj hs
      exact h.respond id reply
    | other =>
      obtain rfl := Option.some.inj hs
      exact h
    | malformed error =>
      obtain rfl := Option.some.inj hs
      exact h.call (by simp [markClosedBy, Closing.pastDrain]) false
    | ended =>
      obtain rfl := Option.some.inj hs
      exact h.call (by simp [markClosedBy, Closing.pastDrain]) false
    | unreadable error =>
      obtain rfl := Option.some.inj hs
      exact h.call (by simp [markClosedBy, Closing.pastDrain]) false
  · exact absurd hs (by simp)

theorem Kept.stderrLine (h : Kept s) {line : String} (hs : s.stderrLine line = some s') : Kept s' := by
  have haside : ∀ (tail : String) (reading : Bool), Kept { s with stderrTail := tail, stderrReading := reading } :=
    fun _ _ => h.aside rfl rfl rfl id
  unfold State.stderrLine at hs
  split at hs
  · simp only at hs
    split at hs
    · obtain rfl := Option.some.inj hs
      exact haside _ s.stderrReading
    · split at hs
      · obtain rfl := Option.some.inj hs
        exact haside _ s.stderrReading
      · obtain rfl := Option.some.inj hs
        exact haside _ false
  · exact absurd hs (by simp)

/-! ## The system -/

theorem Kept.step (h : Kept s) {e : Event} (hc : writtenInTime e s = true) (hs : s.step e = some s') : Kept s' := by
  cases e with
  | send method timeout =>
    obtain rfl := Option.some.inj hs
    exact h.send method timeout
  | goOn i written => exact h.goOn hc hs
  | expire i => exact h.expire hs
  | read incoming => exact h.read hs
  | shutdown killIfRunning =>
    obtain rfl := Option.some.inj hs
    have hcs : [Closing.shutting killIfRunning].any Closing.pastDrain = false := rfl
    exact h.call hcs s.reading
  | close k => exact h.advanceClosing hs
  | stderr line =>
    change s.stderrLine line = some s' at hs
    exact h.stderrLine hs

theorem kept_spawned : Kept spawned := by
  refine ⟨sound_spawned, fun hd => ?_⟩
  simp [drained, spawned] at hd

end

/-- As long as no request is written on a drained connection after its channel was taken in, a drained connection
has nobody waiting. -/
theorem drained_connection_is_waited_for_by_nobody {s : State}
    (h : Reaches State.step (fun e s => writtenInTime e s = true) spawned s) : NobodyWaits s :=
  (h.invariant kept_spawned fun _ _ _ hk hc hs => Kept.step hk hc hs).2

/-- A prompt that passed the test is registered and written while a malformed line closes the connection. -/
def slippedPrompt : List Event :=
  [.send "session/prompt" false, .goOn 0 (.ok ()), .read (.malformed "expected value"), .close 0, .close 0,
    .shutdown false, .close 1, .close 1, .close 1, .goOn 0 (.ok ()), .goOn 0 (.ok ()), .goOn 0 (.ok ())]

/-- What is left: the closing calls, whether the reader reads, the entry of a request and whether it waits without a
timeout and without a reply. -/
def leftWaiting (i id : ℕ) (s : State) : List Closing × Bool × Option ℕ × Bool :=
  (s.closings, s.reading, s.pendingRequests.lookup id, s.requests[i]?.any fun r =>
    !r.timeout && r.reply.isNone && (match r.point with | .waiting id' => id' = id | _ => false))

theorem drained_connection_is_waited_for_by_nobody_answered :
    ∃ s, Reaches State.step (fun e s => writtenInTime e s = true) spawned s ∧ s.drained = true ∧ NobodyWaits s := by
  obtain ⟨s, hs, hd⟩ := exists_reaches_of_runAll (s := spawned) State.step writtenInTime
    [.send "session/prompt" false, .goOn 0 (.ok ()), .goOn 0 (.ok ()), .goOn 0 (.ok ()), .goOn 0 (.ok ()),
      .read (.malformed "expected value"), .close 0, .close 0]
    State.drained true (by decide +kernel)
  exact ⟨s, hs, hd, drained_connection_is_waited_for_by_nobody hs⟩

theorem not_drained_connection_is_waited_for_by_nobody :
    ¬ ∀ s, Reaches State.step (fun _ _ => true) spawned s → NobodyWaits s := by
  intro h
  obtain ⟨s, hs, hleft⟩ := exists_reaches_of_runAll (s := spawned) State.step (fun _ _ => true) slippedPrompt
    (fun s => (s.drained, leftWaiting 0 1 s)) (true, [.finished true, .reaping], false, some 0, true)
    (by decide +kernel)
  have hd := congrArg Prod.fst hleft
  have hentry := congrArg (fun x => x.2.2.2.1) hleft
  have hwait := congrArg (fun x => x.2.2.2.2) hleft
  simp only [leftWaiting] at hd hentry hwait
  obtain ⟨r, hr, hpoint⟩ := ((h s (hs.mono fun _ _ _ => rfl)) hd).1 1 0 hentry
  rw [hr] at hwait
  obtain hpoint | ⟨error, hpoint⟩ := hpoint <;> simp [hpoint] at hwait

end State

end Gooselake.Providers.Acp.Connection
