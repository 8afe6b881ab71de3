import Mathlib.Data.List.Dedup
import Gooselake.Library.Index
import Gooselake.TeamComms.Queues

/-!
The five indexes of the messages and the deliveries: they list what is in the two tables under its keys and nothing
else. A send files new records, the other changes of a delivery keep its keys, and a team that is deleted takes its
own out.
-/

namespace Gooselake.TeamComms

open Gooselake.Core Data Library Library.Exec

set_option autoImplicit false

/-- Each live message and delivery is listed once under its own keys, and nothing else is. -/
structure Filing (s : TeamCommsState) : Prop where
  messages : Indexes TeamMessageRecord.teamId s.messages s.teamMessageIds
  ofMessages : Indexes TeamDeliveryRecord.messageId s.deliveries s.messageDeliveryIds
  ofTeams : Indexes TeamDeliveryRecord.teamId s.deliveries s.teamDeliveryIds
  ofRecipients : Indexes TeamDeliveryRecord.recipientAgentId s.deliveries s.recipientDeliveryIds
  idempotency : Points idempotencyEntry s.messages s.idempotencyIndex

/-- The team is gone with its messages and deliveries, also from the indexes; the rest is as it was. -/
structure Purged (teamId : String) (s s' : TeamCommsState) : Prop where
  indexed : Filing s'
  teams : ∀ k, s'.teams.lookup k = if k = teamId then none else s.teams.lookup k
  members : ∀ k, s'.membersByTeam.lookup k = if k = teamId then none else s.membersByTeam.lookup k
  messages : ∀ id m, s'.messages.lookup id = some m ↔ s.messages.lookup id = some m ∧ m.teamId ≠ teamId
  deliveries : ∀ id d, s'.deliveries.lookup id = some d ↔ s.deliveries.lookup id = some d ∧ d.teamId ≠ teamId
  messageLists : ∀ k, k ≠ teamId → s'.teamMessageIds.lookup k = s.teamMessageIds.lookup k
  deliveryLists : ∀ k, k ≠ teamId → s'.teamDeliveryIds.lookup k = s.teamDeliveryIds.lookup k
  ofMessages : ∀ id m, s.messages.lookup id = some m → m.teamId ≠ teamId →
    s'.messageDeliveryIds.lookup id = s.messageDeliveryIds.lookup id
  queues : ∀ recipient, queueOf s' recipient = (queueOf s recipient).filter fun id =>
    (s.deliveries.lookup id).any fun d => d.teamId ≠ teamId

/-! ## Records and their keys -/

def plain (teamId : String) : Prop := '|' ∉ teamId.toList

structure Filed (s : TeamCommsState) : Prop where
  indexed : Filing s
  messageIds : ∀ id m, s.messages.lookup id = some m → m.id = id ∧ plain m.teamId
  deliveryIds : ∀ id d, s.deliveries.lookup id = some d → d.id = id
  belongs : ∀ id d, s.deliveries.lookup id = some d → ∃ m, s.messages.lookup d.messageId = some m ∧ m.teamId = d.teamId

def filedUnder (d : TeamDeliveryRecord) : String × String × String × String :=
  (d.id, d.messageId, d.teamId, d.recipientAgentId)

structure SameFiles (s s' : TeamCommsState) : Prop where
  messages : s'.messages = s.messages
  teamMessageIds : s'.teamMessageIds = s.teamMessageIds
  teamDeliveryIds : s'.teamDeliveryIds = s.teamDeliveryIds
  messageDeliveryIds : s'.messageDeliveryIds = s.messageDeliveryIds
  recipientDeliveryIds : s'.recipientDeliveryIds = s.recipientDeliveryIds
  idempotencyIndex : s'.idempotencyIndex = s.idempotencyIndex
  deliveries : ∀ id, (s'.deliveries.lookup id).map filedUnder = (s.deliveries.lookup id).map filedUnder

variable {s s' : TeamCommsState}

theorem SameFiles.refl (s : TeamCommsState) : SameFiles s s := ⟨rfl, rfl, rfl, rfl, rfl, rfl, fun _ => rfl⟩

theorem lookup_put_filed {t : Table String TeamDeliveryRecord} {id : String} {d d' : TeamDeliveryRecord}
    (found : t.lookup id = some d) (same : filedUnder d' = filedUnder d) (k : String) :
    ((t.insert id d').lookup k).map filedUnder = (t.lookup k).map filedUnder := by
  rw [Table.lookup_insert]
  split
  · next he => rw [he, found, Option.map_some, Option.map_some, same]
  · rfl

theorem SameFiles.put {id : String} {d d' : TeamDeliveryRecord} (found : s.deliveries.lookup id = some d)
    (same : filedUnder d' = filedUnder d) : SameFiles s { s with deliveries := s.deliveries.insert id d' } :=
  ⟨rfl, rfl, rfl, rfl, rfl, rfl, lookup_put_filed found same⟩

theorem SameFiles.cancel (now : ℤ) {ds : List TeamDeliveryRecord} (h : ∀ d ∈ ds, s.deliveries.lookup d.id = some d) :
    SameFiles s ((ds.map (cancelDelivery now)).foldl (fun s d => putDelivery d s) s) := by
  rw [List.foldl_map]
  refine List.foldlRecOn (motive := SameFiles s) _ _ (.refl s) fun s' hs d hd => ?_
  refine ⟨hs.messages, hs.teamMessageIds, hs.teamDeliveryIds, hs.messageDeliveryIds, hs.recipientDeliveryIds,
    hs.idempotencyIndex, fun id => ?_⟩
  have hfiled := hs.deliveries d.id
  rw [h d hd] at hfiled
  obtain ⟨d', found, same⟩ := Option.map_eq_some_iff.mp hfiled
  have hput : filedUnder (cancelDelivery now d) = filedUnder d' := same.symm
  exact (lookup_put_filed found hput id).trans (hs.deliveries id)

theorem Filed.same (h : Filed s) (same : SameFiles s s') : Filed s' := by
  have hfound : ∀ id d', s'.deliveries.lookup id = some d' →
      ∃ d, s.deliveries.lookup id = some d ∧ filedUnder d' = filedUnder d := by
    intro id d' hl
    have hfiled := same.deliveries id
    rw [hl] at hfiled
    obtain ⟨d, found, he⟩ := Option.map_eq_some_iff.mp hfiled.symm
    exact ⟨d, found, he.symm⟩
  have hkeys : ∀ {β : Type} (g : String × String × String × String → β) (id : String),
      (s'.deliveries.lookup id).map (g ∘ filedUnder) = (s.deliveries.lookup id).map (g ∘ filedUnder) := by
    intro β g id
    rw [← Option.map_map, ← Option.map_map, same.deliveries id]
  refine ⟨⟨?_, ?_, ?_, ?_, ?_⟩, ?_, fun id d' hl => ?_, fun id d' hl => ?_⟩
  · rw [same.messages, same.teamMessageIds]
    exact h.indexed.messages
  · rw [same.messageDeliveryIds]
    exact h.indexed.ofMessages.congr (hkeys fun p => p.2.1)
  · rw [same.teamDeliveryIds]
    exact h.indexed.ofTeams.congr (hkeys fun p => p.2.2.1)
  · rw [same.recipientDeliveryIds]
    exact h.indexed.ofRecipients.congr (hkeys fun p => p.2.2.2)
  · rw [same.messages, same.idempotencyIndex]
    exact h.indexed.idempotency
  · rw [same.messages]
    exact h.messageIds
  · obtain ⟨d, found, he⟩ := hfound id d' hl
    exact (congrArg Prod.fst he).trans (h.deliveryIds id d found)
  · obtain ⟨d, found, he⟩ := hfound id d' hl
    obtain ⟨m, hm, hteam⟩ := h.belongs id d found
    have hmessage : d'.messageId = d.messageId := congrArg (fun p => p.2.1) he
    have hteam' : d'.teamId = d.teamId := congrArg (fun p => p.2.2.1) he
    rw [hmessage, hteam', same.messages]
    exact ⟨m, hm, hteam⟩

/-! ## New records -/

theorem Filed.addDelivery (h : Filed s) {d : TeamDeliveryRecord} (hnew : d.id ∉ s.deliveries)
    (hbelongs : ∃ m, s.messages.lookup d.messageId = some m ∧ m.teamId = d.teamId) : Filed (s.addDelivery d) := by
  have hlookup : ∀ id d', (s.addDelivery d).deliveries.lookup id = some d' →
      (d' = d ∧ id = d.id) ∨ s.deliveries.lookup id = some d' := by
    intro id d' hl
    rw [TeamCommsState.addDelivery, Table.lookup_insert] at hl
    split at hl
    · next he => exact .inl ⟨(Option.some.inj hl).symm, he⟩
    · exact .inr hl
  refine ⟨⟨h.indexed.messages, ?_, ?_, ?_, h.indexed.idempotency⟩, h.messageIds, fun id d' hl => ?_, fun id d' hl => ?_⟩
  · exact h.indexed.ofMessages.push hnew d
  · exact h.indexed.ofTeams.push hnew d
  · exact h.indexed.ofRecipients.push hnew d
  · rcases hlookup id d' hl with ⟨rfl, rfl⟩ | hl
    · rfl
    · exact h.deliveryIds id d' hl
  · rcases hlookup id d' hl with ⟨rfl, -⟩ | hl
    · exact hbelongs
    · exact h.belongs id d' hl

theorem Filed.addDeliveries {ds : List TeamDeliveryRecord} (h : Filed s) (hnodup : (ds.map TeamDeliveryRecord.id).Nodup)
    (hnew : ∀ d ∈ ds, d.id ∉ s.deliveries)
    (hbelongs : ∀ d ∈ ds, ∃ m, s.messages.lookup d.messageId = some m ∧ m.teamId = d.teamId) :
    Filed (ds.foldl TeamCommsState.addDelivery s) := by
  induction ds generalizing s with
  | nil => exact h
  | cons d ds ih =>
    rw [List.map_cons, List.nodup_cons] at hnodup
    refine ih (h.addDelivery (hnew d List.mem_cons_self) (hbelongs d List.mem_cons_self)) hnodup.2 (fun d' hd' => ?_)
      fun d' hd' => hbelongs d' (List.mem_cons_of_mem _ hd')
    rw [TeamCommsState.addDelivery, AList.mem_insert, not_or]
    refine ⟨fun he => hnodup.1 ?_, hnew d' (List.mem_cons_of_mem _ hd')⟩
    rw [← he]
    exact List.mem_map_of_mem hd'

def fileMessage (message : TeamMessageRecord) (s : TeamCommsState) : TeamCommsState :=
  { s with
    messages := s.messages.insert message.id message
    teamMessageIds := pushAt s.teamMessageIds message.teamId message.id
    idempotencyIndex := match idempotencyEntry message with
      | some entry => s.idempotencyIndex.insert entry message.id
      | none => s.idempotencyIndex }

theorem Filed.fileMessage (h : Filed s) {message : TeamMessageRecord} (hnew : message.id ∉ s.messages)
    (hplain : plain message.teamId)
    (hfree : ∀ entry, idempotencyEntry message = some entry → s.idempotencyIndex.lookup entry = none) :
    Filed (fileMessage message s) := by
  have hkept : ∀ id m, s.messages.lookup id = some m →
      (TeamComms.fileMessage message s).messages.lookup id = some m := by
    intro id m hl
    have hne : id ≠ message.id := fun he => hnew (he ▸ Table.lookup_isSome hl)
    rw [TeamComms.fileMessage, Table.lookup_insert, if_neg hne]
    exact hl
  refine ⟨⟨?_, h.indexed.ofMessages, h.indexed.ofTeams, h.indexed.ofRecipients, ?_⟩, fun id m hl => ?_, h.deliveryIds,
    fun id d hl => ?_⟩
  · exact h.indexed.messages.push hnew message
  · unfold TeamComms.fileMessage
    dsimp only
    cases hentry : idempotencyEntry message with
    | none => exact h.indexed.idempotency.pass hnew hentry
    | some entry => exact h.indexed.idempotency.put hnew hentry (hfree entry hentry)
  · rw [TeamComms.fileMessage, Table.lookup_insert] at hl
    split at hl
    · next he =>
      obtain rfl := Option.some.inj hl
      exact ⟨he.symm, hplain⟩
    · exact h.messageIds id m hl
  · obtain ⟨m, hm, hteam⟩ := h.belongs id d hl
    exact ⟨m, hkept _ m hm, hteam⟩

/-! ## A team is deleted -/

theorem append_separator_inj {xs ys rest rest' : List Char} (hx : '|' ∉ xs) (hy : '|' ∉ ys)
    (h : xs ++ '|' :: rest = ys ++ '|' :: rest') : xs = ys := by
  induction xs generalizing ys with
  | nil =>
    cases ys with
    | nil => rfl
    | cons y ys =>
      obtain ⟨rfl, -⟩ := List.cons_eq_cons.mp h
      exact absurd List.mem_cons_self hy
  | cons x xs ih =>
    rw [List.mem_cons, not_or] at hx
    cases ys with
    | nil =>
      obtain ⟨rfl, -⟩ := List.cons_eq_cons.mp h
      exact absurd rfl hx.1
    | cons y ys =>
      obtain ⟨rfl, htail⟩ := List.cons_eq_cons.mp h
      rw [ih hx.2 (fun hmem => hy (List.mem_cons_of_mem _ hmem)) htail]

theorem team_of_entry {m : TeamMessageRecord} {entry teamId : String} (hentry : idempotencyEntry m = some entry)
    (hm : plain m.teamId) (ht : plain teamId) :
    (teamId ++ "|").toList.isPrefixOf entry.toList = true ↔ m.teamId = teamId := by
  obtain ⟨key, -, rfl⟩ := Option.map_eq_some_iff.mp hentry
  have hlist : (idempotencyIndexKey m.teamId m.senderAgentId m.scope key).toList =
      m.teamId.toList ++ '|' :: (m.senderAgentId ++ "|" ++ m.scope ++ "|" ++ key).toList := by
    simp [idempotencyIndexKey, String.toList_append, toString]
  have hhead : (teamId ++ "|").toList = teamId.toList ++ ['|'] := by simp [String.toList_append]
  rw [hlist, hhead, List.isPrefixOf_iff_prefix]
  constructor
  · rintro ⟨rest, hrest⟩
    rw [List.append_assoc, List.singleton_append] at hrest
    exact String.toList_inj.mp (append_separator_inj ht hm hrest).symm
  · rintro rfl
    exact ⟨_, by rw [List.append_assoc]; rfl⟩

theorem Filed.mem_teamMessages (h : Filed s) (teamId id : String) :
    id ∈ (s.teamMessageIds.lookup teamId).getD [] ↔ ∃ m, s.messages.lookup id = some m ∧ m.teamId = teamId :=
  h.indexed.messages.mem_iff teamId id

theorem Filed.mem_teamDeliveries (h : Filed s) (teamId id : String) :
    id ∈ teamDeliveries s teamId ↔ ∃ d, s.deliveries.lookup id = some d ∧ d.teamId = teamId := by
  unfold teamDeliveries
  rw [List.mem_dedup, List.mem_append, List.mem_flatMap, h.indexed.ofTeams.mem_iff]
  constructor
  · rintro (hd | ⟨messageId, hmessage, hd⟩)
    · exact hd
    · obtain ⟨m, hm, hteam⟩ := (h.mem_teamMessages teamId messageId).mp hmessage
      obtain ⟨d, hl, rfl⟩ := (h.indexed.ofMessages.mem_iff messageId id).mp hd
      obtain ⟨m', hm', hteam'⟩ := h.belongs id d hl
      obtain rfl := Option.some.inj (hm.symm.trans hm')
      exact ⟨d, hl, hteam'.symm.trans hteam⟩
  · exact .inl

theorem removeDelivery_nonempty {index : Table String (List String)} (h : ∀ b, index.lookup b ≠ some [])
    (key id b : String) : (removeDeliveryFromRecipientIndex index key id).lookup b ≠ some [] := by
  unfold removeDeliveryFromRecipientIndex
  split
  · exact h b
  · dsimp only
    split
    · rw [Table.lookup_erase]
      split
      · simp
      · exact h b
    · next hne =>
      rw [Table.lookup_insert]
      split
      · exact fun he => hne (Option.some.inj he)
      · exact h b

theorem removeDeliveries_nonempty {index : Table String (List String)} (h : ∀ b, index.lookup b ≠ some [])
    (ds : List TeamDeliveryRecord) (b : String) :
    (ds.foldl (fun index d =>
      removeDeliveryFromRecipientIndex index d.recipientAgentId d.id) index).lookup b ≠ some [] := by
  induction ds generalizing index with
  | nil => exact h b
  | cons d ds ih => exact ih fun b' => removeDelivery_nonempty h d.recipientAgentId d.id b'

theorem Filed.removed_queue (h : Filed s) (teamId recipient : String) :
    queueOf (removeTeam teamId s) recipient = (queueOf s recipient).filter
      fun id => ¬ id ∈ teamDeliveries s teamId := by
  refine (queueOf_removeDeliveries _ _ recipient).trans (List.filter_congr fun id hid => ?_)
  obtain ⟨d, hl, hr⟩ := (h.indexed.ofRecipients.mem_iff recipient id).mp hid
  rw [Bool.eq_iff_iff, decide_eq_true_eq, decide_eq_true_eq]
  constructor
  · intro hkept hremoved
    exact hkept d (List.mem_filterMap.mpr ⟨id, hremoved, hl⟩) hr.symm (h.deliveryIds id d hl).symm
  · intro hkept d' hd' _ he
    obtain ⟨k, hk, hlk⟩ := List.mem_filterMap.mp hd'
    rw [he, h.deliveryIds k d' hlk] at hkept
    exact hkept hk

theorem removeTeam_messages (teamId : String) (s : TeamCommsState) (id : String) :
    (removeTeam teamId s).messages.lookup id =
      if id ∈ (s.teamMessageIds.lookup teamId).getD [] then none else s.messages.lookup id :=
  Table.lookup_eraseAll _ _ _

theorem removeTeam_deliveries (teamId : String) (s : TeamCommsState) (id : String) :
    (removeTeam teamId s).deliveries.lookup id =
      if id ∈ teamDeliveries s teamId then none else s.deliveries.lookup id :=
  Table.lookup_eraseAll _ _ _

theorem Filed.removed_message (h : Filed s) (teamId : String) {id : String} {m : TeamMessageRecord}
    (hl : s.messages.lookup id = some m) : id ∈ (s.teamMessageIds.lookup teamId).getD [] ↔ m.teamId = teamId := by
  rw [h.mem_teamMessages]
  exact ⟨fun ⟨m', hl', he⟩ => Option.some.inj (hl.symm.trans hl') ▸ he, fun he => ⟨m, hl, he⟩⟩

theorem Filed.removed_delivery (h : Filed s) (teamId : String) {id : String} {d : TeamDeliveryRecord}
    (hl : s.deliveries.lookup id = some d) : id ∈ teamDeliveries s teamId ↔ d.teamId = teamId := by
  rw [h.mem_teamDeliveries]
  exact ⟨fun ⟨d', hl', he⟩ => Option.some.inj (hl.symm.trans hl') ▸ he, fun he => ⟨d, hl, he⟩⟩

theorem Filed.removeTeam (h : Filed s) {teamId : String} (ht : plain teamId) : Filed (removeTeam teamId s) := by
  have hmessages := removeTeam_messages teamId s
  have hdeliveries := removeTeam_deliveries teamId s
  refine ⟨⟨?_, ?_, ?_, ?_, ?_⟩, fun id m hl => ?_, fun id d hl => ?_, fun id d hl => ?_⟩
  · refine h.indexed.messages.eraseKeys [teamId] hmessages (fun id m hl => ?_) fun k => ?_
    · rw [List.mem_singleton]
      exact h.removed_message teamId hl
    · simp only [List.mem_singleton]
      exact Table.lookup_erase _ _ _
  · refine h.indexed.ofMessages.eraseKeys _ hdeliveries (fun id d hl => ?_) fun k => Table.lookup_eraseAll _ _ _
    obtain ⟨m, hm, hteam⟩ := h.belongs id d hl
    rw [h.removed_delivery teamId hl, h.removed_message teamId hm, hteam]
  · refine h.indexed.ofTeams.eraseKeys [teamId] hdeliveries (fun id d hl => ?_) fun k => ?_
    · rw [List.mem_singleton]
      exact h.removed_delivery teamId hl
    · simp only [List.mem_singleton]
      exact Table.lookup_erase _ _ _
  · refine h.indexed.ofRecipients.filter hdeliveries (h.removed_queue teamId) fun recipient => ?_
    exact removeDeliveries_nonempty (fun b hempty => (h.indexed.ofRecipients.live b [] hempty).1 rfl) _ recipient
  · refine h.indexed.idempotency.eraseKeys (fun entry => entry ∈ (((s.teamMessageIds.lookup teamId).getD []).filterMap
      fun id => s.messages.lookup id).filterMap idempotencyEntry ∨
        (teamId ++ "|").toList.isPrefixOf entry.toList = true)
      hmessages (fun id m entry hl he => ?_) fun entry => ?_
    · rw [team_of_entry he (h.messageIds id m hl).2 ht, ← h.removed_message teamId hl]
      refine ⟨.inr, ?_⟩
      rintro (hentry | hid)
      · obtain ⟨m', hm', he'⟩ := List.mem_filterMap.mp hentry
        obtain ⟨id', hid', hl'⟩ := List.mem_filterMap.mp hm'
        have hsame := (h.indexed.idempotency.listed id m entry hl he).symm.trans
          (h.indexed.idempotency.listed id' m' entry hl' he')
        rw [Option.some.inj hsame]
        exact hid'
      · exact hid
    · refine (Table.lookup_retain _ _ _).trans ?_
      rw [Table.lookup_eraseAll]
      cases hhead : (teamId ++ "|").toList.isPrefixOf entry.toList with
      | false => simp only [Bool.not_false, if_true, Bool.false_eq_true, or_false]
      | true => simp only [Bool.not_true, Bool.false_eq_true, if_false, or_true, if_true]
  · rw [hmessages] at hl
    split at hl
    · cases hl
    · exact h.messageIds id m hl
  · rw [hdeliveries] at hl
    split at hl
    · cases hl
    · exact h.deliveryIds id d hl
  · rw [hdeliveries] at hl
    split at hl
    · cases hl
    · next hkept =>
      obtain ⟨m, hm, hteam⟩ := h.belongs id d hl
      refine ⟨m, ?_, hteam⟩
      rw [hmessages, if_neg]
      · exact hm
      · rw [h.removed_message teamId hm, hteam, ← h.removed_delivery teamId hl]
        exact hkept

theorem Filed.purged (h : Filed s) {teamId : String} (ht : plain teamId) :
    Purged teamId s (TeamComms.removeTeam teamId s) := by
  have hmessages := removeTeam_messages teamId s
  have hdeliveries := removeTeam_deliveries teamId s
  refine ⟨(h.removeTeam ht).indexed, Table.lookup_erase s.teams teamId, Table.lookup_erase s.membersByTeam teamId,
    fun id m => ?_, fun id d => ?_, fun k hk => ?_, fun k hk => ?_, fun id m hl hteam => ?_, fun recipient => ?_⟩
  · rw [hmessages]
    constructor
    · intro hl
      split at hl
      · cases hl
      · next hkept => exact ⟨hl, fun he => hkept ((h.removed_message teamId hl).mpr he)⟩
    · rintro ⟨hl, hteam⟩
      rw [if_neg fun hmem => hteam ((h.removed_message teamId hl).mp hmem)]
      exact hl
  · rw [hdeliveries]
    constructor
    · intro hl
      split at hl
      · cases hl
      · next hkept => exact ⟨hl, fun he => hkept ((h.removed_delivery teamId hl).mpr he)⟩
    · rintro ⟨hl, hteam⟩
      rw [if_neg fun hmem => hteam ((h.removed_delivery teamId hl).mp hmem)]
      exact hl
  · exact (Table.lookup_erase _ _ _).trans (if_neg hk)
  · exact (Table.lookup_erase _ _ _).trans (if_neg hk)
  · refine (Table.lookup_eraseAll _ _ _).trans (if_neg fun hmem => hteam ?_)
    exact (h.removed_message teamId hl).mp hmem
  · rw [h.removed_queue]
    refine List.filter_congr fun id hid => ?_
    obtain ⟨d, hl, -⟩ := (h.indexed.ofRecipients.mem_iff recipient id).mp hid
    rw [Bool.eq_iff_iff, decide_eq_true_eq, h.removed_delivery teamId hl, hl]
    simp

end Gooselake.TeamComms
