import HealthConsensus.Proofs.Admission.Calls
import HealthConsensus.Proofs.Agreement
import HealthConsensus.Proofs.Loading

namespace HealthConsensus

open Operation

namespace Pins

structure Similar (ps ps' : Pins) : Prop where
  keyed : ps.Keyed
  view : ps.view = ps'.view

variable {p : AdmissionPolicy} {now : Instant} {ps ps' : Pins} {α : Type}

theorem Similar.get? (h : Similar ps ps') (agentId : String) : ps.get? agentId = ps'.get? agentId :=
  congrFun h.view agentId

theorem Similar.all (h : Similar ps ps') : ps.all = ps'.all := by
  apply mergeSort_eq_of_perm (Table.values_perm h.view)
  · intro a b c before after
    exact decide_eq_true (String.le_trans (of_decide_eq_true before) (of_decide_eq_true after))
  · intro a b
    simpa using String.le_total a.agentId b.agentId
  · intro a ha b hb before after
    have same : a.agentId = b.agentId :=
      String.le_antisymm (of_decide_eq_true before) (of_decide_eq_true after)
    have found {pin : Pin} (there : pin ∈ ps.values) : ps.get? pin.agentId = some pin := by
      obtain ⟨e, he, rfl⟩ := List.mem_map.1 there
      have found : ps.get? e.1 = some e.2 := Table.get?_eq_some_iff.2 he
      rwa [keyed_of_get? h.keyed found]
    exact Option.some.inj ((found ha).symm.trans (same ▸ found hb))

theorem put_respects {agentId : String} {pin : Pin} (own : pin.agentId = agentId) :
    Respects Similar (put agentId pin) := by
  subst own
  intro ps ps' h
  refine ⟨rfl, ⟨Table.keyed_set (K := pinKind) h.keyed pin, ?_⟩, fun _ => rfl⟩
  simp [put, Table.view_set, h.view]

theorem confirm_respects {agentId : String} {pin : Pin} (own : pin.agentId = agentId)
    (c : Certificate) : Respects Similar (confirm now agentId c pin) := by
  unfold confirm
  split
  · exact (respects_log _).bind fun _ => respects_pure _
  · split
    · exact (respects_log _).bind fun _ => respects_pure _
    · have own : ({ pin with lastSeen := now } : Pin).agentId = agentId := own
      exact (put_respects own).bind fun _ => respects_pure _

theorem firstContact_respects (agentId pem token : String) (c : Certificate) :
    Respects Similar (firstContact p now agentId pem token c) := by
  unfold firstContact
  split
  · exact (respects_log _).bind fun _ => respects_pure _
  · exact (respects_log _).bind fun _ => Respects.reply (put_respects rfl) _

theorem authenticate_respects (agentId pem token : String) :
    Respects Similar (authenticate p now agentId pem token) := by
  unfold authenticate
  split
  · exact respects_pure _
  · split
    · exact respects_pure _
    · next c _ =>
      intro ps ps' h
      apply agree_read
      rw [← h.get? agentId]
      cases found : ps.get? agentId with
      | some pin => exact confirm_respects (keyed_of_get? h.keyed found) c ps ps' h
      | none => exact firstContact_respects agentId pem token c ps ps' h

theorem rotate_respects (agentId pem current : String) :
    Respects Similar (rotate p now agentId pem current) := by
  unfold rotate
  split
  · exact respects_pure _
  · next c _ =>
    intro ps ps' h
    apply agree_read
    rw [← h.get? agentId]
    cases found : ps.get? agentId with
    | none => exact respects_pure _ ps ps' h
    | some pin =>
      have key : pin.agentId = agentId := keyed_of_get? h.keyed found
      have own : (pin.rotate pem (p.regionOf c) c now).agentId = agentId := key
      refine (?_ : Respects Similar _) ps ps' h
      dsimp only
      split
      · exact respects_pure _
      · split
        · exact (respects_log _).bind fun _ => respects_pure _
        · exact (respects_log _).bind fun _ => Respects.reply (put_respects own) _

theorem revoke_respects (agentId reason : String) :
    Respects Similar (revoke now agentId reason) := by
  intro ps ps' h
  apply agree_read
  rw [← h.get? agentId]
  cases found : ps.get? agentId with
  | none => exact respects_pure _ ps ps' h
  | some pin =>
    have key : pin.agentId = agentId := keyed_of_get? h.keyed found
    have own : (pin.revoke reason now).agentId = agentId := key
    refine (?_ : Respects Similar _) ps ps' h
    exact (respects_log _).bind fun _ => (put_respects own).bind fun _ => respects_pure _

theorem erase_respects (agentId : String) :
    Respects Similar (Operation.modify (Table.erase agentId) : Operation Pins Unit) := by
  intro ps ps' h
  refine ⟨rfl, ⟨?_, ?_⟩, fun _ => rfl⟩
  · intro k pin found
    rw [modify_apply, Table.view_erase, Function.update_apply] at found
    split at found
    · cases found
    · exact h.keyed k pin found
  · rw [modify_apply, modify_apply, Table.view_erase, Table.view_erase, h.view]

theorem unpin_respects (agentId : String) : Respects Similar (unpin agentId) := by
  intro ps ps' h
  apply agree_read
  rw [← h.get? agentId]
  cases found : ps.get? agentId with
  | none => exact respects_pure _ ps ps' h
  | some pin =>
    refine (?_ : Respects Similar _) ps ps' h
    exact (erase_respects agentId).bind fun _ => (respects_write _).bind fun _ =>
      (respects_log _).bind fun _ => respects_pure _

theorem operation_respects (c : PinsCall) : Respects Similar (c.operation p now) := by
  cases c with
  | authenticate agentId pem token => exact (authenticate_respects agentId pem token).reply _
  | rotate agentId pem current => exact (rotate_respects agentId pem current).reply _
  | revoke agentId reason => exact (revoke_respects agentId reason).reply _
  | unpin agentId => exact (unpin_respects agentId).reply _
  | verify agentId fingerprint =>
    intro ps ps' h
    apply agree_read
    rw [verify, verify, h.get?]
    exact respects_pure _ ps ps' h
  | isAdmitted agentId =>
    intro ps ps' h
    apply agree_read
    rw [isAdmitted, isAdmitted, h.get?]
    exact respects_pure _ ps ps' h
  | find agentId =>
    intro ps ps' h
    apply agree_read
    rw [h.get?]
    exact respects_pure _ ps ps' h
  | list =>
    intro ps ps' h
    apply agree_read
    rw [h.all]
    exact respects_pure _ ps ps' h
  | expiring within =>
    intro ps ps' h
    apply agree_read
    rw [expiring, expiring, h.all]
    exact respects_pure _ ps ps' h

end Pins

end HealthConsensus
