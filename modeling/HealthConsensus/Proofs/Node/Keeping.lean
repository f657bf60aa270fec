import HealthConsensus.Admin.Routes
import HealthConsensus.Node.Basic
import HealthConsensus.Proofs.Loading
import HealthConsensus.Registry.Update

namespace HealthConsensus

open Operation

namespace Registry

variable {p : RegistryPolicy} {now : Instant}

theorem update_blind (k : BackendKey) (b next : Backend) : (update p now k b next).Blind :=
  (blind_modify _).bind fun _ => blind_effect _

theorem register_blind (x : Registration) : (register p now x).Blind := by
  unfold register
  split
  · exact blind_pure _
  · split
    · exact blind_pure _
    · refine blind_state.bind fun r => ?_
      split
      · exact (update_blind _ _ _).bind fun _ => blind_pure _
      · exact (blind_log _).bind fun _ => (blind_modify _).bind fun _ => (blind_write _).bind
          fun _ => (blind_announce _).bind fun _ => blind_pure _

theorem onBackend_blind {k : BackendKey} {change : Backend → Operation Registry Unit}
    (h : ∀ b, (change b).Blind) : (onBackend k change).Blind := by
  refine blind_state.bind fun r => ?_
  split
  · exact blind_pure _
  · exact (h _).bind fun _ => blind_pure _

theorem deregister_blind (k : BackendKey) : (deregister k).Blind :=
  onBackend_blind fun _ => (blind_modify _).bind fun _ => (blind_log _).bind fun _ => blind_effect _

theorem validate_blind (k : BackendKey) (healthy : Bool) (error : Option String)
    (latency : Duration) : (validate p now k healthy error latency).Blind :=
  onBackend_blind fun _ => update_blind _ _ _

theorem setOverride_blind (k : BackendKey) (healthy : Bool) (reason operator : String) :
    (setOverride p now k healthy reason operator).Blind :=
  onBackend_blind fun _ => (blind_log _).bind fun _ => update_blind _ _ _

theorem clearOverride_blind (k : BackendKey) : (clearOverride p now k).Blind := by
  refine onBackend_blind fun b => ?_
  split
  · exact (blind_log _).bind fun _ => update_blind _ _ _
  · exact blind_pure _

theorem drain_blind (agentId : String) (signal : Drain) : (drain p now agentId signal).Blind :=
  blind_state.bind fun _ => (blind_modify _).bind fun _ =>
    (Blind.forEach fun _ => blind_effect _).bind fun _ => blind_pure _

theorem sweep_blind : (sweep p now).Blind :=
  blind_state.bind fun _ => blind_state.bind fun _ => (blind_modify _).bind fun _ =>
    (Blind.forEach fun _ => blind_effect _).bind fun _ => (blind_modify _).bind fun _ =>
      (Blind.forEach fun _ => blind_effect _).bind fun _ => blind_pure _

end Registry

namespace Validator

variable {p : RegistryPolicy} {now : Instant}

theorem land_blind (b : Backend) (v : Verdict) : (land p now b v).Blind := by
  refine (Registry.validate_blind _ _ _ _).bind fun result => ?_
  split
  · exact blind_pure _
  · exact (blind_effect _).bind fun _ => blind_pure _

theorem removeAt_blind (t : Target) : (removeAt t).Blind :=
  blind_state.bind fun _ => .forEach fun k => (Registry.deregister_blind k).bind fun _ =>
    blind_pure _

theorem removal_blind {α : Type} {next : Unit → Operation Registry α} (h : (next ()).Blind)
    (removes : Bool) (t : Target) :
    (if removes = true then removeAt t >>= next else next ()).Blind := by
  split
  · exact (removeAt_blind t).bind fun _ => h
  · exact h

theorem checkOne_blind (script : Script) (s : ValidatorSettings) (b : Backend)
    (sum : ValidationSummary) : (checkOne p now script s b sum).Blind := by
  refine removal_blind ?_ _ _
  split
  · exact (blind_log _).bind fun _ => blind_pure _
  · refine (land_blind _ _).bind fun result => ?_
    split
    · exact blind_pure _
    · exact blind_pure _

theorem checkAll_blind (script : Script) (s : ValidatorSettings) (bs : List Backend)
    (sum : ValidationSummary) : (checkAll p now script s bs sum).Blind := by
  induction bs generalizing sum with
  | nil => exact blind_pure _
  | cons b bs ih => exact (checkOne_blind script s b sum).bind fun sum => ih sum

theorem sweep_blind (script : Script) (s : ValidatorSettings) : (sweep p now script s).Blind :=
  blind_state.bind fun _ => checkAll_blind _ _ _ _

theorem checkBackend_blind (script : Script) (s : ValidatorSettings) (k : BackendKey) :
    (checkBackend p now script s k).Blind := by
  refine blind_state.bind fun r => ?_
  split
  · exact blind_pure _
  · refine removal_blind ?_ _ _
    split
    · exact blind_pure _
    · refine (land_blind _ _).bind fun result => ?_
      split
      · exact blind_pure _
      · exact blind_pure _

end Validator

namespace Pins

variable {p : AdmissionPolicy} {now : Instant}

theorem put_blind (agentId : String) (pin : Pin) : (put agentId pin).Blind :=
  (blind_modify _).bind fun _ => blind_write _

theorem put_reply_blind {α : Type} (agentId : String) (pin : Pin) (x : α) :
    (put agentId pin >>= fun _ => pure x).Blind := (put_blind agentId pin).bind fun _ => blind_pure x

theorem log_reply_blind {α : Type} (l : LogLine) (x : α) :
    (log l >>= fun _ => pure x : Operation Pins α).Blind := (blind_log l).bind fun _ => blind_pure x

theorem confirm_blind (agentId : String) (c : Certificate) (pin : Pin) :
    (confirm now agentId c pin).Blind := by
  unfold confirm
  split
  · exact log_reply_blind _ _
  · split
    · exact log_reply_blind _ _
    · exact put_reply_blind _ _ _

theorem firstContact_blind (agentId pem token : String) (c : Certificate) :
    (firstContact p now agentId pem token c).Blind := by
  unfold firstContact
  split
  · exact log_reply_blind _ _
  · exact (blind_log _).bind fun _ => put_reply_blind _ _ _

theorem authenticate_blind (agentId pem token : String) :
    (authenticate p now agentId pem token).Blind := by
  unfold authenticate
  split
  · exact blind_pure _
  · split
    · exact blind_pure _
    · refine blind_state.bind fun ps => ?_
      split
      · exact confirm_blind _ _ _
      · exact firstContact_blind _ _ _ _

theorem revoke_blind (agentId reason : String) : (revoke now agentId reason).Blind := by
  refine blind_state.bind fun ps => ?_
  split
  · exact blind_pure _
  · exact (blind_log _).bind fun _ => put_reply_blind _ _ _

theorem rotate_blind (agentId pem current : String) : (rotate p now agentId pem current).Blind := by
  unfold rotate
  split
  · exact blind_pure _
  · refine blind_state.bind fun ps => ?_
    split
    · exact blind_pure _
    · split
      · exact blind_pure _
      · split
        · exact log_reply_blind _ _
        · exact (blind_log _).bind fun _ => put_reply_blind _ _ _

theorem unpin_blind (agentId : String) : (unpin agentId).Blind := by
  refine blind_state.bind fun ps => ?_
  split
  · exact blind_pure _
  · exact (blind_modify _).bind fun _ => (blind_write _).bind fun _ => log_reply_blind _ _

end Pins

namespace NodeState

variable {α : Type}

theorem onRegistry_blind {a : Operation Registry α} (h : a.Blind) : (onRegistry a).Blind := h.on _ _

theorem onPins_blind {a : Operation Pins α} (h : a.Blind) : (onPins a).Blind := h.on _ _

theorem count_blind (f : Counters → Counters) : (count f).Blind := blind_modify _

end NodeState

open NodeState

namespace Handler

variable {p : NodePolicy} {now : Instant}

theorem claim_blind (agentId region : String) (c : BackendClaim) :
    (claim p now agentId region c).Blind := by
  refine (onRegistry_blind (Registry.register_blind _)).bind fun result => ?_
  split
  · exact blind_pure _
  · exact blind_log _

theorem forecast_blind (agentId : String) (f : Option Forecast) :
    (forecast p now agentId f).Blind := by
  cases f with
  | none => exact blind_pure _
  | some f => exact (onRegistry_blind (Registry.drain_blind _ _)).bind fun _ => blind_log _

theorem heartbeat_blind (agentId region : String) (h : Heartbeat) :
    (heartbeat p now agentId region h).Blind := by
  refine blind_state.bind fun n => ?_
  split
  · exact (count_blind _).bind fun _ => blind_log _
  · exact (Blind.forEach fun c => claim_blind _ _ c).bind fun _ =>
      (forecast_blind _ _).bind fun _ => count_blind _

theorem ifAdmitted_blind {agentId kind : String} {next : Operation NodeState Unit}
    (h : next.Blind) : (ifAdmitted p agentId kind next).Blind := by
  refine blind_state.bind fun n => ?_
  split
  · exact h
  · exact (count_blind _).bind fun _ => blind_log _

theorem register_blind (agentId region : String) (r : RegisterRequest) :
    (register p now agentId region r).Blind := by
  refine ifAdmitted_blind ((onRegistry_blind (Registry.register_blind _)).bind fun result => ?_)
  split
  · exact count_blind _
  · exact blind_log _

theorem deregister_blind (agentId : String) (r : DeregisterRequest) :
    (deregister p agentId r).Blind := by
  refine ifAdmitted_blind ((onRegistry_blind (Registry.deregister_blind _)).bind fun result => ?_)
  split
  · exact count_blind _
  · exact blind_log _

theorem agentAuth_blind (agentId : String) (r : AuthRequest) :
    (agentAuth p now agentId r).Blind := by
  refine (onPins_blind (Pins.authenticate_blind _ _ _)).bind fun result => ?_
  split
  · exact (count_blind _).bind fun _ => blind_log _
  · exact (count_blind _).bind fun _ => blind_log _

theorem handle_blind (m : Message) : (handle p now m).Blind := by
  unfold handle
  split
  · exact heartbeat_blind _ _ _
  · exact register_blind _ _ _
  · exact deregister_blind _ _
  · exact agentAuth_blind _ _
  · exact (count_blind _).bind fun _ => blind_log _

end Handler

namespace Admin

variable {p : NodePolicy} {now : Instant} {ctx : AdminContext}

theorem changed_blind {k : BackendKey} {a : Operation Registry (Except Error Unit)}
    (h : a.Blind) : (changed k a).Blind := by
  refine (onRegistry_blind h).bind fun result => ?_
  split
  · exact blind_pure _
  · refine blind_state.bind fun n => ?_
    split
    · exact blind_pure _
    · exact blind_pure _

theorem answerPins_blind {a : Operation Pins (Except Error Unit)} (h : a.Blind) :
    (answerPins a).Blind := by
  refine (onPins_blind h).bind fun result => ?_
  split
  · exact blind_pure _
  · exact blind_pure _

theorem setOverride_blind (s a port : Bytes) (r : AdminRequest) :
    (setOverride p now s a port r).Blind := by
  unfold setOverride
  split
  · exact blind_pure _
  · split
    · exact blind_pure _
    · split
      · exact blind_pure _
      · exact changed_blind (Registry.setOverride_blind _ _ _ _)

theorem clearOverride_blind (s a port : Bytes) : (clearOverride p now s a port).Blind := by
  unfold clearOverride
  split
  · exact blind_pure _
  · exact changed_blind (Registry.clearOverride_blind _)

theorem revoke_blind (agentId : Bytes) (r : AdminRequest) : (revoke now agentId r).Blind := by
  unfold revoke
  split
  · exact blind_pure _
  · split
    · exact blind_pure _
    · split
      · exact blind_pure _
      · exact answerPins_blind (Pins.revoke_blind _ _)

theorem unpin_blind (agentId : Bytes) : (unpin agentId).Blind := by
  unfold unpin
  split
  · exact blind_pure _
  · exact answerPins_blind (Pins.unpin_blind _)

theorem answer_blind {route : Route} {r : AdminRequest} {a : Operation NodeState AdminResponse}
    (h : answer? p now ctx route r = some a) : a.Blind := by
  unfold answer? at h
  split at h <;> cases h
  · exact blind_pure _
  · exact blind_state.reply _
  · exact blind_state.reply _
  · exact setOverride_blind _ _ _ _
  · exact clearOverride_blind _ _ _
  · exact (onRegistry_blind (Validator.sweep_blind _ _)).reply _
  · exact blind_state.reply _
  · exact revoke_blind _ _
  · exact unpin_blind _
  · exact blind_state.reply _

theorem serve_blind (r : AdminRequest) : (serve p now ctx r).Blind := by
  unfold serve
  split
  · exact blind_pure _
  · dsimp only
    split
    · exact blind_pure _
    · next h => exact (answer_blind h).reply _

end Admin

namespace Node

variable {α : Type} {a : Operation NodeState α}

theorem performAmid_eq (h : a.Blind) (meanwhile : Nat → Archive → Archive) (n : Node) :
    n.performAmid meanwhile a =
      let o := a n.state
      let k := if n.storage.isPresent then Keeper.takeAll o.effects.writes ⟨n.archive, [], meanwhile⟩
        else ⟨n.archive, [], meanwhile⟩
      (o.result, ⟨n.settings, o.state, k.archive.storage, k.archive.backendWrites,
        k.archive.pinWrites⟩, ⟨o.effects.changes, [], o.effects.log ++ k.log⟩) := by
  have kept := h true ⟨n.archive, [], meanwhile⟩ n.state
  unfold performAmid
  cases n.storage.isPresent with
  | true =>
    simp only [if_true, kept]
    rfl
  | false => simp [archive]

theorem perform_eq (h : a.Blind) (n : Node) :
    n.perform a =
      let o := a n.state
      let q := if n.storage.isPresent then n.archive.queueAll o.effects.writes else (n.archive, [])
      (o.result, ⟨n.settings, o.state, q.1.storage, q.1.backendWrites, q.1.pinWrites⟩,
        ⟨o.effects.changes, [], o.effects.log ++ q.2⟩) := by
  rw [perform, performAmid_eq h]
  cases n.storage.isPresent with
  | true => simp [Keeper.takeAll_undisturbed]
  | false => rfl

theorem performAmid_state (h : a.Blind) (meanwhile : Nat → Archive → Archive) (n : Node) :
    (n.performAmid meanwhile a).2.1.state = (a n.state).state := by rw [performAmid_eq h]

theorem perform_state (h : a.Blind) (n : Node) : (n.perform a).2.1.state = (a n.state).state :=
  performAmid_state h _ n

theorem performAmid_settings (h : a.Blind) (meanwhile : Nat → Archive → Archive) (n : Node) :
    (n.performAmid meanwhile a).2.1.settings = n.settings := by rw [performAmid_eq h]

theorem loadBackends_blind (n : Node) (now : Instant) : (n.loadBackends now).Blind :=
  onRegistry_blind (Loader.load_blind _)

theorem loadPins_blind (n : Node) : n.loadPins.Blind := onPins_blind (Loader.load_blind _)

end Node

end HealthConsensus
