import HealthConsensus.Proofs.Loading
import HealthConsensus.Proofs.Registry.Calls

namespace HealthConsensus

structure RegistryStep where
  now : Instant
  order : Table.Arrangement BackendKey Backend
  call : RegistryCall

namespace Registry

open Operation

def defaultPolicy : RegistryPolicy := ({} : RegistrySettings).policy

def atSecond (n : Nat) : Instant := Instant.epoch.advance (.ofSeconds n)

def step (p : RegistryPolicy) (s : RegistryStep) : Operation Registry Unit := do
  Operation.modify s.order.arrange
  let _ ← s.call.operation p s.now

def history (p : RegistryPolicy) (steps : List RegistryStep) : Operation Registry Unit :=
  forEach steps (step p)

inductive Initial (p : RegistryPolicy) : Registry → Prop
  | empty : Initial p .empty
  | loaded (now : Instant) (listing : Option (Except Error (List (String × Bytes)))) :
      Initial p (load p now listing .empty).state

variable {p : RegistryPolicy} {r : Registry}

theorem arrange_traced (kinds : Move Backend → Prop)
    (order : Table.Arrangement BackendKey Backend) (r : Registry) :
    (Operation.modify order.arrange).Obeys (Traced kinds) r := fun _ =>
  ⟨[], by simp, by simpa [order.view_arrange] using Path.nil r.view, rfl, rfl⟩

theorem step_traced (s : RegistryStep) (r : Registry) :
    (step p s).Obeys (Traced (s.call.Makes p s.now)) r :=
  (traced_law _).bind (arrange_traced _ s.order r)
    ((traced_law _).bind (s.call.operation_traced p s.now _) ((traced_law _).pure _ _))

theorem history_traced (steps : List RegistryStep) (r : Registry) :
    (history p steps).Obeys (Traced fun m => ∃ s ∈ steps, s.call.Makes p s.now m) r :=
  (traced_law _).forEach
    (fun s hs r => (step_traced s r).mono fun _ _ _ h => h.mono fun _ hm => ⟨s, hs, hm⟩) r

theorem Initial.keyed (h : Initial p r) : r.Keyed := by
  cases h with
  | empty => exact Table.keyed_empty
  | loaded now listing => exact Loader.load_keyed rfl listing Table.keyed_empty

end Registry

end HealthConsensus
