import Std.Data.TreeSet
import UnicityNostr.Client

/-!
# The client of several relays

A client that fans out over several relays, one after another: it publishes to all
of them, merges the results of a query, and opens a subscription on each.

* `broadcast`, `query`: a relay that fails is passed over;
* `subscribe`: the first relay that fails ends it.
-/

namespace UnicityNostr

/-- The text of an error. -/
def Error.display : Error → String
  | .invalidLength what => "invalid length: " ++ what
  | .secp what => "secp256k1 error: " ++ what
  | .decrypt what => "decryption failed: " ++ what
  | .padding what => "invalid nip44 padding: " ++ what
  | .decode what => "decode error: " ++ what
  | .malformed what => "malformed payload: " ++ what
  | .gzip what => "gzip error: " ++ what
  | .utf8 => "invalid utf-8 in plaintext"

/-- Opens the connection to a relay. -/
class Transport (τ : Type) (σ : outParam Type) where
  connect : τ → String → Result σ

/-- The outcome of publishing to a relay. -/
structure PublishOutcome where
  url : String
  result : Except String (Bool × String)

/-- A client fanning out over several relays. -/
structure MultiRelayClient (σ : Type) where
  clients : List (RelayClient σ)

namespace MultiRelayClient

variable {σ : Type}

/-- Connecting to the relays. Those that cannot be connected to are reported. -/
def connect {τ : Type} [Transport τ σ] (transport : τ) (urls : List String) (signer : Signer) :
    MultiRelayClient σ × List (String × String) :=
  let (clients, errors) := urls.foldl (fun (clients, errors) url =>
    match Transport.connect transport url with
    | .ok conn => (clients ++ [RelayClient.new conn url signer], errors)
    | .error e => (clients, errors ++ [(url, e.display)])) ([], [])
  ({ clients }, errors)

def fromClients (clients : List (RelayClient σ)) : MultiRelayClient σ := { clients }

variable (C : Crates) [RelayConnection σ] [Clock σ]

/-- Publishing an event to every relay. -/
def broadcast (event : Event) (timeout : Duration) (multi : MultiRelayClient σ) :
    List PublishOutcome × MultiRelayClient σ :=
  let outcomes := multi.clients.map fun client =>
    let (result, client') := RelayClient.publish C event timeout client
    ({ url := client.url, result := result.mapError Error.display : PublishOutcome }, client')
  (outcomes.map Prod.fst, { clients := outcomes.map Prod.snd })

/-- The events merged so far, and the ids seen. -/
structure Merged where
  seen : Std.TreeSet String
  out : List Event

/-- An event is added if its id has not been seen. -/
def Merged.add (merged : Merged) (ev : Event) : Merged :=
  let (known, seen) := merged.seen.containsThenInsert ev.id
  { seen, out := if known then merged.out else merged.out ++ [ev] }

/-- Querying the relays and merging the results. There is no result if a query takes
    more than `rounds` rounds. -/
def queryAll (rounds : Nat) (filter : Filter) (idle : Duration) :
    List (RelayClient σ) → Merged → Option Merged × List (RelayClient σ)
  | [], merged => (some merged, [])
  | client :: clients, merged =>
    match RelayClient.query C rounds filter idle client with
    | (.ok (some events), client') =>
      (queryAll rounds filter idle clients (events.foldl Merged.add merged)).map id (client' :: ·)
    | (.ok none, client') => (none, client' :: clients)
    | (.error _, client') => (queryAll rounds filter idle clients merged).map id (client' :: ·)

/-- Querying every relay for the union of their events, the first one of each id. -/
def query (rounds : Nat) (filter : Filter) (idle : Duration) (multi : MultiRelayClient σ) :
    Option (List Event) × MultiRelayClient σ :=
  (queryAll C rounds filter idle multi.clients { seen := ∅, out := [] }).map
    (Option.map Merged.out) MultiRelayClient.mk

/-- Opening a subscription on the relays, as far as none fails. -/
def subscribeAll (subId : String) (filter : Filter) :
    List (RelayClient σ) → Result Unit × List (RelayClient σ)
  | [] => (.ok (), [])
  | client :: clients =>
    match RelayClient.subscribe C subId filter client with
    | (.ok (), client') => (subscribeAll subId filter clients).map id (client' :: ·)
    | (.error e, client') => (.error e, client' :: clients)

/-- Opening the same subscription on every relay. -/
def subscribe (subId : String) (filter : Filter) :
    Eff Error (MultiRelayClient σ) Unit := fun multi =>
  (subscribeAll C subId filter multi.clients).map id MultiRelayClient.mk

/-- Closing every connection. -/
def close (multi : MultiRelayClient σ) : List σ := multi.clients.map RelayClient.close

end MultiRelayClient

end UnicityNostr
