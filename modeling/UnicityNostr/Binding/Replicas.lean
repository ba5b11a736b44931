import UnicityNostr.Binding.Resolution
import UnicityNostr.Client.Multi.Union

/-!
# Resolution over incomplete relays

No relay needs to have all bindings of a nametag: relays replace earlier bindings of an
author by later ones, miss some, or fail. As far as one of them serves the current
binding of every author, the nametag resolves as with the whole history.

* `resolveFiltered_of_cofinal`: earlier bindings of an author can be left out;
* `resolve_over_relays`: resolution over the union of what several relays serve.
-/

namespace UnicityNostr.Binding

variable {C : Crates} {events history : List Event} {incl : Event → Bool}

/-- The selection does not change if events are left out in whose place a later one of
    the same author remains. -/
theorem resolveFiltered_of_cofinal (hsub : ∀ e ∈ events, e ∈ history)
    (hcof : ∀ e ∈ history, incl e = true → ∃ e' ∈ events, incl e' = true ∧
      e'.pubkey = e.pubkey ∧ e.createdAt ≤ e'.createdAt)
    (hties : NoTies history incl) :
    resolveFiltered events incl = resolveFiltered history incl := by
  refine Option.ext fun e => ?_
  rw [resolveFiltered_eq_some_iff_elected, resolveFiltered_eq_some_iff_elected]
  refine Latest.wins_congr (Latest.current_congr_of_cofinal (fun x hx => ?_) (fun x hx => ?_) ?_)
  · obtain ⟨hx, hincl⟩ := List.mem_filter.1 hx
    exact List.mem_filter.2 ⟨hsub x hx, hincl⟩
  · obtain ⟨hx, hincl⟩ := List.mem_filter.1 hx
    obtain ⟨y, hy, hyi, hkey, hle⟩ := hcof x hx hincl
    exact ⟨y, List.mem_filter.2 ⟨hy, hyi⟩, hkey, Int64.le_iff_toInt_le.1 hle⟩
  · intro x hx y hy hkey hdate hmax
    obtain ⟨hx, hxi⟩ := List.mem_filter.1 hx
    obtain ⟨hy, hyi⟩ := List.mem_filter.1 hy
    refine hties x hx y hy hxi hyi hkey (Int64.toInt_inj.1 hdate) fun z hz hzi hzk => ?_
    exact Int64.le_iff_toInt_le.2 (hmax z (List.mem_filter.2 ⟨hz, hzi⟩) hzk)

section Relays

variable {σ : Type} [RelayConnection σ] [Clock σ] {filter : Filter} {idle : Duration}
  {clients : List (RelayClient σ)} {outcome : RelayClient σ → Result (List Event)}

/-- The relays serve events of the history only, and for every event that counts for the
    nametag one of them serves it or a later one of its author that counts as well. -/
structure Covers (C : Crates) (nametagId : String) (history : List Event)
    (clients : List (RelayClient σ)) (outcome : RelayClient σ → Result (List Event)) : Prop where
  serves : ∀ client ∈ clients, ∀ out, outcome client = .ok out → ∀ e ∈ out, e ∈ history
  covers : ∀ e ∈ history, countsFor C nametagId e = true → ∃ client ∈ clients, ∃ out,
    outcome client = .ok out ∧ ∃ e' ∈ out, countsFor C nametagId e' = true ∧
      e'.pubkey = e.pubkey ∧ e.createdAt ≤ e'.createdAt

/-- Over several relays of which some fail and others have replaced, pruned or missed
    events, a nametag resolves as over the whole history of its bindings, as far as they
    cover it and serve no two events under one id. -/
theorem resolve_over_relays {nametagId : String}
    (hends : ∀ client ∈ clients, ∃ client',
      RelayClient.QueryEnds C filter idle client (outcome client) client')
    (hids : ∀ e ∈ MultiRelayClient.contributions outcome clients,
      ∀ e' ∈ MultiRelayClient.contributions outcome clients, e.id = e'.id → e = e')
    (hcovers : Covers C nametagId history clients outcome)
    (hties : NoTies history (countsFor C nametagId)) :
    ∃ out, MultiRelayClient.QueryEnds C filter idle { clients } out ∧
      resolveNametagOwner C out nametagId = resolveNametagOwner C history nametagId := by
  have hhistory : ∀ e ∈ MultiRelayClient.contributions outcome clients, e ∈ history := by
    intro e he
    obtain ⟨client, hclient, he⟩ := List.mem_flatMap.1 he
    cases hout : outcome client with
    | error e' =>
      rw [hout] at he
      cases he
    | ok out =>
      rw [hout] at he
      exact hcovers.serves client hclient out hout e he
  refine ⟨_, (MultiRelayClient.queryEnds_iff hends _).2 rfl, resolveFiltered_of_cofinal
    (fun e he => hhistory e ((firsts_sublist _).subset he)) (fun e he hcount => ?_) hties⟩
  obtain ⟨client, hclient, out, hout, e', he', hcount', hkey, hle⟩ := hcovers.covers e he hcount
  -- The first event with the id of the later one is that one.
  have hcontributed : e' ∈ MultiRelayClient.contributions outcome clients :=
    List.mem_flatMap.2 ⟨client, hclient, by rw [hout]; exact he'⟩
  obtain ⟨e'', he'', hid⟩ := List.mem_map.1 (mem_map_firsts.2
    (List.mem_map_of_mem (f := Event.id) hcontributed))
  obtain rfl := hids e'' ((firsts_sublist _).subset he'') e' hcontributed hid
  exact ⟨e'', he'', hcount', hkey, hle⟩

/-- One relay fails and another one has replaced a binding of `alice` by a later one. -/
theorem resolve_over_relays_alice :
    ∃ (e₁ e₂ : Event) (clients : List (RelayClient Script)) (out : List Event),
      e₁ ≠ e₂ ∧ clients.length = 2 ∧
      MultiRelayClient.QueryEnds Reference.crates {} 5 { clients } out ∧
      resolveNametagOwner Reference.crates out "alice" =
        resolveNametagOwner Reference.crates [e₁, e₂] "alice" := by
  obtain ⟨e₁, h₁⟩ : ∃ e, e = Reference.binding Reference.one "DIRECT://one" 5 := ⟨_, rfl⟩
  obtain ⟨e₂, h₂⟩ : ∃ e, e = Reference.binding Reference.one "DIRECT://two" 6 := ⟨_, rfl⟩
  have hdate : e₁.createdAt < e₂.createdAt := by
    rw [h₁, h₂, Reference.binding_createdAt, Reference.binding_createdAt]
    decide
  have hpub : e₂.pubkey = e₁.pubkey := by
    rw [h₁, h₂, Reference.binding_pubkey, Reference.binding_pubkey]
  have hcount : countsFor Reference.crates "alice" e₂ = true := by
    rw [h₂]
    exact Reference.countsFor_binding _ (by decide) _
  have hverify : e₂.verify Reference.crates = true := h₂ ▸ Reference.verify_binding _ _ _
  obtain ⟨text, hp⟩ : ∃ text, parseRelayMessage Reference.crates text = .event "q1" e₂ :=
    exists_text Reference.json_roundTrips (by simp)
  let failing := MultiRelayClient.scriptClient [.error .utf8]
  let serving := MultiRelayClient.scriptClient [.ok (some text)]
  have hends : ∀ client ∈ [failing, serving], ∃ client', RelayClient.QueryEnds Reference.crates {}
      5 client (MultiRelayClient.scriptOutcome e₂ client) client' := by
    simp only [List.mem_cons, List.not_mem_nil, or_false]
    rintro client (rfl | rfl)
    · exact ⟨_, 1, rfl⟩
    · exact MultiRelayClient.queryEnds_scriptClient hp hverify
  have hserved : MultiRelayClient.contributions (MultiRelayClient.scriptOutcome e₂)
      [failing, serving] = [e₂] := rfl
  have hcovers : Covers Reference.crates "alice" [e₁, e₂] [failing, serving]
      (MultiRelayClient.scriptOutcome e₂) := by
    refine ⟨fun client hclient out hout e he => ?_, fun e he _ => ?_⟩
    · have hcontributed : e ∈ MultiRelayClient.contributions (MultiRelayClient.scriptOutcome e₂)
          [failing, serving] := List.mem_flatMap.2 ⟨client, hclient, by rw [hout]; exact he⟩
      rw [hserved] at hcontributed
      exact List.mem_cons_of_mem _ hcontributed
    · refine ⟨serving, by simp, [e₂], rfl, e₂, List.mem_singleton_self _, hcount, ?_⟩
      rcases List.mem_cons.1 he with rfl | he
      · exact ⟨hpub, Int64.le_of_lt hdate⟩
      · obtain rfl := List.mem_singleton.1 he
        exact ⟨rfl, Int64.le_refl _⟩
  obtain ⟨out, hquery, hresolve⟩ := resolve_over_relays hends
    (by rw [hserved]; simp) hcovers (noTies_pair (fun h => by simp [h] at hdate) _)
  refine ⟨e₁, e₂, [failing, serving], out, fun h => ?_, rfl, hquery, hresolve⟩
  rw [h] at hdate
  exact Int64.lt_irrefl hdate

end Relays

end UnicityNostr.Binding
