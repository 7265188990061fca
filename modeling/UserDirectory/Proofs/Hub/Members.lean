import UserDirectory.Proofs.Hub.Moves

/-!
# The members of the registries

A connection belongs to the registry that issued it from the moment at which it is registered. An
event either leaves all connections where they belong, and then members leave a registry or come in
another order, but none enters; or it enrolls a new connection (`Move.members`). So the members of a
registry are distinct connections that it issued, and a connection that has left never comes back.
-/

namespace UserDirectory.Hub

namespace System

/-! ## Registries that change -/

theorem members_congr {s s' : System} (h : s'.hubs = s.hubs) (hub : HubId) :
    s'.members hub = s.members hub := by
  unfold members
  rw [h]

theorem members_setMembers (s : System) (hub : HubId)
    (f : List ConnectionId → List ConnectionId) (other : HubId) :
    (s.setMembers hub f).members other =
      if other = hub ∧ hub < s.hubs.length then f (s.members other) else s.members other := by
  simp only [members, setMembers, List.getElem?_modify]
  by_cases hhub : other = hub
  · subst hhub
    by_cases hlt : other < s.hubs.length
    · simp [hlt]
    · simp [hlt]
  · have hne : hub ≠ other := Ne.symm hhub
    cases s.hubs[other]? <;> simp [hhub, hne]

/-- A registry that is not there has no members, and gets none by being changed like this. -/
theorem members_setMembers_of_nil (s : System) (hub : HubId)
    {f : List ConnectionId → List ConnectionId} (hf : f [] = []) (other : HubId) :
    (s.setMembers hub f).members other =
      if other = hub then f (s.members other) else s.members other := by
  rw [members_setMembers]
  by_cases hlt : hub < s.hubs.length
  · simp only [hlt, and_true]
  · have hnone : s.members hub = [] := by simp [members, hlt]
    by_cases hhub : other = hub
    · simp [hhub, hlt, hnone, hf]
    · simp [hhub]

theorem mem_members_remove {s : System} {hub other : HubId} {c d : ConnectionId} :
    d ∈ (s.remove hub c).members other ↔ d ∈ s.members other ∧ (other = hub → d ≠ c) := by
  rw [remove, members_setMembers_of_nil s hub rfl]
  by_cases hhub : other = hub <;> simp [hhub]

theorem mem_members_clear {s : System} {hub other : HubId} {d : ConnectionId} :
    d ∈ (s.setMembers hub fun _ => []).members other ↔ d ∈ s.members other ∧ other ≠ hub := by
  rw [members_setMembers_of_nil s hub rfl]
  by_cases hhub : other = hub <;> simp [hhub]

theorem members_enroll (s : System) (hub other : HubId) :
    (s.enroll hub).members other =
      if other = hub ∧ hub < s.hubs.length then s.members other ++ [s.connections.length]
      else s.members other :=
  members_setMembers ..

/-! ## Where a connection belongs -/

/-- The registry that issued a connection. -/
def home? (s : System) (c : ConnectionId) : Option HubId := s.connections[c]?.map (·.hub)

theorem home?_modify {s s' : System} {c : ConnectionId} {f : Connection → Connection}
    (h : s'.connections = s.connections.modify c f) (hf : ∀ conn, (f conn).hub = conn.hub)
    (d : ConnectionId) : s'.home? d = s.home? d := by
  unfold home?
  rw [h, List.getElem?_modify]
  by_cases hd : c = d <;> cases s.connections[d]? <;> simp [hd, hf]

theorem home?_length (s : System) : s.home? s.connections.length = none := by
  simp [home?]

theorem home?_enroll (s : System) (hub : HubId) (c : ConnectionId) :
    (s.enroll hub).home? c = if s.connections.length = c then some hub else s.home? c := by
  have hconns : (s.enroll hub).connections =
      s.connections ++ [{ hub, timeout := s.timeout hub }] := rfl
  unfold home?
  rw [hconns, List.getElem?_append]
  by_cases hlt : c < s.connections.length
  · rw [if_pos hlt, if_neg (Nat.ne_of_gt hlt)]
  · by_cases hc : s.connections.length = c
    · simp [hc]
    · have hgt : s.connections.length < c := Nat.lt_of_le_of_ne (Nat.le_of_not_lt hlt) hc
      have hnone : s.connections[c]? = none := List.getElem?_eq_none (Nat.le_of_lt hgt)
      rw [if_neg hlt, if_neg hc, hnone, List.getElem?_eq_none (by simp; omega)]

/-! ## One event -/

theorem Going.members {s s₁ : System} {op : Operation} {p p' : Progress}
    {asks : List (ConnectionId × Errand)} (h : Going s op p s₁ p' asks) :
    (s₁.connections = s.connections ∧ ∀ hub, (s₁.members hub).Sublist (s.members hub)) ∨
      ∃ hub, s₁ = s.enroll hub := by
  have hremove (hub : HubId) (c : ConnectionId) (other : HubId) :
      ((s.remove hub c).members other).Sublist (s.members other) := by
    rw [remove, members_setMembers_of_nil s hub rfl]
    split
    · exact List.filter_sublist
    · exact .refl _
  cases h with
  | register hub => exact .inr ⟨hub, rfl⟩
  | unregister | prune | dismiss => exact .inl ⟨rfl, hremove _ _⟩
  | closeAll hub =>
    refine .inl ⟨rfl, fun other => ?_⟩
    rw [members_setMembers_of_nil s hub rfl]
    split
    · exact List.nil_sublist _
    · exact .refl _
  | broadcastNone | broadcast | sendTo | closeNone | contains | count | reviewed | reviewOk
  | reviewClosed => exact .inl ⟨rfl, fun _ => .refl _⟩

/-- **Members leave or come in another order, or a new connection is enrolled.** -/
theorem Move.members {s s' : System} {e : Event} (h : s.Move e s') :
    ((∀ c, s'.home? c = s.home? c) ∧
      ∀ hub, ∃ l, l.Sublist (s.members hub) ∧ (s'.members hub).Perm l) ∨
    ∃ hub, s'.hubs = (s.enroll hub).hubs ∧ s'.connections = (s.enroll hub).connections := by
  have hsame (hub : HubId) : ∃ l, l.Sublist (s.members hub) ∧ (s.members hub).Perm l :=
    ⟨_, .refl _, .refl _⟩
  cases h with
  | start | pass => exact .inl ⟨fun _ => rfl, hsame⟩
  | ask | passOver | call | answer => exact .inl ⟨home?_modify rfl fun _ => rfl, hsame⟩
  | @go t task s₁ p asks htask hasks hgoing =>
    obtain ⟨hconns, hsub⟩ | ⟨hub, rfl⟩ := hgoing.members
    · refine .inl ⟨fun c => ?_, fun hub => ⟨_, hsub hub, .refl _⟩⟩
      simp [home?, hconns]
    · exact .inr ⟨hub, rfl, rfl⟩
  | @rearrange hub members hperm =>
    refine .inl ⟨fun _ => rfl, fun other => ⟨_, .refl _, ?_⟩⟩
    rw [members_setMembers]
    split
    · rename_i h
      exact h.1 ▸ hperm
    · exact .refl _

/-- A task that has begun adds nobody. -/
theorem Going.members_of_begun {s s₁ : System} {op : Operation} {p p' : Progress}
    {asks : List (ConnectionId × Errand)} (h : Going s op p s₁ p' asks) (hp : p ≠ .starting) :
    s₁.connections = s.connections ∧
      ∀ hub d, d ∈ s₁.members hub → d ∈ s.members hub := by
  cases h with
  | register | unregister | broadcastNone | broadcast | sendTo | closeNone | closeAll | contains
  | count => exact absurd rfl hp
  | reviewed | reviewOk | reviewClosed => exact ⟨rfl, fun _ _ => id⟩
  | prune | dismiss => exact ⟨rfl, fun _ _ hd => (mem_members_remove.mp hd).1⟩

theorem Going.length_hubs {s s₁ : System} {op : Operation} {p p' : Progress}
    {asks : List (ConnectionId × Errand)} (h : Going s op p s₁ p' asks) :
    s₁.hubs.length = s.hubs.length := by
  cases h <;> simp [remove, enroll, setMembers]

theorem Move.length_hubs {s s' : System} {e : Event} (h : s.Move e s') :
    s'.hubs.length = s.hubs.length := by
  cases h with
  | go _ _ hgoing => exact hgoing.length_hubs
  | rearrange => simp [setMembers]
  | start | pass | ask | passOver | call | answer => rfl

section Enrolled

variable {s s' : System} {e : Event} {hub : HubId} {c : ConnectionId}

/-- A connection belongs to one registry for good. -/
theorem Move.home? (h : s.Move e s') (hc : s.home? c = some hub) : s'.home? c = some hub := by
  obtain ⟨hhome, -⟩ | ⟨hub', -, hconns⟩ := h.members
  · exact (hhome c).trans hc
  · have hne : s.connections.length ≠ c := fun heq => by
      rw [← heq, home?_length] at hc
      cases hc
    calc s'.home? c = (s.enroll hub').home? c := by simp only [System.home?, hconns]
      _ = some hub := by rw [home?_enroll, if_neg hne, hc]

/-- Who is a member now was one before, or has just been registered. -/
theorem Move.mem_members (h : s.Move e s') (hc : c ∈ s'.members hub) :
    c ∈ s.members hub ∨ s.home? c = none ∧ s'.home? c = some hub := by
  obtain ⟨-, hmembers⟩ | ⟨hub', hhubs, hconns⟩ := h.members
  · obtain ⟨l, hsub, hperm⟩ := hmembers hub
    exact .inl (hsub.subset (hperm.mem_iff.mp hc))
  · rw [members_congr hhubs, members_enroll] at hc
    split at hc
    · rename_i hhub
      obtain ⟨rfl, -⟩ := hhub
      refine (List.mem_append.mp hc).imp_right fun hnew => ?_
      obtain rfl := List.mem_singleton.mp hnew
      refine ⟨s.home?_length, ?_⟩
      calc s'.home? s.connections.length = (s.enroll hub).home? s.connections.length := by
            simp only [System.home?, hconns]
        _ = some hub := by rw [home?_enroll, if_pos rfl]
    · exact .inl hc

/-- Who is registered enters. -/
theorem Move.enters (h : s.Move e s') (hhub : hub < s.hubs.length) (hnone : s.home? c = none)
    (hc : s'.home? c = some hub) : c ∈ s'.members hub := by
  obtain ⟨hhome, -⟩ | ⟨hub', hhubs, hconns⟩ := h.members
  · -- nobody was registered
    rw [hhome c, hnone] at hc
    cases hc
  · have hc' : (s.enroll hub').home? c = some hub := by
      simpa only [System.home?, hconns] using hc
    rw [home?_enroll] at hc'
    split at hc'
    · rename_i hnew
      obtain rfl := Option.some.inj hc'
      rw [members_congr hhubs, members_enroll, if_pos ⟨rfl, hhub⟩, hnew]
      exact List.mem_append_right _ (List.mem_singleton_self _)
    · rw [hnone] at hc'
      cases hc'

/-- **A connection that has left never comes back.** -/
theorem Move.not_mem_members (h : s.Move e s') {home : HubId} (hc : s.home? c = some home)
    (hleft : c ∉ s.members hub) : c ∉ s'.members hub := fun hc' => by
  obtain hmem | ⟨hnone, -⟩ := h.mem_members hc'
  · exact hleft hmem
  · rw [hc] at hnone
    cases hnone

end Enrolled

/-! ## Who is registered -/

/-- The members of a registry are distinct connections that it issued. -/
structure Registered (s : System) : Prop where
  nodup : ∀ hub, (s.members hub).Nodup
  home : ∀ {hub : HubId} {c : ConnectionId}, c ∈ s.members hub → s.home? c = some hub

theorem registered_init (timeouts : List Time.Duration) : (init timeouts).Registered := by
  have hnone : ∀ hub, (init timeouts).members hub = [] := by
    intro hub
    simp only [members, init, List.getElem?_map]
    cases timeouts[hub]? <;> rfl
  refine ⟨fun hub => ?_, fun {hub c} hc => ?_⟩
  · rw [hnone]
    exact .nil
  · rw [hnone] at hc
    cases hc

theorem registered_move {s s' : System} {e : Event} (h : s.Registered) (hm : s.Move e s') :
    s'.Registered where
  nodup hub := by
    obtain ⟨-, hmembers⟩ | ⟨hub', hhubs, -⟩ := hm.members
    · obtain ⟨l, hsub, hperm⟩ := hmembers hub
      exact hperm.nodup_iff.mpr (hsub.nodup (h.nodup hub))
    · have hfresh : s.connections.length ∉ s.members hub := fun hmem => by
        have hnone := h.home hmem
        rw [home?_length] at hnone
        cases hnone
      rw [members_congr hhubs, members_enroll]
      split
      · exact List.nodup_append.mpr ⟨h.nodup hub, List.nodup_cons.mpr ⟨List.not_mem_nil, .nil⟩,
          fun a ha b hb => by
            obtain rfl := List.mem_singleton.mp hb
            exact fun heq => hfresh (heq ▸ ha)⟩
      · exact h.nodup hub
  home {hub c} hc := by
    obtain hmem | ⟨-, hhome⟩ := hm.mem_members hc
    · exact hm.home? (h.home hmem)
    · exact hhome

end System

end UserDirectory.Hub
