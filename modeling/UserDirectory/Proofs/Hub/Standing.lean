import UserDirectory.Proofs.Hub.Errands

/-!
# How the tasks stand

`Standing` says for each point that an operation can reach what its task owes there, what came of
its writes, and which connections it has closed: a broadcast that still writes owes exactly the
writes that have not ended; one that reviews its results owes nothing, and each connection whose
write failed is either still to be reviewed or closed; and an operation that has ended owes nothing
and has closed all that it had to close.

By `Advance` an event does four things to a task, and in each of them `Standing` carries over.
`Sound` puts this together with the grammar of each connection (`Lawful`) and with the registries,
and holds in every system that a run leads to.
-/

namespace UserDirectory.Hub

/-- How many writes succeeded. -/
def okCount (results : List (ConnectionId × Sent)) : Nat := results.countP (·.2 == .ok)

/-- A write on the connection failed or was cut off. -/
def Lost (results : List (ConnectionId × Sent)) (c : ConnectionId) : Prop :=
  ∃ reason, (c, .failed (.write reason)) ∈ results

theorem Lost.cons {results : List (ConnectionId × Sent)} {c : ConnectionId}
    {x : ConnectionId × Sent} (h : Lost (x :: results) c) :
    Lost results c ∨ ∃ reason, x = (c, .failed (.write reason)) := by
  obtain ⟨reason, hmem⟩ := h
  cases hmem with
  | head => exact .inr ⟨reason, rfl⟩
  | tail _ hmem => exact .inl ⟨reason, hmem⟩

theorem Lost.perm {results results' : List (ConnectionId × Sent)} {c : ConnectionId}
    (hperm : results.Perm results') (h : Lost results c) : Lost results' c :=
  h.imp fun _ => hperm.mem_iff.mp

/-- What is looked up by connection is found, if no connection comes twice. -/
theorem find?_of_nodup {ended : List (ConnectionId × Sent)} (hnodup : (ended.map Prod.fst).Nodup)
    {x : ConnectionId × Sent} (hx : x ∈ ended) : ended.find? (·.1 == x.1) = some x := by
  induction ended with
  | nil => cases hx
  | cons y ys ih =>
    rw [List.map_cons, List.nodup_cons] at hnodup
    obtain rfl | hx := List.mem_cons.mp hx
    · simp
    · have hne : y.1 ≠ x.1 := fun heq => hnodup.1 (List.mem_map.mpr ⟨x, hx, heq.symm⟩)
      rw [List.find?_cons_of_neg (by simpa using hne)]
      exact ih hnodup.2 hx

/-- Results that are looked up by connection, each for one that has ended, are all there. -/
theorem collected_perm {asked : List ConnectionId} {ended : List (ConnectionId × Sent)}
    (hperm : asked.Perm (ended.map Prod.fst)) (hnodup : (ended.map Prod.fst).Nodup) :
    (asked.filterMap fun a => ended.find? (·.1 == a)).Perm ended := by
  have hall : ∀ l : List (ConnectionId × Sent), (∀ x ∈ l, x ∈ ended) →
      (l.map Prod.fst).filterMap (fun a => ended.find? (·.1 == a)) = l := by
    intro l hl
    induction l with
    | nil => rfl
    | cons x l ih =>
      have hfound := find?_of_nodup hnodup (hl x (.head _))
      simp only [List.map_cons, List.filterMap_cons, hfound, ih fun y hy => hl y (.tail _ hy)]
  exact (hperm.filterMap _).trans (.of_eq (hall ended fun _ => id))

namespace System

/-! ## Points of an operation -/

/-- What an operation that has ended leaves behind. -/
inductive Settled (s : System) (t : TaskId) : Operation → Outcome → Prop
  | register (hub : HubId) (c : ConnectionId) (hresults : s.results t = []) :
      Settled s t (.register hub) (.registered c)
  | unregister (hub : HubId) {c : ConnectionId} (removed : Bool) (hresults : s.results t = [])
      (hshut : s.isShut c = true) : Settled s t (.unregister hub c) (.unregistered removed)
  | broadcast (hub : HubId) (payload : Octets) (except : Option ConnectionId) {delivered : Nat}
      (hcount : delivered = okCount (s.results t))
      (hshut : ∀ c, Lost (s.results t) c → s.isShut c = true) :
      Settled s t (.broadcast hub payload except) (.broadcast delivered)
  | sendTo (hub : HubId) {c : ConnectionId} (payload : Octets) {result : Sent}
      (hresults : s.results t = [(c, result)])
      (hshut : ∀ reason, result = .failed (.write reason) → s.isShut c = true) :
      Settled s t (.sendTo hub c payload) (.sent result)
  | closeAll (hub : HubId) (hresults : s.results t = []) : Settled s t (.closeAll hub) .closedAll
  | contains (hub : HubId) (c : ConnectionId) (member : Bool) (hresults : s.results t = []) :
      Settled s t (.contains hub c) (.found member)
  | count (hub : HubId) (members : Nat) (hresults : s.results t = []) :
      Settled s t (.count hub) (.counted members)

/-- How a task stands at each point of its operation. -/
inductive Standing (s : System) (t : TaskId) : Operation → Progress → Prop
  | starting (op : Operation) (howing : s.owing t = []) (hresults : s.results t = []) :
      Standing s t op .starting
  | writing {hub : HubId} {payload : Octets} (except : Option ConnectionId)
      {asked : List ConnectionId} {ended : List (ConnectionId × Sent)}
      (hresults : s.results t = ended)
      (hshare : (asked.map (·, Errand.send payload)).Perm
        (ended.map (fun r => (r.1, Errand.send payload)) ++ s.owing t)) :
      Standing s t (.broadcast hub payload except) (.writing hub asked ended)
  | reviewing {hub : HubId} (payload : Octets) (except : Option ConnectionId)
      {results : List (ConnectionId × Sent)} {delivered : Nat}
      (howing : s.owing t = []) (hsub : ∀ x ∈ results, x ∈ s.results t)
      (hcount : delivered + okCount results = okCount (s.results t))
      (hshut : ∀ c, Lost (s.results t) c → Lost results c ∨ s.isShut c = true) :
      Standing s t (.broadcast hub payload except) (.reviewing hub results delivered)
  | pruning {hub : HubId} (payload : Octets) (except : Option ConnectionId)
      {results : List (ConnectionId × Sent)} {delivered : Nat} {c : ConnectionId}
      (howing : s.owing t = [(c, .close)]) (hsub : ∀ x ∈ results, x ∈ s.results t)
      (hcount : delivered + okCount results = okCount (s.results t))
      (hshut : ∀ d, Lost (s.results t) d → Lost results d ∨ s.isShut d = true ∨ d = c) :
      Standing s t (.broadcast hub payload except) (.pruning hub results delivered)
  | sending {hub : HubId} {c : ConnectionId} {payload : Octets}
      (howing : s.owing t = [(c, .send payload)]) (hresults : s.results t = []) :
      Standing s t (.sendTo hub c payload) (.sending hub c)
  | failed {hub : HubId} {c : ConnectionId} (payload : Octets) {reason : String}
      (howing : s.owing t = []) (hresults : s.results t = [(c, .failed (.write reason))]) :
      Standing s t (.sendTo hub c payload) (.failed hub c (.write reason))
  | dismissing (hub : HubId) {c : ConnectionId} (payload : Octets) {reason : String}
      (howing : s.owing t = [(c, .close)])
      (hresults : s.results t = [(c, .failed (.write reason))]) :
      Standing s t (.sendTo hub c payload) (.dismissing (.write reason))
  | leaving (hub : HubId) {c : ConnectionId} (removed : Bool)
      (howing : s.owing t = [(c, .close)]) (hresults : s.results t = []) :
      Standing s t (.unregister hub c) (.leaving removed)
  | closingAll (hub : HubId) {left : Nat} (hleft : (s.owing t).length = left)
      (howing : ∀ x ∈ s.owing t, x.2 = .close) (hresults : s.results t = []) :
      Standing s t (.closeAll hub) (.closingAll left)
  | finished {op : Operation} {outcome : Outcome} (howing : s.owing t = [])
      (hsettled : Settled s t op outcome) : Standing s t op (.finished outcome)

section Carry

variable {s s' : System} {t : TaskId} {op : Operation} {p : Progress}

theorem Settled.frame {outcome : Outcome} (h : Settled s t op outcome)
    (hresults : s'.results t = s.results t)
    (hkept : ∀ c, s.isShut c = true → s'.isShut c = true) : Settled s' t op outcome := by
  cases h with
  | register hub c hr => exact .register hub c (hresults.trans hr)
  | unregister hub removed hr hshut =>
    exact .unregister hub removed (hresults.trans hr) (hkept _ hshut)
  | broadcast hub payload except hcount hshut =>
    rw [← hresults] at hcount hshut
    exact .broadcast hub payload except hcount fun c hc => hkept c (hshut c hc)
  | sendTo hub payload hr hshut =>
    exact .sendTo hub payload (hresults.trans hr) fun reason h => hkept _ (hshut reason h)
  | closeAll hub hr => exact .closeAll hub (hresults.trans hr)
  | contains hub c member hr => exact .contains hub c member (hresults.trans hr)
  | count hub members hr => exact .count hub members (hresults.trans hr)

/-- A task of which nothing is changed but the order of what it owes stands as before. -/
theorem Standing.frame (h : Standing s t op p) (hperm : (s'.owing t).Perm (s.owing t))
    (hresults : s'.results t = s.results t)
    (hkept : ∀ c, s.isShut c = true → s'.isShut c = true) : Standing s' t op p := by
  cases h with
  | starting op howing hr =>
    exact .starting op (howing ▸ hperm).eq_nil (hresults.trans hr)
  | writing except hr hshare =>
    exact .writing except (hresults.trans hr) (hshare.trans (hperm.symm.append_left _))
  | reviewing payload except howing hsub hcount hshut =>
    rw [← hresults] at hsub hcount hshut
    exact .reviewing payload except (howing ▸ hperm).eq_nil hsub hcount fun c hc =>
      (hshut c hc).imp_right (hkept c)
  | pruning payload except howing hsub hcount hshut =>
    rw [← hresults] at hsub hcount hshut
    exact .pruning payload except (List.perm_singleton.mp (howing ▸ hperm)) hsub hcount
      fun d hd => (hshut d hd).imp_right (Or.imp_left (hkept d))
  | sending howing hr =>
    exact .sending (List.perm_singleton.mp (howing ▸ hperm)) (hresults.trans hr)
  | failed payload howing hr =>
    exact .failed payload (howing ▸ hperm).eq_nil (hresults.trans hr)
  | dismissing hub payload howing hr =>
    exact .dismissing hub payload (List.perm_singleton.mp (howing ▸ hperm)) (hresults.trans hr)
  | leaving hub removed howing hr =>
    exact .leaving hub removed (List.perm_singleton.mp (howing ▸ hperm)) (hresults.trans hr)
  | closingAll hub hleft howing hr =>
    exact .closingAll hub (hperm.length_eq.trans hleft) (fun x hx => howing x (hperm.mem_iff.mp hx))
      (hresults.trans hr)
  | finished howing hsettled =>
    exact .finished (howing ▸ hperm).eq_nil (hsettled.frame hresults hkept)

/-- A task that has taken its first step. -/
theorem Standing.of_begun {p' : Progress} {s₁ : System} {asks : List (ConnectionId × Errand)}
    (hgoing : Going s op .starting s₁ p' asks) (howing : s'.owing t = asks)
    (hresults : s'.results t = []) : Standing s' t op p' := by
  cases hgoing with
  | register hub => exact .finished howing (.register hub _ hresults)
  | unregister hub c => exact .leaving hub _ howing hresults
  | broadcastNone =>
    refine .finished howing (.broadcast _ _ _ ?_ ?_)
    · rw [hresults]; rfl
    · rintro c ⟨reason, hmem⟩
      rw [hresults] at hmem
      cases hmem
  | broadcast => exact .writing _ hresults (.of_eq (by rw [howing]; rfl))
  | sendTo hub c payload => exact .sending howing hresults
  | closeNone => exact .finished howing (.closeAll _ hresults)
  | closeAll hub =>
    refine .closingAll hub (by rw [howing, List.length_map]) ?_ hresults
    intro x hx
    rw [howing] at hx
    obtain ⟨c, -, rfl⟩ := List.mem_map.mp hx
    rfl
  | contains hub c => exact .finished howing (.contains hub c _ hresults)
  | count hub => exact .finished howing (.count hub _ hresults)

/-- A broadcast that has gone on to the next of its results. -/
theorem Standing.of_reviewed {hub : HubId} {payload : Octets} {except : Option ConnectionId}
    {results : List (ConnectionId × Sent)} {delivered : Nat} {p' : Progress} {s₁ : System}
    {asks : List (ConnectionId × Errand)}
    (hgoing : Going s (.broadcast hub payload except) (.reviewing hub results delivered) s₁ p' asks)
    (howing : s'.owing t = asks) (hsub : ∀ x ∈ results, x ∈ s'.results t)
    (hcount : delivered + okCount results = okCount (s'.results t))
    (hshut : ∀ c, Lost (s'.results t) c → Lost results c ∨ s'.isShut c = true) :
    Standing s' t (.broadcast hub payload except) p' := by
  have hrest {x : ConnectionId × Sent} {rest : List (ConnectionId × Sent)}
      (h : ∀ y ∈ x :: rest, y ∈ s'.results t) : ∀ y ∈ rest, y ∈ s'.results t :=
    fun y hy => h y (List.mem_cons_of_mem _ hy)
  cases hgoing with
  | reviewed =>
    refine .finished howing (.broadcast _ _ _ hcount fun c hc => ?_)
    refine (hshut c hc).resolve_left ?_
    rintro ⟨reason, hmem⟩
    cases hmem
  | reviewOk =>
    refine .reviewing payload except howing (hrest hsub) ?_ fun c hc => ?_
    · simp only [okCount, List.countP_cons] at hcount ⊢
      simpa [Nat.add_assoc, Nat.add_comm] using hcount
    · exact (hshut c hc).imp_left fun hlost => hlost.cons.resolve_right (by simp)
  | reviewClosed =>
    refine .reviewing payload except howing (hrest hsub) ?_ fun c hc => ?_
    · simpa [okCount] using hcount
    · exact (hshut c hc).imp_left fun hlost => hlost.cons.resolve_right (by simp)
  | prune _ _ c reason =>
    refine .pruning payload except howing (hrest hsub) ?_ fun d hd => ?_
    · simpa [okCount] using hcount
    · obtain hlost | hshut := hshut d hd
      · obtain hlost | ⟨reason', heq⟩ := hlost.cons
        · exact .inl hlost
        · exact .inr (.inr (congrArg Prod.fst heq).symm)
      · exact .inr (.inl hshut)

/-- A task that goes on by itself owes what it asks for, and nothing else. -/
theorem Standing.go {p' : Progress} {s₁ : System} {asks : List (ConnectionId × Errand)}
    (h : Standing s t op p) (hwent : Went s s' t op p s₁ p' asks)
    (hkept : ∀ c, s.isShut c = true → s'.isShut c = true) : Standing s' t op p' := by
  obtain ⟨hgoing, -, -, -, howing, howing', hresults⟩ := hwent
  rw [← howing] at howing'
  cases h with
  | starting op howed hr =>
    rw [howed, List.append_nil] at howing'
    exact .of_begun hgoing howing' (hresults.trans hr)
  | reviewing payload except howed hsub hcount hshut =>
    rw [howed, List.append_nil] at howing'
    rw [← hresults] at hsub hcount hshut
    exact .of_reviewed hgoing howing' hsub hcount fun c hc => (hshut c hc).imp_right (hkept c)
  | failed payload howed hr =>
    rw [howed, List.append_nil] at howing'
    cases hgoing with
    | dismiss => exact .dismissing _ payload howing' (hresults.trans hr)
  | writing | pruning | sending | dismissing | leaving | closingAll | finished => cases hgoing

/-- An errand of a broadcast that still writes is one of its writes. -/
theorem write_of_share {payload : Octets} {asked : List ConnectionId}
    {ended : List (ConnectionId × Sent)} {owing : List (ConnectionId × Errand)}
    (hshare : (asked.map (·, Errand.send payload)).Perm
      (ended.map (fun r => (r.1, Errand.send payload)) ++ owing))
    {x : ConnectionId × Errand} (hx : x ∈ owing) : x.1 ∈ asked ∧ x.2 = .send payload := by
  obtain ⟨a, ha, rfl⟩ := List.mem_map.mp (hshare.mem_iff.mpr (List.mem_append_right _ hx))
  exact ⟨ha, rfl⟩

/-- The results of a broadcast whose writes have all ended are what it goes on to review. -/
theorem Standing.of_all_ended {hub : HubId} {payload : Octets} {except : Option ConnectionId}
    {asked : List ConnectionId} (hreach : (s'.reach t).Nodup) (howing : s'.owing t = [])
    (hperm : asked.Perm ((s'.results t).map Prod.fst)) :
    Standing s' t (.broadcast hub payload except)
      (.reviewing hub (asked.filterMap fun a => (s'.results t).find? (·.1 == a)) 0) := by
  have hcollected : (asked.filterMap fun a => (s'.results t).find? (·.1 == a)).Perm
      (s'.results t) := by
    refine collected_perm hperm ?_
    simpa [reach, howing] using hreach
  refine .reviewing payload except howing (fun x hx => hcollected.mem_iff.mp hx) ?_ fun c hc => ?_
  · rw [Nat.zero_add]
    exact hcollected.countP_eq _
  · exact .inl (hc.perm hcollected.symm)

/-- A broadcast of which one write has ended. -/
theorem Standing.after_write {hub : HubId} {payload : Octets} {except : Option ConnectionId}
    {asked : List ConnectionId} {c : ConnectionId} {errand : Errand} {result : Sent}
    (hshare : (asked.map (·, Errand.send payload)).Perm
      ((s.results t).map (fun r => (r.1, Errand.send payload)) ++ s.owing t))
    (howing : (s.owing t).Perm ((c, errand) :: s'.owing t))
    (hresults : s'.results t = s.results t ++ ended c errand result)
    (hreach : (s'.reach t).Nodup) :
    Standing s' t (.broadcast hub payload except)
      ((Progress.writing hub asked (s.results t)).after c errand result) := by
  obtain ⟨-, rfl⟩ := write_of_share hshare (howing.mem_iff.mpr (List.mem_cons_self ..))
  have hshare' : (asked.map (·, Errand.send payload)).Perm
      ((s'.results t).map (fun r => (r.1, Errand.send payload)) ++ s'.owing t) := by
    refine (hshare.trans (howing.append_left _)).trans (.of_eq ?_)
    simp [hresults, ended]
  have hlength := hshare'.length_eq
  rw [List.length_append, List.length_map, List.length_map] at hlength
  have hended : s'.results t = s.results t ++ [(c, result)] := hresults
  simp only [Progress.after, Progress.afterSend, ← hended]
  split
  · exact .writing except rfl hshare'
  · have hnone : s'.owing t = [] := List.length_eq_zero_iff.mp (by omega)
    refine .of_all_ended hreach hnone ?_
    rw [hnone, List.append_nil] at hshare'
    simpa [Function.comp_def] using hshare'.map Prod.fst

/-- A task of which one errand has ended stands where its progress then is. -/
theorem Standing.after {c : ConnectionId} {errand : Errand} {result : Sent}
    (h : Standing s t op p) (howing : (s.owing t).Perm ((c, errand) :: s'.owing t))
    (hresults : s'.results t = s.results t ++ ended c errand result)
    (hshut : errand = .close → s'.isShut c = true) (hreach : (s'.reach t).Nodup)
    (hkept : ∀ c, s.isShut c = true → s'.isShut c = true) :
    Standing s' t op (p.after c errand result) := by
  have hsome : s.owing t ≠ [] := fun hnone => by
    rw [hnone] at howing
    exact absurd howing.symm.eq_nil (List.cons_ne_nil _ _)
  -- where a single errand is owed, it is the one that has ended
  have honly {d : ConnectionId} {errand' : Errand} (h : s.owing t = [(d, errand')]) :
      d = c ∧ errand' = errand ∧ s'.owing t = [] := by
    rw [h] at howing
    obtain ⟨heq, hnil⟩ := List.cons.inj (List.perm_singleton.mp howing.symm)
    cases heq
    exact ⟨rfl, rfl, hnil⟩
  cases h with
  | writing except hr hshare => exact hr ▸ .after_write (hr ▸ hshare) howing hresults hreach
  | pruning payload except howed hsub hcount hlost =>
    obtain ⟨rfl, rfl, hnil⟩ := honly howed
    have hr : s'.results t = s.results t := hresults.trans (List.append_nil _)
    rw [← hr] at hsub hcount hlost
    refine .reviewing payload except hnil hsub hcount fun d hd => ?_
    obtain hlost | hshut' | rfl := hlost d hd
    · exact .inl hlost
    · exact .inr (hkept d hshut')
    · exact .inr (hshut rfl)
  | sending howed hr =>
    obtain ⟨rfl, rfl, hnil⟩ := honly howed
    rw [hr] at hresults
    match result with
    | .ok => exact .finished hnil (.sendTo _ _ hresults (by simp))
    | .failed .closed => exact .finished hnil (.sendTo _ _ hresults (by simp))
    | .failed (.write reason) => exact .failed _ hnil hresults
  | dismissing hub payload howed hr =>
    obtain ⟨rfl, rfl, hnil⟩ := honly howed
    rw [hr] at hresults
    exact .finished hnil (.sendTo hub payload hresults fun _ _ => hshut rfl)
  | leaving hub removed howed hr =>
    obtain ⟨rfl, rfl, hnil⟩ := honly howed
    rw [hr] at hresults
    exact .finished hnil (.unregister hub removed hresults (hshut rfl))
  | closingAll hub hleft howed hr =>
    obtain rfl : errand = .close := howed _ (howing.mem_iff.mpr (List.mem_cons_self ..))
    have hr' : s'.results t = [] := by rw [hresults, hr]; rfl
    have hlength := howing.length_eq
    rw [List.length_cons] at hlength
    simp only [Progress.after, Progress.afterClose]
    split
    · exact .finished (List.length_eq_zero_iff.mp (by omega)) (.closeAll hub hr')
    · exact .closingAll hub (by omega)
        (fun x hx => howed x (howing.mem_iff.mpr (List.mem_cons_of_mem _ hx))) hr'
  | starting _ howed | reviewing _ _ howed | failed _ howed | finished howed =>
    exact absurd howed hsome

end Carry

end System

end UserDirectory.Hub
