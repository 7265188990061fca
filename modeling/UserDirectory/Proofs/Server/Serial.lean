import UserDirectory.Proofs.Server.Pool

/-!
# Deliveries are serialized by the store

`Consistent` is the invariant of a pool. The store is what the deliveries concluded so far leave
when they are handled one after another in the order of their conclusions, and each of them is about
to tell, or has told, what it comes to at its place (`AtStage`). The order is only ever extended at
its end, so what was said about a place in it stays true.
-/

namespace UserDirectory.Server.Pool

/-! ## The invariant -/

/-- A delivery came to its conclusion at a place of the order. -/
def Concluded (s₀ : Store) (order : List (Nat × Input)) (i : Nat) (d : Delivery)
    (answer : Octets) (event : Option (EventKind × Octets)) : Prop :=
  ∃ pre fresh post, order = pre ++ (i, d.input fresh) :: post ∧
    ((d.input fresh).dispatch (after s₀ (pre.map (·.2)))).1 = (answer, event)

/-- What the order and the calls on the bus say about a delivery at its stage. -/
def AtStage (s₀ : Store) (order : List (Nat × Input)) (calls : List BusCall) (i : Nat)
    (d : Delivery) : Prop :=
  match d.stage with
  | .arrived => i ∉ order.map (·.1) ∧ calls = []
  | .accepted call => i ∉ order.map (·.1) ∧ calls = [] ∧
      accept d.command d.message.payload = .ok call
  | .concluded answer event => Concluded s₀ order i d answer event ∧ calls = []
  | .answered event => ∃ answer, Concluded s₀ order i d answer event ∧ calls = d.responds answer
  | .done => ∃ answer event, Concluded s₀ order i d answer event ∧
      calls = d.responds answer ++ (Delivery.publishes event ++ [BusCall.released])

/-- What holds of a pool at every moment of a run from the store `s₀`. -/
structure Consistent (s₀ : Store) (p : Pool) : Prop where
  isOpen : p.shared.broker.closed = false
  unmuted : p.shared.muted = false
  store : p.shared.store = after s₀ (p.order.map (·.2))
  once : (p.order.map (·.1)).Nodup
  order_lt : ∀ i ∈ p.order.map (·.1), i < p.deliveries.length
  calls_lt : ∀ i c, .call i c ∈ p.history → i < p.deliveries.length
  stages : ∀ i d, p.deliveries[i]? = some d → AtStage s₀ p.order (p.callsOf i) i d

theorem Concluded.append {s₀ : Store} {order : List (Nat × Input)} {i : Nat} {d : Delivery}
    {answer : Octets} {event : Option (EventKind × Octets)}
    (h : Concluded s₀ order i d answer event) (more : List (Nat × Input)) :
    Concluded s₀ (order ++ more) i d answer event := by
  obtain ⟨pre, fresh, post, rfl, htold⟩ := h
  exact ⟨pre, fresh, post ++ more, by simp, htold⟩

/-- What happens to other deliveries changes nothing for this one. -/
theorem AtStage.append {s₀ : Store} {order : List (Nat × Input)} {calls : List BusCall} {i : Nat}
    {d : Delivery} (h : AtStage s₀ order calls i d) {more : List (Nat × Input)}
    (hmore : i ∉ more.map (·.1)) : AtStage s₀ (order ++ more) calls i d := by
  unfold AtStage at h ⊢
  -- a place in the order stays one, and the order has no new place for this delivery
  split at h
  · exact ⟨by simpa [hmore] using h.1, h.2⟩
  · exact ⟨by simpa [hmore] using h.1, h.2⟩
  · exact ⟨h.1.append more, h.2⟩
  · obtain ⟨answer, hconcluded, hcalls⟩ := h
    exact ⟨answer, hconcluded.append more, hcalls⟩
  · obtain ⟨answer, event, hconcluded, hcalls⟩ := h
    exact ⟨answer, event, hconcluded.append more, hcalls⟩

/-! ## Steps -/

/-- A step of the delivery `i` keeps every stage if what is new is its own and its next stage is
right. -/
theorem Consistent.stages_set {s₀ : Store} {p : Pool} (h : Consistent s₀ p) {i : Nat}
    {d : Delivery} (d' : Delivery) (hd : p.deliveries[i]? = some d) (more : List (Nat × Input))
    (new : List BusCall) (hmore : ∀ x ∈ more, x.1 = i)
    (hstage : AtStage s₀ (p.order ++ more) (p.callsOf i ++ new) i d') :
    ∀ j e, (p.deliveries.set i d')[j]? = some e →
      AtStage s₀ (p.order ++ more)
        (BusEvent.callsBy j (p.history ++ new.map (.call i))) j e := by
  intro j e he
  rw [BusEvent.callsBy_calls]
  by_cases hij : i = j
  · subst hij
    rw [List.getElem?_set_self (List.getElem?_eq_some_iff.mp hd).1] at he
    obtain rfl := Option.some.inj he
    rw [if_pos rfl]
    exact hstage
  · rw [List.getElem?_set_ne hij] at he
    rw [if_neg hij, List.append_nil]
    refine (h.stages j e he).append fun hmem => ?_
    obtain ⟨x, hx, rfl⟩ := List.mem_map.mp hmem
    exact hij (hmore x hx).symm

/-- A delivery goes on without coming to its conclusion: the store and the order stay. -/
theorem Consistent.goesOn {s₀ : Store} {p : Pool} (h : Consistent s₀ p) {i : Nat} {d : Delivery}
    (d' : Delivery) (hd : p.deliveries[i]? = some d) {broker : Broker}
    (hopen : broker.closed = false) (new : List BusCall)
    (hstage : AtStage s₀ p.order (p.callsOf i ++ new) i d') :
    Consistent s₀ { p with
      shared := { p.shared with broker }
      deliveries := p.deliveries.set i d'
      history := p.history ++ new.map (.call i) } := by
  have hi : i < p.deliveries.length := (List.getElem?_eq_some_iff.mp hd).1
  have hstages := h.stages_set d' hd [] new (fun _ hx => nomatch hx) (by simpa using hstage)
  simp only [List.append_nil] at hstages
  refine { h with isOpen := hopen, order_lt := ?_, calls_lt := ?_, stages := hstages }
  · simpa using h.order_lt
  · intro j c hc
    rw [List.length_set]
    rcases List.mem_append.mp hc with hc | hc
    · exact h.calls_lt j c hc
    · obtain ⟨_, -, heq⟩ := List.mem_map.mp hc
      obtain ⟨rfl, -⟩ := BusEvent.call.inj heq
      exact hi

/-- A delivery comes to its conclusion: it is the next in the order, and the store is the one that
it leaves. -/
theorem Consistent.concludes {s₀ : Store} {p : Pool} (h : Consistent s₀ p) {i : Nat}
    {d : Delivery} (d' : Delivery) (hd : p.deliveries[i]? = some d) {input : Input} {store : Store}
    (hstore : (input.dispatch p.shared.store).2 = store) (hnew : i ∉ p.order.map (·.1))
    (hstage : AtStage s₀ (p.order ++ [(i, input)]) (p.callsOf i) i d') :
    Consistent s₀ { p with
      shared := { p.shared with store }
      deliveries := p.deliveries.set i d'
      order := p.order ++ [(i, input)] } := by
  have hi : i < p.deliveries.length := (List.getElem?_eq_some_iff.mp hd).1
  have hstages := h.stages_set d' hd [(i, input)] [] (fun x hx => by rw [List.mem_singleton.mp hx])
    (by simpa using hstage)
  simp only [List.append_nil, List.map_nil] at hstages
  refine { h with store := ?_, once := ?_, order_lt := ?_, calls_lt := ?_, stages := hstages }
  · rw [List.map_append, after_append, ← h.store]
    exact hstore.symm
  · rw [List.map_append, List.nodup_append]
    refine ⟨h.once, by simp, fun a ha b hb heq => ?_⟩
    simp only [List.map_cons, List.map_nil, List.mem_singleton] at hb
    exact hnew (hb ▸ heq ▸ ha)
  · intro j hj
    rw [List.length_set]
    rw [List.map_append] at hj
    rcases List.mem_append.mp hj with hj | hj
    · exact h.order_lt j hj
    · simp only [List.map_cons, List.map_nil, List.mem_singleton] at hj
      exact hj ▸ hi
  · simpa using h.calls_lt

theorem consistent_worked {s₀ : Store} {p q : Pool} {i : Nat} {d : Delivery} {fresh : Fresh}
    (h : Consistent s₀ p) (hd : p.deliveries[i]? = some d) (hq : Worked p i d fresh q) :
    Consistent s₀ q := by
  have hat := h.stages i d hd
  unfold AtStage at hat
  cases hq with
  | @accepts call hstage haccept =>
    rw [hstage] at hat
    obtain ⟨hnew, hcalls⟩ := hat
    have hnext := h.goesOn { d with stage := .accepted call } hd h.isOpen []
      ⟨hnew, by simpa using hcalls, haccept⟩
    simpa using hnext
  | @concludes answer event store hstage hdispatch =>
    have hnew : i ∉ p.order.map (·.1) ∧ p.callsOf i = [] := by
      rcases hstage with hstage | ⟨call, hstage⟩
      · rwa [hstage] at hat
      · rw [hstage] at hat
        exact ⟨hat.1, hat.2.1⟩
    -- its place is the end of the order, where the store is the one it was dispatched to
    have hplace : Concluded s₀ (p.order ++ [(i, d.input fresh)]) i
        { d with stage := .concluded answer event } answer event := by
      refine ⟨p.order, fresh, [], rfl, ?_⟩
      rw [← h.store]
      exact congrArg Prod.fst hdispatch
    exact h.concludes { d with stage := .concluded answer event } hd
      (congrArg Prod.snd hdispatch) hnew.1 ⟨hplace, hnew.2⟩
  | @answers answer event broker hstage hopen =>
    rw [hstage] at hat
    obtain ⟨hconcluded, hcalls⟩ := hat
    exact h.goesOn { d with stage := .answered event } hd hopen (d.responds answer)
      ⟨answer, hconcluded, by rw [hcalls]; rfl⟩
  | @announces event broker hstage hopen =>
    rw [hstage] at hat
    obtain ⟨answer, hconcluded, hcalls⟩ := hat
    exact h.goesOn { d with stage := .done } hd hopen
      (Delivery.publishes event ++ [BusCall.released])
      ⟨answer, event, hconcluded, by rw [hcalls]; rfl⟩
  | rests _ => exact h

theorem consistent_step {s₀ : Store} {p q : Pool} (h : Consistent s₀ p) (hstep : Step p q) :
    Consistent s₀ q := by
  cases hstep with
  | work i fresh =>
    cases hd : p.deliveries[i]? with
    | none =>
      rw [work, hd]
      exact h
    | some d =>
      refine consistent_worked h hd (worked fresh hd h.isOpen h.unmuted fun call hstage => ?_)
      have hat := h.stages i d hd
      rw [AtStage, hstage] at hat
      exact hat.2.2
  | elsewhere broker hopen =>
    refine { h with isOpen := hopen, calls_lt := fun i c hc => ?_, stages := fun i d hd => ?_ }
    · rcases List.mem_append.mp hc with hc | hc
      · exact h.calls_lt i c hc
      · cases List.mem_singleton.mp hc
    · show AtStage s₀ p.order (BusEvent.callsBy i (p.history ++ [.elsewhere broker])) i d
      rw [BusEvent.callsBy_elsewhere]
      exact h.stages i d hd

theorem consistent_steps {s₀ : Store} {p q : Pool} (h : Consistent s₀ p) (hsteps : Steps p q) :
    Consistent s₀ q := by
  induction hsteps with
  | refl => exact h
  | tail _ hstep ih => exact consistent_step ih hstep

theorem consistent_start {p : Pool} (h : p.Starting) : Consistent p.shared.store p where
  isOpen := h.isOpen
  unmuted := h.unmuted
  store := by rw [h.order]; rfl
  once := by rw [h.order]; exact .nil
  order_lt := by rw [h.order]; exact fun _ hi => nomatch hi
  calls_lt := by rw [h.history]; exact fun _ _ hc => nomatch hc
  stages := by
    intro i d hd
    rw [AtStage, h.arrived d (List.mem_of_getElem? hd), callsOf, h.history, h.order]
    exact ⟨fun hmem => (nomatch hmem), rfl⟩

/-! ## All deliveries are done -/

/-- What a pool has come to once all its deliveries are done, against the pool from which it
started. The order has every delivery once. Its stores are those of a run in that order, and each
delivery told what it comes to at its place in the run: it called for an answer once if one was
expected, published one event if it made a change, and let its message go. The bus went through
these calls, each about the message of its delivery, and through what others made of it. -/
structure Serialized (p q : Pool) : Prop where
  once : (q.order.map (·.1)).Nodup
  every : ∀ i, i ∈ q.order.map (·.1) ↔ i < p.deliveries.length
  store : q.shared.store = after p.shared.store (q.order.map (·.2))
  told : ∀ i d, p.deliveries[i]? = some d → ∃ pre fresh post answer event,
    q.order = pre ++ (i, d.input fresh) :: post ∧
      ((d.input fresh).dispatch (after p.shared.store (pre.map (·.2)))).1 = (answer, event) ∧
      q.callsOf i = (if d.message.expectsReply then [.responded answer] else []) ++
        (event.toList.map (fun e => .published e.1 e.2) ++ [.released]) ∧
      (event.isSome = true ↔ (d.input fresh).Changes (after p.shared.store (pre.map (·.2))))
  calls_lt : ∀ i c, .call i c ∈ q.history → i < p.deliveries.length
  bus : q.shared.broker = q.history.foldl (BusEvent.after p.message?) p.shared.broker
  addresses : AddressesInTurn p.shared.store (q.order.map (·.2))

/-- **Deliveries that are handled at the same time come to what they come to one after another**, in
the order of their store steps. -/
theorem serialized {p q : Pool} (hstart : p.Starting) (hsteps : Steps p q)
    (hdone : ∀ d ∈ q.deliveries, d.stage = .done) : Serialized p q := by
  have h := consistent_steps (consistent_start hstart) hsteps
  have hcontents := contents_steps hsteps
  have hlength : q.deliveries.length = p.deliveries.length := by
    simpa [contents] using congrArg List.length hcontents
  -- each delivery of the start is done under its number
  have hplace : ∀ i d, p.deliveries[i]? = some d → ∃ answer event,
      Concluded p.shared.store q.order i d answer event ∧
        q.callsOf i = d.responds answer ++ (Delivery.publishes event ++ [BusCall.released]) := by
    intro i d hd
    have hi : i < q.deliveries.length := hlength ▸ (List.getElem?_eq_some_iff.mp hd).1
    have hsame : q.contents[i]? = p.contents[i]? := congrArg (·[i]?) hcontents
    rw [contents, contents, List.getElem?_map, List.getElem?_map, hd,
      List.getElem?_eq_getElem hi, Option.map_some, Option.map_some] at hsame
    obtain ⟨hcommand, hmessage⟩ := Prod.mk.inj (Option.some.inj hsame)
    have hat := h.stages i q.deliveries[i] (List.getElem?_eq_getElem hi)
    rw [AtStage, hdone _ (List.getElem_mem hi)] at hat
    simpa only [Concluded, Delivery.input, Delivery.responds, hcommand, hmessage] using hat
  have hbegun : Accounted p.shared.broker p := by
    rw [Accounted, hstart.history]
    rfl
  have hbus := accounted_steps hbegun hsteps
  rw [Accounted, message?_eq_of_contents hcontents] at hbus
  refine ⟨h.once, fun i => ⟨fun hi => hlength ▸ h.order_lt i hi, fun hi => ?_⟩, h.store, ?_,
    fun i c hc => hlength ▸ h.calls_lt i c hc, hbus, addresses_in_turn _ _⟩
  · obtain ⟨_, _, ⟨pre, fresh, post, horder, _⟩, _⟩ :=
      hplace i p.deliveries[i] (List.getElem?_eq_getElem hi)
    rw [horder]
    exact List.mem_map.mpr ⟨_, List.mem_append_right _ List.mem_cons_self, rfl⟩
  · intro i d hd
    obtain ⟨answer, event, ⟨pre, fresh, post, horder, htold⟩, hcalls⟩ := hplace i d hd
    refine ⟨pre, fresh, post, answer, event, horder, htold, hcalls, ?_⟩
    rw [← Input.isSome_event_iff, htold]

/-! ## Two updates of one user -/

theorem eq_ok_of_toOption {ε α : Type} {x : Except ε α} {a : α} (h : x.toOption = some a) :
    x = .ok a := by
  cases x with
  | error e => cases h
  | ok b => exact congrArg Except.ok (Option.some.inj h)

/-- A payload that changes the address of the one user there is. -/
def readdressing (email : String) : Octets :=
  Json.encode (⟨"r", ⟨(Fresh.nth 0).userId.text, { email := some email }⟩⟩ :
    CommandRequest UpdateRequest)

/-- A delivery that changes the address of that user. -/
def readdress (email : String) (exchange : Option Broker.ExchangeId) : Delivery where
  command := .update
  message := ⟨Command.update.channel, readdressing email, exchange⟩

/-- Two deliveries that give one user two spellings of one address; the first is a request, whose
only copy was taken. -/
def rivals : Pool where
  shared := {
    broker := ((((Broker.init 1).subscribe Command.update.channel).2.request Command.update.channel
      (readdressing "a@x.io") (.ofSeconds 5)).2.next 0).2
    store := (Store.empty.perform (.create ada) (Fresh.nth 0).userId (Fresh.nth 0).storedAt).2 }
  deliveries := [readdress "a@x.io" (some 0), readdress "A@x.io" none]

/-- The two in lockstep until they are done. -/
def rivalsDone : Pool :=
  rivals.works [(0, .nth 1), (1, .nth 2), (0, .nth 1), (1, .nth 2), (0, .nth 1), (1, .nth 2),
    (0, .nth 1), (1, .nth 2)]

theorem starting_rivals : rivals.Starting := ⟨by decide, rfl, rfl, rfl, rfl⟩

theorem done_rivals : ∀ d ∈ rivalsDone.deliveries, d.stage = .done := by decide +kernel

/-- The exchange of the request ends with the one answer that its delivery called for. -/
theorem serialized_rivals : Serialized rivals rivalsDone ∧
    ∃ answer, .responded answer ∈ rivalsDone.callsOf 0 ∧
      rivalsDone.shared.broker.standing? 0 = some (.answered answer) := by
  refine ⟨serialized starting_rivals (steps_works (.refl rivals) _) done_rivals, ?_⟩
  let old := Store.newUser ada (Fresh.nth 0).userId (Fresh.nth 0).storedAt
  let u := Store.changed old { email := some "a@x.io" } (Fresh.nth 1).storedAt
  exact ⟨successReply (.updated u), by decide +kernel, by decide +kernel⟩

/-- Both succeed: an update does not compare the address with that of the user itself. -/
theorem rivals_both_given : rivals.Starting ∧ Steps rivals rivalsDone ∧
    (∀ d ∈ rivalsDone.deliveries, d.stage = .done) ∧
    ¬ NoAddressTwice rivals.shared.store (rivalsDone.order.map (·.2)) := by
  refine ⟨starting_rivals, steps_works (.refl rivals) _, done_rivals, fun htwice => ?_⟩
  let old := Store.newUser ada (Fresh.nth 0).userId (Fresh.nth 0).storedAt
  let u := Store.changed old { email := some "a@x.io" } (Fresh.nth 1).storedAt
  let v := Store.changed u { email := some "A@x.io" } (Fresh.nth 2).storedAt
  let first : Input := ⟨.update, readdressing "a@x.io", .nth 1⟩
  let second : Input := ⟨.update, readdressing "A@x.io", .nth 2⟩
  have horder : rivalsDone.order.map (·.2) = [first, second] := by decide +kernel
  -- the second is compared with all users but the one that has the address by now
  have hfirst : first.Gives (after rivals.shared.store []) u := by
    refine ⟨.update old.id { email := some "a@x.io" }, ?_, rfl, .inr ?_⟩
    · exact eq_ok_of_toOption (by decide +kernel)
    · exact eq_ok_of_toOption (by decide +kernel)
  have hsecond : second.Gives (after rivals.shared.store [first]) v := by
    refine ⟨.update old.id { email := some "A@x.io" }, ?_, rfl, .inr ?_⟩
    · exact eq_ok_of_toOption (by decide +kernel)
    · exact eq_ok_of_toOption (by decide +kernel)
  exact htwice [] [] [] _ _ u v horder hfirst hsecond (by decide)

end UserDirectory.Server.Pool
