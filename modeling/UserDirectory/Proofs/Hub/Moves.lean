import UserDirectory.Hub.System

/-!
# What an event of a hub can be

`Going` says how a task goes on by itself once it waits for no lock: which registries and
connections it leaves behind, how far it has come then, and which locks it asks for next. `Move`
says what a single event does to a whole system, and `move_of_step` that `step` allows nothing else.
What holds along every run is proved from `Move`, one case for each kind of event, and lifted to
runs by `run_preserves`.

Three things are written at different places: the registries, the connections, and the tasks. The
small lemmas say which change touches which of them.
-/

namespace UserDirectory.Hub

namespace System

/-! ## Single changes -/

section Changes

variable (s : System) (c : ConnectionId) (t : TaskId)

@[simp] theorem connections_modifyConnection (f : Connection → Connection) :
    (s.modifyConnection c f).connections = s.connections.modify c f := rfl

@[simp] theorem connections_setTask (p : Progress) (asks : List (ConnectionId × Errand)) :
    (s.setTask t p asks).connections = s.connections := rfl

@[simp] theorem tasks_setTask (p : Progress) (asks : List (ConnectionId × Errand)) :
    (s.setTask t p asks).tasks =
      s.tasks.modify t fun task => { task with progress := p, asks } := rfl

@[simp] theorem connections_ask (errand : Errand) :
    (s.ask t c errand).connections =
      s.connections.modify c fun conn => { conn with line := conn.line ++ [⟨t, errand⟩] } := rfl

@[simp] theorem tasks_ask (errand : Errand) : (s.ask t c errand).tasks = s.tasks := rfl

@[simp] theorem connections_note (o : Occurrence) :
    (s.note c t o).connections = s.connections := rfl

@[simp] theorem tasks_note (o : Occurrence) : (s.note c t o).tasks = s.tasks := rfl

@[simp] theorem connections_conclude (turn : Turn) (result : Sent) :
    (s.conclude c turn result).connections =
      s.connections.modify c fun conn =>
        { conn with line := conn.line.drop 1, deadline := none } := rfl

@[simp] theorem tasks_conclude (turn : Turn) (result : Sent) :
    (s.conclude c turn result).tasks =
      s.tasks.modify turn.task fun task =>
        { task with progress := task.progress.after c turn.errand result } := rfl

end Changes

/-! ## How a task goes on -/

/-- `Going s op p s' p' asks`: from `s`, where a task with the operation `op` has come as far as `p`
and waits for nothing, it leaves `s'` behind, has come as far as `p'`, and asks for the locks
`asks`. -/
inductive Going (s : System) :
    Operation → Progress → System → Progress → List (ConnectionId × Errand) → Prop
  | register (hub : HubId) :
      Going s (.register hub) .starting (s.enroll hub)
        (.finished (.registered s.connections.length)) []
  | unregister (hub : HubId) (c : ConnectionId) :
      Going s (.unregister hub c) .starting (s.remove hub c)
        (.leaving ((s.members hub).contains c)) [(c, .close)]
  | broadcastNone {hub : HubId} {payload : Octets} {except : Option ConnectionId}
      (hnone : ((s.members hub).filter fun c => some c != except) = []) :
      Going s (.broadcast hub payload except) .starting s (.finished (.broadcast 0)) []
  | broadcast {hub : HubId} {payload : Octets} {except : Option ConnectionId}
      {asked : List ConnectionId}
      (hasked : ((s.members hub).filter fun c => some c != except) = asked)
      (hsome : asked ≠ []) :
      Going s (.broadcast hub payload except) .starting s (.writing hub asked [])
        (asked.map (·, .send payload))
  | sendTo (hub : HubId) (c : ConnectionId) (payload : Octets) :
      Going s (.sendTo hub c payload) .starting s (.sending hub c) [(c, .send payload)]
  | closeNone {hub : HubId} (hnone : s.members hub = []) :
      Going s (.closeAll hub) .starting s (.finished .closedAll) []
  | closeAll (hub : HubId) (hsome : s.members hub ≠ []) :
      Going s (.closeAll hub) .starting (s.setMembers hub fun _ => [])
        (.closingAll (s.members hub).length) ((s.members hub).map (·, .close))
  | contains (hub : HubId) (c : ConnectionId) :
      Going s (.contains hub c) .starting s (.finished (.found ((s.members hub).contains c))) []
  | count (hub : HubId) :
      Going s (.count hub) .starting s (.finished (.counted (s.members hub).length)) []
  | reviewed (op : Operation) (hub : HubId) (delivered : Nat) :
      Going s op (.reviewing hub [] delivered) s (.finished (.broadcast delivered)) []
  | reviewOk (op : Operation) (hub : HubId) (c : ConnectionId)
      (rest : List (ConnectionId × Sent)) (delivered : Nat) :
      Going s op (.reviewing hub ((c, .ok) :: rest) delivered) s
        (.reviewing hub rest (delivered + 1)) []
  | reviewClosed (op : Operation) (hub : HubId) (c : ConnectionId)
      (rest : List (ConnectionId × Sent)) (delivered : Nat) :
      Going s op (.reviewing hub ((c, .failed .closed) :: rest) delivered) s
        (.reviewing hub rest delivered) []
  | prune (op : Operation) (hub : HubId) (c : ConnectionId) (reason : String)
      (rest : List (ConnectionId × Sent)) (delivered : Nat) :
      Going s op (.reviewing hub ((c, .failed (.write reason)) :: rest) delivered)
        (s.remove hub c) (.pruning hub rest delivered) [(c, .close)]
  | dismiss (op : Operation) (hub : HubId) (c : ConnectionId) (why : Failure) :
      Going s op (.failed hub c why) (s.remove hub c) (.dismissing why) [(c, .close)]

theorem going_startOperation (s : System) (t : TaskId) (op : Operation) :
    ∃ s₁ p asks, Going s op .starting s₁ p asks ∧ s.startOperation t op = s₁.setTask t p asks := by
  cases op with
  | register hub => exact ⟨_, _, _, .register hub, rfl⟩
  | unregister hub c => exact ⟨_, _, _, .unregister hub c, rfl⟩
  | broadcast hub payload except =>
    simp only [startOperation]
    split
    · exact ⟨_, _, _, .broadcastNone (List.isEmpty_iff.mp ‹_›), rfl⟩
    · exact ⟨_, _, _, .broadcast rfl (mt List.isEmpty_iff.mpr ‹_›), rfl⟩
  | sendTo hub c payload => exact ⟨_, _, _, .sendTo hub c payload, rfl⟩
  | closeAll hub =>
    simp only [startOperation]
    split
    · exact ⟨_, _, _, .closeNone (List.isEmpty_iff.mp ‹_›), rfl⟩
    · exact ⟨_, _, _, .closeAll hub (mt List.isEmpty_iff.mpr ‹_›), rfl⟩
  | contains hub c => exact ⟨_, _, _, .contains hub c, rfl⟩
  | count hub => exact ⟨_, _, _, .count hub, rfl⟩

theorem going_review (s : System) (t : TaskId) (op : Operation) (hub : HubId)
    (results : List (ConnectionId × Sent)) (delivered : Nat) :
    ∃ s₁ p asks, Going s op (.reviewing hub results delivered) s₁ p asks ∧
      s.review t hub results delivered = s₁.setTask t p asks := by
  unfold review
  split
  · exact ⟨_, _, _, .reviewed op hub delivered, rfl⟩
  · exact ⟨_, _, _, .reviewOk op hub _ _ delivered, rfl⟩
  · exact ⟨_, _, _, .reviewClosed op hub _ _ delivered, rfl⟩
  · exact ⟨_, _, _, .prune op hub _ _ _ delivered, rfl⟩

/-! ## What an event does -/

/-- What a single event does to a system. -/
inductive Move (s : System) : Event → System → Prop
  | start (op : Operation) : Move s (.start op) (s.launch op)
  | ask {t : TaskId} {task : Task} {c : ConnectionId} {errand : Errand}
      {asks : List (ConnectionId × Errand)}
      (htask : s.tasks[t]? = some task) (hasks : task.asks = (c, errand) :: asks)
      (hconn : c < s.connections.length) :
      Move s (.act t) ((s.ask t c errand).setTask t task.progress asks)
  | go {t : TaskId} {task : Task} {s₁ : System} {p : Progress}
      {asks : List (ConnectionId × Errand)}
      (htask : s.tasks[t]? = some task) (hasks : task.asks = [])
      (hgoing : Going s task.op task.progress s₁ p asks) :
      Move s (.act t) (s₁.setTask t p asks)
  | passOver {c : ConnectionId} {conn : Connection} {turn : Turn} {rest : List Turn}
      (hconn : s.connections[c]? = some conn) (hline : conn.line = turn :: rest)
      (hidle : conn.deadline = none) (hclosed : conn.closed = true) :
      Move s (.enter c)
        ((s.note c turn.task (.passedOver turn.errand)).conclude c turn (.failed .closed))
  | call {c : ConnectionId} {conn : Connection} {turn : Turn} {rest : List Turn}
      (hconn : s.connections[c]? = some conn) (hline : conn.line = turn :: rest)
      (hidle : conn.deadline = none) (hopen : conn.closed = false) :
      Move s (.enter c)
        ((s.modifyConnection c fun conn =>
          { conn with
            closed := turn.errand == .close
            deadline := some (s.now + conn.timeout.nanos) }).note c turn.task (.called turn.errand))
  | answer {e : Event} {c : ConnectionId} {conn : Connection} {turn : Turn} {rest : List Turn}
      {deadline : Nat} (result : Sent) (hreturn : e = .finish c result ∨ e = .expire c)
      (hconn : s.connections[c]? = some conn) (hline : conn.line = turn :: rest)
      (hbusy : conn.deadline = some deadline) :
      Move s e ((s.note c turn.task (.answered turn.errand result)).conclude c turn result)
  | pass (nanos : Nat) : Move s (.pass nanos) { s with now := s.now + nanos }
  | rearrange {hub : HubId} {members : List ConnectionId} (hperm : members.Perm (s.members hub)) :
      Move s (.rearrange hub members) (s.setMembers hub fun _ => members)

theorem move_of_act {s s' : System} {t : TaskId} (h : s.step (.act t) = some s') :
    s.Move (.act t) s' := by
  obtain ⟨task, htask, hact⟩ := Option.bind_eq_some_iff.mp h
  unfold act? at hact
  split at hact
  · rename_i c errand asks hasks
    split at hact
    · rename_i hlt
      obtain rfl := Option.some.inj hact
      exact .ask htask hasks hlt
    · cases hact
  · rename_i hasks
    split at hact
    · rename_i hprogress
      obtain rfl := Option.some.inj hact
      obtain ⟨s₁, p, asks, hgoing, heq⟩ := s.going_startOperation t task.op
      exact heq ▸ .go htask hasks (hprogress ▸ hgoing)
    · rename_i hub results delivered hprogress
      obtain rfl := Option.some.inj hact
      obtain ⟨s₁, p, asks, hgoing, heq⟩ := s.going_review t task.op hub results delivered
      exact heq ▸ .go htask hasks (hprogress ▸ hgoing)
    · rename_i hub c why hprogress
      obtain rfl := Option.some.inj hact
      exact .go htask hasks (hprogress ▸ .dismiss task.op hub c why)
    · cases hact

/-- **An event does one of eight things.** -/
theorem move_of_step {s s' : System} {e : Event} (h : s.step e = some s') : s.Move e s' := by
  cases e with
  | start op =>
    obtain rfl := Option.some.inj h
    exact .start op
  | act t => exact move_of_act h
  | enter c =>
    simp only [step] at h
    split at h
    · rename_i conn hconn
      split at h
      · rename_i turn rest hline hidle
        obtain rfl := Option.some.inj h
        unfold letIn
        split
        · rename_i hclosed
          exact .passOver hconn hline hidle hclosed
        · rename_i hopen
          exact .call hconn hline hidle (Bool.eq_false_iff.mpr hopen)
      · cases h
    · cases h
  | finish c result =>
    simp only [step] at h
    split at h
    · rename_i conn hconn
      split at h
      · rename_i turn rest deadline hline hbusy
        obtain rfl := Option.some.inj h
        exact .answer result (.inl rfl) hconn hline hbusy
      · cases h
    · cases h
  | expire c =>
    simp only [step] at h
    split at h
    · rename_i conn hconn
      split at h
      · rename_i turn rest deadline hline hbusy
        split at h
        · obtain rfl := Option.some.inj h
          exact .answer _ (.inr rfl) hconn hline hbusy
        · cases h
      · cases h
    · cases h
  | pass nanos =>
    obtain rfl := Option.some.inj h
    exact .pass nanos
  | rearrange hub members =>
    simp only [step] at h
    split at h
    · obtain rfl := Option.some.inj h
      exact .rearrange ‹_›
    · cases h

/-! ## Runs -/

theorem run_cons {s s' : System} {e : Event} {es : List Event} (h : s.run (e :: es) = some s') :
    ∃ s₁, s.Move e s₁ ∧ s₁.run es = some s' := by
  obtain ⟨s₁, hstep, hrun⟩ := Option.bind_eq_some_iff.mp h
  exact ⟨s₁, move_of_step hstep, hrun⟩

theorem run_append {s s₁ s₂ : System} {es es' : List Event} (h : s.run es = some s₁)
    (h' : s₁.run es' = some s₂) : s.run (es ++ es') = some s₂ := by
  induction es generalizing s with
  | nil =>
    obtain rfl := Option.some.inj h
    exact h'
  | cons e es ih =>
    obtain ⟨s', hstep, hrun⟩ := Option.bind_eq_some_iff.mp h
    exact Option.bind_eq_some_iff.mpr ⟨s', hstep, ih hrun⟩

theorem Reachable.run {timeouts : List Time.Duration} {s s' : System} {es : List Event}
    (h : Reachable timeouts s) (hrun : s.run es = some s') : Reachable timeouts s' := by
  obtain ⟨es₀, h₀⟩ := h
  exact ⟨es₀ ++ es, run_append h₀ hrun⟩

/-- **What every event keeps, every run keeps.** -/
theorem run_preserves {P : System → Prop} (hmove : ∀ {s e s'}, P s → s.Move e s' → P s')
    {s s' : System} {es : List Event} (hs : P s) (hrun : s.run es = some s') : P s' := by
  induction es generalizing s with
  | nil =>
    obtain rfl := Option.some.inj hrun
    exact hs
  | cons e es ih =>
    obtain ⟨s₁, hm, hrest⟩ := run_cons hrun
    exact ih (hmove hs hm) hrest

end System

end UserDirectory.Hub
