import UserDirectory.Proofs.Hub.Closing
import UserDirectory.Proofs.Hub.Issued

/-!
# Operations one after another

When each operation is issued only after those before it have returned, what a connection is handed
can be read off the operations alone: from its registration on, and until an unregistration or a
close of all members, it is handed every broadcast that does not leave it out and every send to it
(`framesDue`). What the sinks of other connections do plays no part in it.

Each operation adds to what came of those before it (`Tally.concat`), and each returns, since none
waits for a sink for good.
-/

namespace UserDirectory.Hub

/-! ## What is due to a connection -/

/-- The operations after the registration of the given number, if there were so many. -/
def since? (n : Nat) : List Operation → Option (List Operation)
  | [] => none
  | op :: ops =>
    if op.registers then if n = 0 then some ops else since? (n - 1) ops
    else since? n ops

/-- The frames that operations have for a connection that is a member, until one takes it out. -/
def framesUntilEnd (c : ConnectionId) : List Operation → List Octets
  | [] => []
  | op :: ops => if op.ends c then [] else (op.frameFor? c).toList ++ framesUntilEnd c ops

/-- The frames that operations have for a connection while it is a member: from its registration on,
and until it is unregistered or all members are closed. -/
def framesDue (c : ConnectionId) (ops : List Operation) : List Octets :=
  ((since? c ops).map (framesUntilEnd c)).getD []

/-- Whether a connection was registered and not taken out since. -/
def stays (c : ConnectionId) (ops : List Operation) : Bool :=
  (since? c ops).any fun later => later.all fun op => !op.ends c

theorem since?_concat (n : Nat) (ops : List Operation) (op : Operation) :
    since? n (ops ++ [op]) =
      match since? n ops with
      | some later => some (later ++ [op])
      | none => if op.registers ∧ ops.countP (·.registers) = n then some [] else none := by
  induction ops generalizing n with
  | nil => by_cases hop : op.registers <;> simp [since?, hop, eq_comm]
  | cons first ops ih =>
    rw [List.cons_append, since?, since?]
    by_cases hfirst : first.registers
    · by_cases hn : n = 0
      · simp [hfirst, hn]
      · have hcount : ops.countP (·.registers) + 1 = n ↔ ops.countP (·.registers) = n - 1 := by
          omega
        simp [hfirst, hn, ih, hcount]
    · simp [hfirst, ih]

/-- A registration that was made is one of those that were counted. -/
theorem lt_countP_of_since? {n : Nat} {ops later : List Operation}
    (h : since? n ops = some later) : n < ops.countP (·.registers) := by
  induction ops generalizing n with
  | nil => cases h
  | cons first ops ih =>
    rw [since?] at h
    by_cases hfirst : first.registers
    · rw [if_pos hfirst] at h
      simp only [List.countP_cons, hfirst, if_true]
      split at h
      · omega
      · have hrest := ih h
        omega
    · rw [if_neg hfirst] at h
      simpa [hfirst] using ih h

theorem framesUntilEnd_concat (c : ConnectionId) (ops : List Operation) (op : Operation) :
    framesUntilEnd c (ops ++ [op]) = framesUntilEnd c ops ++
      if ops.all fun op => !op.ends c then (op.frameFor? c).toList else [] := by
  induction ops with
  | nil =>
    -- who is taken out by an operation has no frame of it
    have hends : op.ends c = true → op.frameFor? c = none := by
      cases op <;> simp [Operation.ends, Operation.frameFor?]
    by_cases hop : op.ends c <;> simp [framesUntilEnd, hop, hends]
  | cons first ops ih =>
    rw [List.cons_append, framesUntilEnd, framesUntilEnd]
    by_cases hfirst : first.ends c <;> simp [hfirst, ih]

theorem framesDue_concat (c : ConnectionId) (ops : List Operation) (op : Operation) :
    framesDue c (ops ++ [op]) =
      framesDue c ops ++ if stays c ops then (op.frameFor? c).toList else [] := by
  unfold framesDue stays
  rw [since?_concat]
  cases since? c ops with
  | none =>
    dsimp only
    split <;> rfl
  | some later => exact framesUntilEnd_concat c later op

theorem stays_concat {c : ConnectionId} {ops : List Operation} {op : Operation} :
    stays c (ops ++ [op]) = true ↔ stays c ops = true ∧ op.ends c = false ∨
      op.registers = true ∧ c = ops.countP (·.registers) := by
  unfold stays
  rw [since?_concat]
  cases hsince : since? c ops with
  | none =>
    dsimp only
    split
    · rename_i hnew
      exact ⟨fun _ => .inr ⟨hnew.1, hnew.2.symm⟩, fun _ => rfl⟩
    · rename_i hnot
      have hnot' : ¬(op.registers = true ∧ c = ops.countP (·.registers)) :=
        fun h => hnot ⟨h.1, h.2.symm⟩
      simpa using hnot'
  | some later =>
    have hne : c ≠ ops.countP (·.registers) := Nat.ne_of_lt (lt_countP_of_since? hsince)
    simp [hne]

/-! ## One operation after another -/

/-- The operation that an event issues. -/
def Event.issues? : Event → Option Operation
  | start op => some op
  | _ => none

/-- The operations that are issued along a run. -/
def issued (es : List Event) : List Operation := es.filterMap (·.issues?)

namespace System

/-- Whether an operation is issued when no other is in flight, and is one of `hub` on a connection
of `hub`. -/
def inTurn (s : System) (hub : HubId) : Event → Bool
  | .start op => decide s.Quiet && op.hub == hub && op.handle?.all fun c => s.home? c == some hub
  | _ => true

/-- Whether along a run the operations are issued one after another. -/
def takesTurns (hub : HubId) : System → List Event → Bool
  | _, [] => true
  | s, e :: es => s.inTurn hub e && (s.step e).all (takesTurns hub · es)

/-- What has come of the operations `ops`, all of which have returned. -/
structure Tally (hub : HubId) (ops : List Operation) (s : System) : Prop where
  sound : s.Sound
  kept : s.Kept hub
  length : s.connections.length = ops.countP (·.registers)
  accepted : ∀ {c}, s.Reliable c → s.accepted c = framesDue c ops
  member : ∀ {c}, s.Reliable c → (c ∈ s.members hub ↔ stays c ops = true)

/-- Nothing has been issued. -/
structure Blank (hub : HubId) (s : System) : Prop where
  sound : s.Sound
  kept : s.Kept hub
  tasks : s.tasks = []
  connections : s.connections = []
  log : s.log = []

/-- `x` is a system in which the operations `ops` were issued one after another. -/
inductive InTurn (hub : HubId) (ops : List Operation) (x : System) : Prop
  | blank (hnone : ops = []) (h : Blank hub x)
  | within {before : List Operation} {op : Operation} {s : System} (hops : ops = before ++ [op])
      (htally : Tally hub before s) (hquiet : s.Quiet) (hhub : op.hub = hub)
      (hhandle : ∀ d, op.handle? = some d → s.home? d = some hub) (hissued : Issued s op x)
      (hbecomes : (s.launch op).Becomes x)

section InTurn

variable {hub : HubId} {ops : List Operation} {s s' x : System} {e : Event} {op : Operation}

theorem Becomes.concat (h : s.Becomes x) (hstart : ∀ op, e ≠ .start op)
    (hstep : x.step e = some s') : s.Becomes s' := by
  obtain ⟨es, hes, hrun⟩ := h
  refine ⟨es ++ [e], fun e' he' => ?_, run_append hrun (by simp [run, hstep])⟩
  obtain he' | he' := List.mem_append.mp he'
  · exact hes e' he'
  · rw [List.mem_singleton.mp he']
    exact hstart

theorem Blank.move (h : Blank hub s) (hstart : ∀ op, e ≠ .start op) (hm : s.Move e s') :
    Blank hub s' := by
  have hsound := sound_move h.sound hm
  have hadmits : s.admits hub e = true := by
    cases e with
    | start op => exact absurd rfl (hstart op)
    | act | enter | finish | expire | pass | rearrange => rfl
  have hkept := kept_move h.kept h.sound hadmits hm
  cases hm with
  | start op => exact absurd rfl (hstart op)
  | ask htask | go htask => simp [h.tasks] at htask
  | passOver hconn | call hconn | answer _ _ hconn => simp [h.connections] at hconn
  | pass | rearrange => exact ⟨hsound, hkept, h.tasks, h.connections, h.log⟩

theorem Blank.tally (h : Blank hub s) : Tally hub [] s where
  sound := h.sound
  kept := h.kept
  length := by simp [h.connections]
  accepted _ := by simp [System.accepted, h.log, framesDue, since?]
  member {c} _ := by
    have hout : c ∉ s.members hub := fun hmem => by
      have hhome := h.sound.registered.home hmem
      simp [home?, h.connections] at hhome
    simp [hout, stays, since?]

/-- A sink that is reliable to the end was reliable when the operation was issued. -/
theorem Issued.reliable (h : Issued s op x) {c : ConnectionId} (hc : x.Reliable c) :
    s.Reliable c := by
  obtain ⟨new, hnew, -⟩ := h.noted
  intro e he
  exact hc e (by rw [hnew]; exact List.mem_append_left _ he)

/-- **What one more operation adds** once it has returned. -/
theorem Tally.concat (htally : Tally hub ops s) (hquiet : s.Quiet) (hhub : op.hub = hub)
    (hhandle : ∀ d, op.handle? = some d → s.home? d = some hub) (h : Issued s op x)
    (hbecomes : (s.launch op).Becomes x) (hx : x.Quiet) : Tally hub (ops ++ [op]) x := by
  subst hhub
  refine ⟨h.sound, h.kept, ?_, fun {c} hc => ?_, fun {c} hc => ?_⟩
  · rw [h.length hx, htally.length, List.countP_append, List.countP_singleton]
  · have hbefore := h.reliable hc
    rw [h.accepted htally.sound htally.kept hquiet hhandle hbecomes hx hc, framesDue_concat,
      htally.accepted hbefore]
    simp only [htally.member hbefore]
  · rw [h.mem_members_iff hx hc, stays_concat, ← htally.member (h.reliable hc), ← htally.length]
    rfl

theorem InTurn.tally (h : InTurn hub ops x) (hx : x.Quiet) : Tally hub ops x := by
  cases h with
  | blank hnone h => exact hnone ▸ h.tally
  | within hops htally hquiet hhub hhandle hissued hbecomes =>
    exact hops ▸ htally.concat hquiet hhub hhandle hissued hbecomes hx

theorem InTurn.sound (h : InTurn hub ops x) : x.Sound := by
  cases h with
  | blank _ h => exact h.sound
  | within _ _ _ _ _ hissued => exact hissued.sound

theorem InTurn.kept (h : InTurn hub ops x) : x.Kept hub := by
  cases h with
  | blank _ h => exact h.kept
  | within _ _ _ hhub _ hissued => exact hhub ▸ hissued.kept

theorem InTurn.step (h : InTurn hub ops s) (hturn : s.inTurn hub e = true)
    (hstep : s.step e = some s') : InTurn hub (ops ++ e.issues?.toList) s' := by
  have hm := move_of_step hstep
  by_cases hstart : ∃ op, e = .start op
  · obtain ⟨op, rfl⟩ := hstart
    obtain rfl := Option.some.inj hstep
    simp only [inTurn, Bool.and_eq_true, decide_eq_true_eq, beq_iff_eq] at hturn
    obtain ⟨⟨hquiet, rfl⟩, hgiven⟩ := hturn
    have hhandle (d : ConnectionId) (hd : op.handle? = some d) : s.home? d = some op.hub := by
      simpa [hd] using hgiven
    exact .within rfl (h.tally hquiet) hquiet rfl hhandle
      (issued_launch h.sound h.kept hquiet hhandle) ⟨[], by simp, rfl⟩
  · have hnot (op : Operation) : e ≠ .start op := fun heq => hstart ⟨op, heq⟩
    have hnone : e.issues? = none := by
      cases e with
      | start op => exact absurd rfl (hnot op)
      | act | enter | finish | expire | pass | rearrange => rfl
    rw [hnone, Option.toList_none, List.append_nil]
    cases h with
    | blank hops h => exact .blank hops (h.move hnot hm)
    | within hops htally hquiet hhub hhandle hissued hbecomes =>
      exact .within hops htally hquiet hhub hhandle (hissued.move hnot hm)
        (hbecomes.concat hnot hstep)

theorem InTurn.run {es : List Event} (h : InTurn hub ops s) (hturns : s.takesTurns hub es = true)
    (hrun : s.run es = some s') : InTurn hub (ops ++ issued es) s' := by
  induction es generalizing s ops with
  | nil =>
    obtain rfl := Option.some.inj hrun
    simpa [issued] using h
  | cons e es ih =>
    obtain ⟨s₁, hstep, hrest⟩ := Option.bind_eq_some_iff.mp hrun
    simp only [takesTurns, hstep, Option.all_some, Bool.and_eq_true] at hturns
    have htail := ih (h.step hturns.1 hstep) hturns.2 hrest
    cases hissues : e.issues? <;> simpa [issued, List.filterMap_cons, hissues] using htail

theorem blank_init {timeouts : List Time.Duration} (hhub : hub < timeouts.length) :
    Blank hub (init timeouts) :=
  ⟨sound_init timeouts, kept_init hhub, rfl, rfl, rfl⟩

theorem live_run {es : List Event} (h : s.Live) (hturns : s.takesTurns hub es = true)
    (hrun : s.run es = some s') : s'.Live := by
  induction es generalizing s with
  | nil =>
    obtain rfl := Option.some.inj hrun
    exact h
  | cons e es ih =>
    obtain ⟨s₁, hstep, hrest⟩ := Option.bind_eq_some_iff.mp hrun
    simp only [takesTurns, hstep, Option.all_some, Bool.and_eq_true] at hturns
    refine ih (h.move (fun op c hstart hhandle => ?_) (move_of_step hstep)) hturns.2 hrest
    have hturn := hturns.1
    simp only [hstart, inTurn, hhandle, Option.all_some, Bool.and_eq_true, beq_iff_eq] at hturn
    exact ⟨hub, hturn.2⟩

/-- Events for which no other sink is needed issue nothing. -/
theorem unaided_takesTurns {takes : ConnectionId → Bool} {es : List Event}
    (hes : ∀ e ∈ es, e.unaided takes = true) (hrun : s.run es = some s') (hub : HubId) :
    s.takesTurns hub es = true ∧ issued es = [] := by
  induction es generalizing s with
  | nil => exact ⟨rfl, rfl⟩
  | cons e es ih =>
    obtain ⟨s₁, hstep, hrest⟩ := Option.bind_eq_some_iff.mp hrun
    obtain ⟨hturns, hnone⟩ := ih (fun e he => hes e (.tail _ he)) hrest
    have he := hes e (.head _)
    cases e with
    | start op => cases he
    | act | enter | finish | expire | pass | rearrange =>
      exact ⟨by simp [takesTurns, inTurn, hstep, hturns], hnone⟩

/-- A sink that takes every frame in time stays reliable. -/
theorem reliable_unaided {takes : ConnectionId → Bool} {c : ConnectionId} (hc : takes c = true)
    (h : s.Reliable c) (he : e.unaided takes = true) (hm : s.Move e s') : s'.Reliable c := by
  have hlast {d : ConnectionId} {t : TaskId} {o : Occurrence} (ho : d = c → o.isTaken = true)
      (hlog : s'.log = s.log ++ [⟨d, t, o⟩]) : s'.Reliable c := by
    intro x hx hconn
    rw [hlog] at hx
    obtain hx | hx := List.mem_append.mp hx
    · exact h x hx hconn
    · obtain rfl := List.mem_singleton.mp hx
      exact ho hconn
  cases hm with
  | go _ _ hgoing => exact fun x hx => h x (hgoing.log ▸ hx)
  | start | ask | pass | rearrange => exact h
  | passOver | call => exact hlast (fun _ => rfl) rfl
  | @answer _ d conn turn rest deadline result hreturn =>
    refine hlast (fun hd => ?_) rfl
    subst hd
    obtain rfl | rfl := hreturn
    · have hok : result = .ok := by simpa [Event.unaided, hc] using he
      cases turn.errand <;> simp [Occurrence.isTaken, hok]
    · simp [Event.unaided, hc] at he

end InTurn

/-- **Bad peers do not affect good ones.** When operations are issued on a hub one after another,
then once they have returned, a connection whose sink took every frame in time has accepted what was
due to it; a connection to which a write failed has been removed and closed when the operation that
wrote returns; and the operation in flight returns without the help of any other sink. -/
theorem reliable_unaffected {timeouts : List Time.Duration} {hub : HubId}
    (hhub : hub < timeouts.length) {es : List Event} {s : System}
    (hturns : (init timeouts).takesTurns hub es = true) (hrun : (init timeouts).run es = some s) :
    (s.Quiet → ∀ c, s.Reliable c → s.accepted c = framesDue c (issued es)) ∧
    (∀ t d payload reason, ⟨d, t, .answered (.send payload) (.failed (.write reason))⟩ ∈ s.log →
      (s.outcome? t).isSome → d ∉ s.members hub ∧ s.isClosed d = true) ∧
    ∀ takes : ConnectionId → Bool, (∀ c, takes c = true → s.Reliable c) →
      ∃ es' s', (∀ e ∈ es', e.unaided takes = true) ∧ s.run es' = some s' ∧ s'.Quiet ∧
        ∀ c, takes c = true → s'.accepted c = framesDue c (issued es) := by
  have hinTurn : InTurn hub (issued es) s :=
    InTurn.run (.blank rfl (blank_init hhub)) hturns hrun
  refine ⟨fun hquiet c hc => (hinTurn.tally hquiet).accepted hc, ?_, ?_⟩
  · intro t d payload reason hmem hreturned
    obtain ⟨outcome, houtcome⟩ := Option.isSome_iff_exists.mp hreturned
    have hlost : Lost (s.results t) d :=
      ⟨reason, mem_results_iff.mpr ⟨_, mem_history_iff.mpr hmem, rfl⟩⟩
    have hclosed := hinTurn.sound.closed_of_lost houtcome hlost
    exact ⟨(hinTurn.kept.closed hclosed).not_mem, hclosed⟩
  · intro takes htakes
    obtain ⟨es', s', hes', hrun', hquiet⟩ :=
      (live_run (live_init timeouts) hturns hrun).becomes_quiet takes
    obtain ⟨hturns', hnone⟩ := unaided_takesTurns hes' hrun' hub
    have hafter := hinTurn.run hturns' hrun'
    rw [hnone, List.append_nil] at hafter
    refine ⟨es', s', hes', hrun', hquiet, fun c hc => (hafter.tally hquiet).accepted ?_⟩
    exact unaided_preserves (fun h he hm => reliable_unaided hc h he hm) hes' hrun' (htakes c hc)

/-- Two connections are registered, and of the two writes of a broadcast the second is not answered
yet. -/
def oneStalls : List Event :=
  [.start (.register 0), .act 0, .start (.register 0), .act 1, .start (.broadcast 0 [1] none),
    .act 2, .act 2, .act 2, .enter 0, .enter 1, .finish 0 .ok]

/-- It fails, and its close is not answered in time; the first connection is sent a frame, is left
out of a broadcast, and is unregistered. -/
def othersGoOn : List Event :=
  [.finish 1 (.failed (.write "broken pipe")), .act 2, .act 2, .act 2, .enter 1, .pass 50000000,
    .expire 1, .act 2, .start (.sendTo 0 0 [2]), .act 3, .act 3, .enter 0, .finish 0 .ok,
    .start (.broadcast 0 [3] (some 0)), .act 4,
    .start (.unregister 0 0), .act 5, .act 5, .enter 0, .finish 0 .ok,
    .start (.broadcast 0 [4] none), .act 6]

theorem reliable_unaffected_stalled : ∃ s₁ s₂ : System,
    (init [.ofMillis 50]).takesTurns 0 (oneStalls ++ othersGoOn) = true ∧
    (init [.ofMillis 50]).run oneStalls = some s₁ ∧ ¬ s₁.Quiet ∧
    (∃ es s, (∀ e ∈ es, e.unaided (· == 0) = true) ∧ s₁.run es = some s ∧ s.Quiet ∧
      s.accepted 0 = [[1]]) ∧
    s₁.run othersGoOn = some s₂ ∧ s₂.Quiet ∧ s₂.Reliable 0 ∧ s₂.accepted 0 = [[1], [2]] ∧
    (1 ∉ s₂.members 0 ∧ s₂.isClosed 1 = true) := by
  have hhub : 0 < [Time.Duration.ofMillis 50].length := by decide
  obtain ⟨-, -, hreturns⟩ := @reliable_unaffected _ _ hhub oneStalls _ (by decide) rfl
  obtain ⟨hdue, hlost, -⟩ :=
    @reliable_unaffected _ _ hhub (oneStalls ++ othersGoOn) _ (by decide) rfl
  obtain ⟨es, s, hes, hrun, hquiet, haccepted⟩ := hreturns (· == 0) fun c hc => by
    obtain rfl := eq_of_beq hc
    decide
  exact ⟨_, _, by decide, rfl, by decide, ⟨es, s, hes, hrun, hquiet, haccepted 0 rfl⟩, rfl,
    by decide, by decide, hdue (by decide) 0 (by decide),
    hlost 2 1 [1] "broken pipe" (by decide) rfl⟩

end System

end UserDirectory.Hub
