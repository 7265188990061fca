import UserDirectory.Proofs.Hub.Soundness

/-!
# Whom a broadcast reaches

A broadcast is bound to the members that it found when it began: from then on the connections to
which it writes do not change (`Bound.move`). `Conduct.balance` counts what is noted of its writes
at one connection. Each of them reaches the lock once, and then the frame is handed to the sink, or
comes too late since the connection is closed. As no connection is among the members twice, each
gets the frame at most once; and when the broadcast returns, none is left out.
-/

namespace UserDirectory.Hub

/-- The frame that comes too late. -/
def Occurrence.missed? : Occurrence → Option Octets
  | .passedOver (.send payload) => some payload
  | _ => none

/-! ## Counting at one connection -/

/-- Whether a turn is a write of the task. -/
def Turn.isWriteOf (turn : Turn) (t : TaskId) : Bool := turn.task == t && turn.errand != .close

/-- **Writes are let in once.** What a task handed to a sink, and what came too late, is as much as
what has ended and the write that is under way. -/
theorem Conduct.balance {history : List (TaskId × Occurrence)} {closed : Bool}
    {call : Option Turn} (h : Conduct history closed call) (t : TaskId) :
    history.countP (fun x => x.1 == t && x.2.frame?.isSome) +
      history.countP (fun x => x.1 == t && x.2.missed?.isSome) =
    history.countP (fun x => x.1 == t && x.2.result?.isSome) +
      call.toList.countP (·.isWriteOf t) := by
  induction h with
  | nil => rfl
  | called turn _ ih =>
    have hframe : (turn.task == t && (Occurrence.called turn.errand).frame?.isSome) =
        turn.isWriteOf t := by
      unfold Turn.isWriteOf
      cases turn.errand <;> rfl
    simp only [List.countP_append, List.countP_singleton, hframe, Occurrence.missed?,
      Occurrence.result?, Option.isSome_none, Bool.and_false, Bool.false_eq_true, if_false,
      Option.toList_some, Option.toList_none, List.countP_nil] at ih ⊢
    omega
  | @answered history closed turn result _ ih =>
    have hresult : (turn.task == t && (Occurrence.answered turn.errand result).result?.isSome) =
        turn.isWriteOf t := by
      unfold Turn.isWriteOf
      cases turn.errand <;> rfl
    simp only [List.countP_append, List.countP_singleton, hresult, Occurrence.frame?,
      Occurrence.missed?, Option.isSome_none, Bool.and_false, Bool.false_eq_true, if_false,
      Option.toList_some, Option.toList_none, List.countP_nil] at ih ⊢
    omega
  | passedOver u errand _ ih =>
    have hmissed : (Occurrence.passedOver errand).missed?.isSome =
        (Occurrence.passedOver errand).result?.isSome := by
      cases errand <;> rfl
    simp only [List.countP_append, hmissed, List.countP_singleton, Occurrence.frame?,
      Option.isSome_none, Bool.and_false, Bool.false_eq_true, if_false] at ih ⊢
    omega

theorem Conduct.close_called {history : List (TaskId × Occurrence)} {call : Option Turn}
    (h : Conduct history true call) : ∃ u, (u, Occurrence.called .close) ∈ history := by
  generalize hclosed : true = closed at h
  induction h with
  | nil => cases hclosed
  | called turn =>
    have hclose : turn.errand = .close := by simpa using hclosed.symm
    exact ⟨turn.task, by simp [hclose]⟩
  | answered _ _ ih | passedOver _ _ _ ih =>
    obtain ⟨u, hu⟩ := ih hclosed
    exact ⟨u, List.mem_append_left _ hu⟩

/-- What stands in a list to which something is added is the addition, or stood there before. -/
theorem split_concat {α : Type} {l before after : List α} {x y : α}
    (h : l ++ [x] = before ++ y :: after) :
    (l = before ∧ x = y) ∨ ∃ after, l = before ++ y :: after := by
  obtain rfl | ⟨after, last, rfl⟩ := List.eq_nil_or_concat after
  · obtain ⟨hl, hx⟩ := List.append_inj' h rfl
    exact .inl ⟨hl, (List.cons.inj hx).1⟩
  · rw [List.concat_eq_append, ← List.cons_append, ← List.append_assoc] at h
    exact .inr ⟨after, (List.append_inj' h rfl).1⟩

/-- **What comes too late was closed before.** -/
theorem Conduct.closed_before {history before after : List (TaskId × Occurrence)} {closed : Bool}
    {call : Option Turn} {t : TaskId} {errand : Errand} (h : Conduct history closed call)
    (hsplit : history = before ++ (t, .passedOver errand) :: after) :
    ∃ u, (u, Occurrence.called .close) ∈ before := by
  induction h generalizing after with
  | nil => simp at hsplit
  | called turn h ih | answered result h ih =>
    obtain ⟨-, hlast⟩ | ⟨after, hsplit⟩ := split_concat hsplit
    · simp at hlast
    · exact ih hsplit
  | passedOver u errand' h ih =>
    obtain ⟨rfl, -⟩ | ⟨after, hsplit⟩ := split_concat hsplit
    · exact h.close_called
    · exact ih hsplit

namespace System

/-- The frames that a task handed to a sink. -/
def sendsOf (s : System) (t : TaskId) (c : ConnectionId) : List Octets :=
  (s.history c).filterMap fun x => if x.1 = t then x.2.frame? else none

/-- The frames of a task that came too late for a connection. -/
def missesOf (s : System) (t : TaskId) (c : ConnectionId) : List Octets :=
  (s.history c).filterMap fun x => if x.1 = t then x.2.missed? else none

theorem length_filterMap_history (history : List (TaskId × Occurrence)) (t : TaskId)
    (f : Occurrence → Option Octets) :
    (history.filterMap fun x => if x.1 = t then f x.2 else none).length =
      history.countP fun x => x.1 == t && (f x.2).isSome := by
  rw [List.length_filterMap_eq_countP]
  refine List.countP_congr fun x _ => ?_
  by_cases hx : x.1 = t <;> simp [hx]

theorem count_results (s : System) (t : TaskId) (c : ConnectionId) :
    ((s.results t).map Prod.fst).count c =
      (s.history c).countP fun x => x.1 == t && x.2.result?.isSome := by
  rw [List.count_eq_countP, List.countP_map, results, history, List.countP_filterMap,
    List.countP_filterMap]
  refine List.countP_congr fun e _ => ?_
  by_cases ht : e.task = t
  · by_cases hc : e.connection = c
    · cases hr : e.occurrence.result? <;> simp [ht, hc, hr]
    · cases e.occurrence.result? <;> simp [ht, hc]
  · by_cases hc : e.connection = c <;> simp [ht, hc]

/-- Who stands in line to write owes that write. -/
theorem write_owed {s : System} {c : ConnectionId} {conn : Connection} {turn : Turn}
    (hconn : s.connections[c]? = some conn) (hturn : turn ∈ conn.line) (t : TaskId) :
    (if turn.isWriteOf t then 1 else 0) ≤
      (((s.owing t).filter (·.2 != .close)).map Prod.fst).count c := by
  split
  · rename_i hwrite
    obtain ⟨htask, herrand⟩ := Bool.and_eq_true_iff.mp hwrite
    have howed : (c, turn.errand) ∈ s.owing t :=
      eq_of_beq htask ▸ mem_owing_of_line hconn hturn
    exact List.count_pos_iff.mpr
      (List.mem_map.mpr ⟨_, List.mem_filter.mpr ⟨howed, herrand⟩, rfl⟩)
  · exact Nat.zero_le _

/-- Each write of a task that reached the lock of a connection is one of those it is bound to. -/
theorem Sound.balance {s : System} (h : s.Sound) (t : TaskId) (c : ConnectionId) :
    (s.sendsOf t c).length + (s.missesOf t c).length ≤ (s.reach t).count c ∧
      (s.owing t = [] →
        (s.sendsOf t c).length + (s.missesOf t c).length = (s.reach t).count c) := by
  have hreach : (s.reach t).count c = (s.history c).countP (fun x => x.1 == t && x.2.result?.isSome)
      + (((s.owing t).filter (·.2 != .close)).map Prod.fst).count c := by
    rw [reach, List.count_append, count_results]
  rw [hreach, sendsOf, missesOf, length_filterMap_history, length_filterMap_history]
  by_cases hlt : c < s.connections.length
  · have hconn := List.getElem?_eq_getElem hlt
    cases h.lawful.follows hconn with
    | idle _ hconduct =>
      -- no call is under way: all that got in has ended
      have hbalance := hconduct.balance t
      simp only [Option.toList_none, List.countP_nil, Nat.add_zero] at hbalance
      refine ⟨by omega, fun hnone => ?_⟩
      rw [hbalance, hnone]
      rfl
    | @busy turn rest deadline _ hline hconduct =>
      -- the call under way, if it is a write of the task, is one that the task still owes
      have hbalance := hconduct.balance t
      simp only [Option.toList_some, List.countP_singleton] at hbalance
      have hturn := write_owed hconn (hline ▸ List.mem_cons_self) t
      refine ⟨by omega, fun hnone => ?_⟩
      rw [hnone, List.filter_nil, List.map_nil, List.count_nil] at hturn ⊢
      omega
  · have hblank := h.lawful.blank (Nat.le_of_not_lt hlt)
    rw [hblank]
    refine ⟨Nat.zero_le _, fun hnone => ?_⟩
    rw [hnone]
    rfl

theorem payload_of_sent {s : System} (h : s.Sound) {t : TaskId} {c : ConnectionId}
    {o : Occurrence} {payload : Octets} (hmem : (t, o) ∈ s.history c)
    (herrand : o.errand = .send payload) : s.payload? t = some payload := by
  obtain ⟨e, he, heq⟩ := List.mem_filterMap.mp hmem
  split at heq
  · obtain ⟨rfl, rfl⟩ := Prod.mk.inj (Option.some.inj heq)
    exact h.payload he herrand
  · cases heq

theorem mem_sendsOf {s : System} {t : TaskId} {c : ConnectionId} {payload : Octets}
    (hmem : payload ∈ s.sendsOf t c) : (t, .called (.send payload)) ∈ s.history c := by
  obtain ⟨⟨u, o⟩, hnoted, heq⟩ := List.mem_filterMap.mp hmem
  split at heq
  · rename_i hu
    obtain rfl : u = t := hu
    match o, heq with
    | .called (.send _), rfl => exact hnoted
  · cases heq

theorem mem_missesOf {s : System} {t : TaskId} {c : ConnectionId} {payload : Octets}
    (hmem : payload ∈ s.missesOf t c) : (t, .passedOver (.send payload)) ∈ s.history c := by
  obtain ⟨⟨u, o⟩, hnoted, heq⟩ := List.mem_filterMap.mp hmem
  split at heq
  · rename_i hu
    obtain rfl : u = t := hu
    match o, heq with
    | .passedOver (.send _), rfl => exact hnoted
  · cases heq

/-! ## A broadcast is bound to the members that it found -/

theorem Going.ne_starting {s s₁ : System} {op : Operation} {p p' : Progress}
    {asks : List (ConnectionId × Errand)} (h : Going s op p s₁ p' asks) : p' ≠ .starting := by
  cases h <;> exact Progress.noConfusion

theorem after_ne_starting {p : Progress} (hp : p ≠ .starting) (c : ConnectionId) (errand : Errand)
    (result : Sent) : p.after c errand result ≠ .starting := by
  cases errand with
  | send payload =>
    simp only [Progress.after]
    unfold Progress.afterSend
    split
    · dsimp only
      split <;> exact Progress.noConfusion
    · split <;> exact Progress.noConfusion
    · exact hp
  | close =>
    simp only [Progress.after]
    unfold Progress.afterClose
    split
    · exact Progress.noConfusion
    · exact Progress.noConfusion
    · exact Progress.noConfusion
    · split <;> exact Progress.noConfusion
    · exact hp

/-- A task that has begun is bound to the connections to which it writes. -/
structure Bound (s : System) (t : TaskId) (op : Operation) (targets : List ConnectionId) :
    Prop where
  begun : ∃ p, s.status t = some (op, p) ∧ p ≠ .starting
  reach : (s.reach t).Perm targets

theorem Bound.move {s s' : System} {e : Event} {t : TaskId} {op : Operation}
    {targets : List ConnectionId} (hs : s.Sound) (hm : s.Move e s') (h : Bound s t op targets) :
    Bound s' t op targets := by
  obtain ⟨⟨p, hstatus, hp⟩, hreach⟩ := h
  cases hm.advance hs.lawful t with
  | rested hstatus' howing hresults =>
    exact ⟨⟨p, hstatus'.trans hstatus, hp⟩, (reach_congr howing hresults).trans hreach⟩
  | begun hnone => rw [hnone] at hstatus; cases hstatus
  | went _ hwent =>
    obtain ⟨rfl, rfl⟩ := Prod.mk.inj (Option.some.inj (hstatus.symm.trans hwent.status))
    refine ⟨⟨_, hwent.status', hwent.going.ne_starting⟩, ?_⟩
    rw [hwent.reach (hs.standing hstatus), if_neg hp, List.append_nil]
    exact hreach
  | ended result hstatus' howing hresults =>
    rw [hstatus, Option.map_some] at hstatus'
    exact ⟨⟨_, hstatus', after_ne_starting hp _ _ _⟩, (reach_ended howing hresults).trans hreach⟩

/-- **A task writes to those whom it found when it began.** -/
theorem Sound.bound_of_run {s s' : System} {es : List Event} {t : TaskId} {op : Operation}
    (h : s.Sound) (hstarting : s.status t = some (op, .starting))
    (hrun : s.run (.act t :: es) = some s') : Bound s' t op (s.targets op) := by
  obtain ⟨s₁, hstep, hrest⟩ := Option.bind_eq_some_iff.mp hrun
  obtain ⟨s₂, p, asks, hwent⟩ := h.went_of_act hstarting hstep
  have hbound : Bound s₁ t op (s.targets op) := by
    refine ⟨⟨p, hwent.status', hwent.going.ne_starting⟩, ?_⟩
    rw [hwent.reach (h.standing hstarting), if_pos rfl, (h.standing hstarting).reach_starting]
    exact .refl _
  exact (run_preserves (P := fun s => s.Sound ∧ Bound s t op _)
    (fun ⟨hs, hb⟩ hm => ⟨sound_move hs hm, hb.move hs hm⟩)
    ⟨sound_move h (move_of_step hstep), hbound⟩ hrest).2

/-! ## What sinks accept -/

/-- The tasks whose write a sink accepted, in the order in which it did. -/
def writers (s : System) (c : ConnectionId) : List TaskId :=
  s.log.filterMap fun e =>
    if e.connection = c ∧ e.occurrence.result? = some .ok then some e.task else none

theorem eq_answered_of_result? {o : Occurrence} (h : o.result? = some .ok) :
    ∃ payload, o = .answered (.send payload) .ok := by
  match o, h with
  | .answered (.send payload) .ok, _ => exact ⟨payload, rfl⟩

/-- A task is among the writers as often as a write of it on the connection succeeded. -/
theorem count_writers (s : System) (t : TaskId) (c : ConnectionId) :
    (s.writers c).count t = (s.results t).count (c, .ok) := by
  rw [List.count_eq_countP, List.count_eq_countP, writers, results, List.countP_filterMap,
    List.countP_filterMap]
  refine List.countP_congr fun e _ => ?_
  by_cases ht : e.task = t
  · cases e.occurrence.result? with
    | none => simp [ht]
    | some result =>
      by_cases hc : e.connection = c <;> by_cases hok : result = .ok <;> simp [ht, hc, hok]
  · by_cases hok : e.connection = c ∧ e.occurrence.result? = some .ok <;> simp [ht, hok]

theorem mem_writers_iff {s : System} {t : TaskId} {c : ConnectionId} :
    t ∈ s.writers c ↔ (c, .ok) ∈ s.results t := by
  rw [← List.count_pos_iff, count_writers, List.count_pos_iff]

theorem Sound.writers_nodup {s : System} (h : s.Sound) (c : ConnectionId) :
    (s.writers c).Nodup := by
  refine List.nodup_iff_count.mpr fun t => ?_
  have hmap : (s.results t).count (c, .ok) ≤ ((s.results t).map Prod.fst).count c :=
    List.count_le_count_map (f := Prod.fst) (x := (c, Sent.ok))
  calc (s.writers c).count t = (s.results t).count (c, .ok) := count_writers s t c
    _ ≤ ((s.results t).map Prod.fst).count c := hmap
    _ ≤ (s.reach t).count c := by rw [reach, List.count_append]; exact Nat.le_add_right _ _
    _ ≤ 1 := List.nodup_iff_count.mp (h.once t) c

/-- The frames that a sink accepted of some of the tasks, in order. -/
def acceptedOf (s : System) (c : ConnectionId) (p : TaskId → Bool) : List Octets :=
  s.log.filterMap fun e =>
    match e.occurrence with
    | .answered (.send payload) .ok =>
      if e.connection = c ∧ p e.task = true then some payload else none
    | _ => none

theorem accepted_eq_acceptedOf (s : System) (c : ConnectionId) :
    s.accepted c = s.acceptedOf c fun _ => true := by
  unfold acceptedOf
  simp only [and_true]
  rfl

/-- What a sink accepted of some tasks is what those of them wrote whose write on it succeeded. -/
theorem Sound.acceptedOf_eq {s : System} (h : s.Sound) (c : ConnectionId) (p : TaskId → Bool) :
    (s.acceptedOf c p).map some = ((s.writers c).filter p).map s.payload? := by
  have hpayload : ∀ e ∈ s.log, ∀ payload, e.occurrence = .answered (.send payload) .ok →
      s.payload? e.task = some payload :=
    fun e he payload ho => h.payload he (ho ▸ rfl)
  unfold acceptedOf writers
  generalize s.log = log at hpayload
  induction log with
  | nil => rfl
  | cons e log ih =>
    have ih := ih fun e he => hpayload e (.tail _ he)
    have he := hpayload e (.head _)
    obtain ⟨d, t, o⟩ := e
    by_cases hr : o.result? = some .ok
    · obtain ⟨payload, rfl⟩ := eq_answered_of_result? hr
      by_cases hd : d = c <;> by_cases ht : p t = true <;>
        simp [hd, ht, hr, ih, he payload rfl]
    · have hnone : ∀ payload, o ≠ .answered (.send payload) .ok := fun payload ho => by
        rw [ho] at hr
        exact hr rfl
      simp only [List.filterMap_cons, hr, and_false, if_false]
      exact ih

/-- What a sink accepted is what the writers wrote whose write on it succeeded. -/
theorem Sound.accepted_eq {s : System} (h : s.Sound) (c : ConnectionId) :
    (s.accepted c).map some = (s.writers c).map s.payload? := by
  rw [accepted_eq_acceptedOf, h.acceptedOf_eq, List.filter_eq_self.mpr fun _ _ => rfl]

theorem Sound.okCount_eq {s : System} (h : s.Sound) {t : TaskId} {payload : Octets}
    (hpayload : s.payload? t = some payload) :
    okCount (s.results t) =
      s.log.countP fun e => e.task = t ∧ e.occurrence = .answered (.send payload) .ok := by
  rw [okCount, results, List.countP_filterMap]
  refine List.countP_congr fun e he => ?_
  by_cases ht : e.task = t
  · have hok : e.occurrence.result? = some .ok ↔
        e.occurrence = .answered (.send payload) .ok := by
      refine ⟨fun hr => ?_, fun ho => by rw [ho]; rfl⟩
      obtain ⟨payload', ho⟩ := eq_answered_of_result? hr
      have heq : s.payload? e.task = some payload' := h.payload he (ho ▸ rfl)
      rw [ht, hpayload] at heq
      obtain rfl := Option.some.inj heq
      exact ho
    rw [decide_eq_true_iff, ← hok]
    cases e.occurrence.result? <;> simp [ht]
  · simp [ht]

/-! ## Broadcasts -/

/-- What has become of a broadcast of `payload` that found the members `found`. -/
structure FannedOut (s : System) (t : TaskId) (payload : Octets) (found : List ConnectionId) :
    Prop where
  /-- the payload is handed to each of the members at most once, and to no one else -/
  sends : ∀ c, s.sendsOf t c = [] ∨ c ∈ found ∧ s.sendsOf t c = [payload]
  /-- when the broadcast has returned, the payload was handed to each of them, or came too late -/
  reached : ∀ outcome, s.outcome? t = some outcome → ∀ c ∈ found,
    s.sendsOf t c = [payload] ∨
      s.sendsOf t c = [] ∧ (t, .passedOver (.send payload)) ∈ s.history c
  /-- what comes too late for a connection comes after it was closed -/
  missed : ∀ c before after, s.history c = before ++ (t, .passedOver (.send payload)) :: after →
    ∃ u, (u, .called .close) ∈ before
  /-- it returns the number of the writes that succeeded -/
  returned : ∀ outcome, s.outcome? t = some outcome →
    outcome = .broadcast
      (s.log.countP fun e => e.task = t ∧ e.occurrence = .answered (.send payload) .ok)

/-- Frames of a task that has a payload, of which there is at most one. -/
theorem eq_nil_or_singleton {s : System} {t : TaskId} {payload : Octets} {frames : List Octets}
    (hpayload : s.payload? t = some payload) (hframes : ∀ q ∈ frames, s.payload? t = some q)
    (hlength : frames.length ≤ 1) : frames = [] ∨ frames = [payload] := by
  match frames, hframes, hlength with
  | [], _, _ => exact .inl rfl
  | [q], hframes, _ =>
    obtain rfl := Option.some.inj (hpayload.symm.trans (hframes q (.head _)))
    exact .inr rfl

theorem Sound.fannedOut {s : System} (h : s.Sound) {t : TaskId} {hub : HubId} {payload : Octets}
    {except : Option ConnectionId} {found : List ConnectionId}
    (hbound : Bound s t (.broadcast hub payload except) found) : FannedOut s t payload found := by
  obtain ⟨⟨p, hstatus, -⟩, hreach⟩ := hbound
  have hpayload : s.payload? t = some payload := by
    rw [payload?, op?_of_status hstatus]
    rfl
  have honce (c : ConnectionId) : (s.reach t).count c ≤ 1 :=
    List.nodup_iff_count.mp (h.once t) c
  have hsends (c : ConnectionId) : s.sendsOf t c = [] ∨ s.sendsOf t c = [payload] := by
    have hbalance := (h.balance t c).1
    have hone := honce c
    exact eq_nil_or_singleton hpayload
      (fun q hq => payload_of_sent h (mem_sendsOf hq) rfl) (by omega)
  refine ⟨fun c => ?_, fun outcome houtcome c hc => ?_, fun c before after hsplit => ?_,
    fun outcome houtcome => ?_⟩
  · refine (hsends c).imp_right fun hsome => ⟨hreach.mem_iff.mp ?_, hsome⟩
    have hbalance := (h.balance t c).1
    rw [hsome, List.length_singleton] at hbalance
    exact List.count_pos_iff.mp (by omega)
  · refine (hsends c).symm.imp_right fun hnone => ⟨hnone, mem_missesOf ?_⟩
    obtain ⟨op, hfinished⟩ := outcome?_eq_some_iff.mp houtcome
    have howing : s.owing t = [] := by
      cases h.standing hfinished with
      | finished howing => exact howing
    have hbalance := (h.balance t c).2 howing
    have hone := honce c
    have hfound : 0 < (s.reach t).count c := List.count_pos_iff.mpr (hreach.mem_iff.mpr hc)
    rw [hnone, List.length_nil] at hbalance
    have hmissed : s.missesOf t c = [] ∨ s.missesOf t c = [payload] :=
      eq_nil_or_singleton hpayload (fun q hq => payload_of_sent h (mem_missesOf hq) rfl) (by omega)
    obtain hmissed | hmissed := hmissed
    · rw [hmissed, List.length_nil] at hbalance
      omega
    · rw [hmissed]
      exact .head _
  · by_cases hlt : c < s.connections.length
    · cases h.lawful.follows (List.getElem?_eq_getElem hlt) with
      | idle _ hconduct | busy _ _ hconduct => exact hconduct.closed_before hsplit
    · rw [h.lawful.blank (Nat.le_of_not_lt hlt)] at hsplit
      simp at hsplit
  · obtain ⟨op, hfinished⟩ := outcome?_eq_some_iff.mp houtcome
    obtain ⟨rfl, rfl⟩ := Prod.mk.inj (Option.some.inj (hfinished.symm.trans hstatus))
    cases h.standing hfinished with
    | finished _ hsettled =>
      cases hsettled with
      | broadcast _ _ _ hcount => rw [hcount, h.okCount_eq hpayload]

/-- **Fan-out is exact.** A broadcast hands its payload to each of the members that it found at most
once and to no one else, and leaves out none but those that were closed before their lock was
reached; it returns how many of these writes succeeded. What a sink accepted are the payloads of the
broadcasts and sends whose write on it succeeded, each once; and of a send it is known by its
result. -/
theorem fan_out_exact {timeouts : List Time.Duration} {s : System} (h : Reachable timeouts s) :
    (∀ s₀ es t hub payload except, Reachable timeouts s₀ →
      s₀.status t = some (.broadcast hub payload except, .starting) →
      s₀.run (.act t :: es) = some s →
      FannedOut s t payload ((s₀.members hub).filter fun c => some c != except)) ∧
    (∀ c, (s.writers c).Nodup ∧ (s.accepted c).map some = (s.writers c).map s.payload?) ∧
    (∀ t hub c payload result,
      s.status t = some (.sendTo hub c payload, .finished (.sent result)) →
      (result = .ok ↔ t ∈ s.writers c)) := by
  have hs : s.Sound := sound_reachable h
  refine ⟨?_, fun c => ⟨hs.writers_nodup c, hs.accepted_eq c⟩, ?_⟩
  · intro s₀ es t hub payload except h₀ hstarting hrun
    exact hs.fannedOut ((sound_reachable h₀).bound_of_run hstarting hrun)
  · intro t hub c payload result hstatus
    rw [mem_writers_iff]
    cases hs.standing hstatus with
    | finished _ hsettled =>
      cases hsettled with
      | sendTo _ _ hresults =>
        rw [hresults]
        simp [eq_comm]

/-- Four connections are registered, and a broadcast to all but the first is about to begin. -/
def gathered : List Event :=
  [.start (.register 0), .act 0, .start (.register 0), .act 1, .start (.register 0), .act 2,
    .start (.register 0), .act 3, .start (.broadcast 0 [7] (some 0))]

/-- The broadcast, of whose three writes one succeeds, one comes after an unregistration and one
fails; and then a send to the first connection. -/
def fanningOut : List Event :=
  [.act 4, .start (.unregister 0 2), .act 5, .act 5, .enter 2, .finish 2 .ok,
    .act 4, .act 4, .act 4, .enter 1, .enter 2, .enter 3, .finish 1 .ok,
    .finish 3 (.failed (.write "broken pipe")), .act 4, .act 4, .act 4, .act 4, .enter 3,
    .finish 3 .ok, .act 4, .start (.sendTo 0 0 [8]), .act 6, .act 6, .enter 0, .finish 0 .ok]

theorem fan_out_exact_mixed : ∃ s₀ s : System, Reachable [.ofMillis 50] s₀ ∧
    s₀.status 4 = some (.broadcast 0 [7] (some 0), .starting) ∧ s₀.run fanningOut = some s ∧
    s.outcome? 4 = some (.broadcast 1) ∧ FannedOut s 4 [7] [1, 2, 3] ∧
    s.writers 1 = [4] ∧ (s.writers 1).Nodup ∧
    (s.accepted 1).map some = (s.writers 1).map s.payload? ∧
    s.status 6 = some (.sendTo 0 0 [8], .finished (.sent .ok)) ∧ 6 ∈ s.writers 0 := by
  obtain ⟨hbroadcast, haccepted, hsent⟩ :=
    @fan_out_exact [.ofMillis 50] _ ⟨gathered ++ fanningOut, rfl⟩
  have hfanned := hbroadcast _ fanningOut.tail 4 0 [7] (some 0) ⟨gathered, rfl⟩ rfl rfl
  have hsent₀ := (hsent 6 0 0 [8] .ok rfl).mp rfl
  exact ⟨_, _, ⟨gathered, rfl⟩, rfl, rfl, rfl, hfanned, rfl, (haccepted 1).1, (haccepted 1).2,
    rfl, hsent₀⟩

end System

end UserDirectory.Hub
