import UserDirectory.Proofs.Hub.Lock

/-!
# What a task still has to do

An errand is owed by a task from the moment at which the task decides on it until it ends: first the
task is yet to ask for the lock, then it stands in the line. `owing` lists what a task owes, and
`results` what came of its writes. Nothing gets lost between the two: `Advance` says that an event
leaves a task as it is, begins it, lets it go on by itself, or ends exactly one of its errands,
whose result is noted.
-/

namespace UserDirectory.Hub

namespace Occurrence

/-- What came of a write, once it has ended. -/
def result? : Occurrence → Option Sent
  | answered (.send _) result => some result
  | passedOver (.send _) => some (.failed .closed)
  | _ => none

/-- The errand of which something came. -/
def errand : Occurrence → Errand
  | called errand => errand
  | answered errand _ => errand
  | passedOver errand => errand

end Occurrence

/-- The errands of a task that stand in the line of a connection. -/
def Connection.errandsOf (conn : Connection) (c : ConnectionId) (t : TaskId) :
    List (ConnectionId × Errand) :=
  (conn.line.filter (·.task == t)).map fun turn => (c, turn.errand)

/-! ## A list in which one element changes -/

/-- When one element changes, what is made of the list changes by what is made of that element. -/
theorem perm_flatMap_modify {α β : Type} (f : α × Nat → List β) (g : α → α) {xs : List α} {i : Nat}
    {x : α} (n : Nat) (h : xs[i]? = some x) :
    (((xs.modify i g).zipIdx n).flatMap f ++ f (x, n + i)).Perm
      ((xs.zipIdx n).flatMap f ++ f (g x, n + i)) := by
  induction xs generalizing i n with
  | nil => simp at h
  | cons y ys ih =>
    cases i with
    | zero =>
      obtain rfl : y = x := by simpa using h
      simp only [List.modify_zero_cons, List.zipIdx_cons, List.flatMap_cons, Nat.add_zero]
      -- the two images change places around the rest of the list
      refine List.perm_append_comm.trans ?_
      rw [List.append_assoc]
      exact List.Perm.append_left _ List.perm_append_comm
    | succ i =>
      simp only [List.modify_succ_cons, List.zipIdx_cons, List.flatMap_cons, List.append_assoc]
      have hshift : n + (i + 1) = (n + 1) + i := by omega
      rw [hshift]
      exact (ih (n + 1) (by simpa using h)).append_left _

namespace System

/-- The operation of a task, and how far it has come. -/
def status (s : System) (t : TaskId) : Option (Operation × Progress) :=
  s.tasks[t]?.map fun task => (task.op, task.progress)

/-- What came of the writes of a task, in the order in which they ended. -/
def results (s : System) (t : TaskId) : List (ConnectionId × Sent) :=
  s.log.filterMap fun e =>
    if e.task = t then e.occurrence.result?.map (e.connection, ·) else none

/-- The errands of a task for which it is yet to ask. -/
def unasked (s : System) (t : TaskId) : List (ConnectionId × Errand) :=
  (s.tasks[t]?.map (·.asks)).getD []

/-- The errands of a task that stand in the lines. -/
def queued (s : System) (t : TaskId) : List (ConnectionId × Errand) :=
  s.connections.zipIdx.flatMap fun x => x.1.errandsOf x.2 t

/-- The errands of a task that have not ended. -/
def owing (s : System) (t : TaskId) : List (ConnectionId × Errand) := s.unasked t ++ s.queued t

/-- The connections to which a task writes: those where it is done, and those where it is not. -/
def reach (s : System) (t : TaskId) : List ConnectionId :=
  (s.results t).map Prod.fst ++ ((s.owing t).filter (·.2 != .close)).map Prod.fst

theorem status_eq_some_iff {s : System} {t : TaskId} {op : Operation} {p : Progress} :
    s.status t = some (op, p) ↔ ∃ task, s.tasks[t]? = some task ∧ task.op = op ∧
      task.progress = p := by
  simp [status, Option.map_eq_some_iff]

/-- A task of which an errand has ended had the same operation before. -/
theorem status_of_after {s s' : System} {t : TaskId} {op : Operation} {p' : Progress}
    {c : ConnectionId} {errand : Errand} {result : Sent}
    (h : s'.status t = (s.status t).map fun x => (x.1, x.2.after c errand result))
    (hp' : s'.status t = some (op, p')) :
    ∃ p, s.status t = some (op, p) ∧ p.after c errand result = p' := by
  obtain ⟨⟨op₀, p⟩, hp, heq⟩ := Option.map_eq_some_iff.mp (h.symm.trans hp')
  obtain ⟨rfl, hafter⟩ := Prod.mk.inj heq
  exact ⟨p, hp, hafter⟩

theorem outcome?_eq_some_iff {s : System} {t : TaskId} {o : Outcome} :
    s.outcome? t = some o ↔ ∃ op, s.status t = some (op, .finished o) := by
  unfold outcome? status
  cases s.tasks[t]? with
  | none => simp
  | some task =>
    obtain ⟨op, p, asks⟩ := task
    cases p <;> simp

/-! ## Lines -/

theorem queued_congr {s s' : System} (h : s'.connections = s.connections) (t : TaskId) :
    s'.queued t = s.queued t := by
  unfold queued
  rw [h]

theorem queued_append {s s' : System} {conn : Connection}
    (h : s'.connections = s.connections ++ [conn]) (hline : conn.line = []) (t : TaskId) :
    s'.queued t = s.queued t := by
  simp [queued, h, List.zipIdx_append, Connection.errandsOf, hline]

/-- When a connection changes, what stands in the lines changes as its own line does. -/
theorem queued_modify {s s' : System} {c : ConnectionId} {conn : Connection}
    {f : Connection → Connection} (h : s'.connections = s.connections.modify c f)
    (hconn : s.connections[c]? = some conn) (t : TaskId) :
    (s'.queued t ++ conn.errandsOf c t).Perm (s.queued t ++ (f conn).errandsOf c t) := by
  have hperm := perm_flatMap_modify (fun x => Connection.errandsOf x.1 x.2 t) f 0 hconn
  rw [Nat.zero_add] at hperm
  unfold queued
  rw [h]
  exact hperm

theorem queued_modify_of_line {s s' : System} {c : ConnectionId} {conn : Connection}
    {f : Connection → Connection} (h : s'.connections = s.connections.modify c f)
    (hconn : s.connections[c]? = some conn) (hline : (f conn).line = conn.line) (t : TaskId) :
    (s'.queued t).Perm (s.queued t) := by
  have hperm := queued_modify h hconn t
  have hsame : (f conn).errandsOf c t = conn.errandsOf c t := by
    simp only [Connection.errandsOf, hline]
  rw [hsame] at hperm
  exact (List.perm_append_right_iff _).mp hperm

theorem queued_ask {s : System} {c : ConnectionId} (hlt : c < s.connections.length) (t : TaskId)
    (errand : Errand) (t' : TaskId) :
    ((s.ask t c errand).queued t').Perm
      (s.queued t' ++ if t = t' then [(c, errand)] else []) := by
  have hconn : s.connections[c]? = some s.connections[c] := List.getElem?_eq_getElem hlt
  have hperm : ((s.ask t c errand).queued t' ++ _).Perm _ := queued_modify rfl hconn t'
  have hown : ({ s.connections[c] with line := s.connections[c].line ++ [⟨t, errand⟩] } :
      Connection).errandsOf c t' =
        (s.connections[c]).errandsOf c t' ++ if t = t' then [(c, errand)] else [] := by
    by_cases ht : t = t' <;> simp [Connection.errandsOf, ht]
  rw [hown] at hperm
  refine (List.perm_append_right_iff ((s.connections[c]).errandsOf c t')).mp (hperm.trans ?_)
  rw [List.append_assoc]
  exact List.Perm.append_left _ List.perm_append_comm

theorem queued_drop {s s' : System} {c : ConnectionId} {conn : Connection} {turn : Turn}
    {rest : List Turn}
    (h : s'.connections = s.connections.modify c fun conn =>
      { conn with line := conn.line.drop 1, deadline := none })
    (hconn : s.connections[c]? = some conn) (hline : conn.line = turn :: rest) (t : TaskId) :
    (s.queued t).Perm ((if turn.task = t then [(c, turn.errand)] else []) ++ s'.queued t) := by
  have hperm := queued_modify h hconn t
  let conn' : Connection := { conn with line := conn.line.drop 1, deadline := none }
  have hown : conn.errandsOf c t =
      (if turn.task = t then [(c, turn.errand)] else []) ++ conn'.errandsOf c t := by
    by_cases ht : turn.task = t <;> simp [conn', Connection.errandsOf, hline, ht]
  rw [hown, ← List.append_assoc] at hperm
  exact ((List.perm_append_right_iff _).mp hperm).symm.trans List.perm_append_comm

theorem mem_owing_of_line {s : System} {c : ConnectionId} {conn : Connection} {turn : Turn}
    (hconn : s.connections[c]? = some conn) (hturn : turn ∈ conn.line) :
    (c, turn.errand) ∈ s.owing turn.task := by
  refine List.mem_append_right _ (List.mem_flatMap.mpr ⟨(conn, c), ?_, ?_⟩)
  · exact List.mem_zipIdx_iff_getElem?.mpr hconn
  · exact List.mem_map.mpr ⟨turn, by simp [hturn], rfl⟩

/-! ## What is noted -/

theorem results_congr {s s' : System} (h : s'.log = s.log) (t : TaskId) :
    s'.results t = s.results t := by
  unfold results
  rw [h]

theorem results_note {s s' : System} {c : ConnectionId} {u : TaskId} {o : Occurrence}
    (h : s'.log = s.log ++ [⟨c, u, o⟩]) (t : TaskId) :
    s'.results t =
      s.results t ++ if u = t then (o.result?.map (c, ·)).toList else [] := by
  unfold results
  rw [h, List.filterMap_append]
  by_cases hu : u = t
  · cases hr : o.result? <;> simp [hu, hr]
  · simp [hu]

/-! ## One event and one task -/

theorem Going.tasks {s s₁ : System} {op : Operation} {p p' : Progress}
    {asks : List (ConnectionId × Errand)} (h : Going s op p s₁ p' asks) : s₁.tasks = s.tasks := by
  cases h <;> rfl

/-- What is noted when an errand has ended. -/
def ended (c : ConnectionId) (errand : Errand) (result : Sent) : List (ConnectionId × Sent) :=
  match errand with
  | .send _ => [(c, result)]
  | .close => []

/-- A task of the operation `op` has gone on by itself from `p` to `p'`: it leaves the registries of
`s₁` behind and now owes `asks` besides what it owed. -/
structure Went (s s' : System) (t : TaskId) (op : Operation) (p : Progress) (s₁ : System)
    (p' : Progress) (asks : List (ConnectionId × Errand)) : Prop where
  going : Going s op p s₁ p' asks
  hubs : s'.hubs = s₁.hubs
  status : s.status t = some (op, p)
  status' : s'.status t = some (op, p')
  owing : s.owing t = s.queued t
  owing' : s'.owing t = asks ++ s.queued t
  results : s'.results t = s.results t

/-- What a single event can mean for a task. -/
inductive Advance (s : System) (e : Event) (s' : System) (t : TaskId) : Prop
  | rested (hstatus : s'.status t = s.status t) (howing : (s'.owing t).Perm (s.owing t))
      (hresults : s'.results t = s.results t)
  | begun {op : Operation} (hnone : s.status t = none)
      (hstatus : s'.status t = some (op, .starting)) (howing : s'.owing t = s.owing t)
      (hresults : s'.results t = s.results t) (hstart : e = .start op)
  | went {op : Operation} {p p' : Progress} {s₁ : System} {asks : List (ConnectionId × Errand)}
      (hact : e = .act t) (h : Went s s' t op p s₁ p' asks)
  | ended {c : ConnectionId} {errand : Errand} (result : Sent)
      (hstatus : s'.status t = (s.status t).map fun x => (x.1, x.2.after c errand result))
      (howing : (s.owing t).Perm ((c, errand) :: s'.owing t))
      (hresults : s'.results t = s.results t ++ ended c errand result)
      (hshut : errand = .close → s'.isShut c = true)

/-- A task that is left alone rests, whatever is done to lines in which it keeps its places. -/
theorem Advance.of_getElem? {s s' : System} {e : Event} {t : TaskId}
    (htask : s'.tasks[t]? = s.tasks[t]?)
    (hqueued : (s'.queued t).Perm (s.queued t)) (hresults : s'.results t = s.results t) :
    Advance s e s' t := by
  refine .rested ?_ ?_ hresults
  · simp only [status, htask]
  · simp only [owing, unasked, htask]
    exact hqueued.append_left _

theorem Going.queued {s s₁ : System} {op : Operation} {p p' : Progress}
    {asks : List (ConnectionId × Errand)} (h : Going s op p s₁ p' asks) (t : TaskId) :
    s₁.queued t = s.queued t := by
  obtain hsame | ⟨hub, hnew⟩ := h.connections
  · exact queued_congr hsame t
  · exact queued_append hnew rfl t

theorem Going.went {s s₁ : System} {t : TaskId} {task : Task} {p : Progress}
    {asks : List (ConnectionId × Errand)} (hgoing : Going s task.op task.progress s₁ p asks)
    (htask : s.tasks[t]? = some task) (hasks : task.asks = []) :
    Went s (s₁.setTask t p asks) t task.op task.progress s₁ p asks where
  going := hgoing
  hubs := rfl
  status := by simp [System.status, htask]
  status' := by simp [System.status, hgoing.tasks, htask]
  owing := by simp [System.owing, unasked, htask, hasks]
  owing' := by
    rw [← hgoing.queued t]
    simp only [System.owing, unasked, tasks_setTask, hgoing.tasks, List.getElem?_modify_eq, htask]
    rfl
  results := results_congr hgoing.log t

/-- Ends the errand of the first in line, of which something is noted. -/
theorem advance_conclude {s : System} {e : Event} {c : ConnectionId} {conn : Connection}
    {turn : Turn} {rest : List Turn} {o : Occurrence} {result : Sent}
    (hconn : s.connections[c]? = some conn) (hline : conn.line = turn :: rest)
    (hnoted : (o.result?.map (c, ·)).toList = ended c turn.errand result)
    (hclosed : turn.errand = .close → conn.closed = true) (t : TaskId) :
    Advance s e ((s.note c turn.task o).conclude c turn result) t := by
  have hqueued : (s.queued t).Perm
      (_ ++ ((s.note c turn.task o).conclude c turn result).queued t) :=
    queued_drop rfl hconn hline t
  have hresults : ((s.note c turn.task o).conclude c turn result).results t = _ :=
    results_note rfl t
  by_cases ht : turn.task = t
  · rw [if_pos ht] at hqueued hresults
    rw [hnoted] at hresults
    refine .ended result ?_ ?_ hresults ?_
    · simp [status, ht, Function.comp_def]
    · have hunasked : ((s.note c turn.task o).conclude c turn result).unasked t = s.unasked t := by
        simp [unasked, ht, Function.comp_def]
      simp only [owing, hunasked]
      exact (hqueued.append_left _).trans (List.perm_append_comm_assoc ..)
    · intro hclose
      have hconn' : ((s.note c turn.task o).conclude c turn result).connections[c]? =
          some { conn with line := rest, deadline := none } := by
        simp [hconn, hline]
      exact isShut_iff.mpr ⟨_, hconn', hclosed hclose, rfl⟩
  · rw [if_neg ht] at hqueued hresults
    rw [List.append_nil] at hresults
    exact .of_getElem? (by simp [ht]) hqueued.symm hresults

/-- **An event leaves a task as it is, begins it, lets it go on, or ends one of its errands.** -/
theorem Move.advance {s s' : System} {e : Event} (hl : s.Lawful) (h : s.Move e s') (t : TaskId) :
    Advance s e s' t := by
  cases h with
  | start op =>
    by_cases ht : s.tasks.length = t
    · have hnone : s.tasks[t]? = none := List.getElem?_eq_none (Nat.le_of_eq ht)
      have hnew : (s.launch op).tasks[t]? = some { op } := by simp [launch, ← ht]
      have hstatus : (s.launch op).status t = some (op, .starting) := by simp [status, hnew]
      refine .begun ?_ hstatus ?_ rfl rfl
      · simp [status, hnone]
      · simp only [owing, unasked, hnone, hnew]
        rfl
    · refine .of_getElem? ?_ (.refl _) rfl
      simp only [launch, List.getElem?_append]
      split
      · rfl
      · have hlt : s.tasks.length < t := by omega
        rw [List.getElem?_eq_none (by simp; omega), List.getElem?_eq_none (by omega)]
  | pass nanos => exact .of_getElem? rfl (.refl _) rfl
  | rearrange hperm => exact .of_getElem? rfl (.refl _) rfl
  | @ask u task c errand asks htask hasks hlt =>
    have hqueued : (((s.ask u c errand).setTask u task.progress asks).queued t).Perm _ :=
      s.queued_ask hlt u errand t
    by_cases ht : u = t
    · subst ht
      rw [if_pos rfl] at hqueued
      refine .rested ?_ ?_ rfl
      · simp [status, htask]
      · -- the errand passes from what is yet to be asked for to what stands in a line
        have hunasked : s.unasked u = (c, errand) :: asks := by simp [unasked, htask, hasks]
        have hunasked' : ((s.ask u c errand).setTask u task.progress asks).unasked u = asks := by
          simp [unasked, htask]
        simp only [owing, hunasked, hunasked']
        exact (hqueued.append_left asks).trans
          ((List.Perm.append_left asks List.perm_append_comm).trans List.perm_middle)
    · rw [if_neg ht, List.append_nil] at hqueued
      exact .of_getElem? (by simp [ht]) hqueued rfl
  | @go u task s₁ p asks htask hasks hgoing =>
    by_cases ht : u = t
    · subst ht
      exact .went rfl (hgoing.went htask hasks)
    · exact .of_getElem? (by simp [ht, hgoing.tasks]) (.of_eq (hgoing.queued t))
        (results_congr hgoing.log t)
  | @passOver c conn turn rest hconn hline hidle hclosed =>
    refine advance_conclude hconn hline ?_ (fun _ => hclosed) t
    cases turn.errand <;> rfl
  | @call c conn turn rest hconn hline hidle hopen =>
    refine .of_getElem? rfl (queued_modify_of_line rfl hconn rfl t) ((results_note rfl t).trans ?_)
    show s.results t ++ _ = s.results t
    split <;> exact List.append_nil _
  | @answer e c conn turn rest deadline result _ hconn hline hbusy =>
    refine advance_conclude hconn hline ?_ ?_ t
    · cases turn.errand <;> rfl
    · -- who has called for a close has closed the connection
      intro hclose
      have hconduct := (hl.follows hconn).of_busy hbusy hline
      rw [hconduct.closed_eq, hclose]
      rfl

end System

end UserDirectory.Hub
