import Mathlib.Data.List.Perm.Basic
import UserDirectory.Proofs.Broker.Runs

/-!
# Closing a broker that is in use

Tasks subscribe, publish, request and close at once, and each of these is a `Visit` in two steps:
one at the door, where the visitor sees whether the broker is open or shuts it, and one at the
mailboxes. Nobody looks at the door again before the second step. So who came to the door before it
was shut may still make a mailbox after all were struck off. Nobody strikes that one off, and its
subscriber waits for ever (`mailbox_after_close`).

This is all that goes wrong. When the one who shut the door has struck the mailboxes off, those that
exist stay struck off, and there will be no more new ones than there were visits under way that make
one (`Struck.run`). From a mailbox that was struck off its subscriber takes what is in it, and is
then told that it ended (`Struck.found_eq`).
-/

namespace UserDirectory.Broker

open Time (Duration)

/-- A visit to the broker, which takes two steps. -/
inductive Visit
  | subscribe (channel : String)
  | publish (channel : String) (payload : Octets)
  | request (channel : String) (payload : Octets) (timeout : Duration)
  | close
  deriving DecidableEq

namespace Visit

/-- The step at the mailboxes. -/
def move : Visit → Move
  | subscribe channel => .enroll channel
  | publish channel payload => .deliver channel payload
  | request channel payload timeout => .deliverRequest channel payload timeout
  | close => .dismiss

/-- What a visit is when nobody comes between its steps. -/
def operation : Visit → Operation
  | subscribe channel => .subscribe channel
  | publish channel payload => .publish channel payload
  | request channel payload timeout => .request channel payload timeout
  | close => .close

/-- Whether a visit makes a mailbox. -/
def subscribes : Visit → Bool
  | subscribe _ => true
  | _ => false

end Visit

/-- A broker, and the visits that are past the door. -/
structure Traffic where
  broker : Broker
  underway : List Visit := []

/-- What a task does next; visits that are past the door go by their place among those. -/
inductive Turn
  | enter (v : Visit)
  | proceed (i : Nat)
  | next (sub : SubscriptionId)
  | drop (sub : SubscriptionId)
  deriving DecidableEq

namespace Traffic

/-- A new broker that nobody visits. -/
def opening (capacity : Nat) : Traffic := { broker := init capacity }

/-- Who finds the broker closed turns back; who closes it shuts the door at once. -/
def step (t : Traffic) : Turn → Traffic
  | .enter v =>
    match t.broker.check with
    | .error _ => t
    | .ok _ =>
      { broker := if v = .close then t.broker.shut else t.broker, underway := t.underway ++ [v] }
  | .proceed i =>
    match t.underway[i]? with
    | none => t
    | some v => { broker := t.broker.move v.move, underway := t.underway.eraseIdx i }
  | .next sub => { t with broker := t.broker.move (.next sub) }
  | .drop sub => { t with broker := t.broker.move (.drop sub) }

def run (t : Traffic) (turns : List Turn) : Traffic := turns.foldl step t

/-- What a subscriber finds, each time that it looks for the next message. -/
def found (sub : SubscriptionId) : Traffic → List Turn → List Next
  | _, [] => []
  | t, turn :: turns =>
    (if turn = .next sub then [(t.broker.next sub).1] else []) ++ found sub (t.step turn) turns

/-- A visit that nobody comes between is done in one go. -/
theorem step_step (t : Traffic) (v : Visit) (hopen : t.broker.closed = false) :
    (t.step (.enter v)).step (.proceed t.underway.length) =
      { t with broker := t.broker.perform v.operation } := by
  have hgone : (t.underway ++ [v]).eraseIdx t.underway.length = t.underway := by
    simp [List.eraseIdx_append_of_length_le]
  cases v <;>
    simp [step, check, hopen, hgone, perform_eq_moves, Visit.operation, Operation.moves,
      Visit.move, move]

/-- Whoever is past the door to close the broker has shut it. -/
def DoorShut (t : Traffic) : Prop := .close ∈ t.underway → t.broker.closed = true

theorem DoorShut.step {t : Traffic} (h : t.DoorShut) (turn : Turn) : (t.step turn).DoorShut := by
  intro hclose
  cases turn with
  | enter v =>
    simp only [Traffic.step, check] at hclose ⊢
    cases hclosed : t.broker.closed with
    | true => simpa using hclosed
    | false =>
      -- nobody was past the door to close it before, so it is who just came
      have hnot : .close ∉ t.underway := fun hmem => by simp [h hmem] at hclosed
      obtain rfl : v = .close := by
        simp only [hclosed, Bool.false_eq_true, if_false, List.mem_append] at hclose
        simpa [eq_comm (a := v)] using hclose.resolve_left hnot
      rfl
  | proceed i =>
    simp only [Traffic.step] at hclose ⊢
    split at hclose
    · exact h hclose
    · simp [closed_move, h (List.mem_of_mem_eraseIdx hclose)]
  | next sub | drop sub =>
    simp only [Traffic.step, closed_move] at hclose ⊢
    simp [h hclose]

theorem DoorShut.run {t : Traffic} (h : t.DoorShut) (turns : List Turn) :
    (t.run turns).DoorShut := by
  induction turns generalizing t with
  | nil => exact h
  | cons turn turns ih => exact ih (h.step turn)

theorem doorShut_opening (capacity : Nat) : (opening capacity).DoorShut := by
  intro hclose
  cases hclose

end Traffic

/-! ## What has been struck off -/

/-- A mailbox that was struck off changes by what its subscriber does, and by nothing else. -/
theorem Mailbox.moved_of_struck {box : Mailbox} (h : box.enrolled = false) (b : Broker)
    {sub : SubscriptionId} {mv : Move} (hnext : mv ≠ .next sub) (hdrop : mv ≠ .drop sub) :
    box.moved b sub mv = box := by
  have hsame : { box with enrolled := false } = box := by
    rw [← h]
  cases mv with
  | enroll | shut => rfl
  | deliver | deliverRequest =>
    simp only [moved, receive, accepts, h, Bool.and_false, Bool.false_and, Bool.false_eq_true,
      if_false]
    split
    · exact hsame
    · rfl
  | next s => simp [moved, show s ≠ sub from fun hs => hnext (hs ▸ rfl)]
  | drop s => simp [moved, show s ≠ sub from fun hs => hdrop (hs ▸ rfl)]
  | dismiss =>
    simp only [moved]
    split
    · exact hsame
    · rfl

theorem Mailbox.moved_enrolled {box : Mailbox} (h : box.enrolled = false) (b : Broker)
    (sub : SubscriptionId) (mv : Move) : (box.moved b sub mv).enrolled = false := by
  by_cases hnext : mv = .next sub
  · simp [hnext, moved, h]
  · by_cases hdrop : mv = .drop sub
    · simp [hdrop, moved, h]
    · rw [moved_of_struck h b hnext hdrop, h]

/-- The first so many mailboxes are struck off. -/
def StruckOff (b : Broker) (n : Nat) : Prop :=
  ∀ sub < n, ∃ box, b.mailboxes[sub]? = some box ∧ box.enrolled = false

theorem StruckOff.move {b : Broker} {n : Nat} (h : b.StruckOff n) (mv : Move) :
    (b.move mv).StruckOff n := by
  intro sub hsub
  obtain ⟨box, hbox, hstruck⟩ := h sub hsub
  exact ⟨_, by rw [mailbox?_move, hbox, Option.map_some, Option.some_or],
    Mailbox.moved_enrolled hstruck b sub mv⟩

namespace Traffic

/-- A closed broker whose first `n` mailboxes are struck off. There are not more, but for those that
are made by the `k` visits that were under way when that was done. -/
structure Struck (t : Traffic) (n k : Nat) : Prop where
  closed : t.broker.closed = true
  struck : t.broker.StruckOff n
  made : t.broker.mailboxes.length + t.underway.countP (·.subscribes) = n + k

variable {t : Traffic} {n k : Nat}

/-- A visit ends by making the mailbox that it was going to make. -/
theorem made_proceed (b : Broker) {i : Nat} {v : Visit} (h : t.underway[i]? = some v) :
    (b.move v.move).mailboxes.length + (t.underway.eraseIdx i).countP (·.subscribes) =
      b.mailboxes.length + t.underway.countP (·.subscribes) := by
  have hlength : (b.move v.move).mailboxes.length =
      b.mailboxes.length + if v.subscribes then 1 else 0 := by
    rw [length_move]
    cases v <;> rfl
  obtain ⟨hlt, rfl⟩ := List.getElem?_eq_some_iff.mp h
  have hperm := (List.getElem_cons_eraseIdx_perm hlt).countP_eq (·.subscribes)
  rw [List.countP_cons] at hperm
  omega

/-- Closing strikes off all mailboxes that there are. -/
theorem struck_of_close {i : Nat} (hclosed : t.broker.closed = true)
    (h : t.underway[i]? = some .close) : (t.step (.proceed i)).Struck t.broker.mailboxes.length
      (t.underway.countP (·.subscribes)) := by
  simp only [step, h]
  refine ⟨by simp [closed_move, hclosed], fun sub hsub => ?_, made_proceed t.broker h⟩
  exact ⟨{ t.broker.mailboxes[sub] with enrolled := false },
    by simp [Visit.move, move, hclosed, dismiss, List.getElem?_eq_getElem hsub], rfl⟩

/-- **What was struck off stays so**, and of visits that make a mailbox no new one comes. -/
theorem Struck.step (h : t.Struck n k) (turn : Turn) : (t.step turn).Struck n k := by
  cases turn with
  | enter v => simpa [Traffic.step, check, h.closed] using h
  | proceed i =>
    simp only [Traffic.step]
    split
    · exact h
    · rename_i v hv
      exact ⟨by simp [closed_move, h.closed], h.struck.move _,
        (made_proceed t.broker hv).trans h.made⟩
  | next sub | drop sub =>
    refine ⟨by simp [Traffic.step, closed_move, h.closed], h.struck.move _, ?_⟩
    simpa [Traffic.step, length_move] using h.made

theorem Struck.run (h : t.Struck n k) (turns : List Turn) : (t.run turns).Struck n k := by
  induction turns generalizing t with
  | nil => exact h
  | cons turn turns ih => exact ih (h.step turn)

/-- Where no visit was under way that makes a mailbox, the broker delivers to none any more. -/
theorem Struck.enrolled_eq_false (h : t.Struck n 0) {box : Mailbox}
    (hbox : box ∈ t.broker.mailboxes) : box.enrolled = false := by
  obtain ⟨sub, hsub⟩ := List.mem_iff_getElem?.mp hbox
  have hmade := h.made
  have hlt := (List.getElem?_eq_some_iff.mp hsub).1
  obtain ⟨box', hbox', hstruck⟩ := h.struck sub (by omega)
  rwa [Option.some.inj (hsub.symm.trans hbox')]

/-! ## What a subscriber still finds -/

/-- What is next in a mailbox that was struck off. -/
theorem next_of_struck {b : Broker} {sub : SubscriptionId} {box : Mailbox}
    (hbox : b.mailboxes[sub]? = some box) (hstruck : box.enrolled = false) :
    (b.next sub).1 = (box.queue[0]?.map .message).getD .ended := by
  simp only [next, hbox, hstruck]
  cases box.queue <;> rfl

/-- What is left in a mailbox that was struck off. -/
theorem queueOf_move_of_struck {b : Broker} {sub : SubscriptionId} {box : Mailbox}
    (hbox : b.mailboxes[sub]? = some box) (hstruck : box.enrolled = false) {mv : Move}
    (hdrop : mv ≠ .drop sub) :
    (b.move mv).queueOf sub = if mv = .next sub then box.queue.drop 1 else box.queue := by
  have hmoved : (b.move mv).mailboxes[sub]? = some (box.moved b sub mv) := by
    simp [mailbox?_move, hbox]
  rw [queueOf_eq hmoved]
  split
  · rename_i hnext
    simp [hnext, Mailbox.moved]
  · rename_i hnext
    rw [Mailbox.moved_of_struck hstruck b hnext hdrop]

theorem Struck.queueOf_step (h : t.Struck n k) {sub : SubscriptionId} (hsub : sub < n)
    {turn : Turn} (hdrop : turn ≠ .drop sub) : (t.step turn).broker.queueOf sub =
      if turn = .next sub then (t.broker.queueOf sub).drop 1 else t.broker.queueOf sub := by
  obtain ⟨box, hbox, hstruck⟩ := h.struck sub hsub
  have hmove (mv : Move) (hdrop : mv ≠ .drop sub) := queueOf_move_of_struck hbox hstruck hdrop
  rw [queueOf_eq hbox]
  cases turn with
  | enter v => simpa [Traffic.step, check, h.closed] using queueOf_eq hbox
  | proceed i =>
    simp only [Traffic.step]
    split
    · exact queueOf_eq hbox
    · rename_i v hv
      have hnext : v.move ≠ .next sub := by cases v <;> simp [Visit.move]
      simpa [hnext] using hmove v.move (by cases v <;> simp [Visit.move])
  | next s => simpa [Traffic.step] using hmove (.next s) (by simp)
  | drop s => simpa [Traffic.step] using hmove (.drop s) (by simpa using hdrop)

/-- **From a mailbox that was struck off comes what is in it**, and then that it ended. -/
theorem Struck.found_eq (h : t.Struck n k) {sub : SubscriptionId} (hsub : sub < n)
    {turns : List Turn} (hkept : .drop sub ∉ turns) :
    found sub t turns = (List.range (turns.count (.next sub))).map fun i =>
      ((t.broker.queueOf sub)[i]?.map .message).getD .ended := by
  induction turns generalizing t with
  | nil => rfl
  | cons turn turns ih =>
    obtain ⟨hturn, hkept⟩ := not_or.mp (mt List.mem_cons.mpr hkept)
    rw [found, ih (h.step turn) hkept, h.queueOf_step hsub (Ne.symm hturn)]
    by_cases hnext : turn = .next sub
    · obtain ⟨box, hbox, hstruck⟩ := h.struck sub hsub
      simp only [hnext, if_true, List.count_cons_self, List.range_succ_eq_map, List.map_cons,
        List.map_map, List.singleton_append, next_of_struck hbox hstruck, queueOf_eq hbox]
      simp [Function.comp_def]
    · simp [hnext, List.count_cons_of_ne]

/-! ## Closing -/

/-- **Closing ends every subscription that there is**, whoever else is about, and all that can come
after are those of visits that were past the door. Each subscriber that keeps its subscription finds
the messages that are in its mailbox, and then that it ended. -/
theorem closing_ends_subscriptions (capacity : Nat) (before later : List Turn) (i : Nat)
    (hclose : ((opening capacity).run before).underway[i]? = some .close) :
    let t := (opening capacity).run before
    let closed := t.step (.proceed i)
    (∀ sub < t.broker.mailboxes.length,
      (∃ box, (closed.run later).broker.mailboxes[sub]? = some box ∧ box.enrolled = false) ∧
      (.drop sub ∉ later → found sub closed later =
        (List.range (later.count (.next sub))).map fun i =>
          ((closed.broker.queueOf sub)[i]?.map .message).getD .ended)) ∧
    (closed.run later).broker.mailboxes.length +
        (closed.run later).underway.countP (·.subscribes) =
      t.broker.mailboxes.length + t.underway.countP (·.subscribes) ∧
    (t.underway.countP (·.subscribes) = 0 →
      ∀ box ∈ (closed.run later).broker.mailboxes, box.enrolled = false) := by
  intro t closed
  have hclosed : t.broker.closed = true :=
    (doorShut_opening capacity).run before (List.mem_of_getElem? hclose)
  have hstruck : closed.Struck t.broker.mailboxes.length (t.underway.countP (·.subscribes)) :=
    struck_of_close hclosed hclose
  have hlater := hstruck.run later
  refine ⟨fun sub hsub => ⟨hlater.struck sub hsub, hstruck.found_eq hsub⟩, hlater.made,
    fun hnone box hbox => ?_⟩
  rw [hnone] at hlater
  exact hlater.enrolled_eq_false hbox

/-- The subscriber that was there finds its message and the end; another is past the door and makes
a mailbox after that. -/
theorem closing_ends_subscriptions_late :
    let t := (opening 1).run [.enter (.subscribe "a"), .proceed 0, .enter (.publish "a" [1]),
      .proceed 0, .enter (.subscribe "a"), .enter .close]
    let closed := t.step (.proceed 1)
    let later : List Turn := [.next 0, .proceed 0, .next 0, .next 0]
    t.underway[1]? = some .close ∧
    found 0 closed later = [.message ⟨"a", [1], none⟩, .ended, .ended] ∧
    (closed.run later).broker.mailboxes.length = 2 ∧
    (closed.run []).broker.mailboxes.map (·.enrolled) = [false] := by
  intro t closed later
  have hclose : t.underway[1]? = some .close := rfl
  obtain ⟨hends, hmade, -⟩ := closing_ends_subscriptions 1 _ later 1 hclose
  exact ⟨hclose, (hends 0 (by decide)).2 (by decide), hmade, rfl⟩

/-! ## A mailbox that is made too late -/

/-- A closed broker with no visit under way, and an empty mailbox that was not struck off. -/
structure Stranded (t : Traffic) (sub : SubscriptionId) : Prop where
  closed : t.broker.closed = true
  idle : t.underway = []
  box : ∃ box, t.broker.mailboxes[sub]? = some box ∧ box.queue = [] ∧ box.enrolled = true ∧
    box.live = true

theorem Stranded.step {sub : SubscriptionId} (h : t.Stranded sub) {turn : Turn}
    (hdrop : turn ≠ .drop sub) : (t.step turn).Stranded sub := by
  obtain ⟨box, hbox, hqueue, henrolled, hlive⟩ := h.box
  cases turn with
  | enter v => simpa [Traffic.step, check, h.closed] using h
  | proceed i => simpa [Traffic.step, h.idle] using h
  | next s =>
    refine ⟨by simp [Traffic.step, closed_move, h.closed], h.idle, box, ?_, hqueue, henrolled,
      hlive⟩
    obtain ⟨channel, queue, live, enrolled⟩ := box
    obtain rfl : queue = [] := hqueue
    simp [Traffic.step, mailbox?_move, hbox, Mailbox.moved]
  | drop s =>
    refine ⟨by simp [Traffic.step, closed_move, h.closed], h.idle, box, ?_, hqueue, henrolled,
      hlive⟩
    have hs : s ≠ sub := fun hs => hdrop (hs ▸ rfl)
    simp [Traffic.step, mailbox?_move, hbox, Mailbox.moved, hs]

/-- Its subscriber looks for a message that never comes, and is never told that it ended. -/
theorem Stranded.found_eq {sub : SubscriptionId} (h : t.Stranded sub) {turns : List Turn}
    (hkept : .drop sub ∉ turns) :
    found sub t turns = List.replicate (turns.count (.next sub)) .empty := by
  induction turns generalizing t with
  | nil => rfl
  | cons turn turns ih =>
    obtain ⟨hturn, hkept⟩ := not_or.mp (mt List.mem_cons.mpr hkept)
    obtain ⟨box, hbox, hqueue, henrolled, hlive⟩ := h.box
    rw [found, ih (h.step (Ne.symm hturn)) hkept]
    by_cases hnext : turn = .next sub
    · simp [hnext, next, hbox, hqueue, henrolled, hlive, List.replicate_succ]
    · simp [hnext, List.count_cons_of_ne]

/-- **A mailbox that is made after the broker was closed never ends.** Its visitor was past the door
before. And who comes to close a broker that is being closed is done before the other has struck
anything off. -/
theorem mailbox_after_close :
    let t := (opening 1).run [.enter (.subscribe "a"), .enter .close]
    let closed := t.step (.proceed 1)
    let after := closed.step (.proceed 0)
    let twice := (opening 1).run
      [.enter (.subscribe "a"), .proceed 0, .enter .close, .enter .close]
    t.underway[1]? = some .close ∧ closed.broker.closed = true ∧ closed.broker.mailboxes = [] ∧
    after.underway = [] ∧ after.broker.subscriberCount "a" = 1 ∧
    (∀ turns, .drop 0 ∉ turns →
      found 0 after turns = List.replicate (turns.count (.next 0)) .empty) ∧
    twice.underway = [.close] ∧ twice.broker.subscriberCount "a" = 1 ∧
    ¬ ∀ (capacity : Nat) (before later : List Turn) (i : Nat),
      ((opening capacity).run before).underway[i]? = some .close →
      ∀ box ∈ ((((opening capacity).run before).step (.proceed i)).run later).broker.mailboxes,
        box.enrolled = false := by
  intro t closed after twice
  have hstranded : after.Stranded 0 := ⟨rfl, rfl, { channel := "a" }, rfl, rfl, rfl, rfl⟩
  refine ⟨rfl, rfl, rfl, rfl, by decide, fun turns => hstranded.found_eq, rfl, by decide,
    fun h => ?_⟩
  have hnone := h 1 [.enter (.subscribe "a"), .enter .close] [.proceed 0] 1 rfl
  exact absurd (hnone { channel := "a" } (by decide)) (by decide)

end Traffic

end UserDirectory.Broker
