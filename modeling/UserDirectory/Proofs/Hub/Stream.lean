import UserDirectory.Proofs.Hub.Ledger

/-!
# One broadcast after another

Someone broadcasts frames to a registry, each only when the broadcast before it has returned;
meanwhile others do at the hub what they like. `Stream` follows the tasks of these broadcasts and
what one connection gets of them.

A broadcast reaches the members that it finds when it begins. So once a connection is a member, it
is among those whom every later broadcast reaches, as long as it stays; and who was reached by one
broadcast is reached by all after it. What a connection that stays has got of a stream is therefore
an end of it (`Stream.written_eq`), and it has got it in order, since a sink is written to only by
tasks that have not returned.
-/

namespace UserDirectory.Hub

/-! ## Parts of a list -/

/-- What is taken out of a list without repetition is what is left when the rest is taken away. -/
theorem filter_mem_of_sublist {α : Type} [DecidableEq α] {l l' : List α} (h : l.Sublist l')
    (hnodup : l'.Nodup) : l'.filter (· ∈ l) = l := by
  induction h with
  | slnil => rfl
  | @cons l l' a h ih =>
    obtain ⟨hnot, hnodup⟩ := List.nodup_cons.mp hnodup
    rw [List.filter_cons_of_neg (by simpa using fun hmem => hnot (h.subset hmem)), ih hnodup]
  | @cons_cons l l' a h ih =>
    obtain ⟨hnot, hnodup⟩ := List.nodup_cons.mp hnodup
    have hrest : l'.filter (· ∈ a :: l) = l'.filter (· ∈ l) :=
      List.filter_congr fun b hb => by
        have hne : b ≠ a := fun heq => hnot (heq ▸ hb)
        simp [hne]
    rw [List.filter_cons_of_pos (by simp), hrest, ih hnodup]

/-- The last of a list may be added behind what is there of the others. -/
theorem filter_concat_sublist {α : Type} [DecidableEq α] {l done : List α} {last : α}
    (h : (l.filter (· ∈ done ++ [last])).Sublist (done ++ [last])) (hnew : last ∉ l) :
    ((l ++ [last]).filter (· ∈ done ++ [last])).Sublist (done ++ [last]) := by
  rw [List.filter_append, List.filter_cons_of_pos (by simp), List.filter_nil]
  refine List.Sublist.append ?_ (.refl _)
  -- what is there of the list is there of the others
  have hothers := h.filter (· ≠ last)
  rw [List.filter_eq_self.mpr fun a ha => by
    simpa using fun heq : a = last => hnew (heq ▸ (List.mem_filter.mp ha).1)] at hothers
  refine hothers.trans ?_
  rw [List.filter_append, List.filter_cons_of_neg (by simp), List.filter_nil, List.append_nil]
  exact List.filter_sublist

/-- What holds of all that comes after one of which it holds, holds of an end of the list. -/
theorem filter_suffix {α : Type} {p : α → Bool} {l : List α}
    (h : l.Pairwise fun a b => p a = true → p b = true) : l.filter p <:+ l := by
  induction h with
  | nil => exact List.suffix_rfl
  | @cons a l hall _ ih =>
    by_cases ha : p a = true
    · have hkept : (a :: l).filter p = a :: l := List.filter_eq_self.mpr fun b hb => by
        obtain rfl | hb := List.mem_cons.mp hb
        · exact ha
        · exact hall b hb ha
      exact ⟨[], hkept⟩
    · rw [List.filter_cons_of_neg ha]
      exact ih.trans (List.suffix_cons a l)

namespace System

/-! ## Who is reached -/

/-- The connection is among those whom the task reaches, or the task has not begun. -/
def Includes (s : System) (t : TaskId) (c : ConnectionId) : Prop :=
  (∃ op, s.status t = some (op, .starting)) ∨ c ∈ s.reach t

section Includes

variable {s s' : System} {e : Event} {t : TaskId} {hub : HubId} {payload : Octets}
  {c : ConnectionId}

/-- **A broadcast that begins while a connection is a member reaches it.** -/
theorem Includes.move (h : s.Includes t c) (hs : s.Sound) (hm : s.Move e s')
    (hop : s.op? t = some (.broadcast hub payload none)) (hc : c ∈ s.members hub) :
    s'.Includes t c := by
  cases hm.advance hs.lawful t with
  | rested hstatus howing hresults =>
    exact h.imp (fun ⟨op, hop⟩ => ⟨op, hstatus.trans hop⟩)
      (reach_congr howing hresults).mem_iff.mpr
  | begun hnone =>
    obtain ⟨p, hp⟩ := status_of_op? hop
    rw [hnone] at hp
    cases hp
  | @went op p p' s₁ asks _ hwent =>
    refine .inr ?_
    rw [hwent.reach (hs.standing hwent.status)]
    obtain rfl := Option.some.inj ((op?_of_status hwent.status).symm.trans hop)
    obtain ⟨op, hstarting⟩ | hreach := h
    · obtain ⟨-, rfl⟩ := Prod.mk.inj (Option.some.inj (hwent.status.symm.trans hstarting))
      exact List.mem_append_right _ (by simpa [targets] using hc)
    · exact List.mem_append_left _ hreach
  | ended result _ howing hresults =>
    obtain ⟨op, hstarting⟩ | hreach := h
    · rw [(hs.standing hstarting).of_starting.1] at howing
      exact absurd howing.symm.eq_nil (List.cons_ne_nil _ _)
    · exact .inr ((reach_ended howing hresults).mem_iff.mpr hreach)

/-- A broadcast that has returned has reached whom it includes. -/
theorem Includes.reach_of_returned (h : s.Includes t c) (hreturned : (s.outcome? t).isSome) :
    c ∈ s.reach t := by
  refine h.resolve_left ?_
  rintro ⟨op, hstarting⟩
  obtain ⟨outcome, hfinished⟩ := atRest_of_returned hreturned op _ hstarting
  cases hfinished

/-- Whom a task that has returned has reached does not change. -/
theorem Sound.reach_of_returned (hs : s.Sound) (hm : s.Move e s')
    (hreturned : (s.outcome? t).isSome) : (s'.reach t).Perm (s.reach t) := by
  cases hm.advance hs.lawful t with
  | rested _ howing hresults => exact reach_congr howing hresults
  | begun _ _ howing hresults => rw [System.reach, System.reach, howing, hresults]
  | went _ hwent => exact absurd (atRest_of_returned hreturned) hwent.not_atRest
  | ended _ _ howing hresults => exact reach_ended howing hresults

/-- A broadcast reaches only those who belong to its registry. -/
theorem Sound.home_of_reach (hs : s.Sound) (hm : s.Move e s')
    (hop : s.op? t = some (.broadcast hub payload none))
    (h : c ∈ s.reach t → s.home? c = some hub) (hc : c ∈ s'.reach t) : s'.home? c = some hub := by
  refine hm.home? ?_
  cases hm.advance hs.lawful t with
  | rested _ howing hresults => exact h ((reach_congr howing hresults).mem_iff.mp hc)
  | begun hnone =>
    obtain ⟨p, hp⟩ := status_of_op? hop
    rw [hnone] at hp
    cases hp
  | went _ hwent =>
    obtain rfl := Option.some.inj ((op?_of_status hwent.status).symm.trans hop)
    rw [hwent.reach (hs.standing hwent.status)] at hc
    obtain hc | hc := List.mem_append.mp hc
    · exact h hc
    · split at hc
      · exact hs.registered.home (List.mem_filter.mp hc).1
      · cases hc
  | ended _ _ howing hresults => exact h ((reach_ended howing hresults).mem_iff.mp hc)

/-- A task that is accepted by a sink has not returned before. -/
theorem Move.writers (hs : s.Sound) (hm : s.Move e s') (c : ConnectionId) :
    s'.writers c = s.writers c ∨
      ∃ t, s.outcome? t = none ∧ s'.writers c = s.writers c ++ [t] := by
  obtain hlog | ⟨d, turn, o, howed, -, hlog⟩ := hm.log
  · simp [System.writers, hlog]
  · by_cases hnew : d = c ∧ o.result? = some .ok
    · refine .inr ⟨turn.task, Option.eq_none_iff_forall_ne_some.mpr fun outcome houtcome => ?_, ?_⟩
      · rw [hs.owing_of_atRest (atRest_of_returned (houtcome ▸ rfl))] at howed
        cases howed
      · simp [System.writers, hlog, List.filterMap_append, hnew]
    · exact .inl (by simp [System.writers, hlog, List.filterMap_append, hnew])

end Includes

/-! ## Streams -/

/-- `tasks` are the broadcasts to a registry that someone has started one after another, as the
connection `c` sees them. -/
structure Stream (s : System) (hub : HubId) (c : ConnectionId) (tasks : List TaskId) : Prop where
  sound : s.Sound
  issued : ∀ t ∈ tasks, ∃ payload, s.op? t = some (.broadcast hub payload none)
  distinct : tasks.Nodup
  home : ∀ t ∈ tasks, c ∈ s.reach t → s.home? c = some hub
  /-- each has returned before the next, which reaches a connection that stays if this one does -/
  turns : tasks.Pairwise fun t u => (s.outcome? t).isSome ∧
    (c ∈ s.members hub → c ∈ s.reach t → s.Includes u c)
  /-- what the sink has accepted of them it has accepted in their order -/
  written : ((s.writers c).filter (· ∈ tasks)).Sublist tasks

section Stream

variable {s s' : System} {e : Event} {hub : HubId} {c : ConnectionId} {tasks : List TaskId}

theorem stream_nil (hs : s.Sound) (hub : HubId) (c : ConnectionId) : Stream s hub c [] where
  sound := hs
  issued := nofun
  distinct := .nil
  home := nofun
  turns := .nil
  written := by simp

/-- What comes before the last of a stream has returned. -/
theorem Stream.returned {done : List TaskId} {t u : TaskId} (h : Stream s hub c (done ++ [t]))
    (hu : u ∈ done) : (s.outcome? u).isSome :=
  ((List.pairwise_append.mp h.turns).2.2 u hu t (List.mem_singleton_self _)).1

/-- **Whatever happens at the hub, the stream goes on in order.** -/
theorem Stream.move (h : Stream s hub c tasks) (hm : s.Move e s') : Stream s' hub c tasks where
  sound := sound_move h.sound hm
  issued t ht := by
    obtain ⟨payload, hop⟩ := h.issued t ht
    exact ⟨payload, (hm.advance h.sound.lawful t).op? hop⟩
  distinct := h.distinct
  home t ht := by
    obtain ⟨payload, hop⟩ := h.issued t ht
    exact h.sound.home_of_reach hm hop (h.home t ht)
  turns := by
    refine h.turns.imp_of_mem fun {t u} ht hu ⟨hreturned, hnext⟩ => ?_
    refine ⟨h.sound.returned_move hm hreturned, fun hc hreach => ?_⟩
    have hreach := (h.sound.reach_of_returned hm hreturned).mem_iff.mp hreach
    obtain hbefore | ⟨hnone, -⟩ := hm.mem_members hc
    · obtain ⟨payload, hop⟩ := h.issued u hu
      exact (hnext hbefore hreach).move h.sound hm hop hbefore
    · -- who has just been registered was reached by nobody
      rw [h.home t ht hreach] at hnone
      cases hnone
  written := by
    obtain hwriters | ⟨t, hrunning, hwriters⟩ := hm.writers h.sound c
    · exact hwriters ▸ h.written
    · by_cases ht : t ∈ tasks
      · -- it has not returned, so it is the last of the stream
        obtain ⟨done, last, rfl⟩ : ∃ done last, tasks = done ++ [last] := by
          obtain rfl | ⟨done, last, heq⟩ := List.eq_nil_or_concat tasks
          · cases ht
          · exact ⟨done, last, heq.trans List.concat_eq_append⟩
        obtain hdone | hlast := List.mem_append.mp ht
        · have hreturned := h.returned hdone
          rw [hrunning] at hreturned
          cases hreturned
        · obtain rfl := List.mem_singleton.mp hlast
          have hnodup := (sound_move h.sound hm).writers_nodup c
          rw [hwriters, ← List.concat_eq_append, List.nodup_concat] at hnodup
          exact hwriters ▸ filter_concat_sublist h.written hnodup.1
      · rw [hwriters, List.filter_append, List.filter_cons_of_neg (by simpa using ht),
          List.filter_nil, List.append_nil]
        exact h.written

/-- **The next broadcast is started** when all before it have returned. -/
theorem Stream.launch (h : Stream s hub c tasks) (hall : ∀ t ∈ tasks, (s.outcome? t).isSome)
    (payload : Octets) :
    Stream (s.launch (.broadcast hub payload none)) hub c (tasks ++ [s.tasks.length]) := by
  have h' : Stream (s.launch (.broadcast hub payload none)) hub c tasks :=
    h.move (.start (.broadcast hub payload none))
  have hstatus : (s.launch (.broadcast hub payload none)).status s.tasks.length =
      some (.broadcast hub payload none, .starting) := by simp [status, System.launch]
  have hfresh : s.tasks.length ∉ tasks := fun hmem => by
    obtain ⟨payload, hop⟩ := h.issued _ hmem
    rw [op?_length] at hop
    cases hop
  refine ⟨h'.sound, fun t ht => ?_, ?_, fun t ht => ?_, ?_, ?_⟩
  · obtain ht | ht := List.mem_append.mp ht
    · exact h'.issued t ht
    · exact List.mem_singleton.mp ht ▸ ⟨payload, op?_launch s _⟩
  · rw [← List.concat_eq_append]
    exact h.distinct.concat hfresh
  · obtain ht | ht := List.mem_append.mp ht
    · exact h'.home t ht
    · obtain rfl := List.mem_singleton.mp ht
      rw [(h'.sound.standing hstatus).reach_starting]
      intro hreach
      cases hreach
  · refine List.pairwise_append.mpr ⟨h'.turns, List.pairwise_singleton _ _, fun t ht u hu => ?_⟩
    obtain rfl := List.mem_singleton.mp hu
    exact ⟨h.sound.returned_move (.start _) (hall t ht), fun _ _ => .inl ⟨_, hstatus⟩⟩
  · have hsame : ∀ t ∈ s.writers c,
        decide (t ∈ tasks ++ [s.tasks.length]) = decide (t ∈ tasks) := by
      intro t ht
      have hne : t ≠ s.tasks.length := fun heq => by
        have hnone : s.status t = none := by simp [status, heq]
        have hresult := mem_writers_iff.mp ht
        rw [(h.sound.unbegun hnone).2] at hresult
        cases hresult
      simp [hne]
    show ((s.writers c).filter _).Sublist _
    rw [List.filter_congr hsame]
    exact h.written.trans (List.sublist_append_left _ _)

/-- Whom a broadcast will reach does not change while they stay. -/
theorem Stream.includes_move (h : Stream s hub c tasks) (hm : s.Move e s')
    (hhome : s.home? c = some hub) {t : TaskId} (ht : t ∈ tasks)
    (hincludes : c ∈ s.members hub → s.Includes t c) (hmember : c ∈ s'.members hub) :
    s'.Includes t c := by
  obtain hbefore | ⟨hnone, -⟩ := hm.mem_members hmember
  · obtain ⟨payload, hop⟩ := h.issued t ht
    exact (hincludes hbefore).move h.sound hm hop hbefore
  · rw [hhome] at hnone
    cases hnone

/-! ## What a connection that stays has got -/

/-- A reliable connection that is open has accepted what it was reached by and what has returned. -/
theorem Sound.mem_writers_iff_reach (hs : s.Sound) (hopen : s.isClosed c ≠ true)
    (hreliable : s.Reliable c) {t : TaskId} (hreturned : (s.outcome? t).isSome) :
    t ∈ s.writers c ↔ c ∈ s.reach t := by
  have howing := hs.owing_of_atRest (atRest_of_returned hreturned)
  rw [mem_writers_iff, reach, howing]
  simp only [List.filter_nil, List.map_nil, List.append_nil, List.mem_map]
  refine ⟨fun hresult => ⟨_, hresult, rfl⟩, ?_⟩
  rintro ⟨⟨d, result⟩, hresult, rfl⟩
  exact hreliable.result_eq_ok hs hopen hresult ▸ hresult

/-- **A connection that stays has got an end of the stream**, once all of it has returned: the
frames of the broadcasts that reached it, in order. -/
theorem Stream.written_eq (h : Stream s hub c tasks) (hall : ∀ t ∈ tasks, (s.outcome? t).isSome)
    (hmember : c ∈ s.members hub) (hopen : s.isClosed c ≠ true) (hreliable : s.Reliable c) :
    (s.writers c).filter (· ∈ tasks) = tasks.filter (c ∈ s.reach ·) ∧
      tasks.filter (c ∈ s.reach ·) <:+ tasks := by
  refine ⟨?_, filter_suffix (h.turns.imp_of_mem fun {t u} _ hu ⟨_, hnext⟩ hreach => ?_)⟩
  · rw [← filter_mem_of_sublist h.written h.distinct]
    refine List.filter_congr fun t ht => ?_
    have hiff := h.sound.mem_writers_iff_reach hopen hreliable (hall t ht)
    simp [List.mem_filter, ht, hiff]
  · have hincludes := hnext hmember (of_decide_eq_true hreach)
    exact decide_eq_true (hincludes.reach_of_returned (hall u hu))

end Stream

end System

end UserDirectory.Hub
