import DirectoryLookup.Proofs.Search.Release
import DirectoryLookup.Search.Service

/-!
# Searches at the same time

**Theorem (`serve_alone`).** Whatever happens to a searcher before and after it is asked for a
search, this search makes the calls and comes to the outcome that it would with the same client and
no other search, and no other search uses its client. It is through after as many turns as its calls
need.

The proof keeps two invariants along a history. No two tasks have one client (`Owned`), so the turn
of another task leaves a task's session alone. And the session of a task is that of the search alone
after as many steps as the task had turns (`Standing`).

**Theorem (`run_eq_map`).** Sessions that take turns in rounds come to the ends that they come to
alone.
-/

namespace DirectoryLookup.Search

/-! ## Schedules -/

namespace Session

theorem advance_succ (n : Nat) (s : Session) : s.advance (n + 1) = (s.advance n).step :=
  advance_add n 1 s

/-- Steps add calls behind those made so far. -/
theorem calls_prefix_step (s : Session) : s.calls <+: s.step.calls := by
  obtain ⟨plan, client, phase, calls⟩ := s
  cases phase with
  | ready => cases hc : client.connectError <;> simp [step, called, hc]
  | connected => cases hs : client.searchError <;> simp [step, called, hs]
  | receiving people =>
    cases he : client.events with
    | nil => simp [step, receive, called, he]
    | cons event events => cases event <;> simp [step, receive, called, he]
  | closing outcome => simp [step, called]
  | finished outcome => exact List.prefix_rfl

theorem calls_prefix_advance (n : Nat) (s : Session) : s.calls <+: (s.advance n).calls := by
  induction n generalizing s with
  | zero => exact List.prefix_rfl
  | succ n ih => exact (calls_prefix_step s).trans (ih s.step)

/-- The calls made so far are the first of those that the whole run makes. -/
theorem calls_advance_prefix_run (n : Nat) (s : Session) : (s.advance n).calls <+: s.run.calls := by
  rw [← advance_eq_run (Nat.le_add_left s.stepsLeft n), advance_add]
  exact calls_prefix_advance _ _

end Session

namespace Sessions

theorem getElem?_stepAt_self (ss : Sessions) (i : Nat) :
    (ss.stepAt i)[i]? = ss[i]?.map Session.step := by
  simp [stepAt]

/-- **A schedule takes each session as far as it has turns**, whatever the turns of the others. -/
theorem getElem?_follow (ss : Sessions) (schedule : List Nat) (i : Nat) :
    (ss.follow schedule)[i]? = ss[i]?.map (Session.advance (schedule.count i)) := by
  induction schedule generalizing ss with
  | nil => cases h : ss[i]? <;> simp [follow, Session.advance, h]
  | cons j schedule ih =>
    show ((ss.stepAt j).follow schedule)[i]? = _
    rw [ih]
    by_cases hj : j = i
    · subst hj
      rw [getElem?_stepAt_self, List.count_cons_self, Option.map_map]
      rfl
    · rw [getElem?_stepAt_of_ne ss (Ne.symm hj), List.count_cons_of_ne hj]

/-- No session needs more steps than there are rounds. -/
theorem stepsLeft_le_rounds {ss : Sessions} {s : Session} (h : s ∈ ss) (n : Nat) :
    s.stepsLeft ≤ ss.foldl (fun n s => max n s.stepsLeft) n := by
  have hle (ss : Sessions) (n : Nat) : n ≤ ss.foldl (fun n s => max n s.stepsLeft) n := by
    induction ss generalizing n with
    | nil => exact Nat.le_refl n
    | cons t ss ih => exact Nat.le_trans (Nat.le_max_left _ _) (ih _)
  induction ss generalizing n with
  | nil => cases h
  | cons t ss ih =>
    rw [List.foldl_cons]
    rcases List.mem_cons.1 h with rfl | h
    · exact Nat.le_trans (Nat.le_max_right _ _) (hle ss _)
    · exact ih h _

theorem count_inRounds {ss : Sessions} {i : Nat} (h : i < ss.length) :
    ss.inRounds.count i = ss.foldl (fun n s => max n s.stepsLeft) 0 := by
  have hcount : (List.range ss.length).count i = 1 := by
    rw [List.nodup_range.count, if_pos (List.mem_range.2 h)]
  rw [inRounds, List.count_flatten, List.map_replicate, hcount, List.sum_replicate_nat, Nat.mul_one]

/-- **In rounds all sessions come to the ends that they come to alone.** -/
theorem run_eq_map (ss : Sessions) : ss.run = ss.map Session.run := by
  refine List.ext_getElem? fun i => ?_
  rw [run, getElem?_follow, List.getElem?_map]
  cases h : ss[i]? with
  | none => rfl
  | some s =>
    obtain ⟨hi, hs⟩ := List.getElem?_eq_some_iff.1 h
    rw [count_inRounds hi, Option.map_some, Option.map_some,
      Session.advance_eq_run (stepsLeft_le_rounds (hs ▸ List.getElem_mem hi) 0)]

end Sessions

/-! ## What a move changes -/

namespace Service

variable {s : Searcher} {factory : Nat → Client} {v : Service} {i j k : Nat}

section

variable {query : Option Expression} {limit : UInt32} {failure : Failure}

theorem turn_waiting_of_error (h : v.tasks[i]? = some (.waiting query limit))
    (hv : s.settings.validate = .error failure) :
    v.turn s factory i = { v with tasks := v.tasks.set i (.refused failure) } := by
  simp only [turn, h, hv]

theorem turn_waiting_of_ok (h : v.tasks[i]? = some (.waiting query limit))
    (hv : s.settings.validate = .ok ()) :
    v.turn s factory i =
      { tasks := v.tasks.set i (.begun v.sessions.length)
        sessions := v.sessions ++ [(s.start query limit (factory v.sessions.length)).step] } := by
  simp only [turn, h, hv]

theorem turn_begun (h : v.tasks[i]? = some (.begun k)) :
    v.turn s factory i = { v with sessions := v.sessions.stepAt k } := by
  simp only [turn, h]

theorem turn_refused (h : v.tasks[i]? = some (.refused failure)) : v.turn s factory i = v := by
  simp only [turn, h]

theorem turn_none (h : v.tasks[i]? = none) : v.turn s factory i = v := by
  simp only [turn, h]

/-- A new task stands behind the others. -/
theorem getElem?_tasks_spawn {task : Task} (h : v.tasks[i]? = some task) :
    (v.move s factory (.spawn query limit)).tasks[i]? = some task :=
  (List.getElem?_append_left (List.getElem?_eq_some_iff.1 h).1).trans h

end

/-- Only its own turn changes a task. -/
theorem getElem?_tasks_turn_of_ne (h : j ≠ i) : (v.turn s factory j).tasks[i]? = v.tasks[i]? := by
  fun_cases turn s factory v j <;> simp only [List.getElem?_set_ne h]

/-- A task that has been set. -/
theorem getElem?_set_task {task : Task} (h : v.tasks[i]? = some task) (task' : Task) :
    (v.tasks.set i task')[i]? = some task' :=
  List.getElem?_set_self (List.getElem?_eq_some_iff.1 h).1

/-- No move takes a session away. -/
theorem length_sessions_move (m : Move) :
    v.sessions.length ≤ (v.move s factory m).sessions.length := by
  cases m with
  | spawn query limit => exact Nat.le_refl _
  | turn j =>
    show _ ≤ (v.turn s factory j).sessions.length
    fun_cases turn s factory v j <;> simp [Sessions.stepAt]

/-! ## One client for one task -/

theorem client?_of_begun (h : v.tasks[i]? = some (.begun k)) : v.client? i = some k := by
  rw [client?, h]
  rfl

/-- A task that has a client after a turn had it before, or got it as the newest by this turn. -/
theorem client?_turn (h : (v.turn s factory j).client? i = some k) :
    v.client? i = some k ∨
      (i = j ∧ k = v.sessions.length ∧ (v.turn s factory j).sessions.length = k + 1) := by
  by_cases hij : j = i
  · subst hij
    cases ht : v.tasks[j]? with
    | none =>
      rw [turn_none ht] at h
      exact .inl h
    | some task =>
      cases task with
      | waiting query limit =>
        cases hv : s.settings.validate with
        | error failure =>
          rw [turn_waiting_of_error ht hv, client?, getElem?_set_task ht] at h
          cases h
        | ok valid =>
          rw [turn_waiting_of_ok ht hv] at h ⊢
          rw [client?_of_begun (getElem?_set_task ht _)] at h
          obtain rfl := Option.some.inj h
          exact .inr ⟨rfl, rfl, List.length_append⟩
      | refused failure =>
        rw [turn_refused ht] at h
        exact .inl h
      | begun client =>
        rw [turn_begun ht] at h
        exact .inl h
  · rw [client?, getElem?_tasks_turn_of_ne hij] at h
    exact .inl h

/-- The same for any move. -/
theorem client?_move {m : Move} (h : (v.move s factory m).client? i = some k) :
    v.client? i = some k ∨
      (m = .turn i ∧ k = v.sessions.length ∧ (v.move s factory m).sessions.length = k + 1) := by
  cases m with
  | spawn query limit =>
    left
    have hnew : (v.tasks ++ [Task.waiting query limit])[i]?.bind Task.client? = some k := h
    rw [List.getElem?_append] at hnew
    split at hnew
    · exact hnew
    · cases hi : i - v.tasks.length with
      | zero => rw [hi] at hnew; cases hnew
      | succ n => rw [hi] at hnew; cases hnew
  | turn j =>
    rcases client?_turn h with h | ⟨rfl, hk, hlength⟩
    · exact .inl h
    · exact .inr ⟨rfl, hk, hlength⟩

/-- Every client in use has a session, and no two tasks have one client. -/
structure Owned (v : Service) : Prop where
  lt : ∀ {i k}, v.client? i = some k → k < v.sessions.length
  eq : ∀ {i j k}, v.client? i = some k → v.client? j = some k → i = j

/-- **A move makes no client the client of two tasks.** -/
theorem Owned.move (h : v.Owned) (m : Move) : (v.move s factory m).Owned where
  lt := by
    intro i k hk
    rcases client?_move hk with hold | ⟨-, -, hlength⟩
    · exact Nat.lt_of_lt_of_le (h.lt hold) (length_sessions_move m)
    · rw [hlength]
      exact Nat.lt_succ_self k
  eq := by
    intro i j k hi hj
    rcases client?_move hi with hi | ⟨hmi, hki, -⟩ <;>
      rcases client?_move hj with hj | ⟨hmj, hkj, -⟩
    · exact h.eq hi hj
    · exact absurd (h.lt hi) (hkj ▸ Nat.lt_irrefl _)
    · exact absurd (h.lt hj) (hki ▸ Nat.lt_irrefl _)
    · exact Move.turn.inj (hmi.symm.trans hmj)

theorem Owned.follow (h : v.Owned) (moves : List Move) :
    (moves.foldl (Service.move s factory) v).Owned := by
  induction moves generalizing v with
  | nil => exact h
  | cons m moves ih => exact ih (h.move m)

/-- The turn of another task leaves the session of a task as it was. -/
theorem Owned.getElem?_sessions_turn_of_ne (hv : v.Owned) (hj : j ≠ i) (hk : v.client? i = some k) :
    (v.turn s factory j).sessions[k]? = v.sessions[k]? := by
  cases ht : v.tasks[j]? with
  | none => rw [turn_none ht]
  | some task =>
    cases task with
    | waiting query limit =>
      cases hvalid : s.settings.validate with
      | error failure => rw [turn_waiting_of_error ht hvalid]
      | ok valid =>
        rw [turn_waiting_of_ok ht hvalid]
        exact List.getElem?_append_left (hv.lt hk)
    | refused failure => rw [turn_refused ht]
    | begun client =>
      rw [turn_begun ht]
      refine Sessions.getElem?_stepAt_of_ne _ fun heq => hj ?_
      exact hv.eq (client?_of_begun (heq ▸ ht)) hk

/-! ## One task among others -/

/-- How a task stands after a number of turns. Its session is that of the search alone after as many
steps. -/
inductive Standing (s : Searcher) (factory : Nat → Client) (query : Option Expression)
    (limit : UInt32) (v : Service) (i : Nat) : Nat → Prop
  | waiting (h : v.tasks[i]? = some (.waiting query limit)) : Standing s factory query limit v i 0
  | refused {failure : Failure} {n : Nat} (h : v.tasks[i]? = some (.refused failure))
      (hv : s.settings.validate = .error failure) : Standing s factory query limit v i (n + 1)
  | begun {k n : Nat} (h : v.tasks[i]? = some (.begun k))
      (hs : v.sessions[k]? = some ((s.start query limit (factory k)).advance (n + 1))) :
      Standing s factory query limit v i (n + 1)

variable {query : Option Expression} {limit : UInt32} {n : Nat}

/-- **A turn of the task is one step of its session.** -/
theorem Standing.turn (h : Standing s factory query limit v i n) :
    Standing s factory query limit (v.turn s factory i) i (n + 1) := by
  cases h with
  | waiting h =>
    cases hv : s.settings.validate with
    | error failure =>
      rw [turn_waiting_of_error h hv]
      exact .refused (getElem?_set_task h _) hv
    | ok valid =>
      rw [turn_waiting_of_ok h hv]
      exact .begun (getElem?_set_task h _) List.getElem?_concat_length
  | refused h hv =>
    rw [turn_refused h]
    exact .refused h hv
  | begun h hs =>
    rw [turn_begun h]
    refine .begun h ?_
    rw [Session.advance_succ]
    exact (Sessions.getElem?_stepAt_self _ _).trans (congrArg (Option.map Session.step) hs)

/-- **A turn of another task changes nothing for this one.** -/
theorem Standing.turn_of_ne (h : Standing s factory query limit v i n) (hv : v.Owned) (hj : j ≠ i) :
    Standing s factory query limit (v.turn s factory j) i n := by
  have htask : (v.turn s factory j).tasks[i]? = v.tasks[i]? := getElem?_tasks_turn_of_ne hj
  cases h with
  | waiting h => exact .waiting (htask.trans h)
  | refused h hfailure => exact .refused (htask.trans h) hfailure
  | begun h hs =>
    refine .begun (htask.trans h) ?_
    rw [hv.getElem?_sessions_turn_of_ne hj (client?_of_begun h), hs]

theorem Standing.move (h : Standing s factory query limit v i n) (hv : v.Owned) (m : Move) :
    Standing s factory query limit (v.move s factory m) i (n + [m].countP (Move.isTurnOf i)) := by
  cases m with
  | spawn query' limit' =>
    cases h with
    | waiting h => exact .waiting (getElem?_tasks_spawn h)
    | refused h hfailure => exact .refused (getElem?_tasks_spawn h) hfailure
    | begun h hs => exact .begun (getElem?_tasks_spawn h) hs
  | turn j =>
    by_cases hj : j = i
    · subst hj
      rw [List.countP_singleton, Move.isTurnOf, beq_self_eq_true]
      exact h.turn
    · rw [List.countP_singleton, Move.isTurnOf, beq_eq_false_iff_ne.2 hj]
      exact h.turn_of_ne hv hj

/-- **After any moves** a task stands as far as its turns among them have brought it. -/
theorem Standing.follow (h : Standing s factory query limit v i n) (hv : v.Owned)
    (moves : List Move) :
    Standing s factory query limit (moves.foldl (Service.move s factory) v) i
      (n + moves.countP (Move.isTurnOf i)) := by
  induction moves generalizing v n with
  | nil => exact h
  | cons m moves ih =>
    have htail := ih (h.move hv m) (hv.move m)
    rwa [Nat.add_assoc, ← List.countP_append] at htail

/-- **A task shows what the search alone shows** after as many steps as the task had turns. Before
its first turn it has no outcome, whatever the settings. -/
theorem Standing.exists_client (h : Standing s factory query limit v i n) (hv : v.Owned) :
    ∃ client,
      (∀ k, v.client? i = some k → client = factory k ∧ ∀ j, v.client? j = some k → j = i) ∧
      v.calls i = ((s.start query limit client).advance n).calls ∧
      v.outcome? i =
        if n = 0 then none else ((s.start query limit client).advance n).outcome? := by
  have unused (hnone : v.client? i = none) (k : Nat) (hk : v.client? i = some k) :
      factory 0 = factory k ∧ ∀ j, v.client? j = some k → j = i := by
    rw [hnone] at hk
    cases hk
  cases h with
  | waiting h =>
    have hclient : v.client? i = none := by rw [client?, h]; rfl
    refine ⟨factory 0, unused hclient, ?_, ?_⟩
    · simp only [calls, hclient, Option.bind_none]
      rfl
    · simp only [outcome?, h, if_true]
  | refused h hfailure =>
    have hclient : v.client? i = none := by rw [client?, h]; rfl
    refine ⟨factory 0, unused hclient, ?_, ?_⟩
    · rw [Searcher.advance_start_of_invalid _ _ _ _ hfailure]
      simp only [calls, hclient, Option.bind_none]
    · rw [Searcher.advance_start_of_invalid _ _ _ _ hfailure]
      simp only [outcome?, h, Nat.succ_ne_zero, if_false]
      rfl
  | @begun client n h hs =>
    have hclient := client?_of_begun h
    refine ⟨factory client, ?_, ?_, ?_⟩
    · intro k hk
      obtain rfl := Option.some.inj (hclient.symm.trans hk)
      exact ⟨rfl, fun j hj => hv.eq hj hclient⟩
    · simp only [calls, hclient, Option.bind_some, hs]
    · simp only [outcome?, h, Option.bind_some, hs, Nat.succ_ne_zero, if_false]

end Service

namespace Searcher

variable (s : Searcher) (factory : Nat → Client)

theorem owned_serve (history : List Move) : (s.serve factory history).Owned := by
  refine Service.Owned.follow ⟨?_, ?_⟩ history <;> intros <;> contradiction

/-- A task that was asked for stands where its turns have brought it since. -/
theorem standing_serve (before after : List Move) (query : Option Expression) (limit : UInt32) :
    Service.Standing s factory query limit
      (s.serve factory (before ++ .spawn query limit :: after))
      (s.serve factory before).tasks.length
      (after.countP (Move.isTurnOf (s.serve factory before).tasks.length)) := by
  have hspawn : Service.Standing s factory query limit
      ((s.serve factory before).move s factory (.spawn query limit))
      (s.serve factory before).tasks.length 0 :=
    .waiting List.getElem?_concat_length
  have h := hspawn.follow ((s.owned_serve factory before).move _) after
  rw [Nat.zero_add] at h
  rwa [serve, List.foldl_append]

/-- **A search among others is the search alone.** From the moment it is asked for, whatever else
was and is asked of the searcher and however the turns fall: only this search uses its client, which
has seen a first part of the calls that the search makes alone. Once it has an outcome this is the
outcome alone, after all those calls, and it has it as soon as it has had the turns that they
need. -/
theorem serve_alone (before after : List Move) (query : Option Expression) (limit : UInt32) :
    let task := (s.serve factory before).tasks.length
    let now := s.serve factory (before ++ .spawn query limit :: after)
    let turns := after.countP (Move.isTurnOf task)
    ∃ client,
      (∀ k, now.client? task = some k →
        client = factory k ∧ ∀ other, now.client? other = some k → other = task) ∧
      now.calls task <+: (s.search query limit client).calls ∧
      (∀ outcome, now.outcome? task = some outcome →
        (s.search query limit client).outcome? = some outcome ∧
        now.calls task = (s.search query limit client).calls) ∧
      (turns ≠ 0 → (s.start query limit client).stepsLeft ≤ turns →
        now.outcome? task = (s.search query limit client).outcome?) := by
  intro task now turns
  have hstanding : now.Standing s factory query limit task turns :=
    s.standing_serve factory before after query limit
  obtain ⟨client, howner, hcalls, houtcome⟩ := hstanding.exists_client (s.owned_serve factory _)
  refine ⟨client, howner, ?_, ?_, ?_⟩
  · rw [hcalls]
    exact Session.calls_advance_prefix_run _ _
  · intro outcome h
    rw [houtcome] at h
    split at h
    · cases h
    · have hrun := Session.advance_eq_run_of_isFinished (Option.isSome_of_eq_some h)
      rw [hrun] at h hcalls
      exact ⟨h, hcalls⟩
  · intro hturns hsteps
    rw [houtcome, if_neg hturns, Session.advance_eq_run hsteps]
    rfl

/-- A search asked for beside one whose client crashes after the other has begun. -/
theorem serve_alone_beside_crash :
    let s : Searcher := ⟨{ host := "localhost", searchBase := "dc=example" }, Registry.person⟩
    let factory : Nat → Client := fun k =>
      if k = 0 then { events := [.crash] } else { events := [.entry ⟨"cn=a", [("sn", ["A"])]⟩] }
    let now := s.serve factory
      ([.spawn none 5, .turn 0] ++ .spawn none 3 ::
        [.turn 1, .turn 0, .turn 1, .turn 0, .turn 1, .turn 1, .turn 1])
    (now.outcome? 0 matches some (.error .crashed)) ∧
      now.outcome? 1 = (s.search none 3 (factory 1)).outcome? ∧
      now.calls 1 <+: (s.search none 3 (factory 1)).calls := by
  intro s factory now
  obtain ⟨client, howner, hcalls, -, houtcome⟩ := serve_alone s factory [.spawn none 5, .turn 0]
    [.turn 1, .turn 0, .turn 1, .turn 0, .turn 1, .turn 1, .turn 1] none 3
  have htask : (s.serve factory [.spawn none 5, .turn 0]).tasks.length = 1 := by decide
  rw [htask] at howner hcalls houtcome
  obtain ⟨rfl, -⟩ := howner 1 (by decide)
  exact ⟨by decide, houtcome (by decide) (by decide), hcalls⟩

end Searcher

end DirectoryLookup.Search
