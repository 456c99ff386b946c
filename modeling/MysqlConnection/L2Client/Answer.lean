import MysqlConnection.L2Client.Routing
import Mathlib.Data.List.Nodup

/-!
# How often, and how truthfully, a request is answered

Each of the eight methods calls its completion with the result of the
connection and, if that is `YES`, executes; the block of `execute:` answers
the delegate, with `success` of the connection as the `res` flag.

`Counted` is kept by every step, under any interleaving: a request has one
token, which is its `connect:` block, the completion of it, its `execute:`
block, the completion of that, a logged failed connection or a logged answer.
So when both queues are empty a request was answered once if it connected and
never if it did not, and the flag is always `YES` (`Affirmed`).

`failures` is a history of the library calls that fail. `answered_iff`: for
requests made one at a time, a request got exactly one answer, with a true
flag, if and only if no call made for it fails. After a failed connection
there is no answer, after a failed execution a wrong one (`unanswered`).
-/
namespace MysqlConnection.L2.Client

variable {ρ : Type}

/-! ## Tokens -/

section
variable [DecidableEq ρ] (r : Request ρ)

def Task.connects : Task ρ → Bool
  | .connect r' _ => r' = r
  | _ => false

def Task.executes : Task ρ → Bool
  | .execute r' _ => r' = r
  | _ => false

def Callback.connects : Callback ρ → Bool
  | .connectionFailure r' => r' = r
  | .connectionSuccess r' => r' = r
  | .execution _ _ => false

def Callback.executes : Callback ρ → Bool
  | .execution r' _ => r' = r
  | _ => false

/-- Tokens of `r` that are still connecting. -/
def connecting (s : St ρ) : Nat :=
  s.workerQueue.countP (Task.connects r) + s.callbackQueue.countP (Callback.connects r)

/-- Tokens of `r` that are still executing. -/
def executing (s : St ρ) : Nat :=
  s.workerQueue.countP (Task.executes r) + s.callbackQueue.countP (Callback.executes r)

/-- The answers to `r`. -/
def answers (s : St ρ) : List (Event ρ) := s.log.filter fun e => e.answers = some r

end

/-- One token for every issued request. -/
structure Counted [DecidableEq ρ] (s : St ρ) (r : Request ρ) : Prop where
  connect : connecting r s + s.log.count (.connected r true) + s.log.count (.connected r false) =
    s.issued.count r
  execute : executing r s + (answers r s).length = s.log.count (.connected r true)

/-- A worker step keeps the number of tokens of each kind. -/
theorem Moves.tokens [DecidableEq ρ] {t : Task ρ} {x : Option (Task ρ)} {cs : List (Callback ρ)}
    (h : Moves t x cs) (r : Request ρ) :
    x.toList.countP (Task.connects r) + cs.countP (Callback.connects r) =
        [t].countP (Task.connects r) ∧
      x.toList.countP (Task.executes r) + cs.countP (Callback.executes r) =
        [t].countP (Task.executes r) := by
  cases h <;> simp [Task.connects, Task.executes, Callback.connects, Callback.executes,
    List.countP_cons]

theorem worker_tokens [DecidableEq ρ] {s s' : St ρ} {i : Nat} {o : Outcome}
    (h : step s (.worker i o) = some s') (r : Request ρ) :
    connecting r s' = connecting r s ∧ executing r s' = executing r s := by
  obtain ⟨t, rest, s₁, x, -, hp, hw, hp', hs'⟩ := worker_inv h
  obtain ⟨-, -, cs, hm, hq⟩ := workerStep_spec hw
  obtain ⟨h1, h2⟩ := hm.tokens r
  have hc : s'.callbackQueue = s.callbackQueue ++ cs := by rw [hs']; exact hq
  simp only [connecting, executing, hp.countP_eq, hp'.countP_eq, hc, List.countP_append]
  rw [← List.singleton_append, List.countP_append, List.countP_append]
  omega

/-- A worker step adds to the log neither a result nor an answer. -/
theorem worker_log [DecidableEq ρ] {s s' : St ρ} {i : Nat} {o : Outcome}
    (h : step s (.worker i o) = some s') (r : Request ρ) :
    (∀ b, s'.log.count (.connected r b) = s.log.count (.connected r b)) ∧
      answers r s' = answers r s := by
  obtain ⟨t, rest, s₁, x, -, -, hw, -, hs'⟩ := worker_inv h
  obtain ⟨-, ⟨es, hl, hc⟩, -⟩ := workerStep_spec hw
  have hlog : s'.log = s.log ++ es := by rw [hs']; exact hl
  refine ⟨fun b => ?_, ?_⟩
  · have h0 : es.count (.connected r b) = 0 := List.count_eq_zero.2 fun hm => by cases hc _ hm
    rw [hlog, List.count_append, h0, Nat.add_zero]
  · have h0 : es.filter (fun e => e.answers = some r) = [] := by
      rw [List.filter_eq_nil_iff]
      intro e he ha
      have := hc e he
      cases e <;> simp [Event.answers, Event.MadeIn] at ha this
    rw [answers, answers, hlog, List.filter_append, h0, List.append_nil]

theorem counted_step [DecidableEq ρ] {s s' : St ρ} {l : Label ρ} (r : Request ρ) (hc : Counted s r)
    (h : step s l = some s') : Counted s' r := by
  obtain ⟨h1, h2⟩ := hc
  cases l with
  | createInstance c d => simp only [step, Option.some.injEq] at h; subst h; exact ⟨h1, h2⟩
  | request d sig m =>
    simp only [step, Option.some.injEq] at h; subst h
    refine ⟨?_, ?_⟩
    · simp only [connecting, request, List.countP_append, List.count_append, List.countP_cons,
        List.countP_nil, List.count_singleton, Task.connects] at h1 ⊢
      simp only [decide_eq_true_eq, beq_iff_eq] at h1 ⊢
      omega
    · simpa [executing, request, List.countP_append, List.countP_cons, Task.executes, answers] using h2
  | worker i o =>
    obtain ⟨ht, he⟩ := worker_tokens h r
    obtain ⟨hl, ha⟩ := worker_log h r
    have hi : s'.issued = s.issued := by
      obtain ⟨t, rest, s₁, x, -, -, hw, -, hs'⟩ := worker_inv h
      rw [hs']; exact (workerStep_spec hw).1.issued
    exact ⟨by rw [ht, hl, hl, hi]; exact h1, by rw [he, hl, ha]; exact h2⟩
  | callback i b =>
    obtain ⟨c, rest, -, hp, rfl⟩ := callback_inv h
    obtain ⟨hq, ht⟩ := callbackStep_queues { s with callbackQueue := rest } b c
    obtain ⟨-, -, -, -, hi⟩ := callbackStep_main { s with callbackQueue := rest } b c
    simp only [connecting, executing, answers, hp.countP_eq, List.countP_cons] at h1 h2
    refine ⟨?_, ?_⟩ <;>
      simp only [connecting, executing, answers, hq, ht, hi, callbackStep_log, List.countP_append,
        List.count_append, List.filter_append, List.length_append]
    · cases c with
      | connectionFailure r' =>
        simp [callbackTasks, callbackEvents, Callback.connects, List.count_singleton] at h1 ⊢
        omega
      | connectionSuccess r' =>
        cases b <;>
          simp [callbackTasks, callbackEvents, Callback.connects, Task.connects, List.count_cons] at h1 ⊢ <;>
          omega
      | execution r' results =>
        simp [callbackTasks, callbackEvents, Callback.connects] at h1 ⊢
        omega
    · cases c with
      | connectionFailure r' =>
        simp [callbackTasks, callbackEvents, Callback.executes, Event.answers] at h2 ⊢
        omega
      | connectionSuccess r' =>
        cases b <;>
          simp [callbackTasks, callbackEvents, Callback.executes, Task.executes, Event.answers,
            List.count_cons, List.countP_cons] at h2 ⊢ <;>
          omega
      | execution r' results =>
        simp only [callbackTasks, callbackEvents, Callback.executes, Event.answers, List.filter_cons] at h2 ⊢
        by_cases hr : r' = r
        · simp [hr] at h2 ⊢; omega
        · simp [hr] at h2 ⊢; omega

/-! ## Failed calls -/

/-- The request for which a library call fails in this step: a call of its
`connect:` or `execute:` block, or the `dbdead` check of its completion. -/
def failures (s : St ρ) : Label ρ → List (Request ρ)
  | .worker i .fail =>
    match s.workerQueue[i]? with
    | some (.connect r _) => [r]
    | some (.execute r _) => [r]
    | _ => []
  | .callback i false =>
    match s.callbackQueue[i]? with
    | some (.connectionSuccess r) => [r]
    | _ => []
  | _ => []

/-- A connection that failed, or is about to be reported as failed, is among
the failures `fs`. -/
structure Blamed (s : St ρ) (fs : List (Request ρ)) : Prop where
  task : ∀ r, .connect r .failure ∈ s.workerQueue → r ∈ fs
  callback : ∀ r, .connectionFailure r ∈ s.callbackQueue → r ∈ fs
  log : ∀ r, .connected r false ∈ s.log → r ∈ fs

/-- A `connect:` block turns to `failure` when a call of it fails. -/
theorem connectStep_failure {s s' : St ρ} {r r' : Request ρ} {pc : ConnectPc} {o : Outcome}
    (h : connectStep s r pc o = some (s', some (.connect r' .failure))) : r' = r ∧ o = .fail := by
  cases pc <;> cases o <;> simp [connectStep] at h
  all_goals exact ⟨h.2.symm, rfl⟩

theorem Blamed.append {s : St ρ} {fs : List (Request ρ)} (hb : Blamed s fs)
    (gs : List (Request ρ)) : Blamed s (fs ++ gs) :=
  ⟨fun r hr => List.mem_append_left _ (hb.task r hr),
    fun r hr => List.mem_append_left _ (hb.callback r hr),
    fun r hr => List.mem_append_left _ (hb.log r hr)⟩

/-- Only the block of the step can turn to `failure`, and only a block at
`failure` enqueues the completion of a failed connection. -/
theorem Blamed.worker {s s' : St ρ} {i : Nat} {o : Outcome} {fs : List (Request ρ)}
    (hb : Blamed s fs) (h : step s (.worker i o) = some s') :
    Blamed s' (fs ++ failures s (.worker i o)) := by
  have hb' := hb.append (failures s (.worker i o))
  obtain ⟨t, rest, s₁, x, hi, hp, hw, hp', hs'⟩ := worker_inv h
  obtain ⟨-, ⟨es, hl, hc⟩, cs, hm, hq⟩ := workerStep_spec hw
  refine ⟨fun r hr => ?_, fun r hr => ?_, fun r hr => ?_⟩
  · rw [hp'.mem_iff, List.mem_append] at hr
    rcases hr with hr | hr
    · simp only [Option.mem_toList] at hr; subst hr
      obtain ⟨pc, rfl⟩ : ∃ pc, t = .connect r pc := by cases hm; exact ⟨_, rfl⟩
      obtain ⟨-, rfl⟩ := connectStep_failure hw
      exact List.mem_append_right _ (by simp [failures, hi])
    · exact hb'.task r (hp.mem_iff.2 (List.mem_cons_of_mem _ hr))
  · have hq' : s'.callbackQueue = s.callbackQueue ++ cs := by rw [hs']; exact hq
    rw [hq', List.mem_append] at hr
    rcases hr with hr | hr
    · exact hb'.callback r hr
    · -- the block that enqueued it was at `failure`
      have ht : t = .connect r .failure := by
        cases hm <;> simp only [List.not_mem_nil, List.mem_singleton, reduceCtorEq,
          Callback.connectionFailure.injEq] at hr
        rw [hr]
      exact hb'.task r (hp.mem_iff.2 (ht ▸ List.mem_cons_self))
  · have hl' : s'.log = s.log ++ es := by rw [hs']; exact hl
    rw [hl', List.mem_append] at hr
    rcases hr with hr | hr
    · exact hb'.log r hr
    · cases hc _ hr

theorem Blamed.completion {s s' : St ρ} {i : Nat} {b : Bool} {fs : List (Request ρ)}
    (hb : Blamed s fs) (h : step s (.callback i b) = some s') :
    Blamed s' (fs ++ failures s (.callback i b)) := by
  have hb' := hb.append (failures s (.callback i b))
  obtain ⟨c, rest, hi, hp, rfl⟩ := callback_inv h
  obtain ⟨hq, ht⟩ := callbackStep_queues { s with callbackQueue := rest } b c
  refine ⟨fun r hr => ?_, fun r hr => ?_, fun r hr => ?_⟩
  · rw [ht, List.mem_append] at hr
    rcases hr with hr | hr
    · exact hb'.task r hr
    · cases c <;> cases b <;> simp [callbackTasks] at hr
  · rw [hq] at hr
    exact hb'.callback r (hp.mem_iff.2 (List.mem_cons_of_mem _ hr))
  · rw [callbackStep_log, List.mem_append] at hr
    rcases hr with hr | hr
    · exact hb'.log r hr
    cases c with
    | connectionFailure r' =>
      simp only [callbackEvents, List.mem_singleton, Event.connected.injEq, and_true] at hr; subst hr
      exact hb'.callback r (hp.mem_iff.2 List.mem_cons_self)
    | connectionSuccess r' =>
      simp only [callbackEvents, List.mem_cons, Event.connected.injEq, reduceCtorEq, List.not_mem_nil,
        or_false, false_or] at hr
      obtain ⟨rfl, rfl⟩ := hr
      exact List.mem_append_right _ (by simp [failures, hi])
    | execution r' results => simp [callbackEvents] at hr

theorem Blamed.step {s s' : St ρ} {l : Label ρ} {fs : List (Request ρ)}
    (hb : Blamed s fs) (h : step s l = some s') : Blamed s' (fs ++ failures s l) := by
  cases l with
  | createInstance c d =>
    simp only [Client.step, Option.some.injEq] at h; subst h
    obtain ⟨h1, h2, h3⟩ := hb.append (failures s (.createInstance c d))
    exact ⟨h1, h2, h3⟩
  | request d sig m =>
    simp only [Client.step, Option.some.injEq] at h; subst h
    obtain ⟨h1, h2, h3⟩ := hb.append (failures s (.request d sig m))
    refine ⟨fun r hr => h1 r ?_, h2, h3⟩
    simpa [request] using hr
  | worker i o => exact hb.worker h
  | callback i b => exact hb.completion h

/-! ## Requests made one at a time -/

/-- Each answer has the flag `YES`. -/
def Event.affirms : Event ρ → Prop
  | .recivedDataArray _ _ _ res _ => res = true
  | _ => True

/-- The requests have the ids `0, 1, …` -/
def Numbered (s : St ρ) : Prop := s.issued.map (·.id) = List.range s.issued.length

theorem Numbered.nodup {s : St ρ} (h : Numbered s) : s.issued.Nodup :=
  List.Nodup.of_map _ (h ▸ List.nodup_range)

/-- What holds in every run. -/
structure Accounted [DecidableEq ρ] (s : St ρ) (fs : List (Request ρ)) : Prop where
  counted : ∀ r, Counted s r
  blamed : Blamed s fs
  affirmed : ∀ e ∈ s.log, e.affirms
  numbered : Numbered s

theorem affirmed_step {s s' : St ρ} {l : Label ρ} (ha : ∀ e ∈ s.log, e.affirms)
    (h : step s l = some s') : ∀ e ∈ s'.log, e.affirms := by
  intro e he
  cases l with
  | createInstance c d => simp only [step, Option.some.injEq] at h; subst h; exact ha e he
  | request d sig m => simp only [step, Option.some.injEq] at h; subst h; exact ha e he
  | worker i o =>
    obtain ⟨t, rest, s₁, x, -, -, hw, -, hs'⟩ := worker_inv h
    obtain ⟨-, ⟨es, hl, hc⟩, -⟩ := workerStep_spec hw
    have hl' : s'.log = s.log ++ es := by rw [hs']; exact hl
    rw [hl', List.mem_append] at he
    rcases he with he | he
    · exact ha e he
    · have := hc e he
      cases e <;> trivial
  | callback i b =>
    obtain ⟨c, rest, -, -, rfl⟩ := callback_inv h
    rw [callbackStep_log, List.mem_append] at he
    rcases he with he | he
    · exact ha e he
    · cases c <;> simp only [callbackEvents, List.mem_cons, List.not_mem_nil, or_false] at he
      case connectionFailure => subst he; trivial
      case connectionSuccess => rcases he with rfl | rfl <;> trivial
      case execution => rcases he with rfl | rfl | rfl <;> trivial

/-- Only a request adds to `issued`. -/
theorem numbered_step {s s' : St ρ} {l : Label ρ} (hn : Numbered s) (h : step s l = some s') :
    Numbered s' := by
  cases l with
  | createInstance c d => simp only [step, Option.some.injEq] at h; subst h; exact hn
  | request d sig m =>
    simp only [step, Option.some.injEq] at h; subst h
    simp only [Numbered, request, List.map_append, List.map_cons, List.map_nil, List.length_append,
      List.length_singleton, List.range_succ]
    rw [← hn]
  | worker i o =>
    obtain ⟨t, rest, s₁, x, -, -, hw, -, hs'⟩ := worker_inv h
    have hi : s'.issued = s.issued := by rw [hs']; exact (workerStep_spec hw).1.issued
    rw [Numbered, hi]; exact hn
  | callback i b =>
    obtain ⟨c, rest, -, -, rfl⟩ := callback_inv h
    obtain ⟨-, -, -, -, hi⟩ := callbackStep_main { s with callbackQueue := rest } b c
    rw [Numbered, hi]; exact hn

theorem accounted_inductive [DecidableEq ρ] (G : St ρ → Label ρ → Prop) :
    (((lts ρ).restrict G).observe failures).Inductive fun x => Accounted x.1 x.2 where
  init := by
    rintro ⟨s, fs⟩ ⟨⟨c, d, rfl⟩, rfl⟩
    refine ⟨fun r => ⟨by simp [connecting, start], by simp [executing, answers, start]⟩, ⟨?_, ?_, ?_⟩, ?_, rfl⟩
    all_goals intro r hr; simp [start] at hr
  step := by
    rintro ⟨s, fs⟩ l ⟨s', fs'⟩ ⟨hc, hb, ha, hn⟩ ⟨⟨-, hst⟩, rfl⟩
    exact ⟨fun r => counted_step r (hc r) hst, hb.step hst, affirmed_step ha hst, numbered_step hn hst⟩

/-- The receiver of `r` got one answer to it, and the flag of this answer says
whether the calls made for `r` succeeded. -/
def Answered [DecidableEq ρ] (s : St ρ) (fs : List (Request ρ)) (r : Request ρ) : Prop :=
  ∃ result res, answers r s = [.recivedDataArray r r.receiver result res r.signalId] ∧
    (res = true ↔ r ∉ fs)

/-- **One truthful answer.** When requests are made one at a time and both
queues are empty again, a request was answered once, with a flag that tells
whether it succeeded, if and only if no library call made for it failed. -/
theorem answered_iff [DecidableEq ρ] (s : St ρ) (fs : List (Request ρ))
    (h : (((lts ρ).restrict OneAtATime).observe failures).Reachable (s, fs))
    (hw : s.workerQueue = []) (hq : s.callbackQueue = []) (r : Request ρ) (hr : r ∈ s.issued) :
    Answered s fs r ↔ r ∉ fs := by
  obtain ⟨hc, hb, ha, hn⟩ := (accounted_inductive OneAtATime).reachable h
  have hroute : Routed s := routed_of_oneAtATime s h.of_observe
  have hmem : ∀ e ∈ answers r s, e ∈ s.log ∧ e.answers = some r := by
    intro e he; simpa [answers] using he
  constructor
  · rintro ⟨result, res, he, hres⟩
    have hm := hmem _ (he ▸ List.mem_singleton_self _)
    have hres' : res = true := ha _ hm.1
    exact hres.1 hres'
  · intro hf
    obtain ⟨h1, h2⟩ := hc r
    have hone : s.issued.count r = 1 := List.count_eq_one_of_mem hn.nodup hr
    have hno : s.log.count (.connected r false) = 0 :=
      List.count_eq_zero.2 fun hm => hf (hb.log r hm)
    have hlen : (answers r s).length = 1 := by
      simp only [connecting, executing, hw, hq, List.countP_nil] at h1 h2; omega
    obtain ⟨e, he⟩ := List.length_eq_one_iff.mp hlen
    obtain ⟨hm, hr'⟩ := hmem e (he ▸ List.mem_singleton_self e)
    have hrt := hroute e hm
    have hres := ha e hm
    cases e <;> simp only [Event.answers, Option.some.injEq, reduceCtorEq] at hr'
    subst hr'
    simp only [Event.routed] at hrt
    obtain ⟨rfl, rfl⟩ := hrt
    exact ⟨_, _, he, fun _ => hf, fun _ => hres⟩

/-- The first request succeeds, `dbopen` fails for the second. -/
def sequential : List (Label Nat) :=
  [.request 1 0 .getTableNamesInSchema] ++ connects 0 ++
  [.worker 0 .ok, .callback 0 true, .worker 0 .ok, .worker 0 .ok, .worker 0 .done, .worker 0 .ok,
   .worker 0 .ok, .callback 0 true, .request 2 1 .createAdminConfTable, .worker 0 .ok, .worker 0 .ok,
   .worker 0 .ok, .worker 0 .ok, .worker 0 .fail, .worker 0 .ok, .worker 0 .ok, .callback 0 false]

theorem answered_sequential :
    ∃ s fs r₀ r₁, (((lts Nat).restrict OneAtATime).observe failures).Reachable (s, fs) ∧
      s.issued = [r₀, r₁] ∧ Answered s fs r₀ ∧ ¬ Answered s fs r₁ := by
  have hex : ∃ x, (((lts Nat).restrict OneAtATime).observe failures).Reachable x ∧
      (x.1.workerQueue = [] ∧ x.1.callbackQueue = []) ∧
      x.1.issued.map (fun r => decide (r ∈ x.2)) = [false, true] :=
    LTS.exists_of_execObs (start ⟨[], [], [], []⟩ 0) sequential _ ⟨_, _, rfl⟩ (by decide)
  obtain ⟨⟨s, fs⟩, hr, ⟨hw, hq⟩, hf⟩ := hex
  obtain ⟨r₀, r₁, hi⟩ := List.length_eq_two.mp (by simpa using congrArg List.length hf)
  simp only [hi, List.map_cons, List.map_nil, List.cons.injEq, decide_eq_false_iff_not,
    decide_eq_true_eq, and_true] at hf
  refine ⟨s, fs, r₀, r₁, hr, hi, ?_, ?_⟩
  · exact (answered_iff s fs hr hw hq r₀ (by simp [hi])).2 hf.1
  · exact fun ha => (answered_iff s fs hr hw hq r₁ (by simp [hi])).1 ha hf.2

/-- `dbopen` fails: no answer. -/
def unopened : List (Label Nat) :=
  [.request 1 0 .getTableNamesInSchema, .worker 0 .ok, .worker 0 .ok, .worker 0 .ok, .worker 0 .ok,
   .worker 0 .fail, .worker 0 .ok, .worker 0 .ok, .callback 0 true]

/-- The screen that asked for a table list whose server cannot be reached is
never answered. -/
theorem unanswered : ¬ ∀ s fs, (((lts Nat).restrict OneAtATime).observe failures).Reachable (s, fs) →
    s.workerQueue = [] → s.callbackQueue = [] → ∀ r ∈ s.issued, Answered s fs r := by
  intro hall
  have hex : ∃ x, (((lts Nat).restrict OneAtATime).observe failures).Reachable x ∧
      (x.1.workerQueue = [] ∧ x.1.callbackQueue = []) ∧
      x.1.issued.map (fun r => answers r x.1) = [[]] :=
    LTS.exists_of_execObs (start ⟨[], [], [], []⟩ 0) unopened _ ⟨_, _, rfl⟩ (by decide)
  obtain ⟨⟨s, fs⟩, hr, ⟨hw, hq⟩, hf⟩ := hex
  obtain ⟨r, hi⟩ := List.length_eq_one_iff.mp (by simpa using congrArg List.length hf)
  simp only [hi, List.map_cons, List.map_nil, List.cons.injEq, and_true] at hf
  obtain ⟨_, _, he, -⟩ := hall s fs hr hw hq r (by simp [hi])
  rw [hf] at he; cases he

end MysqlConnection.L2.Client
