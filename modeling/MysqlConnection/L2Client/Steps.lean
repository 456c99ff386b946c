import MysqlConnection.L2Client.SQLClient
import Mathlib.Data.List.Perm.Basic

/-!
# What one step of the client can do

The invariants over `Client.lts` do not unfold the step function. They use:

* `Moves`, `workerStep_spec`: a worker step advances one block, or reports its
  result (one callback is enqueued, the cleanup call remains), or makes the
  cleanup call; it leaves the fields of `MySqlServerConnection` and the saved
  inputs alone and logs calls only.
* `callbackStep_log`, `callbackStep_frame`: what a completion logs and leaves
  alone.
* `worker_inv`, `callback_inv`: a step of the system takes one block out of
  its queue (`List.Perm`, so the position does not matter) and puts the rest
  of it back.
-/
namespace MysqlConnection.L2.Client

variable {ρ : Type}

/-! ## Queues -/

theorem take_perm {α : Type} {q : List α} {i : Nat} {t : α} (h : q[i]? = some t) :
    q.Perm (t :: q.eraseIdx i) := by
  obtain ⟨hi, rfl⟩ := List.getElem?_eq_some_iff.mp h
  exact (List.getElem_cons_eraseIdx_perm hi).symm

theorem putTask_perm {q : List (Task ρ)} {i : Nat} {t : Task ρ} (h : q[i]? = some t)
    (x : Option (Task ρ)) : (putTask q i x).Perm (x.toList ++ q.eraseIdx i) := by
  obtain ⟨hi, rfl⟩ := List.getElem?_eq_some_iff.mp h
  cases x with
  | none => exact .refl _
  | some t' => exact List.set_perm_cons_eraseIdx hi t'

/-! ## Field lemmas -/

section
variable (s : St ρ)

/-- The fields only the main thread writes. -/
structure Frame (s s' : St ρ) : Prop where
  creds : s'.creds = s.creds
  delegate : s'.delegate = s.delegate
  signal_id : s'.signal_id = s.signal_id
  m_resultArray : s'.m_resultArray = s.m_resultArray
  input : s'.input = s.input
  workerQueue : s'.workerQueue = s.workerQueue
  issued : s'.issued = s.issued

theorem Frame.refl : Frame s s := ⟨rfl, rfl, rfl, rfl, rfl, rfl, rfl⟩

theorem Frame.trans {s s₁ s' : St ρ} (h : Frame s s₁) (h' : Frame s₁ s') : Frame s s' :=
  ⟨h'.1.trans h.1, h'.2.trans h.2, h'.3.trans h.3, h'.4.trans h.4, h'.5.trans h.5, h'.6.trans h.6,
    h'.7.trans h.7⟩

theorem call_frame (f : Call) : Frame s (s.call f) := ⟨rfl, rfl, rfl, rfl, rfl, rfl, rfl⟩

theorem setHandle_frame (f : Handle ρ → Handle ρ) : Frame s (s.setHandle f) := by
  unfold St.setHandle; split
  · exact .refl s
  · exact ⟨rfl, rfl, rfl, rfl, rfl, rfl, rfl⟩

theorem setLogin_frame (f : Login → Login) : Frame s (s.setLogin f) := by
  unfold St.setLogin; split
  · exact .refl s
  · exact ⟨rfl, rfl, rfl, rfl, rfl, rfl, rfl⟩

theorem sendBuffer_frame : Frame s s.sendBuffer := by
  unfold St.sendBuffer; split
  · split
    · exact .refl s
    · have hlog (l : List (Event ρ)) : Frame s { s with log := l } := ⟨rfl, rfl, rfl, rfl, rfl, rfl, rfl⟩
      exact (hlog _).trans (setHandle_frame _ _)
  · exact .refl s

@[simp] theorem call_callbackQueue (f : Call) : (s.call f).callbackQueue = s.callbackQueue := rfl

@[simp] theorem call_connection (f : Call) : (s.call f).connection = s.connection := rfl

@[simp] theorem call_handles (f : Call) : (s.call f).handles = s.handles := rfl

@[simp] theorem call_log (f : Call) :
    (s.call f).log = s.log ++ [.call f s.connection s.isClosed] := rfl

@[simp] theorem setHandle_callbackQueue (f : Handle ρ → Handle ρ) :
    (s.setHandle f).callbackQueue = s.callbackQueue := by unfold St.setHandle; split <;> rfl

@[simp] theorem setHandle_log (f : Handle ρ → Handle ρ) : (s.setHandle f).log = s.log := by
  unfold St.setHandle; split <;> rfl

@[simp] theorem setHandle_connection (f : Handle ρ → Handle ρ) :
    (s.setHandle f).connection = s.connection := by unfold St.setHandle; split <;> rfl

@[simp] theorem setLogin_callbackQueue (f : Login → Login) :
    (s.setLogin f).callbackQueue = s.callbackQueue := by unfold St.setLogin; split <;> rfl

@[simp] theorem setLogin_log (f : Login → Login) : (s.setLogin f).log = s.log := by
  unfold St.setLogin; split <;> rfl

theorem setLogin_handles (f : Login → Login) : (s.setLogin f).handles = s.handles := by
  unfold St.setLogin; split <;> rfl

theorem setLogin_connection (f : Login → Login) : (s.setLogin f).connection = s.connection := by
  unfold St.setLogin; split <;> rfl

@[simp] theorem sendBuffer_callbackQueue : s.sendBuffer.callbackQueue = s.callbackQueue := by
  unfold St.sendBuffer; split
  · split
    · rfl
    · simp
  · rfl

end

/-! ## Worker steps -/

/-- The events a worker step from `s` may log: a call on `connection`, a text
of the buffer of its handle. -/
def Event.MadeIn (s : St ρ) : Event ρ → Prop
  | .call _ h closed => h = s.connection ∧ closed = s.isClosed
  | .executed r h i => s.connection = some h ∧ s.handle? = some i ∧ r ∈ i.buffer
  | _ => False

/-- From `s` to `s'` only calls were logged. -/
def Logs (s s' : St ρ) : Prop := ∃ es, s'.log = s.log ++ es ∧ ∀ e ∈ es, e.MadeIn s

theorem Logs.of_eq {s s' : St ρ} (h : s'.log = s.log) : Logs s s' := ⟨[], by simp [h], by simp⟩

theorem call_logs {s s' : St ρ} {f : Call} (h : s'.log = (s.call f).log) : Logs s s' :=
  ⟨_, h, by simp [Event.MadeIn]⟩

theorem sendBuffer_logs (s : St ρ) (f : Call) : Logs s (s.call f).sendBuffer := by
  unfold St.sendBuffer
  split
  · rename_i h i hc hi
    split
    · exact call_logs rfl
    · refine ⟨[.call f s.connection s.isClosed] ++ i.buffer.map fun r => .executed r h i, ?_, ?_⟩
      · rw [setHandle_log, ← List.append_assoc]; rfl
      · intro e he
        rcases List.mem_append.mp he with he | he
        · rw [List.mem_singleton.mp he]; exact ⟨rfl, rfl⟩
        · obtain ⟨r, hr, rfl⟩ := List.mem_map.mp he
          exact ⟨hc, hi, hr⟩
  · exact call_logs rfl

/-- One worker step as a move of its block: what remains of it and the
callbacks it enqueues. -/
inductive Moves : Task ρ → Option (Task ρ) → List (Callback ρ) → Prop
  | connect (r : Request ρ) (pc pc' : ConnectPc) (hf : pc ≠ .failure) (hs : pc ≠ .success) :
      Moves (.connect r pc) (some (.connect r pc')) []
  | failure (r : Request ρ) :
      Moves (.connect r .failure) (some (.dbloginfree r)) [.connectionFailure r]
  | success (r : Request ρ) :
      Moves (.connect r .success) (some (.dbloginfree r)) [.connectionSuccess r]
  | execute (r : Request ρ) (pc pc' : ExecutePc) : Moves (.execute r pc) (some (.execute r pc')) []
  | report (r : Request ρ) (results : Option Tables) :
      Moves (.execute r (.report results)) (some (.dbfreebuf r)) [.execution r results]
  | dbloginfree (r : Request ρ) : Moves (.dbloginfree r) none []
  | dbfreebuf (r : Request ρ) : Moves (.dbfreebuf r) none []

/-- What one worker step can do. -/
def WorkerSpec (s : St ρ) (t : Task ρ) (s' : St ρ) (x : Option (Task ρ)) : Prop :=
  Frame s s' ∧ Logs s s' ∧ ∃ cs, Moves t x cs ∧ s'.callbackQueue = s.callbackQueue ++ cs

/-- The step enqueues no callback. -/
theorem WorkerSpec.silent {s s' : St ρ} {t : Task ρ} {x : Option (Task ρ)} (hf : Frame s s')
    (hl : Logs s s') (hm : Moves t x []) (hq : s'.callbackQueue = s.callbackQueue) :
    WorkerSpec s t s' x :=
  ⟨hf, hl, [], hm, by simp [hq]⟩

theorem connectStep_spec {s s' : St ρ} {r : Request ρ} {pc : ConnectPc} {o : Outcome}
    {x : Option (Task ρ)} (h : connectStep s r pc o = some (s', x)) :
    WorkerSpec s (.connect r pc) s' x := by
  cases pc <;> cases o <;> simp only [connectStep, Option.some.injEq, Prod.mk.injEq, reduceCtorEq] at h <;>
    obtain ⟨rfl, rfl⟩ := h
  case dblogin.ok | dblogin.fail | dbopen.ok | dbopen.fail =>
    exact .silent ⟨rfl, rfl, rfl, rfl, rfl, rfl, rfl⟩ (.of_eq rfl)
      (.connect _ _ _ (by simp) (by simp)) rfl
  case setUser.ok | setPwd.ok | setHost.ok =>
    exact .silent (setLogin_frame _ _) (.of_eq (by simp)) (.connect _ _ _ (by simp) (by simp)) (by simp)
  case dbuse.ok =>
    exact .silent ((call_frame s _).trans (setHandle_frame _ _))
      (call_logs (setHandle_log _ _)) (.connect _ _ _ (by simp) (by simp)) (by simp)
  case dbuse.fail =>
    exact .silent (call_frame s _) (call_logs rfl) (.connect _ _ _ (by simp) (by simp)) rfl
  case failure.ok =>
    exact ⟨⟨rfl, rfl, rfl, rfl, rfl, rfl, rfl⟩, .of_eq rfl, _, .failure r, rfl⟩
  case success.ok =>
    exact ⟨⟨rfl, rfl, rfl, rfl, rfl, rfl, rfl⟩, .of_eq rfl, _, .success r, rfl⟩

theorem executeStep_spec {s s' : St ρ} {r : Request ρ} {pc : ExecutePc} {o : Outcome}
    {x : Option (Task ρ)} (h : executeStep s r pc o = some (s', x)) :
    WorkerSpec s (.execute r pc) s' x := by
  unfold executeStep at h
  split at h
  case h_1 =>
    cases h
    exact .silent ((call_frame s _).trans (setHandle_frame _ _))
      (call_logs (setHandle_log _ _)) (.execute _ _ _) (by simp)
  case h_2 | h_3 =>
    cases h
    exact .silent ((call_frame s _).trans (sendBuffer_frame _))
      (sendBuffer_logs s _) (.execute _ _ _) (by simp)
  case h_21 =>
    cases h
    exact ⟨⟨rfl, rfl, rfl, rfl, rfl, rfl, rfl⟩, .of_eq rfl, _, .report _ _, rfl⟩
  case h_22 => cases h
  -- every other step makes one call and moves on
  all_goals cases h; exact .silent (call_frame s _) (call_logs rfl) (.execute _ _ _) rfl

theorem workerStep_spec {s s' : St ρ} {t : Task ρ} {o : Outcome} {x : Option (Task ρ)}
    (h : workerStep s t o = some (s', x)) : WorkerSpec s t s' x := by
  cases t with
  | connect r pc => exact connectStep_spec h
  | execute r pc => exact executeStep_spec h
  | dbloginfree r =>
    cases o <;> simp only [workerStep, Option.some.injEq, Prod.mk.injEq, reduceCtorEq] at h
    obtain ⟨rfl, rfl⟩ := h
    exact .silent (.refl s) (.of_eq rfl) (.dbloginfree r) rfl
  | dbfreebuf r =>
    cases o <;> simp only [workerStep, Option.some.injEq, Prod.mk.injEq, reduceCtorEq] at h
    obtain ⟨rfl, rfl⟩ := h
    exact .silent ((call_frame s _).trans (setHandle_frame _ _))
      (call_logs (setHandle_log _ _)) (.dbfreebuf r) (by simp)

/-- `P` holds of what remains of the block and `Q` of the callbacks it
enqueued. -/
def After (P : Task ρ → Prop) (Q : Callback ρ → Prop) (s s' : St ρ) (x : Option (Task ρ)) : Prop :=
  (∀ t ∈ x, P t) ∧ ∀ c ∈ s'.callbackQueue, c ∈ s.callbackQueue ∨ Q c

section
variable {P : Task ρ → Prop} {Q : Callback ρ → Prop} {s s' : St ρ} {t : Task ρ} {c : Callback ρ}

theorem After.silent (ht : P t) (hq : s'.callbackQueue = s.callbackQueue) : After P Q s s' (some t) :=
  ⟨fun _ h => Option.mem_some_iff.mp h ▸ ht, fun _ hc => Or.inl (hq ▸ hc)⟩

theorem After.finished (hq : s'.callbackQueue = s.callbackQueue) : After P Q s s' none :=
  ⟨fun _ h => (by cases h), fun _ hc => Or.inl (hq ▸ hc)⟩

theorem After.enqueue (ht : P t) (hq : s'.callbackQueue = s.callbackQueue ++ [c]) (hc : Q c) :
    After P Q s s' (some t) := by
  refine ⟨fun _ h => Option.mem_some_iff.mp h ▸ ht, fun c' hc' => ?_⟩
  rw [hq, List.mem_append, List.mem_singleton] at hc'
  rcases hc' with hc' | rfl
  · exact Or.inl hc'
  · exact Or.inr hc

end

/-! ## Callbacks -/

/-- The events a completion logs. -/
def callbackEvents (s : St ρ) (connected : Bool) : Callback ρ → List (Event ρ)
  | .connectionFailure r => [.connected r false]
  | .connectionSuccess r => [.call .dbdead s.connection s.isClosed, .connected r connected]
  | .execution r results =>
    let owner := s.handle?.map (·.openedBy)
    [.dbclose r s.connection s.isClosed owner (owner.any s.running), .finished r results.isSome,
      .recivedDataArray r s.delegate (r.method.result results) true s.signal_id]

/-- The block a completion adds to the worker queue. -/
def callbackTasks (connected : Bool) : Callback ρ → List (Task ρ)
  | .connectionSuccess r => if connected then [.execute r .dbcmd] else []
  | _ => []

theorem callbackStep_log (s : St ρ) (connected : Bool) (c : Callback ρ) :
    (callbackStep s connected c).log = s.log ++ callbackEvents s connected c := by
  cases c with
  | connectionFailure r => rfl
  | connectionSuccess r =>
    simp only [callbackStep, callbackEvents]
    split <;> simp
  | execution r results =>
    simp only [callbackStep, callbackEvents, St.disconnect, setHandle_log]
    rw [List.append_assoc, List.singleton_append]
    have hf := setHandle_frame (ρ := ρ)
    simp only [(hf _ _).delegate, (hf _ _).signal_id]
    rfl

theorem callbackStep_queues (s : St ρ) (connected : Bool) (c : Callback ρ) :
    (callbackStep s connected c).callbackQueue = s.callbackQueue ∧
      (callbackStep s connected c).workerQueue = s.workerQueue ++ callbackTasks connected c := by
  cases c with
  | connectionFailure r => simp [callbackStep, callbackTasks]
  | connectionSuccess r => cases connected <;> simp [callbackStep, callbackTasks, St.call]
  | execution r results =>
    have hf := (setHandle_frame (ρ := ρ) · fun h => { h with isOpen := false })
    simp [callbackStep, callbackTasks, St.disconnect, (hf _).workerQueue]

theorem callbackStep_main (s : St ρ) (connected : Bool) (c : Callback ρ) :
    (callbackStep s connected c).delegate = s.delegate ∧
      (callbackStep s connected c).signal_id = s.signal_id ∧
      (callbackStep s connected c).creds = s.creds ∧
      (callbackStep s connected c).input = s.input ∧
      (callbackStep s connected c).issued = s.issued := by
  cases c with
  | connectionFailure r => exact ⟨rfl, rfl, rfl, rfl, rfl⟩
  | connectionSuccess r => cases connected <;> exact ⟨rfl, rfl, rfl, rfl, rfl⟩
  | execution r results =>
    have hf := (setHandle_frame (ρ := ρ) · fun h => { h with isOpen := false })
    simp only [callbackStep, St.disconnect]
    exact ⟨(hf _).delegate, (hf _).signal_id, (hf _).creds, (hf _).input, (hf _).issued⟩

/-! ## Steps of the system -/

theorem worker_inv {s s' : St ρ} {i : Nat} {o : Outcome} (h : step s (.worker i o) = some s') :
    ∃ t rest s₁ x, s.workerQueue[i]? = some t ∧ s.workerQueue.Perm (t :: rest) ∧
      workerStep s t o = some (s₁, x) ∧ s'.workerQueue.Perm (x.toList ++ rest) ∧ s' = { s₁ with workerQueue := s'.workerQueue } := by
  simp only [step] at h
  split at h
  · cases h
  · rename_i t ht
    simp only [Option.map_eq_some_iff] at h
    obtain ⟨⟨s₁, x⟩, hw, rfl⟩ := h
    exact ⟨t, _, s₁, x, ht, take_perm ht, hw, putTask_perm ht x, rfl⟩

theorem callback_inv {s s' : St ρ} {i : Nat} {b : Bool} (h : step s (.callback i b) = some s') :
    ∃ c rest, s.callbackQueue[i]? = some c ∧ s.callbackQueue.Perm (c :: rest) ∧
      s' = callbackStep { s with callbackQueue := rest } b c := by
  simp only [step] at h
  split at h
  · cases h
  · rename_i c hc
    simp only [Option.some.injEq] at h
    exact ⟨c, _, hc, take_perm hc, h.symm⟩

end MysqlConnection.L2.Client
