import MysqlConnection.L2Client.Steps

/-!
# To whom a response is sent

The completion of a request answers `self.delegate` with `signal_id`, the two
fields `getInstance:` overwrites on every request. `Routed` says that each
answer went to the receiver and carried the signal id of its own request.

`Routed` fails as soon as a second screen asks while a request is still
waiting (`misrouted`). It holds in every run in which each `getInstance:` and
`createInstance:` names the receiver and the signal id of every request that
is still waiting for its answer (`KeepsReceiver`, `routed_of_keepsReceiver`);
in particular when requests are made one at a time (`OneAtATime`,
`routed_of_oneAtATime`).
-/
namespace MysqlConnection.L2.Client

variable {ρ : Type}

/-! ## Requests that may still be answered -/

/-- The request a worker block may still answer; after a failed `dblogin` or
`dbopen` it will not. -/
def Task.awaiting : Task ρ → Option (Request ρ)
  | .connect r pc => if pc = .failure then none else some r
  | .execute r _ => some r
  | .dbloginfree _ => none
  | .dbfreebuf _ => none

def Callback.awaiting : Callback ρ → Option (Request ρ)
  | .connectionFailure _ => none
  | .connectionSuccess r => some r
  | .execution r _ => some r

def St.awaiting (s : St ρ) : List (Request ρ) :=
  s.workerQueue.filterMap Task.awaiting ++ s.callbackQueue.filterMap Callback.awaiting

/-- Membership does not depend on the order of the queues. -/
theorem mem_awaiting {s : St ρ} {ts : List (Task ρ)} {cs : List (Callback ρ)}
    (ht : s.workerQueue.Perm ts) (hc : s.callbackQueue.Perm cs) (r : Request ρ) :
    r ∈ s.awaiting ↔ (∃ t ∈ ts, t.awaiting = some r) ∨ ∃ c ∈ cs, c.awaiting = some r := by
  simp only [St.awaiting, List.mem_append, List.mem_filterMap, ht.mem_iff, hc.mem_iff]

/-- A move answers no request that was not waiting before. -/
theorem Moves.awaiting {t : Task ρ} {x : Option (Task ρ)} {cs : List (Callback ρ)}
    (h : Moves t x cs) {r : Request ρ}
    (hr : (∃ t' ∈ x.toList, t'.awaiting = some r) ∨ ∃ c ∈ cs, c.awaiting = some r) :
    t.awaiting = some r := by
  cases h with
  | connect r' pc pc' hf hs =>
    simp only [Option.toList_some, List.mem_singleton, exists_eq_left, List.not_mem_nil, false_and,
      exists_false, or_false, Task.awaiting] at hr ⊢
    split at hr
    · cases hr
    · rw [if_neg hf]; exact hr
  | failure r' => simp [Task.awaiting, Callback.awaiting] at hr
  | success r' => simpa [Task.awaiting, Callback.awaiting] using hr
  | execute r' pc pc' => simpa [Task.awaiting] using hr
  | report r' results => simpa [Task.awaiting, Callback.awaiting] using hr
  | dbloginfree r' => simp at hr
  | dbfreebuf r' => simp at hr

theorem worker_awaiting {s s' : St ρ} {i : Nat} {o : Outcome} (h : step s (.worker i o) = some s')
    {r : Request ρ} (hr : r ∈ s'.awaiting) : r ∈ s.awaiting := by
  obtain ⟨t, rest, s₁, x, -, hp, hw, hp', hs'⟩ := worker_inv h
  obtain ⟨-, -, cs, hm, hq⟩ := workerStep_spec hw
  have hc : s'.callbackQueue.Perm (cs ++ s.callbackQueue) := by
    rw [hs', hq]; exact List.perm_append_comm
  rw [mem_awaiting hp' hc] at hr
  rw [mem_awaiting hp (.refl _)]
  simp only [List.mem_append, List.mem_cons, or_and_right, exists_or, exists_eq_left] at hr ⊢
  rcases hr with (hr | hr) | (hr | hr)
  · exact Or.inl (Or.inl (hm.awaiting (Or.inl hr)))
  · exact Or.inl (Or.inr hr)
  · exact Or.inl (Or.inl (hm.awaiting (Or.inr hr)))
  · exact Or.inr hr

theorem callback_awaiting {s s' : St ρ} {i : Nat} {b : Bool} (h : step s (.callback i b) = some s')
    {r : Request ρ} (hr : r ∈ s'.awaiting) : r ∈ s.awaiting := by
  obtain ⟨c, rest, -, hp, rfl⟩ := callback_inv h
  obtain ⟨hq, ht⟩ := callbackStep_queues { s with callbackQueue := rest } b c
  rw [mem_awaiting (.of_eq ht) (.of_eq hq)] at hr
  rw [mem_awaiting (.refl _) hp]
  simp only [List.mem_append, List.mem_cons, or_and_right, exists_or, exists_eq_left] at hr ⊢
  rcases hr with (hr | hr) | hr
  · exact Or.inl hr
  · cases c <;> simp only [callbackTasks, List.not_mem_nil, false_and, exists_false] at hr
    cases b <;> simp [Task.awaiting] at hr
    exact Or.inr (Or.inl (by simp [Callback.awaiting, hr]))
  · exact Or.inr (Or.inr hr)

/-! ## Routing -/

/-- The request an event answers. -/
def Event.answers : Event ρ → Option (Request ρ)
  | .recivedDataArray r _ _ _ _ => some r
  | _ => none

/-- An answer was sent to the receiver, and with the signal id, passed to
`getInstance:` for its request. -/
def Event.routed : Event ρ → Prop
  | .recivedDataArray r receiver _ _ signalId => receiver = r.receiver ∧ signalId = r.signalId
  | _ => True

instance [DecidableEq ρ] : DecidablePred (Event.routed (ρ := ρ))
  | .recivedDataArray r receiver _ _ signalId =>
    inferInstanceAs (Decidable (receiver = r.receiver ∧ signalId = r.signalId))
  | .call .. | .executed .. | .dbclose .. | .connected .. | .finished .. => isTrue trivial

def Routed (s : St ρ) : Prop := ∀ e ∈ s.log, e.routed

instance [DecidableEq ρ] : DecidablePred (Routed (ρ := ρ)) := fun s => by
  unfold Routed; exact inferInstance

/-- The call names the receiver and the signal id of every request that may
still be answered. -/
def KeepsReceiver (s : St ρ) : Label ρ → Prop
  | .createInstance _ reciver => ∀ r ∈ s.awaiting, r.receiver = reciver
  | .request reciver signalId _ => ∀ r ∈ s.awaiting, r.receiver = reciver ∧ r.signalId = signalId
  | _ => True

instance [DecidableEq ρ] (s : St ρ) : (l : Label ρ) → Decidable (KeepsReceiver s l)
  | .createInstance _ reciver => inferInstanceAs (Decidable (∀ r ∈ s.awaiting, r.receiver = reciver))
  | .request reciver signalId _ =>
    inferInstanceAs (Decidable (∀ r ∈ s.awaiting, r.receiver = reciver ∧ r.signalId = signalId))
  | .worker .. | .callback .. => isTrue trivial

/-- `delegate` and `signal_id` are those of every request that may still be answered. -/
def Aligned (s : St ρ) : Prop :=
  ∀ r ∈ s.awaiting, r.receiver = s.delegate ∧ r.signalId = s.signal_id

theorem aligned_step {s s' : St ρ} {l : Label ρ} (hG : KeepsReceiver s l) (ha : Aligned s)
    (h : step s l = some s') : Aligned s' := by
  cases l with
  | createInstance c d =>
    simp only [step, Option.some.injEq] at h; subst h
    intro r hr
    exact ⟨hG r hr, (ha r hr).2⟩
  | request d sig m =>
    simp only [step, Option.some.injEq] at h; subst h
    intro r hr
    rw [mem_awaiting (.of_eq rfl) (.refl _)] at hr
    simp only [request, List.mem_append, List.mem_singleton, or_and_right, exists_or,
      exists_eq_left] at hr
    rcases hr with (hr | hr) | hr
    · exact hG r ((mem_awaiting (.refl _) (.refl _) r).2 (Or.inl hr))
    · simp only [Task.awaiting, reduceCtorEq, if_false, Option.some.injEq] at hr
      subst hr; exact ⟨rfl, rfl⟩
    · exact hG r ((mem_awaiting (.refl _) (.refl _) r).2 (Or.inr hr))
  | worker i o =>
    obtain ⟨t, rest, s₁, x, -, -, hw, -, hs'⟩ := worker_inv h
    have hf := (workerStep_spec hw).1
    intro r hr
    have := ha r (worker_awaiting h hr)
    rw [hs']
    exact ⟨this.1.trans hf.delegate.symm, this.2.trans hf.signal_id.symm⟩
  | callback i b =>
    obtain ⟨c, rest, -, -, hs'⟩ := callback_inv h
    obtain ⟨hd, hsig, -⟩ := callbackStep_main { s with callbackQueue := rest } b c
    intro r hr
    have := ha r (callback_awaiting h hr)
    rw [hs', hd, hsig]
    exact this

theorem Event.MadeIn.routed {s : St ρ} {e : Event ρ} (h : e.MadeIn s) : e.routed := by
  cases e <;> trivial

theorem routed_step {s s' : St ρ} {l : Label ρ} (ha : Aligned s) (hr : Routed s)
    (h : step s l = some s') : Routed s' := by
  cases l with
  | createInstance c d => simp only [step, Option.some.injEq] at h; subst h; exact hr
  | request d sig m => simp only [step, Option.some.injEq] at h; subst h; exact hr
  | worker i o =>
    obtain ⟨t, rest, s₁, x, -, -, hw, -, hs'⟩ := worker_inv h
    obtain ⟨-, ⟨es, hl, hc⟩, -⟩ := workerStep_spec hw
    intro e he
    rw [hs'] at he
    simp only [hl, List.mem_append] at he
    rcases he with he | he
    · exact hr e he
    · exact (hc e he).routed
  | callback i b =>
    obtain ⟨c, rest, -, hp, rfl⟩ := callback_inv h
    intro e he
    rw [callbackStep_log, List.mem_append] at he
    rcases he with he | he
    · exact hr e he
    cases c with
    | connectionFailure r =>
      simp only [callbackEvents, List.mem_singleton] at he; subst he; trivial
    | connectionSuccess r =>
      simp only [callbackEvents, List.mem_cons, List.not_mem_nil, or_false] at he
      rcases he with rfl | rfl <;> trivial
    | execution r results =>
      have hw : r ∈ s.awaiting := by
        rw [mem_awaiting (.refl _) hp]; exact Or.inr ⟨_, List.mem_cons_self, rfl⟩
      simp only [callbackEvents, List.mem_cons, List.not_mem_nil, or_false] at he
      rcases he with rfl | rfl | rfl
      · trivial
      · trivial
      · exact ⟨(ha r hw).1.symm, (ha r hw).2.symm⟩

theorem routed_inductive : ((lts ρ).restrict KeepsReceiver).Inductive fun s => Aligned s ∧ Routed s where
  init := by
    rintro s ⟨c, d, rfl⟩
    exact ⟨fun r hr => by simp [St.awaiting, start] at hr, fun e he => by simp [start] at he⟩
  step := fun s l s' ⟨ha, hr⟩ ⟨hG, hst⟩ => ⟨aligned_step hG ha hst, routed_step ha hr hst⟩

/-- **Routing.** In every run in which each `getInstance:` and
`createInstance:` names the receiver and signal id of the requests still
waiting, each answer goes to the receiver of its own request, with its signal
id. -/
theorem routed_of_keepsReceiver (s : St ρ) (h : ((lts ρ).restrict KeepsReceiver).Reachable s) :
    Routed s :=
  (routed_inductive.reachable h).2

/-- A `connect:` block from `dblogin` to its completion, all calls succeeding. -/
def connects (i : Nat) : List (Label Nat) := List.replicate 7 (.worker i .ok)

/-- Two requests of one screen overlap: the second is made while the first is
still on the worker queue, and both are answered. -/
def overlapping : List (Label Nat) :=
  [.request 1 0 .getTableNamesInSchema] ++ connects 0 ++
  [.callback 0 true, .request 1 0 (.getColumNamesInTable (ns "t")), .worker 1 .ok, .worker 1 .fail,
   .worker 1 .ok, .callback 0 true] ++ connects 2 ++
  [.callback 0 true, .worker 3 .ok, .worker 3 .ok, .worker 3 .done, .worker 3 .ok, .callback 0 true]

theorem routed_overlapping :
    ∃ s, ((lts Nat).restrict KeepsReceiver).Reachable s ∧
      (s.log.filterMap Event.answers).map (·.id) = [0, 1] ∧ Routed s := by
  have hex : ∃ s, ((lts Nat).restrict KeepsReceiver).Reachable s ∧
      (s.log.filterMap Event.answers).map (·.id) = [0, 1] :=
    LTS.exists_of_execG (start ⟨[], [], [], []⟩ 0) overlapping
      (fun s => (s.log.filterMap Event.answers).map (·.id) = [0, 1]) ⟨_, _, rfl⟩ (by decide)
  obtain ⟨s, hr, hp⟩ := hex
  exact ⟨s, hr, hp, routed_of_keepsReceiver s hr⟩

/-- The table list asked for by screen 1 with signal id 1 is still on the
worker queue when screen 2 asks for columns with signal id 0. -/
def crossed : List (Label Nat) :=
  [.request 1 1 .getTableNamesInSchema] ++ connects 0 ++
  [.callback 0 true, .worker 1 .ok, .worker 1 .ok, .request 2 0 (.getColumNamesInTable (ns "t")),
   .worker 1 .done, .worker 1 .ok, .callback 0 true]

/-- The rows of screen 1's request go to screen 2. -/
theorem misrouted : ¬ ∀ s, (lts Nat).Reachable s → Routed s := by
  intro hall
  have hex : ∃ s, (lts Nat).Reachable s ∧ ¬ Routed s :=
    LTS.exists_of_exec (start ⟨[], [], [], []⟩ 0) crossed (fun s => ¬ Routed s) ⟨_, _, rfl⟩ (by decide)
  obtain ⟨s, hr, hn⟩ := hex
  exact hn (hall s hr)

/-! ## One request at a time -/

/-- A request, or a change of the credentials and the delegate, is only made
when both queues are empty. -/
def OneAtATime (s : St ρ) : Label ρ → Prop
  | .createInstance _ _ => s.workerQueue = [] ∧ s.callbackQueue = []
  | .request _ _ _ => s.workerQueue = [] ∧ s.callbackQueue = []
  | _ => True

instance (s : St ρ) : (l : Label ρ) → Decidable (OneAtATime s l)
  | .createInstance .. | .request .. =>
    inferInstanceAs (Decidable (s.workerQueue = [] ∧ s.callbackQueue = []))
  | .worker .. | .callback .. => isTrue trivial

theorem OneAtATime.keepsReceiver (s : St ρ) (l : Label ρ) (h : OneAtATime s l) :
    KeepsReceiver s l := by
  cases l with
  | createInstance c d => intro r hr; simp [St.awaiting, h.1, h.2] at hr
  | request d sig m => intro r hr; simp [St.awaiting, h.1, h.2] at hr
  | worker i o => trivial
  | callback i b => trivial

theorem routed_of_oneAtATime (s : St ρ) (h : ((lts ρ).restrict OneAtATime).Reachable s) : Routed s :=
  (routed_inductive.reachable (h.restrict_mono OneAtATime.keepsReceiver)).2

end MysqlConnection.L2.Client
