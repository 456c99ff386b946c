import MysqlConnection.L2Client.OwnHandle

/-!
# The lifecycle of a handle

One request, any outcome of each library call, any interleaving of the two
queues (`Solo`). `Lifecycle` says that no call was made on a closed handle, no
handle was closed twice, and once both queues are empty every handle is
closed.

Only the completion of `execute:` calls `disconnect`. So a handle is leaked
when `dbuse` fails or `dbdead` says yes, as these paths end before `execute:`.
And the completion is enqueued before `dbfreebuf`, so it may close the handle
first. These three steps are the `hazards`.

* `Sound`, kept by every step that is no hazard: the handle is open exactly as
  long as a block that uses it is pending.
* `Doomed`, entered with the first hazard and never left: a handle is open
  and nothing pending will close it, or `dbfreebuf` is pending on a closed
  handle, or such a call was made.
* `lifecycle_iff`: without a hazard `Lifecycle` holds in every state; with one
  it is violated when both queues are empty.
-/
namespace MysqlConnection.L2.Client

variable {ρ : Type}

/-! ## The property -/

/-- The handle of a call was not closed before. -/
def Event.live : Event ρ → Prop
  | .call _ _ closed => closed = false
  | .dbclose _ _ closed _ _ => closed = false
  | _ => True

instance : DecidablePred (Event.live (ρ := ρ))
  | .call _ _ closed | .dbclose _ _ closed _ _ => inferInstanceAs (Decidable (closed = false))
  | .executed .. | .connected .. | .finished .. | .recivedDataArray .. => isTrue trivial

def Lifecycle (s : St ρ) : Prop :=
  (∀ e ∈ s.log, e.live) ∧
    (s.workerQueue = [] → s.callbackQueue = [] → ∀ i ∈ s.handles, i.isOpen = false)

instance (s : St ρ) : Decidable (Lifecycle s) := by unfold Lifecycle; exact inferInstance

/-- At most one request. -/
def Solo (s : St ρ) : Label ρ → Prop
  | .request _ _ _ => s.issued = []
  | _ => True

instance (s : St ρ) : (l : Label ρ) → Decidable (Solo s l)
  | .request .. => inferInstanceAs (Decidable (s.issued = []))
  | .createInstance .. | .worker .. | .callback .. => isTrue trivial

inductive Hazard where
  /-- `dbuse` fails. -/
  | unused
  /-- `connected` is `NO`. -/
  | dead
  /-- The completion of `execute:` runs before `dbfreebuf`. -/
  | early
  deriving DecidableEq, Repr

def hazards (s : St ρ) : Label ρ → List Hazard
  | .worker i .fail =>
    match s.workerQueue[i]? with
    | some (.connect _ .dbuse) => [.unused]
    | _ => []
  | .callback i connected =>
    match s.callbackQueue[i]? with
    | some (.connectionSuccess _) => if connected then [] else [.dead]
    | some (.execution _ _) => if s.workerQueue.any Task.isFreebuf then [.early] else []
    | _ => []
  | _ => []

/-! ## Without a hazard -/

/-- The one handle was opened and is not closed. -/
def St.Open (s : St ρ) : Prop := s.connection = some 0 ∧ ∃ i, s.handles = [i] ∧ i.isOpen = true

theorem St.Open.isClosed {s : St ρ} (h : s.Open) : s.isClosed = false := by
  obtain ⟨hc, i, hi, ho⟩ := h
  simp [St.isClosed, St.handle?, hc, hi, ho]

theorem isClosed_of_nil {s : St ρ} (h : s.handles = []) : s.isClosed = false := by
  cases hc : s.connection <;> simp [St.isClosed, St.handle?, hc, h]

theorem St.Open.setHandle {s : St ρ} {f : Handle ρ → Handle ρ} (hf : ∀ i, (f i).isOpen = i.isOpen)
    (h : s.Open) : (s.setHandle f).Open := by
  obtain ⟨hc, i, hi, ho⟩ := h
  simp only [St.setHandle, hc]
  exact ⟨rfl, f i, by simp [hi], by rw [hf, ho]⟩

theorem St.Open.sendBuffer {s : St ρ} (h : s.Open) : s.sendBuffer.Open := by
  unfold St.sendBuffer
  split
  · split
    · exact h
    · refine St.Open.setHandle  (fun i => ?_) h
      rfl
  · exact h

/-- What a block or completion needs: before `dbopen` there is no handle,
from then on it is open. -/
def Task.Need (s : St ρ) : Task ρ → Prop
  | .connect _ .dbuse => s.Open
  | .connect _ .success => s.Open
  | .connect _ _ => s.handles = []
  | .execute _ _ => s.Open
  | .dbloginfree _ => True
  | .dbfreebuf _ => s.Open

def Callback.Need (s : St ρ) : Callback ρ → Prop
  | .connectionFailure _ => True
  | .connectionSuccess _ => s.Open
  | .execution _ _ => s.Open

/-- A block that has not opened the handle yet excludes an open one. -/
theorem Task.Need.mono {s s' : St ρ} {t : Task ρ} (h : t.Need s) (ho : s.Open) (ho' : s'.Open) :
    t.Need s' := by
  cases t with
  | connect r pc =>
    cases pc
    case dbuse | success => exact ho'
    all_goals
      obtain ⟨-, i, hi, -⟩ := ho
      have hn : s.handles = [] := h
      rw [hi] at hn; cases hn
  | execute r pc => exact ho'
  | dbloginfree r => trivial
  | dbfreebuf r => exact ho'

def NeedAfter (s s' : St ρ) (x : Option (Task ρ)) : Prop :=
  After (·.Need s') (·.Need s') s s' x ∧ (s.Open → s'.Open)

theorem connectStep_need {s s' : St ρ} {r : Request ρ} {pc : ConnectPc} {o : Outcome}
    {x : Option (Task ρ)} (h : connectStep s r pc o = some (s', x)) (hn : (Task.connect r pc).Need s)
    (hz : ¬ (pc = .dbuse ∧ o = .fail)) : NeedAfter s s' x := by
  cases pc <;> cases o <;> simp only [connectStep, Option.some.injEq, Prod.mk.injEq, reduceCtorEq] at h <;>
    obtain ⟨rfl, rfl⟩ := h
  case dblogin.ok | dblogin.fail => exact ⟨.silent hn rfl, id⟩
  case setUser.ok | setPwd.ok | setHost.ok =>
    refine ⟨.silent ((setLogin_handles s _).trans hn) (by simp), fun ho => ?_⟩
    rw [St.Open, setLogin_connection, setLogin_handles]; exact ho
  case dbopen.ok =>
    have hs : s.handles = [] := hn
    have ho : (s.dbopen r).Open := ⟨by simp [St.dbopen, hs], _, by simp [St.dbopen, hs]; rfl, rfl⟩
    exact ⟨.silent ho rfl, fun _ => ho⟩
  case dbopen.fail =>
    refine ⟨.silent hn rfl, fun ho => ?_⟩
    obtain ⟨-, i, hi, -⟩ := ho
    have hs : s.handles = [] := hn
    rw [hi] at hs; cases hs
  case dbuse.ok =>
    have ho : (s.call .dbuse).Open := hn
    exact ⟨.silent (ho.setHandle fun _ => rfl) (by simp), fun _ => ho.setHandle fun _ => rfl⟩
  case dbuse.fail => exact absurd ⟨rfl, rfl⟩ hz
  case failure.ok => exact ⟨.enqueue trivial rfl trivial, id⟩
  case success.ok => exact ⟨.enqueue trivial rfl hn, id⟩

theorem executeStep_need {s s' : St ρ} {r : Request ρ} {pc : ExecutePc} {o : Outcome}
    {x : Option (Task ρ)} (h : executeStep s r pc o = some (s', x)) (ho : s.Open) : NeedAfter s s' x := by
  unfold executeStep at h
  split at h
  case h_1 =>
    cases h
    have ho' : ((s.call .dbcmd).setHandle (Handle.addText r)).Open :=
      St.Open.setHandle (fun i => by unfold Handle.addText; split <;> rfl) ho
    exact ⟨.silent ho' (by simp), fun _ => ho'⟩
  case h_2 | h_3 =>
    cases h
    have ho' : (s.call .dbsqlexec).sendBuffer.Open := St.Open.sendBuffer ho
    exact ⟨.silent ho' (by simp), fun _ => ho'⟩
  case h_21 => cases h; exact ⟨.enqueue ho rfl ho, id⟩
  case h_22 => cases h
  all_goals cases h; exact ⟨.silent ho rfl, id⟩

theorem workerStep_need {s s' : St ρ} {t : Task ρ} {o : Outcome} {x : Option (Task ρ)}
    (h : workerStep s t o = some (s', x)) (hn : t.Need s)
    (hz : ∀ r, ¬ (t = .connect r .dbuse ∧ o = .fail)) : NeedAfter s s' x := by
  cases t with
  | connect r pc => exact connectStep_need h hn fun ⟨hpc, ho⟩ => hz r ⟨by rw [hpc], ho⟩
  | execute r pc => exact executeStep_need h hn
  | dbloginfree r =>
    cases o <;> simp only [workerStep, Option.some.injEq, Prod.mk.injEq, reduceCtorEq] at h
    obtain ⟨rfl, rfl⟩ := h
    exact ⟨.finished rfl, id⟩
  | dbfreebuf r =>
    cases o <;> simp only [workerStep, Option.some.injEq, Prod.mk.injEq, reduceCtorEq] at h
    obtain ⟨rfl, rfl⟩ := h
    have ho' : ((s.call .dbfreebuf).setHandle Handle.freeBuffer).Open :=
      St.Open.setHandle (fun _ => rfl) hn
    exact ⟨.finished (by simp), fun _ => ho'⟩

/-- Before `dbopen` there is no handle to be closed, then it is open. -/
theorem Task.Need.isClosed {s : St ρ} {t : Task ρ} (h : t.Need s) (ht : t.active = true ∨ t.isFreebuf = true) :
    s.isClosed = false := by
  cases t with
  | connect r pc =>
    cases pc
    case dbuse | success => exact St.Open.isClosed h
    all_goals exact isClosed_of_nil h
  | execute r pc => exact St.Open.isClosed h
  | dbloginfree r => simp [Task.active, Task.isFreebuf] at ht
  | dbfreebuf r => exact St.Open.isClosed h

theorem Event.MadeIn.live {s : St ρ} {e : Event ρ} (h : e.MadeIn s) (hc : s.isClosed = false) : e.live := by
  cases e with
  | call f h' closed => exact h.2.trans hc
  | dbclose r h' closed owner running => cases h
  | _ => trivial

theorem Callback.Need.mono {s s' : St ρ} {c : Callback ρ} (h : c.Need s) (ho : s.Open → s'.Open) :
    c.Need s' := by
  cases c with
  | connectionFailure r => trivial
  | connectionSuccess r => exact ho h
  | execution r results => exact ho h

theorem Task.Need.congr {s s' : St ρ} {t : Task ρ} (h : t.Need s) (hc : s'.connection = s.connection)
    (hh : s'.handles = s.handles) : t.Need s' := by
  have ho : s.Open → s'.Open := by rw [St.Open, St.Open, hc, hh]; exact id
  cases t with
  | connect r pc =>
    cases pc
    case dbuse | success => exact ho h
    all_goals exact hh.trans h
  | execute r pc => exact ho h
  | dbloginfree r => trivial
  | dbfreebuf r => exact ho h

structure Sound (s : St ρ) : Prop where
  single : s.active ≤ 1
  tasks : ∀ t ∈ s.workerQueue, t.Need s
  callbacks : ∀ c ∈ s.callbackQueue, c.Need s
  live : ∀ e ∈ s.log, e.live
  closed : s.active = 0 → ∀ i ∈ s.handles, i.isOpen = false
  fresh : s.issued = [] → s.workerQueue = [] ∧ s.callbackQueue = [] ∧ s.handles = []

/-- Only a failed connection ends the active block without a successor. -/
theorem Moves.active_eq {t : Task ρ} {x : Option (Task ρ)} {cs : List (Callback ρ)} (h : Moves t x cs) :
    (∃ r, t = .connect r .failure) ∨
      x.toList.countP Task.active + cs.countP Callback.active = [t].countP Task.active := by
  cases h with
  | failure r => exact Or.inl ⟨r, rfl⟩
  | _ => right; simp [Task.active, Callback.active]

theorem not_open_of_closed {s : St ρ} (h : ∀ i ∈ s.handles, i.isOpen = false) : ¬ s.Open := by
  rintro ⟨-, i, hi, ho⟩
  have := h i (by simp [hi])
  rw [ho] at this; cases this

theorem dbloginfree_inv {s s' : St ρ} {r : Request ρ} {o : Outcome} {x : Option (Task ρ)}
    (h : workerStep s (.dbloginfree r) o = some (s', x)) : s' = s := by
  cases o <;> simp only [workerStep, Option.some.injEq, Prod.mk.injEq, reduceCtorEq] at h
  exact h.1.symm

section
variable {s s₁ : St ρ} {t : Task ρ} {rest : List (Task ρ)} {x : Option (Task ρ)} {o : Outcome}

/-- A step of one block leaves the others what they need. -/
theorem rest_need (hs : Sound s) (hp : s.workerQueue.Perm (t :: rest))
    (hw : workerStep s t o = some (s₁, x)) (hopen : s.Open → s₁.Open) :
    ∀ t' ∈ rest, t'.Need s₁ := by
  intro t' ht'
  have ht : t.Need s := hs.tasks t (hp.mem_iff.2 List.mem_cons_self)
  have hn : t'.Need s := hs.tasks t' (hp.mem_iff.2 (List.mem_cons_of_mem _ ht'))
  cases t with
  | dbloginfree r => rw [dbloginfree_inv hw]; exact hn
  | dbfreebuf r => exact hn.mono ht (hopen ht)
  | _ =>
    -- the block is active, so what is left is a cleanup call
    have hin : t'.active = false := by
      have := hs.single
      rw [St.active, hp.countP_eq, List.countP_cons] at this
      simp only [Task.active, if_true] at this
      have hz : rest.countP Task.active = 0 := by omega
      simpa using List.countP_eq_zero.mp hz t' ht'
    cases t' <;> simp only [Task.active, reduceCtorEq] at hin
    · trivial
    · exact hopen hn

theorem worker_live (ht : t.Need s) (hw : workerStep s t o = some (s₁, x)) {es : List (Event ρ)}
    (hl : s₁.log = s.log ++ es) (hm : ∀ e ∈ es, e.MadeIn s) : ∀ e ∈ es, e.live := by
  intro e he
  cases t with
  | dbloginfree r =>
    rw [dbloginfree_inv hw] at hl
    rw [List.self_eq_append_right.mp hl] at he
    cases he
  | dbfreebuf r => exact (hm e he).live (ht.isClosed (Or.inr rfl))
  | connect r pc => exact (hm e he).live (ht.isClosed (Or.inl rfl))
  | execute r pc => exact (hm e he).live (ht.isClosed (Or.inl rfl))

/-- When the last active block ends, the handle is closed: the block failed
to connect, or it was a cleanup call and the handle was closed before. -/
theorem worker_closed (hs : Sound s) (hp : s.workerQueue.Perm (t :: rest))
    (hw : workerStep s t o = some (s₁, x)) {cs : List (Callback ρ)} (hmv : Moves t x cs)
    (hzero : (x.toList ++ rest).countP Task.active +
      (s.callbackQueue ++ cs).countP Callback.active = 0) :
    ∀ i ∈ s₁.handles, i.isOpen = false := by
  have ht : t.Need s := hs.tasks t (hp.mem_iff.2 List.mem_cons_self)
  rcases hmv.active_eq with ⟨r, rfl⟩ | heq
  · have hnil : s.handles = [] := ht
    cases o <;> simp only [workerStep, connectStep, Option.some.injEq, Prod.mk.injEq, reduceCtorEq] at hw
    rw [← hw.1]
    simp [hnil]
  · have hz0 : s.active = 0 := by
      simp only [St.active, hp.countP_eq, List.countP_append, List.countP_cons, List.countP_nil] at hzero heq ⊢
      omega
    have hcl := hs.closed hz0
    have hta : t.active = false := (all_inactive hz0).1 t (hp.mem_iff.2 List.mem_cons_self)
    cases t <;> simp only [Task.active, reduceCtorEq] at hta
    case dbloginfree r => rw [dbloginfree_inv hw]; exact hcl
    case dbfreebuf r => exact absurd ht (not_open_of_closed hcl)

end

theorem sound_worker {s s' : St ρ} {i : Nat} {o : Outcome} (hs : Sound s)
    (hz : hazards s (.worker i o) = []) (h : step s (.worker i o) = some s') : Sound s' := by
  have hone : s'.active ≤ 1 := by have := worker_active h; have := hs.single; omega
  obtain ⟨t, rest, s₁, x, hi, hp, hw, hp', hs'⟩ := worker_inv h
  have ht : t.Need s := hs.tasks t (hp.mem_iff.2 List.mem_cons_self)
  have hnz : ∀ r, ¬ (t = .connect r .dbuse ∧ o = .fail) := by
    rintro r ⟨rfl, rfl⟩
    simp [hazards, hi] at hz
  obtain ⟨⟨hx, hc⟩, hopen⟩ := workerStep_need hw ht hnz
  obtain ⟨hf, ⟨es, hl, hm⟩, cs, hmv, hq⟩ := workerStep_spec hw
  have hc' : s'.connection = s₁.connection := by rw [hs']
  have hh' : s'.handles = s₁.handles := by rw [hs']
  have hq' : s'.callbackQueue = s₁.callbackQueue := by rw [hs']
  have ho' : s₁.Open → s'.Open := by rw [St.Open, St.Open, hc', hh']; exact id
  refine ⟨hone, fun t' ht' => ?_, fun c hcm => ?_, fun e he => ?_, fun hzero => ?_, fun hiss => ?_⟩
  · refine Task.Need.congr (s := s₁) ?_ hc' hh'
    rw [hp'.mem_iff, List.mem_append, Option.mem_toList] at ht'
    rcases ht' with ht' | ht'
    · exact hx t' ht'
    · exact rest_need hs hp hw hopen t' ht'
  · refine Callback.Need.mono ?_ ho'
    rcases hc c (hq' ▸ hcm) with hcm' | hcm'
    · exact (hs.callbacks c hcm').mono hopen
    · exact hcm'
  · have he' : e ∈ s.log ++ es := by rw [← hl]; rw [hs'] at he; exact he
    rcases List.mem_append.mp he' with he' | he'
    · exact hs.live e he'
    · exact worker_live ht hw hl hm e he'
  · rw [hh']
    rw [St.active, hp'.countP_eq, hq', hq] at hzero
    exact worker_closed hs hp hw hmv hzero
  · have hi' : s'.issued = s.issued := by rw [hs']; exact hf.issued
    have hn := (hs.fresh (hi' ▸ hiss)).1
    rw [hn] at hi; simp at hi

/-! ## One completion: `rest` are the others, some request was issued -/

section
variable {s : St ρ} {r : Request ρ} {rest : List (Callback ρ)} {b : Bool}

theorem sound_connectionFailure (hs : Sound s)
    (hp : s.callbackQueue.Perm (.connectionFailure r :: rest)) (hfresh : s.issued ≠ [])
    (hone : (callbackStep { s with callbackQueue := rest } b (.connectionFailure r)).active ≤ 1) :
    Sound (callbackStep { s with callbackQueue := rest } b (.connectionFailure r)) := by
  have hact : s.active = s.workerQueue.countP Task.active + rest.countP Callback.active := by
    rw [St.active, hp.countP_eq, List.countP_cons]; simp [Callback.active]
  refine ⟨hone, fun t ht => (hs.tasks t ht).congr rfl rfl, fun c hm => ?_, fun e he => ?_,
    fun hzero => hs.closed (hact.trans hzero), fun hn => absurd hn hfresh⟩
  · exact (hs.callbacks c (hp.mem_iff.2 (List.mem_cons_of_mem _ hm))).mono id
  · rw [callbackStep_log, callbackEvents, List.mem_append, List.mem_singleton] at he
    rcases he with he | rfl
    · exact hs.live e he
    · trivial

theorem sound_connectionSuccess (hs : Sound s)
    (hp : s.callbackQueue.Perm (.connectionSuccess r :: rest)) (hfresh : s.issued ≠ [])
    (hone : (callbackStep { s with callbackQueue := rest } true (.connectionSuccess r)).active ≤ 1) :
    Sound (callbackStep { s with callbackQueue := rest } true (.connectionSuccess r)) := by
  have ho : s.Open := hs.callbacks _ (hp.mem_iff.2 List.mem_cons_self)
  refine ⟨hone, fun t ht => ?_, fun c hm => ?_, fun e he => ?_, fun hzero => ?_,
    fun hn => absurd hn hfresh⟩
  · simp only [callbackStep, if_true, List.mem_append, List.mem_singleton] at ht
    rcases ht with ht | rfl
    · exact (hs.tasks t ht).congr rfl rfl
    · exact ho
  · exact (hs.callbacks c (hp.mem_iff.2 (List.mem_cons_of_mem _ hm))).mono id
  · rw [callbackStep_log, List.mem_append] at he
    rcases he with he | he
    · exact hs.live e he
    · simp only [callbackEvents, List.mem_cons, List.not_mem_nil, or_false] at he
      rcases he with rfl | rfl
      · exact ho.isClosed
      · trivial
  · simp [callbackStep, St.active, Task.active, List.countP_append] at hzero

/-- The completion of `execute:` closes the handle; nothing that is left
needs it, since the `dbfreebuf` call was made. -/
theorem sound_execution {results : Option Tables} (hs : Sound s)
    (hp : s.callbackQueue.Perm (.execution r results :: rest)) (hfresh : s.issued ≠ [])
    (hnf : ∀ t ∈ s.workerQueue, t.isFreebuf = false)
    (hone : (callbackStep { s with callbackQueue := rest } b (.execution r results)).active ≤ 1) :
    Sound (callbackStep { s with callbackQueue := rest } b (.execution r results)) := by
  have ho : s.Open := hs.callbacks _ (hp.mem_iff.2 List.mem_cons_self)
  have hzero : s.workerQueue.countP Task.active + rest.countP Callback.active = 0 := by
    have hsingle := hs.single
    rw [St.active, hp.countP_eq, List.countP_cons] at hsingle
    simp only [Callback.active, if_true] at hsingle
    omega
  obtain ⟨hti, hci⟩ := all_inactive hzero
  obtain ⟨hq, ht⟩ := callbackStep_queues { s with callbackQueue := rest } b (.execution r results)
  refine ⟨hone, fun t hm => ?_, fun c' hm => ?_, fun e he => ?_, fun _ j hj => ?_,
    fun hn => absurd ?_ hfresh⟩
  · simp only [ht, callbackTasks, List.append_nil] at hm
    have h1 := hti t hm
    have h2 := hnf t hm
    cases t <;> simp only [Task.active, Task.isFreebuf, reduceCtorEq] at h1 h2
    trivial
  · rw [hq] at hm
    have h1 := hci c' hm
    cases c' <;> simp only [Callback.active, reduceCtorEq] at h1
    trivial
  · rw [callbackStep_log, List.mem_append] at he
    rcases he with he | he
    · exact hs.live e he
    · simp only [callbackEvents, List.mem_cons, List.not_mem_nil, or_false] at he
      rcases he with rfl | rfl | rfl
      · exact ho.isClosed
      · trivial
      · trivial
  · obtain ⟨hcn, j₀, hj₀, -⟩ := ho
    simp [callbackStep, St.disconnect, St.setHandle, hcn, hj₀] at hj
    rw [hj]
  · obtain ⟨-, -, -, -, hi'⟩ := callbackStep_main { s with callbackQueue := rest } b (.execution r results)
    exact hi' ▸ hn

end

theorem sound_callback {s s' : St ρ} {i : Nat} {b : Bool} (hs : Sound s)
    (hz : hazards s (.callback i b) = []) (h : step s (.callback i b) = some s') : Sound s' := by
  have hone : s'.active ≤ 1 := by have := callback_active h; have := hs.single; omega
  obtain ⟨c, rest, hi, hp, rfl⟩ := callback_inv h
  have hfresh : s.issued ≠ [] := by
    intro hn
    rw [(hs.fresh hn).2.1] at hi; simp at hi
  cases c with
  | connectionFailure r => exact sound_connectionFailure hs hp hfresh hone
  | connectionSuccess r =>
    have hb : b = true := by
      cases b
      · simp [hazards, hi] at hz
      · rfl
    subst hb
    exact sound_connectionSuccess hs hp hfresh hone
  | execution r results =>
    exact sound_execution hs hp hfresh (by simpa [hazards, hi] using hz) hone

theorem sound_request {s : St ρ} {d : ρ} {sig : Int} {m : Method} (hs : Sound s) (hG : s.issued = []) :
    Sound (request s d sig m) := by
  obtain ⟨hw, hq, hh⟩ := hs.fresh hG
  refine ⟨?_, fun t ht => ?_, fun c hc => ?_, hs.live, fun _ i hi => ?_, fun hn => ?_⟩
  · simp [St.active, request, hw, hq, Task.active]
  · simp only [request, hw, List.nil_append, List.mem_singleton] at ht
    subst ht; exact hh
  · simp only [request, hq] at hc; cases hc
  · simp only [request, hh] at hi; cases hi
  · simp [request] at hn

/-! ## After a hazard -/

/-- Nothing pending opens a handle or closes one. -/
structure Spent (s : St ρ) : Prop where
  tasks : ∀ t ∈ s.workerQueue, t.active = false ∨ ∃ r, t = .connect r .failure
  callbacks : ∀ c ∈ s.callbackQueue, c.active = false
  issued : s.issued ≠ []

def Leaked (s : St ρ) : Prop := ∃ i ∈ s.handles, i.isOpen = true

/-- A cleanup call on a closed handle is pending. -/
def Late (s : St ρ) : Prop := (∃ t ∈ s.workerQueue, t.isFreebuf = true) ∧ s.isClosed = true

def Doomed (s : St ρ) : Prop := (Spent s ∧ (Leaked s ∨ Late s)) ∨ ∃ e ∈ s.log, ¬ e.live

theorem Leaked.setHandle {s : St ρ} {f : Handle ρ → Handle ρ} (hf : ∀ i, (f i).isOpen = i.isOpen)
    (h : Leaked s) : Leaked (s.setHandle f) := by
  obtain ⟨i, hi, ho⟩ := h
  unfold St.setHandle
  split
  · exact ⟨i, hi, ho⟩
  · rename_i k _
    obtain ⟨n, hn⟩ := List.mem_iff_getElem?.mp hi
    have hm : (s.handles.modify k f)[n]? = some (if k = n then f i else i) := by
      rw [List.getElem?_modify, hn]; rfl
    refine ⟨_, List.mem_iff_getElem?.mpr ⟨n, hm⟩, ?_⟩
    by_cases hkn : k = n
    · rw [if_pos hkn, hf, ho]
    · rw [if_neg hkn, ho]

/-- A worker step after which nothing is active. -/
theorem spent_worker {s s' : St ρ} {i : Nat} {o : Outcome} (hs : Spent s)
    (h : step s (.worker i o) = some s') :
    Spent s' ∧ (Leaked s → Leaked s') ∧ (Late s → Late s' ∨ ∃ e ∈ s'.log, ¬ e.live) := by
  obtain ⟨ht, hc, hiss⟩ := hs
  obtain ⟨t, rest, s₁, x, -, hp, hw, hp', hs'⟩ := worker_inv h
  have hrest : ∀ t' ∈ rest, t'.active = false ∨ ∃ r, t' = .connect r .failure :=
    fun t' hm => ht t' (hp.mem_iff.2 (List.mem_cons_of_mem _ hm))
  have hiss' : s'.issued ≠ [] := by rw [hs']; exact (workerStep_spec hw).1.issued ▸ hiss
  have hlate : t.isFreebuf = false → s₁.connection = s.connection → s₁.handles = s.handles →
      Late s → Late s' := by
    rintro htf hcn hh ⟨⟨t', htm, htf'⟩, hcl⟩
    refine ⟨⟨t', ?_, htf'⟩, ?_⟩
    · rcases List.mem_cons.mp (hp.mem_iff.1 htm) with rfl | htm
      · rw [htf] at htf'; cases htf'
      · exact hp'.mem_iff.2 (List.mem_append_right _ htm)
    · rw [hs']
      simp only [St.isClosed, St.handle?] at hcl ⊢
      rw [hcn, hh]; exact hcl
  have hx : ∀ t' ∈ s'.workerQueue, t' ∈ x.toList ∨ t' ∈ rest := fun t' hm =>
    List.mem_append.mp (hp'.mem_iff.1 hm)
  rcases ht t (hp.mem_iff.2 List.mem_cons_self) with ha | ⟨r, rfl⟩
  · cases t <;> simp only [Task.active, reduceCtorEq] at ha <;> cases o <;>
      simp only [workerStep, Option.some.injEq, Prod.mk.injEq, reduceCtorEq] at hw <;>
      obtain ⟨rfl, rfl⟩ := hw
    case inl.dbloginfree.ok =>
      refine ⟨⟨fun t' hm => ?_, by rw [hs']; exact hc, hiss'⟩, by rw [hs']; exact id,
        fun hl => Or.inl (hlate rfl rfl rfl hl)⟩
      exact (hx t' hm).elim (fun hm => by cases hm) (hrest t')
    case inl.dbfreebuf.ok =>
      refine ⟨⟨fun t' hm => ?_, by rw [hs']; simpa using hc, hiss'⟩, fun hl => ?_, fun hl => Or.inr ?_⟩
      · exact (hx t' hm).elim (fun hm => by cases hm) (hrest t')
      · rw [hs']
        exact Leaked.setHandle (s := s.call .dbfreebuf) (fun _ => rfl) hl
      · refine ⟨.call .dbfreebuf s.connection s.isClosed, by rw [hs']; simp, ?_⟩
        simp [Event.live, hl.2]
  · cases o <;> simp only [workerStep, connectStep, Option.some.injEq, Prod.mk.injEq, reduceCtorEq] at hw
    obtain ⟨rfl, rfl⟩ := hw
    refine ⟨⟨fun t' hm => ?_, fun c hm => ?_, hiss'⟩, by rw [hs']; exact id,
      fun hl => Or.inl (hlate rfl rfl rfl hl)⟩
    · rcases hx t' hm with hm | hm
      · simp only [Option.toList_some, List.mem_singleton] at hm; subst hm
        exact Or.inl rfl
      · exact hrest t' hm
    · rw [hs'] at hm
      rcases List.mem_append.mp hm with hm | hm
      · exact hc c hm
      · rw [List.mem_singleton.mp hm]; rfl

/-- Events stay in the log. -/
theorem log_grows {s s' : St ρ} {l : Label ρ} (h : step s l = some s') : ∀ e ∈ s.log, e ∈ s'.log := by
  intro e he
  cases l with
  | createInstance c d => simp only [step, Option.some.injEq] at h; subst h; exact he
  | request d sig m => simp only [step, Option.some.injEq] at h; subst h; exact he
  | worker i o =>
    obtain ⟨t, rest, s₁, x, -, -, hw, -, hs'⟩ := worker_inv h
    obtain ⟨-, ⟨es, hl, -⟩, -⟩ := workerStep_spec hw
    have hl' : s'.log = s.log ++ es := by rw [hs']; exact hl
    rw [hl']; exact List.mem_append_left _ he
  | callback i b =>
    obtain ⟨c, rest, -, -, rfl⟩ := callback_inv h
    rw [callbackStep_log]; exact List.mem_append_left _ he

theorem doomed_step {s s' : St ρ} {l : Label ρ} (hG : Solo s l) (hd : Doomed s)
    (h : step s l = some s') : Doomed s' := by
  rcases hd with ⟨hs, hl⟩ | ⟨e, he, hn⟩
  · cases l with
    | createInstance c d =>
      simp only [step, Option.some.injEq] at h; subst h
      exact Or.inl ⟨⟨hs.tasks, hs.callbacks, hs.issued⟩, hl⟩
    | request d sig m => exact absurd hG hs.issued
    | worker i o =>
      obtain ⟨hs', h1, h2⟩ := spent_worker hs h
      rcases hl with hl | hl
      · exact Or.inl ⟨hs', Or.inl (h1 hl)⟩
      · exact (h2 hl).imp (fun hl' => ⟨hs', Or.inr hl'⟩) id
    | callback i b =>
      obtain ⟨c, rest, -, hp, rfl⟩ := callback_inv h
      have hc := hs.callbacks c (hp.mem_iff.2 List.mem_cons_self)
      cases c <;> simp only [Callback.active, reduceCtorEq] at hc
      refine Or.inl ⟨⟨hs.tasks, fun c' hm => ?_, hs.issued⟩, hl⟩
      exact hs.callbacks c' (hp.mem_iff.2 (List.mem_cons_of_mem _ hm))
  · exact Or.inr ⟨e, log_grows h e he, hn⟩

theorem St.Open.leaked {s : St ρ} (h : s.Open) : Leaked s := by
  obtain ⟨-, i, hi, ho⟩ := h
  exact ⟨i, by simp [hi], ho⟩

theorem doomed_unused {s s' : St ρ} {i : Nat} {r : Request ρ} (hs : Sound s)
    (hi : s.workerQueue[i]? = some (.connect r .dbuse)) (h : step s (.worker i .fail) = some s') :
    Doomed s' := by
  obtain ⟨t, rest, s₁, x, hi', hp, hw, hp', hs'⟩ := worker_inv h
  rw [hi] at hi'
  simp only [Option.some.injEq] at hi'
  subst hi'
  have ho : s.Open := hs.tasks _ (hp.mem_iff.2 List.mem_cons_self)
  have hsingle := hs.single
  rw [St.active, hp.countP_eq, List.countP_cons] at hsingle
  simp only [Task.active, if_true] at hsingle
  have hzero : rest.countP Task.active + s.callbackQueue.countP Callback.active = 0 := by omega
  obtain ⟨hti, hci⟩ := all_inactive hzero
  simp only [workerStep, connectStep, Option.some.injEq, Prod.mk.injEq] at hw
  obtain ⟨rfl, rfl⟩ := hw
  refine Or.inl ⟨⟨fun t' hm => ?_, by rw [hs']; exact hci, fun hn => ?_⟩, Or.inl ?_⟩
  · rcases List.mem_append.mp (hp'.mem_iff.1 hm) with hm | hm
    · simp only [Option.toList_some, List.mem_singleton] at hm; subst hm
      exact Or.inr ⟨r, rfl⟩
    · exact Or.inl (hti t' hm)
  · rw [hs'] at hn
    rw [(hs.fresh hn).1] at hi; simp at hi
  · rw [hs']; exact ho.leaked

theorem doomed_callback {s s' : St ρ} {i : Nat} {b : Bool} (hs : Sound s)
    (hz : hazards s (.callback i b) ≠ []) (h : step s (.callback i b) = some s') : Doomed s' := by
  obtain ⟨c, rest, hi, hp, rfl⟩ := callback_inv h
  have hc : c.Need s := hs.callbacks c (hp.mem_iff.2 List.mem_cons_self)
  have hfresh : s.issued ≠ [] := by
    intro hn
    rw [(hs.fresh hn).2.1] at hi; simp at hi
  have hsingle := hs.single
  rw [St.active, hp.countP_eq, List.countP_cons] at hsingle
  cases c with
  | connectionFailure r => simp [hazards, hi] at hz
  | connectionSuccess r =>
    have ho : s.Open := hc
    simp only [Callback.active, if_true] at hsingle
    have hzero : s.workerQueue.countP Task.active + rest.countP Callback.active = 0 := by omega
    obtain ⟨hti, hci⟩ := all_inactive hzero
    cases b
    · exact Or.inl ⟨⟨fun t ht => Or.inl (hti t ht), hci, hfresh⟩, Or.inl ho.leaked⟩
    · simp [hazards, hi] at hz
  | execution r results =>
    have ho : s.Open := hc
    obtain ⟨hcn, j, hj, -⟩ := ho
    simp only [Callback.active, if_true] at hsingle
    have hzero : s.workerQueue.countP Task.active + rest.countP Callback.active = 0 := by omega
    obtain ⟨hti, hci⟩ := all_inactive hzero
    obtain ⟨t, ht, htf⟩ : ∃ t ∈ s.workerQueue, t.isFreebuf = true := by simpa [hazards, hi] using hz
    obtain ⟨hq, hw⟩ := callbackStep_queues { s with callbackQueue := rest } b (.execution r results)
    obtain ⟨-, -, -, -, hi'⟩ := callbackStep_main { s with callbackQueue := rest } b (.execution r results)
    simp only [callbackTasks, List.append_nil] at hw
    refine Or.inl ⟨⟨fun t' hm => Or.inl (hti t' (hw ▸ hm)), by rw [hq]; exact hci, by rw [hi']; exact hfresh⟩,
      Or.inr ⟨⟨t, by rw [hw]; exact ht, htf⟩, ?_⟩⟩
    simp [callbackStep, St.disconnect, St.setHandle, St.isClosed, St.handle?, hcn, hj]

theorem doomed_of_hazard {s s' : St ρ} {l : Label ρ} (hs : Sound s) (hz : hazards s l ≠ [])
    (h : step s l = some s') : Doomed s' := by
  cases l with
  | createInstance c d => exact absurd rfl hz
  | request d sig m => exact absurd rfl hz
  | worker i o =>
    unfold hazards at hz
    split at hz
    · rename_i heq
      cases heq
      split at hz
      · rename_i r hi; exact doomed_unused hs hi h
      · exact absurd rfl hz
    · rename_i heq; cases heq
    · exact absurd rfl hz
  | callback i b => exact doomed_callback hs hz h

/-! ## Runs of one request -/

theorem lifecycle_inductive : (((lts ρ).restrict Solo).observe hazards).Inductive fun x =>
    (x.2 = [] → Sound x.1) ∧ (x.2 ≠ [] → Doomed x.1) where
  init := by
    rintro ⟨s, hs⟩ ⟨⟨c, d, rfl⟩, rfl⟩
    refine ⟨fun _ => ⟨?_, ?_, ?_, ?_, ?_, fun _ => ⟨rfl, rfl, rfl⟩⟩, fun hn => absurd rfl hn⟩
    · simp [St.active, start]
    all_goals intros; simp_all [start]
  step := by
    rintro ⟨s, hs⟩ l ⟨s', hs'⟩ ⟨h1, h2⟩ ⟨⟨hG, h⟩, rfl⟩
    simp only [List.append_eq_nil_iff, ne_eq, not_and_or]
    refine ⟨fun hn => ?_, fun hn => ?_⟩
    · obtain ⟨hn, hz⟩ := hn
      have hso := h1 hn
      cases l with
      | createInstance c d =>
        simp only [lts, LTS.ofFn, step, Option.some.injEq] at h; subst h
        exact ⟨hso.single, fun t ht => (hso.tasks t ht).congr rfl rfl,
          fun c' hc => (hso.callbacks c' hc).mono id, hso.live, hso.closed, hso.fresh⟩
      | request d sig m =>
        simp only [lts, LTS.ofFn, step, Option.some.injEq] at h; subst h
        exact sound_request hso hG
      | worker i o => exact sound_worker hso hz h
      | callback i b => exact sound_callback hso hz h
    · by_cases hne : hs = []
      · exact doomed_of_hazard (h1 hne) (hn.resolve_left fun hn => hn hne) h
      · exact doomed_step hG (h2 hne) h

theorem Sound.lifecycle {s : St ρ} (h : Sound s) : Lifecycle s := by
  refine ⟨h.live, fun hw hq => h.closed ?_⟩
  simp [St.active, hw, hq]

theorem Doomed.not_lifecycle {s : St ρ} (h : Doomed s) (hw : s.workerQueue = []) (hq : s.callbackQueue = []) :
    ¬ Lifecycle s := by
  rintro ⟨hlive, hclosed⟩
  rcases h with ⟨-, ⟨i, hi, ho⟩ | ⟨⟨t, ht, -⟩, -⟩⟩ | ⟨e, he, hn⟩
  · rw [hclosed hw hq i hi] at ho; cases ho
  · rw [hw] at ht; cases ht
  · exact hn (hlive e he)

/-- **Handle lifecycle.** In every state of a run of one request in which
`dbuse` did not fail, `connected` was `YES` and `dbfreebuf` was done before
the completion of `execute:` ran, no closed handle was used and, when both
queues are empty, every handle is closed. In every other such run this is
violated when both queues are empty. -/
theorem lifecycle_iff (s : St ρ) (hs : List Hazard)
    (h : (((lts ρ).restrict Solo).observe hazards).Reachable (s, hs)) :
    (hs = [] → Lifecycle s) ∧
      (s.workerQueue = [] → s.callbackQueue = [] → (Lifecycle s ↔ hs = [])) := by
  obtain ⟨h1, h2⟩ := lifecycle_inductive.reachable h
  refine ⟨fun hn => (h1 hn).lifecycle, fun hw hq => ⟨fun hl => ?_, fun hn => (h1 hn).lifecycle⟩⟩
  by_contra hn
  exact (h2 hn).not_lifecycle hw hq hl

/-- A query with one column and one row. -/
def fetched : List (Label Nat) :=
  [.request 1 0 (.exeQuery (ns "select 1"))] ++ connects 0 ++
  [.worker 0 .ok, .callback 0 true, .worker 0 .ok, .worker 0 .ok, .worker 0 .ok, .worker 0 (.cols 1),
   .worker 0 .ok, .worker 0 .ok, .worker 0 .ok, .worker 0 .ok, .worker 0 .ok,
   .worker 0 (.row [(ns "a", none)]), .worker 0 .done, .worker 0 .done, .worker 0 .ok, .worker 0 .ok,
   .callback 0 true]

theorem lifecycle_fetched :
    ∃ s, (((lts Nat).restrict Solo).observe hazards).Reachable (s, []) ∧
      s.handles.map (·.openedBy) = [0] ∧ Lifecycle s := by
  have hex : ∃ x, (((lts Nat).restrict Solo).observe hazards).Reachable x ∧
      x.2 = [] ∧ x.1.handles.map (·.openedBy) = [0] :=
    LTS.exists_of_execObs (start serverA 1) fetched _ ⟨_, _, rfl⟩ (by decide)
  obtain ⟨⟨s, hs⟩, hr, hn, hp⟩ := hex
  simp only at hn; subst hn
  exact ⟨s, hr, hp, (lifecycle_iff s [] hr).1 rfl⟩

/-- The completion of `execute:` closes the handle, then the worker block
calls `dbfreebuf` on it. -/
def closedEarly : List (Label Nat) :=
  [.request 1 0 (.exeQuery (ns "select 1"))] ++ connects 0 ++
  [.worker 0 .ok, .callback 0 true, .worker 0 .ok, .worker 0 .ok, .worker 0 .done, .worker 0 .ok,
   .callback 0 true, .worker 0 .ok]

theorem used_after_close : ¬ ∀ s, ((lts Nat).restrict Solo).Reachable s → Lifecycle s := by
  intro hall
  have hex : ∃ s, ((lts Nat).restrict Solo).Reachable s ∧ ¬ Lifecycle s :=
    LTS.exists_of_execG (start serverA 1) closedEarly _ ⟨_, _, rfl⟩ (by decide)
  obtain ⟨s, hr, hn⟩ := hex
  exact hn (hall s hr)

end MysqlConnection.L2.Client
