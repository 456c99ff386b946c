import MysqlConnection.L2Client.Routing

/-!
# On which handle a query runs

`SQLClient` has one `connection` and one set of saved inputs, so a second
`connect:` changes the credentials the first block is about to read and the
handle it is about to use (`wrong_server`).

When a request is only made after the blocks of the earlier ones are done
(`Waits`), at most one block or completion is `active`, and what it has done
so far can be read off the shared fields: the login record, then the handle
(`Task.Owned`). A pending `dbfreebuf` only empties a command buffer and may
run at any time.

* `ownHandle_of_waits`: in every such run each text is executed on a handle
  that its own request opened, with the credentials and the schema of the
  time it was made, and no handle is closed while the query of the request
  that opened it is still running.
-/
namespace MysqlConnection.L2.Client

variable {ρ : Type}

/-! ## The property -/

/-- A handle opened by `r`, with its credentials, switched to `db`. -/
def Handle.OpenedFor (i : Handle ρ) (r : Request ρ) (db : Option NSString) : Prop :=
  i.openedBy = r.id ∧ i.host = r.creds.host ∧
    i.login = some ⟨some r.creds.username, some r.creds.password, some r.creds.host⟩ ∧
    i.database = db ∧ i.isOpen = true

instance (i : Handle ρ) (r : Request ρ) (db : Option NSString) : Decidable (i.OpenedFor r db) := by
  unfold Handle.OpenedFor; exact inferInstance

/-- A text was executed on its own request's handle; a handle was closed by
the request that opened it, or when that request had finished. -/
def Event.onOwnHandle : Event ρ → Prop
  | .executed r _ info => info.OpenedFor r (some r.creds.schema)
  | .dbclose r _ _ owner running => owner = some r.id ∨ running = false
  | _ => True

instance : DecidablePred (Event.onOwnHandle (ρ := ρ))
  | .executed r _ info => inferInstanceAs (Decidable (info.OpenedFor r (some r.creds.schema)))
  | .dbclose r _ _ owner running =>
    inferInstanceAs (Decidable (owner = some r.id ∨ running = false))
  | .call .. | .connected .. | .finished .. | .recivedDataArray .. => isTrue trivial

def OwnHandle (s : St ρ) : Prop := ∀ e ∈ s.log, e.onOwnHandle

instance : DecidablePred (OwnHandle (ρ := ρ)) := fun s => by unfold OwnHandle; exact inferInstance

/-! ## Active blocks -/

/-- Not a cleanup call. -/
def Task.active : Task ρ → Bool
  | .connect _ _ => true
  | .execute _ _ => true
  | .dbloginfree _ => false
  | .dbfreebuf _ => false

def Callback.active : Callback ρ → Bool
  | .connectionFailure _ => false
  | .connectionSuccess _ => true
  | .execution _ _ => true

def Task.isFreebuf : Task ρ → Bool
  | .dbfreebuf _ => true
  | _ => false

def St.active (s : St ρ) : Nat :=
  s.workerQueue.countP Task.active + s.callbackQueue.countP Callback.active

/-- A request is only made when of the earlier requests nothing is pending
but `dbfreebuf` and completions of failed connections. -/
def Waits (s : St ρ) : Label ρ → Prop
  | .request _ _ _ => (∀ t ∈ s.workerQueue, t.isFreebuf = true) ∧ ∀ c ∈ s.callbackQueue, c.active = false
  | _ => True

instance (s : St ρ) : (l : Label ρ) → Decidable (Waits s l)
  | .request .. => inferInstanceAs
      (Decidable ((∀ t ∈ s.workerQueue, t.isFreebuf = true) ∧ ∀ c ∈ s.callbackQueue, c.active = false))
  | .createInstance .. | .worker .. | .callback .. => isTrue trivial

theorem Waits.idle {s : St ρ} {d : ρ} {sig : Int} {m : Method} (h : Waits s (.request d sig m)) :
    s.active = 0 := by
  have ht : s.workerQueue.countP Task.active = 0 := by
    rw [List.countP_eq_zero]
    intro t hm ha
    have := h.1 t hm
    cases t <;> simp [Task.isFreebuf, Task.active] at this ha
  have hc : s.callbackQueue.countP Callback.active = 0 := by
    rw [List.countP_eq_zero]
    intro c hm ha
    rw [h.2 c hm] at ha; cases ha
  rw [St.active, ht, hc]

theorem Moves.active {t : Task ρ} {x : Option (Task ρ)} {cs : List (Callback ρ)} (h : Moves t x cs) :
    x.toList.countP Task.active + cs.countP Callback.active ≤ [t].countP Task.active := by
  cases h <;> simp [Task.active, Callback.active]

theorem worker_active {s s' : St ρ} {i : Nat} {o : Outcome} (h : step s (.worker i o) = some s') :
    s'.active ≤ s.active := by
  obtain ⟨t, rest, s₁, x, -, hp, hw, hp', hs'⟩ := worker_inv h
  obtain ⟨-, -, cs, hm, hq⟩ := workerStep_spec hw
  have hc : s'.callbackQueue = s.callbackQueue ++ cs := by rw [hs']; exact hq
  have hle := hm.active
  simp only [St.active, hp.countP_eq, hp'.countP_eq, hc, List.countP_append]
  rw [← List.singleton_append, List.countP_append]
  omega

theorem callback_active {s s' : St ρ} {i : Nat} {b : Bool} (h : step s (.callback i b) = some s') :
    s'.active ≤ s.active := by
  obtain ⟨c, rest, -, hp, rfl⟩ := callback_inv h
  obtain ⟨hq, ht⟩ := callbackStep_queues { s with callbackQueue := rest } b c
  have hle : (callbackTasks b c).countP Task.active ≤ [c].countP Callback.active := by
    cases c <;> cases b <;> simp [callbackTasks, Callback.active, Task.active]
  simp only [St.active, hp.countP_eq, hq, ht, List.countP_append]
  rw [← List.singleton_append, List.countP_append]
  omega

/-! ## `connection` and `login` after a step -/

/-- The record `login` points to. -/
def St.login? (s : St ρ) : Option Login := s.login.bind (s.logins[·]?)

section
variable (s : St ρ)

@[simp] theorem call_handle? (f : Call) : (s.call f).handle? = s.handle? := rfl

@[simp] theorem setHandle_handle? (f : Handle ρ → Handle ρ) :
    (s.setHandle f).handle? = s.handle?.map f := by
  unfold St.setHandle
  cases hc : s.connection with
  | none => simp [St.handle?, hc]
  | some h => simp [St.handle?, hc, List.getElem?_modify]

@[simp] theorem setLogin_login? (f : Login → Login) : (s.setLogin f).login? = s.login?.map f := by
  unfold St.setLogin
  cases hl : s.login with
  | none => simp [St.login?, hl]
  | some l => simp [St.login?, hl, List.getElem?_modify]

theorem dbopen_handle? (r : Request ρ) :
    (s.dbopen r).handle? = some ⟨r.id, s.input.host, s.login?, none, [], false, true⟩ := by
  simp [St.dbopen, St.handle?, St.login?]

@[simp] theorem sendBuffer_handle? :
    s.sendBuffer.handle? = s.handle?.map fun i => { i with sent := true } := by
  unfold St.sendBuffer
  split
  · rename_i h info hc hi
    split
    · rename_i hs; rw [hi]; cases info; simp_all
    · rw [setHandle_handle?]; rfl
  · rename_i hn
    cases hi : s.handle? with
    | none => rfl
    | some info =>
      cases hc : s.connection with
      | none => simp [St.handle?, hc] at hi
      | some h => exact absurd hi (hn h info hc)

end

/-! ## What the active block has done so far -/

/-- `connection` points to an open handle of `r`, with no text but its own in
the buffer. -/
def St.Holds (s : St ρ) (r : Request ρ) (db : Option NSString) : Prop :=
  ∃ i, s.handle? = some i ∧ i.OpenedFor r db ∧ ∀ x ∈ i.buffer, x = r

def ConnectPc.Owned (s : St ρ) (r : Request ρ) : ConnectPc → Prop
  | .dblogin => True
  | .setUser => ∃ l, s.login? = some l
  | .setPwd => ∃ l, s.login? = some l ∧ l.user = some r.creds.username
  | .setHost => ∃ l, s.login? = some l ∧ l.user = some r.creds.username ∧ l.pwd = some r.creds.password
  | .dbopen => s.login? = some ⟨some r.creds.username, some r.creds.password, some r.creds.host⟩
  | .dbuse => s.Holds r none
  | .success => s.Holds r (some r.creds.schema)
  | .failure => True

def Task.Owned (s : St ρ) : Task ρ → Prop
  | .connect r pc => s.input = r.creds ∧ pc.Owned s r
  | .execute r _ => s.Holds r (some r.creds.schema)
  | .dbloginfree _ => True
  | .dbfreebuf _ => True

def Callback.Owned (s : St ρ) : Callback ρ → Prop
  | .connectionSuccess r => s.Holds r (some r.creds.schema)
  | _ => True

theorem St.Holds.of_handle? {s s' : St ρ} {r : Request ρ} {db : Option NSString} (h : s.Holds r db)
    (he : s'.handle? = s.handle?) : s'.Holds r db := by
  obtain ⟨i, hi, ho, hb⟩ := h
  exact ⟨i, he.trans hi, ho, hb⟩

theorem Task.owned_of_inactive {t : Task ρ} (h : t.active = false) (s : St ρ) : t.Owned s := by
  cases t <;> simp [Task.active] at h <;> trivial

theorem Callback.owned_of_inactive {c : Callback ρ} (h : c.active = false) (s : St ρ) : c.Owned s := by
  cases c <;> simp [Callback.active] at h; trivial

def OwnedAfter (s s' : St ρ) : Option (Task ρ) → Prop := After (·.Owned s') (·.Owned s') s s'

theorem connectStep_owned {s s' : St ρ} {r : Request ρ} {pc : ConnectPc} {o : Outcome}
    {x : Option (Task ρ)} (h : connectStep s r pc o = some (s', x)) (hin : s.input = r.creds)
    (ho : pc.Owned s r) : OwnedAfter s s' x := by
  have hin' : s'.input = r.creds := (connectStep_spec h).1.input.trans hin
  cases pc <;> cases o <;> simp only [connectStep, Option.some.injEq, Prod.mk.injEq, reduceCtorEq] at h <;>
    obtain ⟨rfl, rfl⟩ := h
  case dblogin.ok => exact .silent ⟨hin', _, by simp [St.login?]; rfl⟩ rfl
  case dblogin.fail | dbopen.fail => exact .silent ⟨hin', trivial⟩ rfl
  case setUser.ok =>
    obtain ⟨l, hl⟩ := ho
    have hl' := setLogin_login? s fun l => { l with user := some s.input.username }
    rw [hl] at hl'
    exact .silent ⟨hin', _, hl', by rw [← hin]⟩ (by simp)
  case setPwd.ok =>
    obtain ⟨l, hl, hu⟩ := ho
    have hl' := setLogin_login? s fun l => { l with pwd := some s.input.password }
    rw [hl] at hl'
    exact .silent ⟨hin', _, hl', hu, by rw [← hin]⟩ (by simp)
  case setHost.ok =>
    obtain ⟨l, hl, hu, hp⟩ := ho
    have hl' := setLogin_login? s fun l => { l with lhost := some s.input.host }
    rw [hl] at hl'
    refine .silent ⟨hin', hl'.trans ?_⟩ (by simp)
    rw [← hu, ← hp, ← hin]; rfl
  case dbopen.ok =>
    exact .silent ⟨hin', _, dbopen_handle? s r, ⟨rfl, by rw [hin], ho, rfl, rfl⟩, by simp⟩ rfl
  case dbuse.ok =>
    obtain ⟨i, hi, ⟨h1, h2, h3, -, h5⟩, hb⟩ := ho
    have hi' := setHandle_handle? (s.call .dbuse) fun h => { h with database := some s.input.schema }
    rw [call_handle?, hi] at hi'
    exact .silent ⟨hin', _, hi', ⟨h1, h2, h3, by rw [← hin], h5⟩, hb⟩ (by simp)
  case dbuse.fail => exact .silent ⟨hin', trivial⟩ rfl
  case failure.ok => exact .enqueue trivial rfl trivial
  case success.ok => exact .enqueue trivial rfl ho

theorem Handle.addText_openedFor {i : Handle ρ} {r : Request ρ} {db : Option NSString}
    (h : i.OpenedFor r db ∧ ∀ x ∈ i.buffer, x = r) :
    (i.addText r).OpenedFor r db ∧ ∀ x ∈ (i.addText r).buffer, x = r := by
  obtain ⟨ho, hb⟩ := h
  unfold Handle.addText
  split
  · exact ⟨ho, by simp⟩
  · refine ⟨ho, fun x hx => ?_⟩
    rcases List.mem_append.mp hx with hx | hx
    · exact hb x hx
    · exact List.mem_singleton.mp hx

theorem executeStep_owned {s s' : St ρ} {r : Request ρ} {pc : ExecutePc} {o : Outcome}
    {x : Option (Task ρ)} (h : executeStep s r pc o = some (s', x))
    (ho : s.Holds r (some r.creds.schema)) : OwnedAfter s s' x := by
  unfold executeStep at h
  split at h
  case h_1 =>
    cases h
    obtain ⟨i, hi, hio⟩ := ho
    have hi' := setHandle_handle? (s.call .dbcmd) (Handle.addText r)
    rw [call_handle?, hi] at hi'
    exact .silent ⟨_, hi', Handle.addText_openedFor hio⟩ (by simp)
  case h_2 | h_3 =>
    cases h
    obtain ⟨i, hi, hio, hb⟩ := ho
    have hi' := sendBuffer_handle? (s.call .dbsqlexec)
    rw [call_handle?, hi] at hi'
    exact .silent ⟨_, hi', hio, hb⟩ (by simp)
  case h_21 => cases h; exact .enqueue trivial rfl trivial
  case h_22 => cases h
  all_goals cases h; exact .silent (ho.of_handle? rfl) rfl

/-- A text executed in a step from a state where `r` holds the handle is `r`'s. -/
theorem Event.MadeIn.onOwnHandle {s : St ρ} {r : Request ρ} (ho : s.Holds r (some r.creds.schema))
    {e : Event ρ} (h : e.MadeIn s) : e.onOwnHandle := by
  cases e with
  | executed r' h' i' =>
    obtain ⟨i, hi, hio, hb⟩ := ho
    obtain ⟨-, hi', hr⟩ := h
    rw [hi] at hi'; cases hi'
    rw [hb r' hr]; exact hio
  | _ => trivial

/-! ## One active block at a time -/

theorem all_inactive {ts : List (Task ρ)} {cs : List (Callback ρ)}
    (h : ts.countP Task.active + cs.countP Callback.active = 0) :
    (∀ t ∈ ts, t.active = false) ∧ ∀ c ∈ cs, c.active = false := by
  have ht : ts.countP Task.active = 0 := by omega
  have hc : cs.countP Callback.active = 0 := by omega
  rw [List.countP_eq_zero] at ht hc
  exact ⟨fun t hm => by simpa using ht t hm, fun c hm => by simpa using hc c hm⟩

/-- Without an active block no query is running. -/
theorem running_eq_false {s : St ρ} (h : s.active = 0) (k : Nat) : s.running k = false := by
  obtain ⟨ht, hc⟩ := all_inactive h
  simp only [St.running, Bool.or_eq_false_iff, List.any_eq_false]
  refine ⟨fun t hm => ?_, fun c hm => ?_⟩
  · have := ht t hm
    cases t <;> simp [Task.active, Task.unfinished] at this ⊢
  · have := hc c hm
    cases c <;> simp [Callback.active, Callback.unfinished] at this ⊢

structure Exclusive (s : St ρ) : Prop where
  single : s.active ≤ 1
  tasks : ∀ t ∈ s.workerQueue, t.Owned s
  callbacks : ∀ c ∈ s.callbackQueue, c.Owned s
  log : OwnHandle s

/-- An active block is moved: everything else in the queues is inactive. -/
theorem workerStep_owned {s s' : St ρ} {t : Task ρ} {o : Outcome} {x : Option (Task ρ)}
    (ha : t.active = true) (h : workerStep s t o = some (s', x)) (ho : t.Owned s) :
    OwnedAfter s s' x ∧ ∀ e ∈ s'.log, e ∈ s.log ∨ e.onOwnHandle := by
  cases t with
  | connect r pc =>
    refine ⟨connectStep_owned h ho.1 ho.2, fun e he => ?_⟩
    have hl : s'.log = s.log ∨ s'.log = (s.call .dbuse).log := by
      cases pc <;> cases o <;>
        simp only [workerStep, connectStep, Option.some.injEq, Prod.mk.injEq, reduceCtorEq] at h <;>
        obtain ⟨rfl, rfl⟩ := h <;> simp [St.dbopen]
    rcases hl with hl | hl <;> rw [hl] at he
    · exact Or.inl he
    · rw [call_log, List.mem_append, List.mem_singleton] at he
      rcases he with he | rfl
      · exact Or.inl he
      · exact Or.inr trivial
  | execute r pc =>
    refine ⟨executeStep_owned h ho, fun e he => ?_⟩
    obtain ⟨es, hl, hm⟩ := (executeStep_spec h).2.1
    rw [hl, List.mem_append] at he
    rcases he with he | he
    · exact Or.inl he
    · exact Or.inr ((hm e he).onOwnHandle ho)
  | dbloginfree r => cases ha
  | dbfreebuf r => cases ha

/-- The saved inputs, the login record and the handle, its buffer apart, are
those of `s`; the buffer was emptied at most. -/
structure Undisturbed (s s' : St ρ) : Prop where
  input : s'.input = s.input
  login : s'.login? = s.login?
  holds : ∀ r db, s.Holds r db → s'.Holds r db

theorem Undisturbed.of_eq {s s' : St ρ} (hin : s'.input = s.input) (hl : s'.login? = s.login?)
    (hh : s'.handle? = s.handle?) : Undisturbed s s' :=
  ⟨hin, hl, fun _ _ h => h.of_handle? hh⟩

theorem Undisturbed.task {s s' : St ρ} (h : Undisturbed s s') {t : Task ρ} (ho : t.Owned s) :
    t.Owned s' := by
  cases t with
  | connect r pc =>
    refine ⟨h.input.trans ho.1, ?_⟩
    have hpc := ho.2
    cases pc <;> simp only [ConnectPc.Owned, h.login] at hpc ⊢ <;>
      first | exact hpc | exact h.holds _ _ hpc
  | execute r pc => exact h.holds _ _ ho
  | dbloginfree r => trivial
  | dbfreebuf r => trivial

theorem Undisturbed.callback {s s' : St ρ} (h : Undisturbed s s') {c : Callback ρ} (ho : c.Owned s) :
    c.Owned s' := by
  cases c with
  | connectionSuccess r => exact h.holds _ _ ho
  | connectionFailure r => trivial
  | execution r results => trivial

/-- A cleanup call. -/
theorem cleanup_undisturbed {s s' : St ρ} {t : Task ρ} {o : Outcome} {x : Option (Task ρ)}
    (ha : t.active = false) (h : workerStep s t o = some (s', x)) :
    x = none ∧ Undisturbed s s' ∧ s'.callbackQueue = s.callbackQueue ∧
      ∀ e ∈ s'.log, e ∈ s.log ∨ e.onOwnHandle := by
  cases t <;> simp only [Task.active, reduceCtorEq] at ha <;> cases o <;>
    simp only [workerStep, Option.some.injEq, Prod.mk.injEq, reduceCtorEq] at h <;>
    obtain ⟨rfl, rfl⟩ := h
  case dbloginfree => exact ⟨rfl, .of_eq rfl rfl rfl, rfl, fun e he => Or.inl he⟩
  case dbfreebuf =>
    have hf := setHandle_frame (s.call .dbfreebuf) Handle.freeBuffer
    refine ⟨rfl, ⟨hf.input, ?_, ?_⟩, by simp, fun e he => ?_⟩
    · unfold St.setHandle; split <;> rfl
    · rintro r db ⟨i, hi, ho, -⟩
      have hi' := setHandle_handle? (s.call .dbfreebuf) Handle.freeBuffer
      rw [call_handle?, hi] at hi'
      exact ⟨_, hi', ho, by simp [Handle.freeBuffer]⟩
    · rw [setHandle_log, call_log, List.mem_append, List.mem_singleton] at he
      rcases he with he | rfl
      · exact Or.inl he
      · exact Or.inr trivial

theorem exclusive_worker {s s' : St ρ} {i : Nat} {o : Outcome} (he : Exclusive s)
    (h : step s (.worker i o) = some s') : Exclusive s' := by
  obtain ⟨hone, htask, hcb, hlog⟩ := he
  have hone' : s'.active ≤ 1 := by have := worker_active h; omega
  obtain ⟨t, rest, s₁, x, -, hp, hw, hp', hs'⟩ := worker_inv h
  have ht : t.Owned s := htask t (hp.mem_iff.2 List.mem_cons_self)
  have hrest : ∀ t' ∈ rest, t'.Owned s := fun t' hm => htask t' (hp.mem_iff.2 (List.mem_cons_of_mem _ hm))
  have hu : Undisturbed s₁ s' := by rw [hs']; exact .of_eq rfl rfl rfl
  have hq' : s'.callbackQueue = s₁.callbackQueue := by rw [hs']
  have hl' : s'.log = s₁.log := by rw [hs']
  cases ha : t.active with
  | true =>
    obtain ⟨⟨hx, hc⟩, hl⟩ := workerStep_owned ha hw ht
    have hzero : rest.countP Task.active + s.callbackQueue.countP Callback.active = 0 := by
      rw [St.active, hp.countP_eq, List.countP_cons, ha] at hone
      simp only [if_true] at hone
      omega
    obtain ⟨hri, hci⟩ := all_inactive hzero
    refine ⟨hone', fun t' hm => ?_, fun c hm => ?_, fun e hm => ?_⟩
    · rw [hp'.mem_iff, List.mem_append, Option.mem_toList] at hm
      rcases hm with hm | hm
      · exact hu.task (hx t' hm)
      · exact Task.owned_of_inactive (hri t' hm) s'
    · rcases hc c (hq' ▸ hm) with hm | ho
      · exact Callback.owned_of_inactive (hci c hm) s'
      · exact hu.callback ho
    · exact (hl e (hl' ▸ hm)).elim (hlog e) id
  | false =>
    obtain ⟨rfl, hd, hq, hl⟩ := cleanup_undisturbed ha hw
    refine ⟨hone', fun t' hm => ?_, fun c hm => ?_, fun e hm => ?_⟩
    · exact hu.task (hd.task (hrest t' (hp'.mem_iff.1 hm)))
    · exact hu.callback (hd.callback (hcb c (hq ▸ hq' ▸ hm)))
    · exact (hl e (hl' ▸ hm)).elim (hlog e) id

/-- A completion that runs while nothing else is active. -/
theorem callbackEvents_onOwnHandle {s : St ρ} (h : s.active = 0) (b : Bool) (c : Callback ρ) :
    ∀ e ∈ callbackEvents s b c, e.onOwnHandle := by
  intro e he
  cases c with
  | connectionFailure r => rw [callbackEvents, List.mem_singleton] at he; subst he; trivial
  | connectionSuccess r =>
    simp only [callbackEvents, List.mem_cons, List.not_mem_nil, or_false] at he
    rcases he with rfl | rfl <;> trivial
  | execution r results =>
    simp only [callbackEvents, List.mem_cons, List.not_mem_nil, or_false] at he
    rcases he with rfl | rfl | rfl
    · right
      cases s.handle? with
      | none => rfl
      | some i => exact running_eq_false h i.openedBy
    · trivial
    · trivial

theorem exclusive_callback {s s' : St ρ} {i : Nat} {b : Bool} (he : Exclusive s)
    (h : step s (.callback i b) = some s') : Exclusive s' := by
  obtain ⟨hone, htask, hcb, hlog⟩ := he
  have hone' : s'.active ≤ 1 := by have := callback_active h; omega
  obtain ⟨c, rest, -, hp, rfl⟩ := callback_inv h
  obtain ⟨hq, ht⟩ := callbackStep_queues { s with callbackQueue := rest } b c
  have hc : c.Owned s := hcb c (hp.mem_iff.2 List.mem_cons_self)
  have hrest : ∀ c' ∈ rest, c'.Owned s := fun c' hm => hcb c' (hp.mem_iff.2 (List.mem_cons_of_mem _ hm))
  cases ha : c.active with
  | true =>
    have hzero : s.workerQueue.countP Task.active + rest.countP Callback.active = 0 := by
      rw [St.active, hp.countP_eq, List.countP_cons, ha] at hone
      simp only [if_true] at hone
      omega
    obtain ⟨hti, hci⟩ := all_inactive hzero
    refine ⟨hone', fun t hm => ?_, fun c' hm => ?_, fun e hm => ?_⟩
    · rw [ht, List.mem_append] at hm
      rcases hm with hm | hm
      · exact Task.owned_of_inactive (hti t hm) _
      · cases c <;> cases b <;> simp [callbackTasks] at hm
        subst hm
        exact St.Holds.of_handle? hc rfl
    · rw [hq] at hm; exact Callback.owned_of_inactive (hci c' hm) _
    · rw [callbackStep_log, List.mem_append] at hm
      rcases hm with hm | hm
      · exact hlog e hm
      · exact callbackEvents_onOwnHandle (s := { s with callbackQueue := rest }) hzero b c e hm
  | false =>
    cases c <;> simp only [Callback.active, reduceCtorEq] at ha
    rename_i r
    have hd : Undisturbed s (callbackStep { s with callbackQueue := rest } b (.connectionFailure r)) :=
      .of_eq rfl rfl rfl
    refine ⟨hone', fun t hm => hd.task (htask t hm), fun c' hm => hd.callback (hrest c' hm), fun e hm => ?_⟩
    rw [callbackStep_log, List.mem_append] at hm
    rcases hm with hm | hm
    · exact hlog e hm
    · rw [callbackEvents, List.mem_singleton] at hm; subst hm; trivial

theorem exclusive_request {s : St ρ} {d : ρ} {sig : Int} {m : Method} (hG : Waits s (.request d sig m))
    (he : Exclusive s) : Exclusive (request s d sig m) := by
  have hzero := hG.idle
  obtain ⟨hti, hci⟩ := all_inactive hzero
  refine ⟨?_, fun t hm => ?_, fun c hm => Callback.owned_of_inactive (hci c hm) _, he.log⟩
  · simp only [St.active, request, List.countP_append, List.countP_singleton, Task.active, if_true] at hzero ⊢
    omega
  · simp only [request, List.mem_append, List.mem_singleton] at hm
    rcases hm with hm | rfl
    · exact Task.owned_of_inactive (hti t hm) _
    · exact ⟨rfl, trivial⟩

theorem exclusive_inductive : ((lts ρ).restrict Waits).Inductive Exclusive where
  init := by
    rintro s ⟨c, d, rfl⟩
    exact ⟨by simp [St.active, start], by simp [start], by simp [start], by simp [OwnHandle, start]⟩
  step := by
    rintro s l s' he ⟨hG, h⟩
    cases l with
    | createInstance c d =>
      simp only [lts, LTS.ofFn, step, Option.some.injEq] at h; subst h
      have hd : Undisturbed s { s with creds := c, delegate := d } := .of_eq rfl rfl rfl
      exact ⟨he.single, fun t hm => hd.task (he.tasks t hm), fun c' hm => hd.callback (he.callbacks c' hm),
        he.log⟩
    | request d sig m =>
      simp only [lts, LTS.ofFn, step, Option.some.injEq] at h; subst h
      exact exclusive_request hG he
    | worker i o => exact exclusive_worker he h
    | callback i b => exact exclusive_callback he h

/-- **Own handle.** In every run whose requests wait for the earlier ones, a
text is only executed on a handle that its own request opened with the
credentials of the time it was made, and no handle is closed by another
request while its query is running. -/
theorem ownHandle_of_waits (s : St ρ) (h : ((lts ρ).restrict Waits).Reachable s) : OwnHandle s :=
  (exclusive_inductive.reachable h).log

def serverA : Creds := ⟨ns "a", ns "sa", ns "1", ns "sales"⟩

def serverB : Creds := ⟨ns "b", ns "sb", ns "2", ns "hr"⟩

/-- The requests whose text was executed. -/
def Event.executes : Event ρ → Option Nat
  | .executed r _ _ => some r.id
  | _ => none

/-- The second request, to another server, is made when the `dbfreebuf` of
the first is still pending. -/
def switched : List (Label Nat) :=
  [.request 1 0 (.exeQuery (ns "select 1"))] ++ connects 0 ++
  [.worker 0 .ok, .callback 0 true, .worker 0 .ok, .worker 0 .ok, .worker 0 .done, .worker 0 .ok,
   .callback 0 true, .createInstance serverB 2, .request 2 0 (.exeQuery (ns "select 2"))] ++ connects 1 ++
  [.worker 0 .ok, .worker 0 .ok, .callback 0 true, .worker 0 .ok, .worker 0 .ok]

theorem ownHandle_switched :
    ∃ s, ((lts Nat).restrict Waits).Reachable s ∧ s.log.filterMap Event.executes = [0, 1] ∧ OwnHandle s := by
  have hex : ∃ s, ((lts Nat).restrict Waits).Reachable s ∧ s.log.filterMap Event.executes = [0, 1] :=
    LTS.exists_of_execG (start serverA 1) switched _ ⟨_, _, rfl⟩ (by decide)
  obtain ⟨s, hr, hp⟩ := hex
  exact ⟨s, hr, hp, ownHandle_of_waits s hr⟩

/-- The first request has connected to server A; before its text is sent, a
second one connects to server B. -/
def overtaken : List (Label Nat) :=
  [.request 1 0 (.exeQuery (ns "select 1"))] ++ connects 0 ++
  [.callback 0 true, .createInstance serverB 2, .request 2 0 (.exeQuery (ns "select 2"))] ++ connects 2 ++
  [.worker 1 .ok, .worker 1 .ok]

/-- The text of the first request is executed on server B. -/
theorem wrong_server : ¬ ∀ s, (lts Nat).Reachable s → OwnHandle s := by
  intro hall
  have hex : ∃ s, (lts Nat).Reachable s ∧ ¬ OwnHandle s :=
    LTS.exists_of_exec (start serverA 1) overtaken _ ⟨_, _, rfl⟩ (by decide)
  obtain ⟨s, hr, hn⟩ := hex
  exact hn (hall s hr)

end MysqlConnection.L2.Client
